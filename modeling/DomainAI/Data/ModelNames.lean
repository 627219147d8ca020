import DomainAI.Data.ModelStorage

/-!
# Names of model files

A name comes from wherever a file was picked.  What becomes of it is resolved against
the directory of model files, and compared with the names of temp files.
-/

namespace DomainAI
namespace ModelStorage

/-!
# Paths
-/

def components : Text -> List Text
  | [] => [[]]
  | c :: rest =>
      if c = '/' then [] :: components rest
      else
        match components rest with
        | [] => [[c]]
        | first :: others => (c :: first) :: others

def descend (directory : List Text) (component : Text) : List Text :=
  if component = [] ∨ component = ".".toList then directory
  else if component = "..".toList then directory.dropLast
  else directory ++ [component]

/-- Where a relative path leads. -/
def resolve (directory : List Text) (path : Text) : List Text :=
  (components path).foldl descend directory

/-- Neither the directory itself nor anything outside it, nor further down. -/
def IsChild (directory path : List Text) : Prop :=
  exists component, path = directory ++ [component]

def Contained (name : Text) : Prop :=
  forall directory, IsChild directory (resolve directory (fileFor name)) ∧
    IsChild directory (resolve directory (tempFor name))

theorem components_of_notMem {path : Text} (h : '/' ∉ path) : components path = [path] := by
  induction path with
  | nil => rfl
  | cons c rest ih =>
      rw [List.mem_cons, not_or] at h
      rw [components, if_neg (Ne.symm h.left), ih h.right]

theorem slash_notMem_sanitized (name : Text) : '/' ∉ sanitized name := by
  intro h
  have hsafe := (sanitized_safe name).right '/' h
  rw [not_isSafe_slash] at hsafe
  cases hsafe

theorem slash_notMem_tempFor (name : Text) : '/' ∉ tempFor name := by
  rw [tempFor, List.mem_append, not_or]
  exact ⟨slash_notMem_sanitized name, by decide⟩

theorem isChild_resolve {path : Text} (hslash : '/' ∉ path) (hne : path ≠ []) :
    (forall directory, IsChild directory (resolve directory path)) <->
      path ≠ ".".toList ∧ path ≠ "..".toList := by
  simp only [resolve, components_of_notMem hslash, List.foldl_cons, List.foldl_nil, descend]
  constructor
  · intro h
    constructor
    · rintro rfl
      rcases h [] with ⟨component, hcomponent⟩
      cases hcomponent
    · rintro rfl
      rcases h [] with ⟨component, hcomponent⟩
      cases hcomponent
  · intro h directory
    rw [if_neg (by rw [not_or]; exact ⟨hne, h.left⟩), if_neg h.right]
    exact ⟨path, rfl⟩

/-!
# The last part of a name
-/

def safe (c : Char) : Char :=
  if isSafe c then c else '_'

theorem sanitized_eq (name : Text) :
    sanitized name =
      (if Text.isBlank (substringAfterLast '/' name) then "model.gguf".toList
        else substringAfterLast '/' name).map safe := rfl

theorem eq_of_safe {c d : Char} (h : safe c = d) (hd : d ≠ '_') : c = d := by
  rw [safe] at h
  split at h
  · exact h
  · exact absurd h.symm hd

theorem eq_of_map_safe {t u : Text} (h : t.map safe = u) (hu : '_' ∉ u) : t = u := by
  induction t generalizing u with
  | nil => exact h
  | cons c t ih =>
      subst h
      rw [List.map_cons, List.mem_cons, not_or] at hu
      rw [List.map_cons, <- ih rfl hu.right, <- eq_of_safe rfl (Ne.symm hu.left)]

theorem sanitized_eq_dots {name t : Text} (ht : t = ".".toList ∨ t = "..".toList) :
    sanitized name = t <-> substringAfterLast '/' name = t := by
  have hfixed : Text.isBlank t = false ∧ t.map safe = t ∧ '_' ∉ t ∧
      t ≠ "model.gguf".toList := by
    rcases ht with rfl | rfl <;> decide
  rcases hfixed with ⟨hblank, hsafe, hunderscore, hdefault⟩
  constructor
  · intro h
    rw [sanitized_eq] at h
    have hbase := eq_of_map_safe h hunderscore
    split at hbase
    · exact absurd hbase.symm hdefault
    · exact hbase
  · intro h
    rw [sanitized_eq, h, hblank, if_neg Bool.false_ne_true]
    exact hsafe

theorem not_isBlank_append_part (stem : Text) :
    Text.isBlank (stem ++ ".part".toList) = false := by
  rw [Text.isBlank, List.all_append, Bool.and_eq_false_iff]
  exact Or.inr (by decide)

theorem sanitized_part {name : Text} :
    (exists stem, stem ≠ [] ∧ sanitized name = stem ++ ".part".toList) <->
      exists stem, stem ≠ [] ∧ substringAfterLast '/' name = stem ++ ".part".toList := by
  constructor
  · rintro ⟨stem, hstem, h⟩
    rw [sanitized_eq] at h
    rcases List.map_eq_append_iff.mp h with ⟨before, after, hbase, hbefore, hafter⟩
    rw [eq_of_map_safe hafter (by decide)] at hbase
    split at hbase
    · have hsuffix : ".part".toList.isSuffixOf "model.gguf".toList = true := by
        rw [hbase]
        exact List.isSuffixOf_iff_suffix.mpr (List.suffix_append before _)
      exact absurd hsuffix (by decide)
    · refine ⟨before, ?_, hbase⟩
      rintro rfl
      exact hstem hbefore.symm
  · rintro ⟨stem, hstem, h⟩
    refine ⟨stem.map safe, by simpa using hstem, ?_⟩
    rw [sanitized_eq, h, not_isBlank_append_part, if_neg Bool.false_ne_true, List.map_append]
    rfl

theorem tempFor_ne_iff {name : Text} :
    (forall other, tempFor other ≠ fileFor name) <->
      ¬ exists stem, stem ≠ [] ∧ sanitized name = stem ++ ".part".toList := by
  constructor
  · rintro h ⟨stem, hstem, hname⟩
    apply h stem
    have hsafe : forall c, c ∈ stem -> isSafe c = true := by
      intro c hc
      apply (sanitized_safe name).right c
      rw [hname]
      exact List.mem_append_left _ hc
    rw [tempFor, sanitized_of_safe hstem hsafe, fileFor, hname]
  · intro h other hother
    exact h ⟨sanitized other, (sanitized_safe other).left, hother.symm⟩

theorem contained_iff {name : Text} :
    Contained name <-> sanitized name ≠ ".".toList ∧ sanitized name ≠ "..".toList := by
  have htemp : tempFor name ≠ ".".toList ∧ tempFor name ≠ "..".toList := by
    constructor
    · intro h
      have hlength := congrArg List.length h
      simp [tempFor] at hlength
    · intro h
      have hlength := congrArg List.length h
      simp [tempFor] at hlength
  have hchild := (isChild_resolve (slash_notMem_tempFor name) (by simp [tempFor])).mpr htemp
  rw [<- isChild_resolve (slash_notMem_sanitized name) (sanitized_safe name).left]
  exact ⟨fun h directory => (h directory).left,
    fun h directory => ⟨h directory, hchild directory⟩⟩

/-- The files of a name are in the directory, its model is no temp file, and it is
sanitized once and for all, just when its last part is none of these: a dot, two dots,
or something with the ending of a temp file. -/
theorem model_names (name : Text) :
    (Contained name ∧ (forall other, tempFor other ≠ fileFor name) ∧
      fileFor (fileFor name) = fileFor name) <->
    substringAfterLast '/' name ≠ ".".toList ∧ substringAfterLast '/' name ≠ "..".toList ∧
      ¬ exists stem, stem ≠ [] ∧ substringAfterLast '/' name = stem ++ ".part".toList := by
  rw [contained_iff, tempFor_ne_iff, sanitized_part, ne_eq, ne_eq,
    sanitized_eq_dots (Or.inl rfl), sanitized_eq_dots (Or.inr rfl)]
  constructor
  · rintro ⟨⟨hdot, hdots⟩, hpart, _⟩
    exact ⟨hdot, hdots, hpart⟩
  · rintro ⟨hdot, hdots, hpart⟩
    exact ⟨⟨hdot, hdots⟩, hpart, fileFor_fileFor name⟩

/-- Two dots are the directory above, one is the directory itself, and a model can have
the name of a temp file. -/
theorem model_names_fails :
    resolve ["files".toList, "models".toList] (fileFor "..".toList) = ["files".toList] ∧
      resolve ["files".toList, "models".toList] (fileFor ".".toList) =
        ["files".toList, "models".toList] ∧
      ¬ Contained "..".toList ∧ tempFor "m".toList = fileFor "m.part".toList := by
  refine ⟨by decide, by decide, ?_, by decide⟩
  intro h
  rcases (h []).left with ⟨component, hcomponent⟩
  cases hcomponent

end ModelStorage
end DomainAI
