import DomainAI.Data.Text
import Mathlib.Data.List.TakeWhile

/-!
# ModelStorage and ModelStore

The directory of model files, and the pointer to the active one.  A file of the
directory is known by its name, also where the source hands on its path.
-/

namespace DomainAI

abbrev Bytes := List UInt8

inductive ModelSource where
  | DOWNLOAD
  | IMPORT
  deriving DecidableEq, Repr

structure ModelDescriptor where
  fileName : Text
  displayName : Text
  source : ModelSource
  sizeBytes : Nat
  deriving DecidableEq, Repr

namespace ModelStorage

/-!
# Names
-/

/-- `[A-Za-z0-9._-]`. -/
def isSafe (c : Char) : Bool :=
  ('A' ≤ c && c ≤ 'Z') || ('a' ≤ c && c ≤ 'z') || ('0' ≤ c && c ≤ '9') ||
    c == '.' || c == '_' || c == '-'

/-- `substringAfterLast`: the whole text when there is no separator. -/
def substringAfterLast (separator : Char) (t : Text) : Text :=
  (t.reverse.takeWhile (fun c => c != separator)).reverse

def sanitized (name : Text) : Text :=
  let base := substringAfterLast '/' name
  let base := if Text.isBlank base then "model.gguf".toList else base
  base.map fun c => if isSafe c then c else '_'

def fileFor (name : Text) : Text :=
  sanitized name

theorem substringAfterLast_of_notMem {separator : Char} {t : Text}
    (h : separator ∉ t) : substringAfterLast separator t = t := by
  have htake : t.reverse.takeWhile (fun c => c != separator) = t.reverse := by
    rw [List.takeWhile_eq_self_iff]
    intro c hc
    rw [bne_iff_ne]
    intro heq
    subst heq
    exact h (List.mem_reverse.mp hc)
  rw [substringAfterLast, htake, List.reverse_reverse]

theorem isSafe_underscore : isSafe '_' = true := by
  decide

theorem not_isSafe_slash : isSafe '/' = false := by
  decide

theorem not_isWhitespace_of_isSafe {c : Char} (hc : isSafe c = true) :
    Text.isWhitespace c = false := by
  have hrange : 0x2D ≤ c.toNat ∧ c.toNat ≤ 0x7A := by
    simp only [isSafe, Bool.or_eq_true, Bool.and_eq_true, decide_eq_true_eq,
      beq_iff_eq, Char.le_def, UInt32.le_iff_toNat_le] at hc
    rcases hc with ((((hc | hc) | hc) | rfl) | rfl) | rfl
    · exact ⟨Nat.le_trans (by decide) hc.left, Nat.le_trans hc.right (by decide)⟩
    · exact ⟨Nat.le_trans (by decide) hc.left, hc.right⟩
    · exact ⟨Nat.le_trans (by decide) hc.left, Nat.le_trans hc.right (by decide)⟩
    · decide
    · decide
    · decide
  simp only [Text.isWhitespace, Bool.or_eq_false_iff, Bool.and_eq_false_iff,
    decide_eq_false_iff_not, beq_eq_false_iff_ne]
  omega

theorem sanitized_safe (name : Text) :
    sanitized name ≠ [] ∧ forall c, c ∈ sanitized name -> isSafe c = true := by
  constructor
  · simp only [sanitized, ne_eq, List.map_eq_nil_iff]
    split
    · decide
    · rename_i hblank
      intro hnil
      rw [hnil] at hblank
      exact hblank rfl
  · intro c hc
    rcases List.mem_map.mp hc with ⟨d, _, rfl⟩
    split
    · assumption
    · exact isSafe_underscore

theorem sanitized_of_safe {name : Text} (hname : name ≠ [])
    (hsafe : forall c, c ∈ name -> isSafe c = true) : sanitized name = name := by
  have hslash : '/' ∉ name := by
    intro h
    exact absurd (hsafe _ h) (by rw [not_isSafe_slash]; exact Bool.false_ne_true)
  have hblank : Text.isBlank name = false := by
    rcases List.exists_mem_of_ne_nil name hname with ⟨c, hc⟩
    rw [Text.isBlank, List.all_eq_false]
    exact ⟨c, hc, by rw [not_isWhitespace_of_isSafe (hsafe c hc)]; simp⟩
  rw [sanitized, substringAfterLast_of_notMem hslash, hblank]
  simp only [Bool.false_eq_true, if_false]
  calc name.map (fun c => if isSafe c then c else '_')
      = name.map id := List.map_congr_left fun c hc => if_pos (hsafe c hc)
    _ = name := List.map_id name

theorem fileFor_fileFor (name : Text) : fileFor (fileFor name) = fileFor name :=
  sanitized_of_safe (sanitized_safe name).left (sanitized_safe name).right

def tempFor (name : Text) : Text :=
  sanitized name ++ ".part".toList

theorem tempFor_ne_fileFor (name : Text) : tempFor name ≠ fileFor name := by
  intro h
  have hlength := congrArg List.length h
  simp [tempFor, fileFor] at hlength

/-!
# The directory
-/

/-- The files of the directory; no name occurs twice. -/
abbrev Directory := List (Text × Bytes)

namespace Directory

def read (d : Directory) (name : Text) : Option Bytes :=
  (d.find? fun file => file.1 = name).map Prod.snd

def present (d : Directory) (name : Text) : Bool :=
  (d.read name).isSome

/-- `File.length`: 0 for a file that does not exist. -/
def length (d : Directory) (name : Text) : Nat :=
  ((d.read name).getD []).length

def delete (name : Text) (d : Directory) : Directory :=
  d.filter fun file => file.1 ≠ name

def write (name : Text) (bytes : Bytes) (d : Directory) : Directory :=
  (name, bytes) :: d.delete name

def renameTo (source target : Text) (refused : Bool) (d : Directory) :
    Bool × Directory :=
  match refused, d.read source with
  | false, some bytes => (true, (d.delete source).write target bytes)
  | _, _ => (false, d)

@[simp] theorem read_delete_self (name : Text) (d : Directory) :
    (d.delete name).read name = none := by
  have hnone : (d.delete name).find? (fun file => file.1 = name) = none := by
    rw [List.find?_eq_none]
    intro file hfile
    have hne := (List.mem_filter.mp hfile).right
    simpa using hne
  rw [read, hnone]
  rfl

theorem read_delete_of_ne {name other : Text} (h : other ≠ name) (d : Directory) :
    (d.delete name).read other = d.read other := by
  rw [read, read, delete, List.find?_filter]
  congr 2
  funext file
  by_cases hfile : file.1 = other
  · simp [hfile, h]
  · simp [hfile]

@[simp] theorem read_write_self (name : Text) (bytes : Bytes) (d : Directory) :
    (d.write name bytes).read name = some bytes := by
  simp [read, write]

theorem read_write_of_ne {name other : Text} (h : other ≠ name) (bytes : Bytes)
    (d : Directory) : (d.write name bytes).read other = d.read other := by
  rw [<- read_delete_of_ne h d, write, read, read, List.find?_cons_of_neg]
  simpa using Ne.symm h

theorem present_delete (name other : Text) (d : Directory) :
    (d.delete name).present other = if other = name then false else d.present other := by
  unfold present
  split
  · rename_i hsame
    rw [hsame, read_delete_self]
    rfl
  · rename_i hother
    rw [read_delete_of_ne hother]

theorem present_write (name other : Text) (bytes : Bytes) (d : Directory) :
    (d.write name bytes).present other = if other = name then true else d.present other := by
  unfold present
  split
  · rename_i hsame
    rw [hsame, read_write_self]
    rfl
  · rename_i hother
    rw [read_write_of_ne hother]

end Directory

/-- The ASCII magic "GGUF". -/
def magic : Bytes := [0x47, 0x47, 0x55, 0x46]

def isGguf (d : Directory) (name : Text) : Bool :=
  (d.read name).any fun bytes => bytes.take 4 = magic

/-- Promote a temp file to its name; an error is the message of an exception. -/
def promote (temp name invalid notFinalized : Text) (refused : Bool)
    (d : Directory) : Except (Option Text) Text × Directory :=
  if isGguf d temp then
    let target := fileFor name
    let d := if d.present target then d.delete target else d
    let (renamed, d) := d.renameTo temp target refused
    if renamed then (Except.ok target, d)
    else (Except.error (some notFinalized), d)
  else (Except.error (some invalid), d.delete temp)

def finalize (temp name : Text) (refused : Bool) (d : Directory) :
    Except (Option Text) Text × Directory :=
  promote temp name "Downloaded file is not a valid GGUF model.".toList
    "Could not finalize downloaded model.".toList refused d

/-- Copy a stream into the directory; when the copy fails, what it has written
so far stays behind. -/
def importFrom (source : Bytes) (failure : Option (Nat × Option Text))
    (name : Text) (refused : Bool) (d : Directory) :
    Except (Option Text) Text × Directory :=
  let tmp := fileFor name ++ ".part".toList
  match failure with
  | some (copied, message) =>
      (Except.error message, d.write tmp (source.take copied))
  | none =>
      promote tmp name "Not a valid GGUF model file.".toList
        "Could not finalize imported model.".toList refused (d.write tmp source)

theorem promote_ok {temp name invalid notFinalized file : Text} {refused : Bool}
    {d : Directory}
    (h : (promote temp name invalid notFinalized refused d).1 = Except.ok file) :
    file = fileFor name := by
  unfold promote at h
  split at h
  · simp only at h
    generalize Directory.renameTo _ _ _ _ = renamed at h
    rcases renamed with ⟨_ | _, d'⟩
    · cases h
    · cases h
      rfl
  · cases h

theorem read_makeRoom (name : Text) (d : Directory) :
    (if d.present name then d.delete name else d).read name = none ∧
      forall other, other ≠ name ->
        (if d.present name then d.delete name else d).read other = d.read other := by
  split
  · exact ⟨Directory.read_delete_self name d,
      fun other h => Directory.read_delete_of_ne h d⟩
  · rename_i hpresent
    constructor
    · rw [Directory.present, Option.isSome_iff_ne_none, not_ne_iff] at hpresent
      exact hpresent
    · intro _ _
      rfl

theorem present_makeRoom (name other : Text) (d : Directory) :
    (if d.present name then d.delete name else d).present other =
      if other = name then false else d.present other := by
  rcases read_makeRoom name d with ⟨hnone, hothers⟩
  by_cases hsame : other = name
  · rw [if_pos hsame, hsame, Directory.present, hnone]
    rfl
  · rw [if_neg hsame, Directory.present, hothers other hsame]
    rfl

/-- A promotion is refused a file that is not valid, or the rename, or nothing. -/
theorem promote_cases {temp name : Text} (hne : temp ≠ fileFor name)
    (invalid notFinalized : Text) (refused : Bool) (d : Directory) :
    (isGguf d temp = false ∧
      promote temp name invalid notFinalized refused d =
        (Except.error (some invalid), d.delete temp)) ∨
    (isGguf d temp = true ∧ refused = true ∧
      promote temp name invalid notFinalized refused d =
        (Except.error (some notFinalized),
          if d.present (fileFor name) then d.delete (fileFor name) else d)) ∨
    (isGguf d temp = true ∧ refused = false ∧ exists bytes, d.read temp = some bytes ∧
      promote temp name invalid notFinalized refused d =
        (Except.ok (fileFor name),
          ((if d.present (fileFor name) then d.delete (fileFor name) else d).delete
            temp).write (fileFor name) bytes)) := by
  cases hvalid : isGguf d temp with
  | false =>
      left
      simp [promote, hvalid]
  | true =>
      right
      cases refused with
      | true =>
          left
          simp [promote, hvalid, Directory.renameTo]
      | false =>
          right
          have htemp := (read_makeRoom (fileFor name) d).right temp hne
          cases hread : d.read temp with
          | none =>
              rw [isGguf, hread] at hvalid
              cases hvalid
          | some bytes =>
              rw [hread] at htemp
              refine ⟨rfl, rfl, bytes, rfl, ?_⟩
              simp only [promote, hvalid, if_true, Directory.renameTo, htemp]

theorem finalize_refused {temp : Text} {d : Directory} (h : isGguf d temp = true)
    (name : Text) :
    (exists message, (finalize temp name true d).1 = Except.error message) ∧
      (finalize temp name true d).2.read (fileFor name) = none ∧
      forall other, other ≠ fileFor name ->
        (finalize temp name true d).2.read other = d.read other := by
  rcases read_makeRoom (fileFor name) d with ⟨hnone, hothers⟩
  simp only [finalize, promote, h, if_true, Directory.renameTo]
  exact ⟨⟨_, rfl⟩, hnone, hothers⟩

theorem finalize_promotes {d : Directory} {name : Text}
    (h : isGguf d (tempFor name) = true) :
    (finalize (tempFor name) name false d).1 = Except.ok (fileFor name) ∧
      (finalize (tempFor name) name false d).2.read (fileFor name) =
        d.read (tempFor name) ∧
      forall other, other ≠ tempFor name -> other ≠ fileFor name ->
        (finalize (tempFor name) name false d).2.read other = d.read other := by
  rcases read_makeRoom (fileFor name) d with ⟨_, hothers⟩
  rcases promote_cases (tempFor_ne_fileFor name)
      "Downloaded file is not a valid GGUF model.".toList
      "Could not finalize downloaded model.".toList false d with
    ⟨hinvalid, _⟩ | ⟨_, hrefused, _⟩ | ⟨_, _, bytes, hread, hpromote⟩
  · rw [h] at hinvalid
    cases hinvalid
  · cases hrefused
  · rw [finalize, hpromote, hread]
    refine ⟨rfl, Directory.read_write_self _ _ _, ?_⟩
    intro other hother hfile
    rw [Directory.read_write_of_ne hfile, Directory.read_delete_of_ne hother,
      hothers other hfile]

theorem importFrom_ok {source : Bytes} {failure : Option (Nat × Option Text)}
    {name file : Text} {refused : Bool} {d : Directory}
    (h : (importFrom source failure name refused d).1 = Except.ok file) :
    file = fileFor name := by
  rcases failure with _ | ⟨copied, message⟩
  · exact promote_ok h
  · cases h

def listModels (d : Directory) : List Text :=
  d.map Prod.fst

theorem mem_listModels {name : Text} {d : Directory} :
    name ∈ listModels d <-> d.present name = true := by
  rw [Directory.present, Directory.read, Option.isSome_map, List.find?_isSome]
  simp [listModels]

end ModelStorage
end DomainAI
