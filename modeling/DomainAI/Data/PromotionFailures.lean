import DomainAI.Data.ModelStorage

/-!
# Promotions that fail

A promotion makes room for the new file before it renames, and a copy is written
before it is known to be whole.  What a failure leaves is compared with what was
there.
-/

namespace DomainAI
namespace ModelStorage

/-- Every file that counts as a model, and that was there, still has its bytes. -/
def Keeps (counts : Text -> Prop) (before after : Directory) : Prop :=
  forall file, counts file -> before.present file = true -> after.read file = before.read file

def FinalizeAtomic (counts : Text -> Prop) (temp name : Text) (refused : Bool)
    (d : Directory) : Prop :=
  forall message, (finalize temp name refused d).1 = Except.error message ->
    Keeps counts d (finalize temp name refused d).2

def ImportAtomic (counts : Text -> Prop) (source : Bytes)
    (failure : Option (Nat × Option Text)) (name : Text) (refused : Bool)
    (d : Directory) : Prop :=
  forall message, (importFrom source failure name refused d).1 = Except.error message ->
    Keeps counts d (importFrom source failure name refused d).2 ∧
      (importFrom source failure name refused d).2.present (fileFor name ++ ".part".toList) =
        false

section Failures

variable {counts : Text -> Prop}

theorem keeps_refl (d : Directory) : Keeps counts d d :=
  fun _ _ _ => rfl

theorem keeps_delete {file : Text} {d : Directory} :
    Keeps counts d (d.delete file) <-> ¬ (counts file ∧ d.present file = true) := by
  constructor
  · intro hkeeps hfile
    have hread := hkeeps file hfile.left hfile.right
    rw [Directory.read_delete_self] at hread
    rw [Directory.present, <- hread] at hfile
    cases hfile.right
  · intro hfile other hother hpresent
    have hne : other ≠ file := by
      rintro rfl
      exact hfile ⟨hother, hpresent⟩
    exact Directory.read_delete_of_ne hne d

theorem keeps_makeRoom {file : Text} {d : Directory} :
    Keeps counts d (if d.present file then d.delete file else d) <->
      ¬ (counts file ∧ d.present file = true) := by
  split
  · exact keeps_delete
  · rename_i habsent
    exact ⟨fun _ hfile => habsent hfile.right, fun _ => keeps_refl d⟩

theorem whenever_error {r : Except (Option Text) Text × Directory} {message : Option Text}
    {d : Directory} (h : r = (Except.error message, d)) (P : Directory -> Prop) :
    (forall message, r.1 = Except.error message -> P r.2) <-> P d := by
  rw [h]
  exact ⟨fun hall => hall message rfl, fun hd _ _ => hd⟩

theorem whenever_ok {r : Except (Option Text) Text × Directory} {file : Text}
    {d : Directory} (h : r = (Except.ok file, d)) (P : Directory -> Prop) :
    (forall message, r.1 = Except.error message -> P r.2) <-> True := by
  rw [h]
  exact ⟨fun _ => trivial, fun _ _ hthrown => by cases hthrown⟩

/-- A file that is promoted to its own name is deleted before it can be renamed. -/
theorem promote_self (name invalid notFinalized : Text) (refused : Bool) (d : Directory) :
    exists message, promote (fileFor name) name invalid notFinalized refused d =
      (Except.error message, d.delete (fileFor name)) := by
  unfold promote
  split
  · rename_i hvalid
    have hpresent : d.present (fileFor name) = true := by
      rw [isGguf, Option.any_eq_true] at hvalid
      rcases hvalid with ⟨bytes, hread, _⟩
      rw [Directory.present, hread]
      rfl
    refine ⟨some notFinalized, ?_⟩
    cases refused <;> simp [Directory.renameTo, hpresent]
  · exact ⟨some invalid, rfl⟩

theorem finalizeAtomic_iff (temp name : Text) (refused : Bool) (d : Directory) :
    FinalizeAtomic counts temp name refused d <->
      (isGguf d temp = false -> ¬ (counts temp ∧ d.present temp = true)) ∧
      (isGguf d temp = true -> refused = true ∨ temp = fileFor name ->
        ¬ (counts (fileFor name) ∧ d.present (fileFor name) = true)) := by
  unfold FinalizeAtomic finalize
  by_cases hne : temp = fileFor name
  · subst hne
    rcases promote_self name "Downloaded file is not a valid GGUF model.".toList
      "Could not finalize downloaded model.".toList refused d with ⟨message, hpromote⟩
    rw [whenever_error hpromote, keeps_delete]
    cases isGguf d (fileFor name) <;> simp
  · rcases promote_cases hne "Downloaded file is not a valid GGUF model.".toList
        "Could not finalize downloaded model.".toList refused d with
      ⟨hinvalid, hpromote⟩ | ⟨hvalid, hrefused, hpromote⟩ |
        ⟨hvalid, hrefused, bytes, _, hpromote⟩
    · rw [whenever_error hpromote, keeps_delete]
      simp [hinvalid]
    · rw [whenever_error hpromote, keeps_makeRoom]
      simp [hvalid, hrefused]
    · rw [whenever_ok hpromote]
      simp [hvalid, hrefused, hne]

theorem part_ne_fileFor (name : Text) : fileFor name ++ ".part".toList ≠ fileFor name := by
  intro h
  have hlength := congrArg List.length h
  simp at hlength

theorem keeps_delete_write {file : Text} {bytes : Bytes} {d : Directory} :
    Keeps counts d ((d.write file bytes).delete file) <-> Keeps counts d (d.delete file) := by
  have hread : forall other, ((d.write file bytes).delete file).read other =
      (d.delete file).read other := by
    intro other
    by_cases hother : other = file
    · rw [hother, Directory.read_delete_self, Directory.read_delete_self]
    · rw [Directory.read_delete_of_ne hother, Directory.read_delete_of_ne hother,
        Directory.read_write_of_ne hother]
  unfold Keeps
  simp only [hread]

theorem importAtomic_iff (source : Bytes) (failure : Option (Nat × Option Text))
    (name : Text) (refused : Bool) (d : Directory) :
    ImportAtomic counts source failure name refused d <->
      failure = none ∧ (source.take 4 = magic -> refused = false) ∧
      (source.take 4 ≠ magic -> ¬ (counts (fileFor name ++ ".part".toList) ∧
        d.present (fileFor name ++ ".part".toList) = true)) := by
  unfold ImportAtomic
  have hne := part_ne_fileFor name
  generalize htmp : fileFor name ++ ".part".toList = tmp at hne
  rcases failure with _ | ⟨copied, message⟩
  · have himport : importFrom source none name refused d =
        promote tmp name "Not a valid GGUF model file.".toList
          "Could not finalize imported model.".toList refused (d.write tmp source) := by
      rw [importFrom, htmp]
    have hgguf : isGguf (d.write tmp source) tmp = decide (source.take 4 = magic) := by
      rw [isGguf, Directory.read_write_self]
      rfl
    rcases promote_cases hne "Not a valid GGUF model file.".toList
        "Could not finalize imported model.".toList refused (d.write tmp source) with
      ⟨hinvalid, hpromote⟩ | ⟨hvalid, hrefused, hpromote⟩ |
        ⟨hvalid, hrefused, bytes, _, hpromote⟩
    · rw [hgguf, decide_eq_false_iff_not] at hinvalid
      refine (whenever_error (himport.trans hpromote) fun after =>
        Keeps counts d after ∧ after.present tmp = false).trans ?_
      rw [keeps_delete_write, keeps_delete, Directory.present_delete, if_pos rfl]
      simp [hinvalid]
    · rw [hgguf, decide_eq_true_eq] at hvalid
      refine (whenever_error (himport.trans hpromote) fun after =>
        Keeps counts d after ∧ after.present tmp = false).trans ?_
      have hpart : (if (d.write tmp source).present (fileFor name) = true then
          (d.write tmp source).delete (fileFor name)
          else d.write tmp source).present tmp = true := by
        rw [present_makeRoom, if_neg hne, Directory.present_write tmp tmp, if_pos rfl]
      rw [hpart]
      simp [hvalid, hrefused]
    · rw [hgguf, decide_eq_true_eq] at hvalid
      refine (whenever_ok (himport.trans hpromote) fun after =>
        Keeps counts d after ∧ after.present tmp = false).trans ?_
      simp [hvalid, hrefused]
  · have himport : importFrom source (some (copied, message)) name refused d =
        (Except.error message, d.write tmp (source.take copied)) := by
      rw [importFrom, htmp]
    refine (whenever_error himport fun after =>
      Keeps counts d after ∧ after.present tmp = false).trans ?_
    rw [Directory.present_write, if_pos rfl]
    simp

end Failures

/-- What throws has harmed no model, and has left no partial file, just when the copy was
whole, no rename was refused, and what was deleted as invalid was no model. -/
theorem promotion_atomic (counts : Text -> Prop) :
    (forall (source : Bytes) (failure : Option (Nat × Option Text)) (name : Text)
      (refused : Bool) (d : Directory),
      ImportAtomic counts source failure name refused d <->
        failure = none ∧ (source.take 4 = magic -> refused = false) ∧
        (source.take 4 ≠ magic -> ¬ (counts (fileFor name ++ ".part".toList) ∧
          d.present (fileFor name ++ ".part".toList) = true))) ∧
    (forall (temp name : Text) (refused : Bool) (d : Directory),
      FinalizeAtomic counts temp name refused d <->
        (isGguf d temp = false -> ¬ (counts temp ∧ d.present temp = true)) ∧
        (isGguf d temp = true -> refused = true ∨ temp = fileFor name ->
          ¬ (counts (fileFor name) ∧ d.present (fileFor name) = true))) :=
  ⟨importAtomic_iff, finalizeAtomic_iff⟩

/-- A refused rename loses the model that was there, and a copy that stops midway leaves
what it has written. -/
theorem promotion_atomic_fails :
    (importFrom magic none "m.gguf".toList true [("m.gguf".toList, [1])]).2.read
        "m.gguf".toList = none ∧
      ¬ ImportAtomic (fun file => file = "m.gguf".toList) magic none "m.gguf".toList true
        [("m.gguf".toList, [1])] ∧
      ¬ ImportAtomic (fun file => file = "m.gguf".toList) magic
        (some (2, some "read failed".toList)) "m.gguf".toList false [] ∧
      ¬ FinalizeAtomic (fun file => file = "m.gguf".toList) "m.gguf.part".toList
        "m.gguf".toList true [("m.gguf".toList, [1]), ("m.gguf.part".toList, magic)] := by
  refine ⟨by decide, ?_, ?_, ?_⟩
  · intro h
    have hpart := (h (some "Could not finalize imported model.".toList) (by decide)).right
    revert hpart
    decide
  · intro h
    have hpart := (h (some "read failed".toList) (by decide)).right
    revert hpart
    decide
  · intro h
    have hmodel := h (some "Could not finalize downloaded model.".toList) (by decide)
      "m.gguf".toList rfl (by decide)
    revert hmodel
    decide

end ModelStorage
end DomainAI
