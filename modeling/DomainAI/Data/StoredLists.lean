import DomainAI.Data.ConversationStore

/-!
# What the stored lists have in common

A property of the lists in the files is a property of every list that a load
returns, and a save of such a list keeps it, whatever operations fail.
-/

namespace DomainAI
namespace ConversationStore

open Library

def Content.All (P : List Conversation -> Prop) (c : Content) : Prop :=
  forall name conversations, c = Content.sealed name conversations ->
    P conversations

def Files.All (P : List Conversation -> Prop) (d : Files) : Prop :=
  forall f c, d.get f = some c -> c.All P

@[simp] theorem Files.get_set_self (d : Files) (f : StoreFile)
    (c : Option Content) : (d.set f c).get f = c := by
  cases f <;> rfl

theorem Files.get_set_of_ne (d : Files) {f g : StoreFile} (h : g ≠ f)
    (c : Option Content) : (d.set f c).get g = d.get g := by
  cases f <;> cases g <;> first | rfl | exact absurd rfl h

theorem Files.All.set {P : List Conversation -> Prop} {d : Files}
    (h : d.All P) (f : StoreFile) {c : Option Content}
    (hc : forall x, c = some x -> x.All P) : (d.set f c).All P := by
  intro g x hx
  by_cases hg : g = f
  · rw [hg, Files.get_set_self] at hx
    exact hc x hx
  · rw [Files.get_set_of_ne d hg] at hx
    exact h g x hx

theorem Content.all_unreadable (P : List Conversation -> Prop) :
    Content.unreadable.All P := by
  intro _ _ h
  cases h

section Interface

variable (P : List Conversation -> Prop)

def Writes : FileOp -> Prop
  | FileOp.finish _ c => c.All P
  | _ => True

def Reads : (o : FileOp) -> o.Result -> Prop
  | FileOp.readRaw _, r => forall c, r = some c -> c.All P
  | FileOp.decrypt _, r => forall l, r = some l -> P l
  | FileOp.present _, _ => True
  | FileOp.delete _, _ => True
  | FileOp.renameTo _ _, _ => True
  | FileOp.openRaw _, _ => True
  | FileOp.openEncrypted _, _ => True
  | FileOp.finish _ _, _ => True

variable {P}

theorem decode_all {d : Files} (h : d.All P) {f : StoreFile}
    {l : List Conversation} (hl : decode f (d.get f) = some l) : P l := by
  cases hget : d.get f with
  | none =>
      rw [hget] at hl
      cases hl
  | some c =>
      rw [hget] at hl
      rcases c with _ | ⟨name, conversations⟩
      · cases hl
      · simp only [decode] at hl
        split at hl
        · cases hl
          exact h f _ hget name _ rfl
        · cases hl

theorem execute_reads (fails : Bool) (o : FileOp) {d : Files} (h : d.All P) :
    Reads P o (execute fails o d).1 := by
  cases o with
  | readRaw f =>
      intro c hc
      simp only [execute] at hc
      split at hc
      · cases hc
      · exact h f c hc
  | decrypt f =>
      intro l hl
      simp only [execute] at hl
      split at hl
      · cases hl
      · exact decode_all h hl
  | _ => trivial

theorem execute_all (fails : Bool) (o : FileOp) {d : Files} (h : d.All P)
    (hwrites : Writes P o) : (execute fails o d).2.All P := by
  have hunreadable : forall x, some Content.unreadable = some x -> x.All P := by
    intro x hx
    cases hx
    exact Content.all_unreadable P
  cases o with
  | delete f =>
      simp only [execute]
      split
      · exact h
      · exact h.set f (by simp)
  | renameTo source target =>
      simp only [execute]
      split
      · rename_i c hc
        refine (h.set target ?_).set source (by simp)
        intro x hx
        cases hx
        exact h source c hc
      · exact h
  | openRaw f =>
      simp only [execute]
      split
      · exact h
      · exact h.set f hunreadable
  | openEncrypted f =>
      simp only [execute]
      split
      · exact h
      · exact h.set f hunreadable
  | finish f c =>
      simp only [execute]
      split
      · exact h
      · apply h.set f
        intro x hx
        cases hx
        exact hwrites
  | present f => exact h
  | readRaw f => exact h
  | decrypt f => exact h

theorem exec_keeps (o : FileOp) (fault : Fault) (d : Files) (h : d.All P)
    (hwrites : Writes P o) :
    Reads P o (exec o fault d).1 ∧ (exec o fault d).2.All P :=
  ⟨execute_reads (fault.hits o) o h, execute_all (fault.hits o) o h hwrites⟩

end Interface

/-!
# Load and save
-/

section Programs

variable {P : List Conversation -> Prop}

theorem readEncrypted_obeys (f : StoreFile) :
    Program.Obeys (Writes P) (Reads P) (fun r => forall l, r = some l -> P l)
      (readEncrypted f) := by
  refine Program.obeys_bind (Program.obeys_operation _ trivial) fun _ _ => ?_
  refine Program.obeys_ite (fun _ => ?_) (fun _ => ?_)
  · exact Program.obeys_operation (FileOp.decrypt f) trivial
  · simp

theorem copyBytes_obeys (source target : StoreFile) :
    Program.Obeys (Writes P) (Reads P) (fun _ => True)
      (copyBytes source target) := by
  refine Program.obeys_bind (Program.obeys_operation _ trivial) fun bytes h => ?_
  cases bytes with
  | none => trivial
  | some c =>
      refine Program.obeys_bind (Program.obeys_operation _ trivial) fun _ _ => ?_
      refine Program.obeys_ite (fun _ => ?_) (fun _ => trivial)
      refine Program.obeys_bind (Program.obeys_operation _ ?_) fun _ _ => trivial
      exact h c rfl

theorem copyTo_obeys (source target : StoreFile) :
    Program.Obeys (Writes P) (Reads P) (fun _ => True)
      (copyTo source target) := by
  refine Program.obeys_bind (Program.obeys_operation _ trivial) fun _ _ => ?_
  refine Program.obeys_ite (fun _ => ?_) (fun _ => trivial)
  refine Program.obeys_bind (Q := fun _ => True) ?_ fun _ _ => ?_
  · refine Program.obeys_bind (Program.obeys_operation _ trivial) fun _ _ => ?_
    refine Program.obeys_ite (fun _ => ?_) (fun _ => trivial)
    exact Program.obeys_operation (FileOp.delete target) trivial
  · exact Program.obeys_ite (fun _ => copyBytes_obeys source target)
      (fun _ => trivial)

theorem readOr_obeys (f : StoreFile)
    {next : Option (List Conversation) -> StoreProgram (List Conversation)}
    (hsome : forall l, P l -> Program.Obeys (Writes P) (Reads P) P
      (next (some l)))
    (hnone : Program.Obeys (Writes P) (Reads P) P (next none)) :
    Program.Obeys (Writes P) (Reads P) P (readEncrypted f >>= next) := by
  refine Program.obeys_bind (readEncrypted_obeys f) fun r hr => ?_
  cases r with
  | none => exact hnone
  | some l => exact hsome l (hr l rfl)

theorem loadTemp_obeys (hnil : P []) :
    Program.Obeys (Writes P) (Reads P) P loadTemp :=
  readOr_obeys StoreFile.temp (fun _ hl => hl) hnil

theorem loadLegacy_obeys (hnil : P []) :
    Program.Obeys (Writes P) (Reads P) P loadLegacy := by
  refine Program.obeys_bind (Program.obeys_operation _ trivial) fun _ _ => ?_
  refine Program.obeys_ite (fun _ => ?_) (fun _ => loadTemp_obeys hnil)
  refine Program.obeys_bind (copyTo_obeys _ _) fun _ _ => ?_
  refine readOr_obeys StoreFile.temp (fun l hl => ?_) ?_
  · exact Program.obeys_bind (Program.obeys_operation _ trivial) fun _ _ => hl
  · exact Program.obeys_bind (Program.obeys_operation _ trivial)
      fun _ _ => loadTemp_obeys hnil

theorem loadBackup_obeys (hnil : P []) :
    Program.Obeys (Writes P) (Reads P) P loadBackup := by
  refine Program.obeys_bind (Program.obeys_operation _ trivial) fun _ _ => ?_
  refine Program.obeys_ite (fun _ => ?_) (fun _ => loadLegacy_obeys hnil)
  refine Program.obeys_bind (Program.obeys_operation _ trivial) fun _ _ => ?_
  refine Program.obeys_ite (fun _ => loadLegacy_obeys hnil) (fun _ => ?_)
  refine Program.obeys_bind (Program.obeys_operation _ trivial) fun _ _ => ?_
  exact readOr_obeys StoreFile.canonical (fun _ hl => hl) (loadLegacy_obeys hnil)

theorem load_obeys (hnil : P []) :
    Program.Obeys (Writes P) (Reads P) P load :=
  readOr_obeys StoreFile.canonical (fun _ hl => hl) (loadBackup_obeys hnil)

theorem writeVerified_obeys {conversations : List Conversation}
    (h : P conversations) :
    Program.Obeys (Writes P) (Reads P) (fun _ => True)
      (writeVerified conversations) := by
  refine Program.obeys_bind (Q := fun _ => True) ?_ fun written _ => ?_
  · refine Program.obeys_bind (Program.obeys_operation _ trivial) fun _ _ => ?_
    refine Program.obeys_ite (fun _ => ?_) (fun _ => trivial)
    refine ⟨?_, fun _ _ => trivial⟩
    intro name l hl
    cases hl
    exact h
  · refine Program.obeys_bind (Q := fun _ => True) ?_ fun verified _ => ?_
    · refine Program.obeys_ite (fun _ => ?_) (fun _ => trivial)
      refine Program.obeys_bind (Program.obeys_operation _ trivial) fun _ _ => ?_
      exact Program.obeys_ite (fun _ => ⟨trivial, fun _ _ => trivial⟩)
        (fun _ => trivial)
    · cases verified with
      | some _ => exact ⟨trivial, fun _ _ => trivial⟩
      | none =>
          refine Program.obeys_bind (Q := fun _ => True) ?_ fun _ _ => trivial
          refine Program.obeys_bind (Program.obeys_operation _ trivial)
            fun _ _ => ?_
          exact Program.obeys_ite
            (fun _ => ⟨trivial, fun _ _ => ⟨trivial, fun _ _ => trivial⟩⟩)
            (fun _ => trivial)

theorem save_obeys {conversations : List Conversation} (h : P conversations) :
    Program.Obeys (Writes P) (Reads P) (fun _ => True) (save conversations) := by
  refine Program.obeys_bind (Q := fun _ => True) ?_ fun _ _ => ?_
  · refine Program.obeys_bind (Program.obeys_operation _ trivial) fun _ _ => ?_
    exact Program.obeys_ite (fun _ => copyTo_obeys _ _) (fun _ => trivial)
  refine Program.obeys_bind (Q := fun _ => True) ?_ fun _ _ => ?_
  · refine Program.obeys_bind (Program.obeys_operation _ trivial) fun _ _ => ?_
    exact Program.obeys_ite (fun _ => ⟨trivial, fun _ _ => trivial⟩)
      (fun _ => trivial)
  exact Program.obeys_bind (Program.obeys_operation _ trivial)
    fun _ _ => writeVerified_obeys h

theorem load_all (hnil : P []) {d : Files} (h : d.All P) (faults : List Fault) :
    P (Program.run exec load faults d).1 ∧
      (Program.run exec load faults d).2.1.All P :=
  Program.ensures_of_obeys (I := Files.All P) exec_keeps (load_obeys hnil) h
    faults

theorem saveFiles_all {conversations : List Conversation} (hl : P conversations)
    {d : Files} (h : d.All P) (faults : List Fault) :
    (saveFiles conversations faults d).All P :=
  (Program.ensures_of_obeys (I := Files.All P) exec_keeps (save_obeys hl) h
    faults).right

theorem stopAfter_save_all {conversations : List Conversation}
    (hl : P conversations) {d : Files} (h : d.All P) (steps : Nat) :
    (Program.stopAfter exec (save conversations) steps [] d).All P :=
  Program.stopAfter_of_obeys (I := Files.All P) exec_keeps (save_obeys hl) steps [] h

theorem stopAfter_load_all (hnil : P []) {d : Files} (h : d.All P) (steps : Nat) :
    (Program.stopAfter exec load steps [] d).All P :=
  Program.stopAfter_of_obeys (I := Files.All P) exec_keeps (load_obeys hnil) steps [] h

end Programs
end ConversationStore
end DomainAI
