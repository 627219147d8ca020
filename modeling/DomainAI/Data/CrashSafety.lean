import DomainAI.Data.ConversationStore
import DomainAI.Library.Run

/-!
# Crashes during a save

A process can die between any two file operations and inside every write.  The
list that the next load returns is determined by the three files alone, so each
crash point of a save is compared with the list held before it.
-/

namespace DomainAI
namespace ConversationStore

open Library

/-!
# The list the files hold
-/

def recovered : Content -> List Conversation
  | Content.sealed StoreFile.canonical conversations => conversations
  | Content.sealed StoreFile.temp conversations => conversations
  | _ => []

/-- The list held: canonical first, then the backup, then an old temp. -/
def held (d : Files) : List Conversation :=
  match d.canonical, d.backup with
  | some c, _ => recovered c
  | none, some c => recovered c
  | none, none => (decode StoreFile.temp d.temp).getD []

theorem loadResult_eq_held (d : Files) : loadResult d = held d := by
  rcases d with ⟨_ | c, b, t⟩
  · rcases b with _ | c
    · rcases t with _ | (_ | ⟨_ | _ | _, conversations⟩) <;> rfl
    · rcases c with _ | ⟨_ | _ | _, conversations⟩ <;> cases t <;> rfl
  · rcases c with _ | ⟨_ | _ | _, conversations⟩ <;> cases b <;> cases t <;> rfl

theorem held_of_mem_points_load (d : Files) :
    forall p, p ∈ Program.points exec load [] d ->
      held p.2 = held d := by
  rcases d with ⟨_ | c, b, t⟩
  · rcases b with _ | c
    · rcases t with _ | (_ | ⟨_ | _ | _, conversations⟩) <;>
        simp [load, loadBackup, loadLegacy, loadTemp, readEncrypted,
          Program.points, exec, execute, decode, Files.get, held]
    · rcases c with _ | ⟨_ | _ | _, conversations⟩ <;> cases t <;>
        simp [load, loadBackup, loadLegacy, loadTemp, readEncrypted, copyTo, removeTarget,
        copyBytes,
          Program.points, exec, execute, decode, Files.get, Files.set, held, recovered]
  · rcases c with _ | ⟨_ | _ | _, conversations⟩ <;> cases b <;> cases t <;>
      simp [load, loadBackup, loadLegacy, loadTemp, readEncrypted, copyTo, removeTarget,
        copyBytes,
        Program.points, exec, execute, decode, Files.get, Files.set, held, recovered]

/-!
# The list held at the crash points of a save
-/

/-- Dying before this operation leaves no readable copy of the list held. -/
def loses (d : Files) : Option FileOp -> Bool
  | some (FileOp.finish StoreFile.canonical _) => true
  | some (FileOp.openEncrypted _) => d.canonical.isNone && d.backup.isNone
  | _ => false

theorem held_of_mem_points_save (d : Files) (conversations : List Conversation) :
    forall p, p ∈ Program.points exec (save conversations) [] d ->
      if loses d p.1 then held p.2 = []
      else held p.2 = held d ∨ held p.2 = conversations := by
  rcases d with ⟨_ | c, b, t⟩
  · rcases b with _ | c <;>
      simp [save, backUp, removeCanonical, writeVerified, writeCanonical, readBack,
        readEncrypted, Program.points, exec, execute, decode, Files.get, Files.set, held,
        recovered, loses]
  · rcases b with _ | b <;>
      simp [save, backUp, removeCanonical, writeVerified, writeCanonical, readBack,
        readEncrypted, copyTo, removeTarget,
        copyBytes, Program.points, exec, execute, decode, Files.get, Files.set,
        held, recovered, loses]

/-!
# A save that returns normally
-/

theorem writeCanonical_ensures (conversations : List Conversation) (d : Files) :
    Program.Ensures exec (writeCanonical conversations)
      (fun written d' => written = true ->
        d'.canonical =
          some (Content.sealed StoreFile.canonical conversations)) d := by
  simp only [writeCanonical, openEncrypted, finish, Program.operation_bind,
    Program.ensures_perform, exec, execute]
  intro refused
  split
  · simp
  · simp only [if_true, Program.operation, Program.ensures_perform,
      Program.ensures_done]
    intro interrupted
    cases hfails : interrupted.hits (FileOp.finish StoreFile.canonical
        (Content.sealed StoreFile.canonical conversations)) <;>
      simp [hfails, exec, execute, Files.set]

theorem readBack_ensures (written : Bool) (d : Files) :
    Program.Ensures exec (readBack written)
      (fun verified d' => d' = d ∧ (verified.isSome -> written = true)) d := by
  cases written with
  | false => simp [readBack]
  | true =>
      simp only [readBack, if_true, readEncrypted, present, decrypt,
        Program.operation_bind, Program.ensures_perform, exec, execute]
      intro _
      by_cases hpresent : (d.get StoreFile.canonical).isSome <;>
        simp [hpresent, Program.operation, exec, execute]

theorem writeVerified_ensures (conversations : List Conversation) (d : Files) :
    Program.Ensures exec (writeVerified conversations)
      (fun returned d' => returned = true ->
        d'.canonical =
          some (Content.sealed StoreFile.canonical conversations)) d := by
  apply Program.ensures_bind
  refine Program.ensures_mono (writeCanonical_ensures conversations d) ?_
  intro written d' hwritten
  apply Program.ensures_bind
  refine Program.ensures_mono (readBack_ensures written d') ?_
  rintro (_ | verified) d'' ⟨rfl, hverified⟩
  · apply Program.ensures_bind
    refine Program.ensures_mono (Program.ensures_true restoreBackup d'') ?_
    simp
  · simp only [delete, Program.operation_bind, Program.ensures_perform,
      Program.pure_eq, Program.ensures_done, exec, execute]
    intro kept _
    have hcanonical := hwritten (hverified rfl)
    cases kept.hits (FileOp.delete StoreFile.backup) <;>
      simpa [Files.set] using hcanonical

theorem held_saveFiles {conversations : List Conversation} {faults : List Fault}
    {d : Files} (h : saveReturns conversations faults d = true) :
    held (saveFiles conversations faults d) = conversations := by
  have hcanonical :
      (saveFiles conversations faults d).canonical =
        some (Content.sealed StoreFile.canonical conversations) := by
    have hsave : Program.Ensures exec (save conversations)
        (fun returned d' => returned = true ->
          d'.canonical =
            some (Content.sealed StoreFile.canonical conversations)) d := by
      apply Program.ensures_bind
      refine Program.ensures_mono (Program.ensures_true backUp d) ?_
      intro _ d1 _
      apply Program.ensures_bind
      refine Program.ensures_mono (Program.ensures_true removeCanonical d1) ?_
      intro _ d2 _
      apply Program.ensures_bind
      refine Program.ensures_mono
        (Program.ensures_true (delete StoreFile.temp) d2) ?_
      intro _ d3 _
      exact writeVerified_ensures conversations d3
    exact hsave faults h
  simp [held, hcanonical, recovered]

/-!
# Runs of interrupted and completed calls
-/

inductive StoreEvent where
  /-- A save whose process dies after `steps` file operations. -/
  | interruptedSave (conversations : List Conversation) (steps : Nat)
  /-- A save that runs to its end, with whatever operations failed. -/
  | save (conversations : List Conversation) (faults : List Fault)
  | interruptedLoad (steps : Nat)
  | load
  deriving DecidableEq, Repr

def storeStep (d : Files) : StoreEvent -> Files
  | StoreEvent.interruptedSave conversations steps =>
      Program.stopAfter exec (ConversationStore.save conversations) steps [] d
  | StoreEvent.save conversations faults => saveFiles conversations faults d
  | StoreEvent.interruptedLoad steps =>
      Program.stopAfter exec ConversationStore.load steps [] d
  | StoreEvent.load => loadFiles d

/-- The next load returns the list held before or the one being saved. -/
def CrashSafe (d : Files) (e : StoreEvent) : Prop :=
  match e with
  | StoreEvent.interruptedSave conversations _ =>
      loadResult (storeStep d e) = loadResult d ∨
        loadResult (storeStep d e) = conversations
  | StoreEvent.save conversations faults =>
      saveReturns conversations faults d = true ->
        loadResult (storeStep d e) = conversations
  | StoreEvent.interruptedLoad _ => loadResult (storeStep d e) = loadResult d
  | StoreEvent.load => loadResult (storeStep d e) = loadResult d

def DiesElsewhere (d : Files) : StoreEvent -> Prop
  | StoreEvent.interruptedSave conversations steps =>
      loadResult d = [] ∨ conversations = [] ∨
        loses d (Program.pendingAfter exec
          (ConversationStore.save conversations) steps [] d) = false
  | _ => True

theorem crashSafe_iff_diesElsewhere (d : Files) (e : StoreEvent) :
    CrashSafe d e <-> DiesElsewhere d e := by
  cases e with
  | interruptedSave conversations steps =>
      have hpoint := held_of_mem_points_save d conversations _
        (Program.stopAfter_mem_points exec
          (ConversationStore.save conversations) steps [] d)
      simp only [CrashSafe, DiesElsewhere, storeStep, loadResult_eq_held]
      cases hloses : loses d (Program.pendingAfter exec
          (ConversationStore.save conversations) steps [] d) with
      | true =>
          rw [hloses, if_pos rfl] at hpoint
          rw [hpoint, eq_comm, @eq_comm _ [] conversations]
          simp
      | false =>
          rw [hloses, if_neg Bool.false_ne_true] at hpoint
          simp [hpoint]
  | save conversations faults =>
      simp only [CrashSafe, DiesElsewhere, storeStep, loadResult_eq_held,
        iff_true]
      exact held_saveFiles
  | interruptedLoad steps =>
      simp only [CrashSafe, DiesElsewhere, storeStep, loadResult_eq_held,
        iff_true]
      exact held_of_mem_points_load d _
        (Program.stopAfter_mem_points exec ConversationStore.load steps [] d)
  | load =>
      simp only [CrashSafe, DiesElsewhere, storeStep, loadResult_eq_held,
        iff_true]
      exact held_of_mem_points_load d _
        (Program.run_mem_points exec ConversationStore.load [] d)

/-- Crash safety of whole runs holds exactly when no death falls there. -/
theorem crashSafe_runs (d : Files) (es : List StoreEvent) :
    AllSteps (always storeStep) CrashSafe d es <->
      AllSteps (always storeStep) DiesElsewhere d es :=
  allSteps_congr fun s e _ => crashSafe_iff_diesElsewhere s e

/-- Dying while the new file is being written loses a held history. -/
theorem crashSafe_fails :
    ¬ AllSteps (always storeStep) CrashSafe
      { canonical := some (Content.sealed StoreFile.canonical
          [{ id := 0, updatedAt := 0 }]) }
      [StoreEvent.interruptedSave [{ id := 1, updatedAt := 1 }] 10] := by
  intro h
  have hnow := h.left
  simp only [CrashSafe] at hnow
  revert hnow
  decide

end ConversationStore
end DomainAI
