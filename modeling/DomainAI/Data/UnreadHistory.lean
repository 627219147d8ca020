import DomainAI.Data.Restore

/-!
# History that was not read

A load that cannot decrypt a file returns an empty list, the restore takes that
list for the history, and the next save replaces the file together with its
backup.
-/

namespace DomainAI
namespace ConversationStore

open Library

def Files.Holds (d : Files) (conversations : List Conversation) : Prop :=
  exists f name, d.get f = some (Content.sealed name conversations)

/-!
# Saves during which only decryptions fail
-/

def Transient (faults : List Fault) : Prop :=
  forall fault, fault ∈ faults -> fault ≠ Fault.failure

def FileOp.decrypts : FileOp -> Bool
  | FileOp.decrypt _ => true
  | _ => false

@[simp] theorem Fault.decryption_hits (f : StoreFile) :
    Fault.decryption.hits (FileOp.decrypt f) = true := rfl

theorem Transient.hits {faults : List Fault} (h : Transient faults) (k : Nat)
    (o : FileOp) :
    (faults[k]?.getD default).hits o =
      (o.decrypts && decide (faults[k]? = some Fault.decryption)) := by
  rcases hfault : faults[k]? with _ | _ | _ | _
  · simp
  · simp [Fault.hits]
  · cases o <;> rfl
  · exact absurd rfl (h _ (List.mem_of_getElem? hfault))

theorem Transient.head_hits {faults : List Fault} (h : Transient faults)
    (o : FileOp) :
    (faults.head?.getD default).hits o =
      (o.decrypts && decide (faults[0]? = some Fault.decryption)) := by
  rw [List.head?_eq_getElem?]
  exact h.hits 0 o

theorem Transient.drop {faults : List Fault} (h : Transient faults) (k : Nat) :
    Transient (faults.drop k) :=
  fun fault hfault => h fault (List.mem_of_mem_drop hfault)

def previous (d : Files) : Option Content :=
  d.canonical.or d.backup

def preparation (d : Files) : Nat :=
  match d.canonical, d.backup with
  | some _, some _ => 10
  | some _, none => 9
  | none, _ => 3

def prepare : StoreProgram Unit := do
  backUp
  removeCanonical
  let _ ← delete StoreFile.temp

theorem run_prepare {faults : List Fault} (h : Transient faults) (d : Files) :
    Program.run exec prepare faults d =
      ((), { backup := previous d }, faults.drop (preparation d)) := by
  have hhits := h.hits
  rcases d with ⟨_ | c, _ | b, t⟩ <;>
    simp [prepare, backUp, removeCanonical, copyTo, removeTarget, copyBytes,
      Program.run, exec, execute, Files.get, Files.set, FileOp.decrypts,
      previous, preparation, hhits]
  all_goals simp only [← List.drop_one, List.drop_drop]

theorem run_writeVerified (conversations : List Conversation)
    {faults : List Fault} (h : Transient faults) (b : Option Content) :
    (Program.run exec (writeVerified conversations) faults { backup := b }).2.1 =
      if faults[3]? = some Fault.decryption ∧ b.isSome then { canonical := b }
      else
        { canonical :=
            some (Content.sealed StoreFile.canonical conversations) } := by
  have hhits := h.hits
  by_cases hfails : faults[3]? = some Fault.decryption <;> rcases b with _ | b <;>
    simp [writeVerified, writeCanonical, readBack, readEncrypted, restoreBackup,
      Program.run, Program.operation, exec, execute, decode, Files.get,
      Files.set, FileOp.decrypts, hhits, h.head_hits, hfails]

def verification (d : Files) : Nat :=
  preparation d + 3

def VerificationFails (faults : List Fault) (d : Files) : Prop :=
  faults[verification d]? = some Fault.decryption

instance (faults : List Fault) (d : Files) :
    Decidable (VerificationFails faults d) :=
  inferInstanceAs (Decidable (_ = _))

theorem saveFiles_transient (conversations : List Conversation)
    {faults : List Fault} (h : Transient faults) (d : Files) :
    saveFiles conversations faults d =
      if VerificationFails faults d ∧ (previous d).isSome then
        { canonical := previous d }
      else
        { canonical :=
            some (Content.sealed StoreFile.canonical conversations) } := by
  have hsave : Program.run exec (save conversations) faults d =
      Program.run exec (prepare >>= fun _ => writeVerified conversations)
        faults d := by
    simp only [save, prepare, Program.run_bind]
    rfl
  rw [saveFiles, hsave, Program.run_bind, run_prepare h,
    run_writeVerified _ (h.drop _)]
  refine if_congr ?_ rfl rfl
  simp [VerificationFails, verification]

def Spares (conversations : List Conversation) (faults : List Fault)
    (d : Files) (unread : List Conversation) : Prop :=
  if VerificationFails faults d ∧ (previous d).isSome then
    exists name, previous d = some (Content.sealed name unread)
  else unread = conversations

theorem saveFiles_holds {conversations unread : List Conversation}
    {faults : List Fault} (h : Transient faults) (d : Files) :
    (saveFiles conversations faults d).Holds unread <->
      Spares conversations faults d unread := by
  rw [saveFiles_transient _ h]
  unfold Spares
  split
  · constructor
    · intro h
      rcases h with ⟨_ | _ | _, name, hf⟩
      · exact ⟨name, hf⟩
      · cases hf
      · cases hf
    · intro h
      rcases h with ⟨name, hname⟩
      exact ⟨StoreFile.canonical, name, hname⟩
  · constructor
    · rintro ⟨_ | _ | _, name, hf⟩ <;> cases hf
      rfl
    · intro heq
      subst heq
      exact ⟨StoreFile.canonical, StoreFile.canonical, rfl⟩

end ConversationStore

namespace ChatRepository

open Library PrivacyRouter ConversationStore

/-!
# Saves of a launch
-/

/-- The list was on disk at the launch, and no restore has obtained it. -/
def Unread (files : Files) (s : App) (unread : List Conversation) : Prop :=
  files.Holds unread ∧ Observation.restored unread ∉ s.log

def beingSaved : Option Coroutine -> Option (List Conversation)
  | some (Coroutine.saving _ snapshot) => some snapshot
  | _ => none

/-- Every list that was not read is still on disk after a save. -/
def KeepsUnread (files : Files) (s : App) : Event -> Prop
  | Event.resume call (Input.saved faults) now =>
      forall s', step s (Event.resume call (Input.saved faults) now) = some s' ->
        forall unread, Unread files s unread -> s'.files.Holds unread
  | _ => True

/-- A save replaces no list that was not read. -/
def SparesUnread (files : Files) (s : App) : Event -> Prop
  | Event.resume call (Input.saved faults) _ =>
      forall snapshot, beingSaved (s.inFlight call) = some snapshot ->
        forall unread, Unread files s unread ->
          Spares snapshot faults s.files unread
  | _ => True

/-- Nothing but decryptions fails. -/
def OnlyTransient : Event -> Prop
  | Event.resume _ (Input.loadRan faults) _ => Transient faults
  | Event.resume _ (Input.saved faults) _ => Transient faults
  | _ => True

theorem resume_saving {s s' : App} {call : CallId} {faults : List Fault}
    {now : Millis} :
    resume call (Input.saved faults) now s = some s' <->
      exists snapshot, beingSaved (s.inFlight call) = some snapshot ∧
        s' = (s.onFiles (saveFiles snapshot faults s.files)).finish call := by
  unfold resume
  cases hcall : s.inFlight call with
  | none => simp [beingSaved]
  | some c => cases c <;> simp [beingSaved, eq_comm]

theorem keepsUnread_iff (files : Files) (s : App) {e : Event}
    (he : OnlyTransient e) :
    KeepsUnread files s e <-> SparesUnread files s e := by
  cases e with
  | resume call input now =>
      cases input with
      | saved faults =>
          constructor
          · intro hkeeps snapshot hsnapshot unread hunread
            have hholds := hkeeps _
              (resume_saving.mpr ⟨snapshot, hsnapshot, rfl⟩) unread hunread
            exact (saveFiles_holds he s.files).mp hholds
          · intro hspares s' hstep unread hunread
            rcases resume_saving.mp hstep with ⟨snapshot, hsnapshot, rfl⟩
            exact (saveFiles_holds he s.files).mpr
              (hspares snapshot hsnapshot unread hunread)
      | _ => exact Iff.rfl
  | _ => exact Iff.rfl

/-- In every run of a launch in which only decryptions fail, unread history
stays on disk through every save exactly when no save replaces it. -/
theorem unread_history_kept (l : Launch) (es : List Event)
    (hes : forall e, e ∈ es -> OnlyTransient e) :
    AllSteps step (KeepsUnread l.files) l.app es <->
      AllSteps step (SparesUnread l.files) l.app es :=
  allSteps_congr fun s e he => keepsUnread_iff l.files s (hes e he)

def turnAfterLoad (loading saving : List Fault) : List Event :=
  [Event.restore, Event.resume 0 (Input.loadRan loading) 2,
   Event.resume 0 Input.loaded 3, Event.send "two".toList false 4096 false 4,
   Event.resume 1 Input.privacyRead 5, Event.resume 1 Input.completed 6,
   Event.resume 1 (Input.saved saving) 7]

theorem turnAfterLoad_onlyTransient {loading saving : List Fault}
    (hloading : Transient loading) (hsaving : Transient saving) :
    forall e, e ∈ turnAfterLoad loading saving -> OnlyTransient e := by
  intro e he
  simp only [turnAfterLoad, List.mem_cons, List.not_mem_nil, or_false] at he
  rcases he with rfl | rfl | rfl | rfl | rfl | rfl | rfl
  · trivial
  · exact hloading
  · trivial
  · trivial
  · trivial
  · trivial
  · exact hsaving

def firstDecryption : List Fault :=
  [Fault.none, Fault.decryption]

def failedVerification : List Fault :=
  List.replicate 12 Fault.none ++ [Fault.decryption]

theorem firstDecryption_transient : Transient firstDecryption := by
  intro fault hfault
  simp only [firstDecryption, List.mem_cons, List.not_mem_nil, or_false] at hfault
  rcases hfault with rfl | rfl <;> decide

theorem failedVerification_transient : Transient failedVerification := by
  intro fault hfault
  rcases List.mem_append.mp hfault with hnone | hlast
  · rw [List.eq_of_mem_replicate hnone]
    decide
  · rw [List.mem_singleton.mp hlast]
    decide

theorem unread_history_kept_turn :
    AllSteps step (KeepsUnread returning.files) returning.app
      (turnAfterLoad firstDecryption failedVerification) ∧
    exists s, runEvents step returning.app
        (turnAfterLoad firstDecryption failedVerification) = some s ∧
      Unread returning.files s [storedChat] ∧ s.files.Holds [storedChat] := by
  have hheld : returning.files.Holds [storedChat] :=
    ⟨StoreFile.canonical, StoreFile.canonical, rfl⟩
  refine ⟨(unread_history_kept returning _ (turnAfterLoad_onlyTransient
    firstDecryption_transient failedVerification_transient)).mpr ?_,
    _, rfl, ⟨hheld, by decide⟩, StoreFile.canonical, StoreFile.canonical, rfl⟩
  apply AllSteps.cons trivial rfl
  apply AllSteps.cons trivial rfl
  apply AllSteps.cons trivial rfl
  apply AllSteps.cons trivial rfl
  apply AllSteps.cons trivial rfl
  apply AllSteps.cons trivial rfl
  refine AllSteps.cons ?_ rfl trivial
  intro snapshot _ unread h
  rcases h with ⟨⟨f, name, hf⟩, _⟩
  cases f <;> cases hf
  exact ⟨StoreFile.canonical, rfl⟩

/-- One failed decryption, and the next turn replaces the only copy. -/
theorem unread_history_lost :
    (forall e, e ∈ turnAfterLoad firstDecryption [] -> OnlyTransient e) ∧
    ¬ AllSteps step (KeepsUnread returning.files) returning.app
      (turnAfterLoad firstDecryption []) := by
  constructor
  · exact turnAfterLoad_onlyTransient firstDecryption_transient
      (by intro fault hfault; cases hfault)
  · intro h
    have hholds := ((((((h.right _ rfl).right _ rfl).right _ rfl).right _
      rfl).right _ rfl).right _ rfl).left _ rfl [storedChat]
      ⟨⟨StoreFile.canonical, StoreFile.canonical, rfl⟩, by decide⟩
    rcases hholds with ⟨_ | _ | _, _ | _ | _, hf⟩ <;> revert hf <;> decide

end ChatRepository
end DomainAI
