import DomainAI.Data.CrashSafety

/-!
# Recovery of older histories

A load tries the files in a fixed order and moves, overwrites and deletes some of
them on the way.  What it tries first decides what the others are still good for.
-/

namespace DomainAI
namespace ConversationStore

open Library Program

/-- The list in bytes that were sealed under one of the two names ever written. -/
def readable : Content -> Option (List Conversation)
  | Content.sealed StoreFile.canonical conversations => some conversations
  | Content.sealed StoreFile.temp conversations => some conversations
  | _ => none

/-- Some file can be made to yield the list. -/
def Recoverable (d : Files) (conversations : List Conversation) : Prop :=
  d.canonical.bind readable = some conversations ∨
    d.backup.bind readable = some conversations ∨
    decode StoreFile.temp d.temp = some conversations

def decryptions (log : List (FileOp × Fault × Files)) : List (List Conversation) :=
  log.filterMap fun e =>
    match e.1 with
    | FileOp.decrypt f => decode f (e.2.2.get f)
    | _ => none

def LoadDecodes (d : Files) (conversations : List Conversation) : Prop :=
  loadResult d = conversations ∧ conversations ∈ decryptions (trace exec load [] d)

def Recovers (d : Files) : Prop :=
  (exists conversations, Recoverable d conversations) ->
    exists conversations, Recoverable d conversations ∧ LoadDecodes d conversations ∧
      LoadDecodes (loadFiles d) conversations

def firstReadable (d : Files) : Option (List Conversation) :=
  match d.canonical, d.backup with
  | some c, _ => readable c
  | none, some c => readable c
  | none, none => decode StoreFile.temp d.temp

/-- Nothing is recoverable, or the first file there is. -/
def FirstFileReadable (d : Files) : Prop :=
  (exists conversations, Recoverable d conversations) ->
    (firstReadable d).isSome = true

theorem recoverable_of_firstReadable {d : Files} {conversations : List Conversation}
    (h : firstReadable d = some conversations) : Recoverable d conversations := by
  rcases d with ⟨_ | c, _ | b, t⟩
  · exact Or.inr (Or.inr h)
  · exact Or.inr (Or.inl h)
  · exact Or.inl h
  · exact Or.inl h

theorem firstReadable_loadFiles (d : Files) :
    firstReadable (loadFiles d) = firstReadable d := by
  rcases d with ⟨_ | c, b, t⟩
  · rcases b with _ | c
    · rcases t with _ | (_ | ⟨_ | _ | _, conversations⟩) <;> rfl
    · rcases c with _ | ⟨_ | _ | _, conversations⟩ <;> cases t <;> rfl
  · rcases c with _ | ⟨_ | _ | _, conversations⟩ <;> cases b <;> cases t <;> rfl

theorem decryptions_load (d : Files) :
    decryptions (trace exec load [] d) = (firstReadable d).toList := by
  rcases d with ⟨_ | c, b, t⟩
  · rcases b with _ | c
    · rcases t with _ | (_ | ⟨_ | _ | _, conversations⟩) <;> rfl
    · rcases c with _ | ⟨_ | _ | _, conversations⟩ <;> cases t <;> rfl
  · rcases c with _ | ⟨_ | _ | _, conversations⟩ <;> cases b <;> cases t <;> rfl

theorem loadResult_eq_firstReadable (d : Files) :
    loadResult d = (firstReadable d).getD [] := by
  have hrecovered : forall c, recovered c = (readable c).getD [] := by
    intro c
    rcases c with _ | ⟨_ | _ | _, conversations⟩ <;> rfl
  rw [loadResult_eq_held]
  rcases d with ⟨_ | c, _ | b, t⟩
  · rfl
  · exact hrecovered b
  · exact hrecovered c
  · exact hrecovered c

/-- A load returns what the first file yields, and nothing else. -/
theorem loadDecodes_iff (d : Files) (conversations : List Conversation) :
    LoadDecodes d conversations <-> firstReadable d = some conversations := by
  unfold LoadDecodes
  rw [loadResult_eq_firstReadable, decryptions_load]
  cases firstReadable d with
  | none => simp
  | some first => simp [eq_comm]

/-- A recoverable history is found, and can be found again, exactly if the first file
there is yields it. -/
theorem legacy_recovery (d : Files) : Recovers d <-> FirstFileReadable d := by
  constructor
  · intro h hrecoverable
    rcases h hrecoverable with ⟨conversations, _, hdecodes, _⟩
    rw [(loadDecodes_iff d conversations).mp hdecodes]
    rfl
  · intro h hrecoverable
    rcases Option.isSome_iff_exists.mp (h hrecoverable) with ⟨conversations, hfirst⟩
    refine ⟨conversations, recoverable_of_firstReadable hfirst, ?_, ?_⟩
    · exact (loadDecodes_iff d conversations).mpr hfirst
    · rw [loadDecodes_iff, firstReadable_loadFiles]
      exact hfirst

def interrupted (conversations : List Conversation) : Files where
  canonical := some Content.unreadable
  temp := some (Content.sealed StoreFile.temp conversations)

/-- The temp is overwritten and deleted before it is tried. -/
theorem legacy_recovery_fails :
    ¬ Recovers (interrupted [{ id := 1, updatedAt := 1 }]) := by
  intro h
  rcases h ⟨_, Or.inr (Or.inr rfl)⟩ with ⟨conversations, _, hdecodes, _⟩
  rw [loadDecodes_iff] at hdecodes
  cases hdecodes

end ConversationStore
end DomainAI
