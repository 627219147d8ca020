import DomainAI.Data.Models
import Mathlib.Data.List.Sort

/-!
# The list of conversations and the active one

The two state flows of the repository, with the supply that new identifiers are
drawn from.  A clock reading is an argument of every operation that takes one.
-/

namespace DomainAI

/-!
# Conversations
-/

namespace Conversation

def addMessage (message : Message) (now : Millis) (c : Conversation) :
    Conversation :=
  { c with messages := c.messages ++ [message], updatedAt := now }

def replaceLastText (text : Text) : List Message -> List Message
  | [] => []
  | [m] => [{ m with text := text }]
  | m :: ms => m :: replaceLastText text ms

def updateLastText (text : Text) (now : Millis) (c : Conversation) :
    Conversation :=
  if c.messages.isEmpty then c
  else
    { c with messages := replaceLastText text c.messages, updatedAt := now }

def retitleIfNeeded (firstPrompt : Text) (c : Conversation) : Conversation :=
  if c.title = "New chat".toList ∧ !Text.isBlank firstPrompt then
    { c with title := Text.takeUnits 40 firstPrompt }
  else c

@[simp] theorem addMessage_id (m : Message) (now : Millis) (c : Conversation) :
    (c.addMessage m now).id = c.id := rfl

@[simp] theorem addMessage_messages (m : Message) (now : Millis)
    (c : Conversation) :
    (c.addMessage m now).messages = c.messages ++ [m] := rfl

@[simp] theorem updateLastText_id (text : Text) (now : Millis)
    (c : Conversation) : (c.updateLastText text now).id = c.id := by
  unfold updateLastText
  split <;> rfl

@[simp] theorem updateLastText_messages (text : Text) (now : Millis)
    (c : Conversation) :
    (c.updateLastText text now).messages = replaceLastText text c.messages := by
  unfold updateLastText
  split
  · rename_i hempty
    rw [List.isEmpty_iff.mp hempty]
    rfl
  · rfl

@[simp] theorem retitleIfNeeded_id (prompt : Text) (c : Conversation) :
    (c.retitleIfNeeded prompt).id = c.id := by
  unfold retitleIfNeeded
  split <;> rfl

@[simp] theorem retitleIfNeeded_messages (prompt : Text) (c : Conversation) :
    (c.retitleIfNeeded prompt).messages = c.messages := by
  unfold retitleIfNeeded
  split <;> rfl

@[simp] theorem replaceLastText_append (text : Text) (ms : List Message)
    (m : Message) :
    replaceLastText text (ms ++ [m]) = ms ++ [{ m with text := text }] := by
  induction ms with
  | nil => rfl
  | cons first rest ih =>
      cases rest with
      | nil => rfl
      | cons second rest => simpa [replaceLastText] using ih

@[simp] theorem replaceLastText_eq_nil (text : Text) (ms : List Message) :
    replaceLastText text ms = [] <-> ms = [] := by
  rcases List.eq_nil_or_concat ms with hms | ⟨front, m, hms⟩
  · simp [hms, replaceLastText]
  · rw [hms, List.concat_eq_append, replaceLastText_append]
    simp

end Conversation

/-!
# The state flows
-/

/-- `_conversations` and `_activeId`, with the supply of identifiers. -/
structure Chats where
  conversations : List Conversation := []
  activeId : Option Uuid := none
  nextUuid : Uuid := 0
  deriving DecidableEq, Repr

namespace Chats

def currentActive (s : Chats) : Option Conversation :=
  s.conversations.find? (fun c => some c.id = s.activeId)

def updateActive (transform : Conversation -> Conversation) (s : Chats) : Chats :=
  match s.activeId with
  | none => s
  | some id =>
      { s with
        conversations :=
          s.conversations.map fun c => if c.id = id then transform c else c }

def draw (s : Chats) : Chats :=
  { s with nextUuid := s.nextUuid + 1 }

def fresh (now : Millis) (s : Chats) : Conversation :=
  { id := s.nextUuid, updatedAt := now }

def isDraft (c : Conversation) : Bool :=
  c.messages.isEmpty

def newConversation (now : Millis) (s : Chats) : Chats :=
  if s.currentActive.any isDraft then s
  else
    { conversations :=
        s.fresh now :: s.conversations.filter (fun c => !isDraft c)
      activeId := some s.nextUuid
      nextUuid := s.nextUuid + 1 }

def selectConversation (id : Uuid) (s : Chats) : Chats :=
  if s.conversations.all (fun c => c.id ≠ id) then s
  else
    { s with
      conversations :=
        s.conversations.filter (fun c => c.id = id || !isDraft c)
      activeId := some id }

/-- `maxByOrNull { it.updatedAt }`: the first of the most recent ones. -/
def mostRecent : List Conversation -> Option Conversation
  | [] => none
  | c :: rest =>
      some (rest.foldl (fun best d =>
        if best.updatedAt < d.updatedAt then d else best) c)

def without (id : Uuid) (s : Chats) : List Conversation :=
  s.conversations.filter (fun c => c.id ≠ id)

def deleteConversation (id : Uuid) (now : Millis) (s : Chats) : Chats :=
  if s.activeId = some id ∨ s.activeId = none then
    match mostRecent (s.without id) with
    | none =>
        { conversations := [s.fresh now]
          activeId := some s.nextUuid
          nextUuid := s.nextUuid + 1 }
    | some next =>
        { s with conversations := s.without id, activeId := some next.id }
  else
    { s with conversations := s.without id }

/-- Rename; false means that there was nothing to do. -/
def renameConversation (id : Uuid) (title : Text) (s : Chats) : Bool × Chats :=
  if (Text.trim title).isEmpty then (false, s)
  else
    (true,
      { s with
        conversations :=
          s.conversations.map fun c =>
            if c.id = id then
              { c with title := Text.takeUnits 60 (Text.trim title) }
            else c })

/-- What `persist` writes: everything but the empty drafts. -/
def snapshot (s : Chats) : List Conversation :=
  s.conversations.filter (fun c => !isDraft c)

/-- The real conversations of a loaded list, most recently updated first. -/
def stored (loaded : List Conversation) : List Conversation :=
  (loaded.filter (fun c => !isDraft c)).insertionSort
    (fun c d => d.updatedAt ≤ c.updatedAt)

/-- What `restore` assigns, given the list that was loaded. -/
def restoreFrom (loaded : List Conversation) (now : Millis) (s : Chats) : Chats :=
  match stored loaded with
  | [] =>
      { conversations := [s.fresh now]
        activeId := some s.nextUuid
        nextUuid := s.nextUuid + 1 }
  | first :: _ =>
      { s with conversations := stored loaded, activeId := some first.id }

end Chats
end DomainAI
