import DomainAI.Data.Text

/-!
# Messages and conversations

Identifiers come from a supply that never repeats, as random UUIDs are assumed
to; a clock reading is a number of milliseconds.
-/

namespace DomainAI

abbrev Uuid := Nat

abbrev Millis := Int

inductive Role where
  | USER
  | ORACLE
  deriving DecidableEq, Repr

inductive Route where
  | LOCAL
  | CLOUD
  | BLOCKED
  deriving DecidableEq, Repr

structure Message where
  id : Uuid
  role : Role
  text : Text
  route : Route := Route.LOCAL
  sentPayloadPreview : Option Text := none
  timestamp : Millis
  deriving DecidableEq, Repr

structure Conversation where
  id : Uuid
  title : Text := "New chat".toList
  messages : List Message := []
  updatedAt : Millis
  summary : Option Text := none
  summarizedCount : Nat := 0
  deriving DecidableEq, Repr

end DomainAI
