import DomainAI.Data.Models

/-!
# RemoteEngine

The configuration of the cloud provider and the messages of its request.
-/

namespace DomainAI
namespace RemoteEngine

structure Config where
  baseUrl : Text
  apiKey : Text
  model : Text
  /-- True if this model may log or train on prompts. -/
  logsData : Bool := false
  deriving DecidableEq, Repr

def systemPrompt : Text :=
  "You are Domain AI, a concise and helpful assistant. If asked your name, ".toList ++
  "say you are Domain AI. Reply directly with the answer only — never ".toList ++
  "begin your message with your name or a label such as \"Domain AI:\".".toList

structure MessageObject where
  role : Text
  content : Text
  deriving DecidableEq, Repr

def messageObject (m : Message) : MessageObject where
  role := if m.role = Role.USER then "user".toList else "assistant".toList
  content := m.text

structure Payload where
  model : Text
  temperature : Rat := 7 / 10
  stream : Bool := true
  messages : List MessageObject

def buildPayload (config : Config) (prompt : Text) (history : List Message) :
    Payload where
  model := config.model
  messages :=
    { role := "system".toList, content := systemPrompt } ::
      (history.map messageObject ++
        [{ role := "user".toList, content := prompt }])

/-- The conversation texts of a request: everything after the system entry. -/
theorem buildPayload_contents (config : Config) (prompt : Text)
    (history : List Message) :
    (buildPayload config prompt history).messages.tail.map
        MessageObject.content =
      history.map Message.text ++ [prompt] := by
  rw [buildPayload, List.tail_cons, List.map_append, List.map_map]
  rfl

end RemoteEngine

/-- `RemoteConfigStore.load`: a configuration with a blank field is none. -/
def RemoteConfigStore.load (saved : Option RemoteEngine.Config) :
    Option RemoteEngine.Config :=
  saved.filter fun config =>
    !(Text.isBlank config.baseUrl || Text.isBlank config.apiKey ||
      Text.isBlank config.model)

end DomainAI
