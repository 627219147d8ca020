import DomainAI.Data.Numerals
import DomainAI.Library.Fallible
import DomainAI.Library.StableSort

/-!
# OpenRouterClient

The catalog is a JSON document.  A field that is missing makes its entry worthless; a
field of another type than expected makes the reading throw, and with it the listing
of all entries.
-/

namespace DomainAI
namespace OpenRouterClient

open Library

/-!
# JSON elements
-/

/-- A literal is known by its content, whether it is quoted or not. -/
inductive JsonPrimitive where
  | JsonNull
  | JsonLiteral (content : Text)
  deriving DecidableEq, Repr

inductive JsonElement where
  | primitive (value : JsonPrimitive)
  | JsonArray (elements : List JsonElement)
  | JsonObject (content : List (Text × JsonElement))

inductive Thrown where
  | SerializationException
  /-- This element is not what it is cast to. -/
  | IllegalArgumentException (element : JsonElement) (expected : Text)

def JsonPrimitive.contentOrNull : JsonPrimitive -> Option Text
  | JsonPrimitive.JsonNull => none
  | JsonPrimitive.JsonLiteral content => some content

namespace JsonElement

def jsonPrimitive : JsonElement -> Except Thrown JsonPrimitive
  | primitive value => Except.ok value
  | element =>
      Except.error (Thrown.IllegalArgumentException element "JsonPrimitive".toList)

def jsonArray : JsonElement -> Except Thrown (List JsonElement)
  | JsonArray elements => Except.ok elements
  | element => Except.error (Thrown.IllegalArgumentException element "JsonArray".toList)

def jsonObject : JsonElement -> Except Thrown (List (Text × JsonElement))
  | JsonObject content => Except.ok content
  | element => Except.error (Thrown.IllegalArgumentException element "JsonObject".toList)

end JsonElement

/-!
# The listing
-/

structure FreeModel where
  id : Text
  name : Text
  contextLength : Int
  logsData : Bool := true
  deriving DecidableEq, Repr

/-- What the client takes from its platform. -/
structure Platform where
  parseToJsonElement : Text -> Except Thrown JsonElement
  lowercase : Text -> Text
  digit : Text.Digits

/-- `?.jsonPrimitive?.contentOrNull` -/
def contentOf (field : Option JsonElement) : Except Thrown (Option Text) := do
  let value ← field.mapM JsonElement.jsonPrimitive
  pure (value.bind JsonPrimitive.contentOrNull)

def pricedAtZero (obj : List (Text × JsonElement)) : Except Thrown Bool := do
  match ← (obj.lookup "pricing".toList).mapM JsonElement.jsonObject with
  | none => pure false
  | some pricing =>
      let promptPrice ← contentOf (pricing.lookup "prompt".toList)
      let completionPrice ← contentOf (pricing.lookup "completion".toList)
      pure (promptPrice = some "0".toList ∧ completionPrice = some "0".toList)

def outputModalities (obj : List (Text × JsonElement)) : Except Thrown (List Text) := do
  let architecture ← (obj.lookup "architecture".toList).mapM JsonElement.jsonObject
  let modalities ← (architecture.bind fun content =>
    content.lookup "output_modalities".toList).mapM JsonElement.jsonArray
  (modalities.getD []).filterMapM fun element => contentOf (some element)

def describe (p : Platform) (obj : List (Text × JsonElement)) :
    Except Thrown (Option FreeModel) := do
  match ← contentOf (obj.lookup "id".toList) with
  | none => pure none
  | some id =>
      let name ← contentOf (obj.lookup "name".toList)
      let ctx ← contentOf (obj.lookup "context_length".toList)
      pure (some
        { id := id
          name := name.getD id
          contextLength := (ctx.bind (Text.toIntOrNull p.digit)).getD 0 })

/-- One entry of the catalog; none when it is skipped. -/
def freeModel (p : Platform) (element : JsonElement) :
    Except Thrown (Option FreeModel) := do
  let obj ← element.jsonObject
  if ← pricedAtZero obj then
    -- keep text-output chat models only
    if (← outputModalities obj) = ["text".toList] then describe p obj
    else pure none
  else pure none

def sortedByName (p : Platform) (models : List FreeModel) : List FreeModel :=
  models.insertionSort fun a b => Text.notAfter (p.lowercase a.name) (p.lowercase b.name)

def parseFreeModels (p : Platform) (body : Text) : Except Thrown (List FreeModel) := do
  let root ← (← p.parseToJsonElement body).jsonObject
  match ← (root.lookup "data".toList).mapM JsonElement.jsonArray with
  | none => pure []
  | some data =>
      let models ← data.filterMapM (freeModel p)
      pure (sortedByName p models)

end OpenRouterClient
end DomainAI
