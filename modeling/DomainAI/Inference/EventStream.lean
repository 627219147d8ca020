import DomainAI.Inference.OpenRouterClient
import DomainAI.Inference.RemoteEngine
import DomainAI.Library.Lines
import Mathlib.Data.List.Infix

/-!
# The answer of the cloud provider

A provider that streams sends server-sent events, a line at a time; the deltas of the reply
are the contents in their data frames, up to the closing frame.
-/

namespace DomainAI
namespace RemoteEngine

open Library
open OpenRouterClient (JsonElement JsonPrimitive Thrown contentOf)

/-- What the engine takes from its platform. -/
structure Platform where
  parseToJsonElement : Text -> Except Thrown JsonElement
  /-- UTF-8 bytes as a text; what is malformed is replaced. -/
  readUtf8 : List UInt8 -> Text
  readString : Text -> List UInt8 -> Text

/-- The bytes that arrive, and the exception in which the connection then breaks off. -/
structure ResponseBody where
  bytes : List UInt8
  failure : Option Text := none

structure Response where
  code : Nat
  contentType : Text
  body : Option ResponseBody

inductive Ending where
  | completed
  | failed (message : Text)
  | cancelled
  deriving DecidableEq, Repr

/-!
# JSON
-/

/-- The content in this part of the first choice. -/
def contentIn (p : Platform) (part : String) (data : Text) :
    Except Thrown (Option Text) := do
  let root ← (← p.parseToJsonElement data).jsonObject
  let choices ← (root.lookup "choices".toList).mapM JsonElement.jsonArray
  let choice ← (choices.bind List.head?).mapM JsonElement.jsonObject
  let fields ← (choice.bind fun choice => choice.lookup part.toList).mapM
    JsonElement.jsonObject
  contentOf (fields.bind fun fields => fields.lookup "content".toList)

def parseDelta (p : Platform) (data : Text) : Text :=
  match contentIn p "delta" data with
  | Except.ok (some content) => content
  | _ => []

def parseContent (p : Platform) (body : Text) : Text :=
  match contentIn p "message" body with
  | Except.ok (some content) => content.trim
  | _ => "(Cloud returned an empty message.)".toList

/-!
# Reading
-/

def lineEnds : LineEnds UInt8 where
  feed := 10
  back := 13
  apart := by decide

namespace ResponseBody

/-- `BufferedSource.readUtf8Line`; the last line needs no end. -/
def readUtf8Line (p : Platform) (s : ResponseBody) :
    Except Text (Option (Text × ResponseBody)) :=
  match lineEnds.nextLine s.bytes with
  | some (line, rest) => Except.ok (some (p.readUtf8 line, { s with bytes := rest }))
  | none =>
      match s.failure with
      | some message => Except.error message
      | none =>
          if s.bytes.isEmpty then Except.ok none
          else Except.ok (some (p.readUtf8 s.bytes, { s with bytes := [] }))

/-- `ResponseBody.string`. -/
def string (p : Platform) (contentType : Text) (s : ResponseBody) : Except Text Text :=
  match s.failure with
  | some message => Except.error message
  | none => Except.ok (p.readString contentType s.bytes)

theorem readUtf8Line_shorter {p : Platform} {s rest : ResponseBody} {line : Text}
    (h : s.readUtf8Line p = Except.ok (some (line, rest))) :
    rest.bytes.length < s.bytes.length := by
  unfold readUtf8Line at h
  split at h
  · rename_i hline
    cases h
    exact LineEnds.nextLine_shorter hline
  · split at h
    · cases h
    · split at h
      · cases h
      · rename_i hbytes
        cases h
        exact List.length_pos_of_ne_nil (by simpa using hbytes)

end ResponseBody

inductive Frame where
  | delta (content : Text)
  | skipped
  /-- The frame after which nothing is read. -/
  | done
  deriving DecidableEq, Repr

def frame (p : Platform) (line : Text) : Frame :=
  if "data:".toList.isPrefixOf line then
    let data := Text.trim (line.drop 5)
    if data = "[DONE]".toList then Frame.done
    else
      let delta := parseDelta p data
      if delta.isEmpty then Frame.skipped else Frame.delta delta
  else Frame.skipped

/-- A point at which a cancelled coroutine throws; the count is of those still passed, and
none where the coroutine is not cancelled. -/
def pass : Option Nat -> Option (Option Nat)
  | none => some none
  | some 0 => none
  | some (n + 1) => some (some n)

def stream (p : Platform) (points : Option Nat) (s : ResponseBody) :
    List Text × Ending :=
  -- `exhausted` waits for a byte
  if s.bytes.isEmpty then ([], (s.failure.map Ending.failed).getD Ending.completed)
  else
    match pass points with
    | none => ([], Ending.cancelled)
    | some points =>
        match _h : s.readUtf8Line p with
        | Except.error message => ([], Ending.failed message)
        | Except.ok none => ([], Ending.completed)
        | Except.ok (some (line, rest)) =>
            match frame p line with
            | Frame.done => ([], Ending.completed)
            | Frame.skipped => stream p points rest
            | Frame.delta delta =>
                match pass points with
                | none => ([], Ending.cancelled)
                | some points =>
                    let (deltas, ending) := stream p points rest
                    (delta :: deltas, ending)
termination_by s.bytes.length
decreasing_by
  · exact ResponseBody.readUtf8Line_shorter _h
  · exact ResponseBody.readUtf8Line_shorter _h

def generate (p : Platform) (points : Option Nat) :
    Except Text Response -> List Text × Ending
  | Except.error message => ([], Ending.failed message)
  | Except.ok response =>
      if 200 ≤ response.code ∧ response.code < 300 then
        match response.body with
        | none => ([], Ending.failed "Empty response body".toList)
        | some body =>
            if response.contentType.Contains "text/event-stream".toList then
              stream p points body
            else
              match body.string p response.contentType with
              | Except.error message => ([], Ending.failed message)
              | Except.ok text =>
                  match pass points with
                  | none => ([], Ending.cancelled)
                  | some _ => ([parseContent p text], Ending.completed)
      else
        match response.body.mapM fun body => body.string p response.contentType with
        | Except.error message => ([], Ending.failed message)
        | Except.ok text =>
            ([], Ending.failed ("Cloud provider returned ".toList ++
              (toString response.code).toList ++ ": ".toList ++ text.getD []))

end RemoteEngine
end DomainAI
