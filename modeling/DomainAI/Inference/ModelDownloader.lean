import DomainAI.Data.ModelStorage
import DomainAI.Inference.ModelCatalog
import DomainAI.Library.Resume

/-!
# ModelDownloader

A download into a temp file, which may hold something already.  A mirror serves
one byte string and knows ranges; what becomes of a request on its way is a reply.
-/

namespace DomainAI
namespace ModelDownloader

open Library

/-!
# Mirrors
-/

inductive Ending where
  | complete
  /-- The stream is over before the body is, and nobody notices. -/
  | cutShort (arrived : Nat)
  /-- Reading fails. -/
  | interrupted (arrived : Nat)
  /-- Writing fails, or whoever writes is gone. -/
  | stopped (arrived : Nat) (message : Option Text)
  deriving DecidableEq, Repr

def Ending.written : Ending -> Bytes -> Bytes
  | Ending.complete, body => body
  | Ending.cutShort arrived, body => body.take arrived
  | Ending.interrupted arrived, body => body.take arrived
  | Ending.stopped arrived _, body => body.take arrived

structure ErrorStatus where
  code : Nat
  unsuccessful : ¬ (200 ≤ code ∧ code < 300)
  satisfiable : code ≠ 416
  deriving DecidableEq, Repr

inductive Reply where
  | unreachable
  | refused (status : ErrorStatus)
  | served (ignoresRange : Bool) (ending : Ending)
  deriving DecidableEq, Repr

instance : Inhabited Reply :=
  ⟨Reply.served false Ending.complete⟩

/-- No body is cut short without notice. -/
def Reply.whole : Reply -> Bool
  | Reply.served _ (Ending.cutShort _) => false
  | _ => true

structure Response where
  code : Nat
  body : Option Bytes
  ending : Ending
  deriving DecidableEq, Repr

def Response.isSuccessful (r : Response) : Bool :=
  200 ≤ r.code && r.code < 300

def respond (content : Bytes) (range : Option Nat) : Reply -> Option Response
  | Reply.unreachable => none
  | Reply.refused status =>
      some { code := status.code, body := some [], ending := Ending.complete }
  | Reply.served ignoresRange ending =>
      match range, ignoresRange with
      | some first, false =>
          if content.length ≤ first then
            some { code := 416, body := some [], ending := Ending.complete }
          else
            some { code := 206, body := some (content.drop first), ending := ending }
      | _, _ => some { code := 200, body := some content, ending := ending }

/-!
# Downloads
-/

/-- `^https?://([^/]+)/`, and what precedes the port. -/
def toHttpHostOrNull (url : Text) : Option Text :=
  let rest :=
    if "https://".toList.isPrefixOf url then some (url.drop 8)
    else if "http://".toList.isPrefixOf url then some (url.drop 7)
    else none
  rest.bind fun t =>
    let host := t.takeWhile (fun c => c != '/')
    if host = [] ∨ host.length = t.length then none
    else some (host.takeWhile (fun c => c != ':'))

def MAX_RETRIES : Nat := 3

def RETRYABLE_CODES : List Nat := [408, 425, 429, 500, 502, 503, 504]

/-- How `streamOnce` ends: it returns, or throws one of two exceptions. -/
inductive Streamed where
  | returned
  | transient (message : Text)
  | failed (message : Option Text)
  deriving DecidableEq, Repr

def Ending.streamed : Ending -> Streamed
  | Ending.complete => Streamed.returned
  | Ending.cutShort _ => Streamed.returned
  | Ending.interrupted _ => Streamed.transient "Stream interrupted".toList
  | Ending.stopped _ message => Streamed.failed message

def httpMessage (code : Nat) : Text :=
  "HTTP ".toList ++ (toString code).toList

/-- One request, and what it leaves in the temp file. -/
def streamOnce (content : Bytes) (reply : Reply) (destination : Option Bytes) :
    Streamed × Option Bytes :=
  let existing := (destination.getD []).length
  let range := if 0 < existing then some existing else none
  match respond content range reply with
  | none => (Streamed.transient "Connection failed".toList, destination)
  | some response =>
      if response.code = 416 then (Streamed.returned, destination)
      else if !response.isSuccessful then
        if response.code ∈ RETRYABLE_CODES then
          (Streamed.transient (httpMessage response.code), destination)
        else
          (Streamed.failed (some (httpMessage response.code)), destination)
      else
        match response.body with
        | none =>
            (Streamed.failed (some "Empty response body".toList), destination)
        | some body =>
            let resuming := response.code = 206
            let kept := if resuming then destination.getD [] else []
            (response.ending.streamed, some (kept ++ response.ending.written body))

def streamAll (content : Bytes) :
    Nat -> List Reply -> Option Bytes -> Except (Option Text) Unit × Option Bytes
  | retries, replies, destination =>
      match streamOnce content (replies.headD default) destination with
      | (Streamed.returned, destination) => (Except.ok (), destination)
      | (Streamed.failed message, destination) => (Except.error message, destination)
      | (Streamed.transient message, destination) =>
          match retries with
          | 0 =>
              (Except.error (some ("Failed after ".toList ++
                (toString MAX_RETRIES).toList ++ " attempts: ".toList ++ message)),
                destination)
          | retries + 1 => streamAll content retries replies.tail destination

def isAllowed (url : Text) : Bool :=
  (toHttpHostOrNull url).any fun host => host ∈ ModelCatalog.allowedHosts

/-- The result, and the temp file afterwards; an error is the message of an
exception. -/
def download (content : Text -> Bytes) (url : Text) (replies : List Reply)
    (destination : Option Bytes) : Except (Option Text) Unit × Option Bytes :=
  if isAllowed url then
    streamAll (content url) (MAX_RETRIES - 1) replies destination
  else
    (Except.error (some ("Refusing to download from a non-allow-listed host: ".toList ++
      (toHttpHostOrNull url).getD "null".toList)), destination)

/-!
# What a download leaves

All that a download knows of its temp file is a length.  A reply may send
everything anew, and then it does not matter what was there.
-/

def Reply.goesOn : Reply -> Bool
  | Reply.served ignoresRange _ => !ignoresRange
  | _ => false

def Reply.isRetried : Reply -> Bool
  | Reply.unreachable => true
  | Reply.refused status => status.code ∈ RETRYABLE_CODES
  | Reply.served _ _ => false

def continues : Nat -> List Reply -> Bool
  | 0, replies => (replies.headD default).goesOn
  | retries + 1, replies =>
      (replies.headD default).goesOn ||
        (replies.headD default).isRetried && continues retries replies.tail

section Transfers

variable {content : Bytes} {destination : Option Bytes}

/-- What the temp file holds by the end of the body, if all goes well. -/
def expected (content : Bytes) (destination : Option Bytes) : Bytes :=
  resumed content (destination.getD [])

theorem streamOnce_unreachable :
    streamOnce content Reply.unreachable destination =
      (Streamed.transient "Connection failed".toList, destination) := rfl

theorem streamOnce_refused (status : ErrorStatus) :
    streamOnce content (Reply.refused status) destination =
      (if status.code ∈ RETRYABLE_CODES then
        Streamed.transient (httpMessage status.code)
      else Streamed.failed (some (httpMessage status.code)), destination) := by
  have hfailed : (decide (200 ≤ status.code) && decide (status.code < 300)) = false := by
    rw [Bool.eq_false_iff]
    intro h
    simp only [Bool.and_eq_true, decide_eq_true_eq] at h
    exact status.unsuccessful h
  simp only [streamOnce, respond, Response.isSuccessful, hfailed,
    if_neg status.satisfiable, Bool.not_false, if_true]
  split <;> rfl

theorem streamOnce_anew {ignoresRange : Bool} (ending : Ending)
    (h : ignoresRange = true ∨ destination.getD [] = []) :
    streamOnce content (Reply.served ignoresRange ending) destination =
      (ending.streamed, some (ending.written content)) := by
  have hresponse : respond content
      (if 0 < (destination.getD []).length then some (destination.getD []).length
        else none) (Reply.served ignoresRange ending) =
      some { code := 200, body := some content, ending := ending } := by
    rcases h with rfl | h
    · split <;> rfl
    · rw [h]
      rfl
  simp only [streamOnce, hresponse]
  rfl

theorem streamOnce_unsatisfiable (ending : Ending) (h : destination.getD [] ≠ [])
    (hlength : content.length ≤ (destination.getD []).length) :
    streamOnce content (Reply.served false ending) destination =
      (Streamed.returned, destination) := by
  simp only [streamOnce, respond, if_pos (List.length_pos_iff.mpr h), if_pos hlength]
  rfl

theorem streamOnce_resumed (ending : Ending) (h : destination.getD [] ≠ [])
    (hlength : ¬ content.length ≤ (destination.getD []).length) :
    streamOnce content (Reply.served false ending) destination =
      (ending.streamed, some (destination.getD [] ++
        ending.written (content.drop (destination.getD []).length))) := by
  simp only [streamOnce, respond, if_pos (List.length_pos_iff.mpr h), if_neg hlength]
  rfl

theorem Ending.written_of_returned {ending : Ending} {ignoresRange : Bool}
    (hwhole : (Reply.served ignoresRange ending).whole = true)
    (h : ending.streamed = Streamed.returned) (body : Bytes) :
    ending.written body = body := by
  cases ending with
  | complete => rfl
  | cutShort arrived => cases hwhole
  | interrupted arrived => cases h
  | stopped arrived message => cases h

theorem Ending.written_of_transient {ending : Ending} {message : Text}
    (h : ending.streamed = Streamed.transient message) :
    exists n, forall body, ending.written body = body.take n := by
  cases ending with
  | complete => cases h
  | cutShort arrived => cases h
  | interrupted arrived => exact ⟨arrived, fun _ => rfl⟩
  | stopped arrived message => cases h

theorem streamOnce_returned (content : Bytes) (destination : Option Bytes)
    {reply : Reply} (hwhole : reply.whole = true)
    (h : (streamOnce content reply destination).1 = Streamed.returned) :
    (streamOnce content reply destination).2 = some content ∨
      reply.goesOn = true ∧
        (streamOnce content reply destination).2 =
          some (expected content destination) := by
  cases reply with
  | unreachable =>
      rw [streamOnce_unreachable] at h
      cases h
  | refused status =>
      rw [streamOnce_refused] at h
      split at h <;> cases h
  | served ignoresRange ending =>
      by_cases hanew : ignoresRange = true ∨ destination.getD [] = []
      · rw [streamOnce_anew ending hanew] at h ⊢
        exact Or.inl (congrArg some (Ending.written_of_returned hwhole h content))
      · rw [not_or, Bool.not_eq_true] at hanew
        rcases hanew with ⟨rfl, hdestination⟩
        apply Or.inr
        constructor
        · rfl
        by_cases hlength : content.length ≤ (destination.getD []).length
        · rw [streamOnce_unsatisfiable ending hdestination hlength, expected,
            resumed_of_length_le hlength]
          cases destination with
          | none => exact absurd rfl hdestination
          | some bytes => rfl
        · rw [streamOnce_resumed ending hdestination hlength] at h ⊢
          rw [Ending.written_of_returned hwhole h]
          rfl

/-- After a transient failure as much is expected as before, or the body has been
started anew. -/
theorem streamOnce_transient (content : Bytes) (reply : Reply)
    (destination : Option Bytes) {message : Text}
    (h : (streamOnce content reply destination).1 = Streamed.transient message) :
    expected content (streamOnce content reply destination).2 = content ∨
      (reply.goesOn = true ∨ reply.isRetried = true) ∧
        expected content (streamOnce content reply destination).2 =
          expected content destination := by
  cases reply with
  | unreachable =>
      rw [streamOnce_unreachable]
      exact Or.inr ⟨Or.inr rfl, rfl⟩
  | refused status =>
      rw [streamOnce_refused] at h ⊢
      split at h
      · rename_i hstatus
        exact Or.inr ⟨Or.inr (decide_eq_true hstatus), rfl⟩
      · cases h
  | served ignoresRange ending =>
      by_cases hanew : ignoresRange = true ∨ destination.getD [] = []
      · rw [streamOnce_anew ending hanew] at h ⊢
        rcases Ending.written_of_transient h with ⟨n, hwritten⟩
        rw [hwritten]
        exact Or.inl (resumed_take n)
      · rw [not_or, Bool.not_eq_true] at hanew
        rcases hanew with ⟨rfl, hdestination⟩
        by_cases hlength : content.length ≤ (destination.getD []).length
        · rw [streamOnce_unsatisfiable ending hdestination hlength] at h
          cases h
        · rw [streamOnce_resumed ending hdestination hlength] at h ⊢
          rcases Ending.written_of_transient h with ⟨n, hwritten⟩
          rw [hwritten]
          exact Or.inr ⟨Or.inl rfl, resumed_append_take n⟩

theorem whole_headD {replies : List Reply}
    (hwhole : forall reply, reply ∈ replies -> reply.whole = true) :
    (replies.headD default).whole = true := by
  cases replies with
  | nil => rfl
  | cons reply rest => exact hwhole reply List.mem_cons_self

/-- What a finished download leaves is what the mirror serves, or the temp file
from before with the rest of that. -/
theorem streamAll_ok (retries : Nat) {replies : List Reply}
    (hwhole : forall reply, reply ∈ replies -> reply.whole = true)
    (h : (streamAll content retries replies destination).1 = Except.ok ()) :
    (streamAll content retries replies destination).2 = some content ∨
      continues retries replies = true ∧
        (streamAll content retries replies destination).2 =
          some (expected content destination) := by
  induction retries generalizing replies destination with
  | zero =>
      have hreturned := streamOnce_returned content destination (whole_headD hwhole)
      rw [streamAll] at h ⊢
      generalize streamOnce content (replies.headD default) destination = r at *
      rcases r with ⟨_ | message | message, left⟩
      · exact hreturned rfl
      · cases h
      · cases h
  | succ retries ih =>
      have hreturned := streamOnce_returned content destination (whole_headD hwhole)
      have htransient := @streamOnce_transient content (replies.headD default) destination
      rw [streamAll] at h ⊢
      generalize streamOnce content (replies.headD default) destination = r at *
      rcases r with ⟨_ | message | message, left⟩
      · rcases hreturned rfl with hcontent | ⟨hgoesOn, hleft⟩
        · exact Or.inl hcontent
        · exact Or.inr ⟨by rw [continues, hgoesOn]; rfl, hleft⟩
      · have hlater := ih (fun reply hreply => hwhole reply (List.mem_of_mem_tail hreply)) h
        rcases htransient rfl with hanew | ⟨hreply, hexpected⟩
        · rw [hanew] at hlater
          exact Or.inl (hlater.elim id And.right)
        · rw [hexpected] at hlater
          refine hlater.imp_right fun hlast => ⟨?_, hlast.right⟩
          rw [continues, Bool.or_eq_true, Bool.and_eq_true]
          exact hreply.imp_right fun hretried => ⟨hretried, hlast.left⟩
      · cases h

theorem download_ok {content : Text -> Bytes} {url : Text} {replies : List Reply}
    (hwhole : forall reply, reply ∈ replies -> reply.whole = true)
    (h : (download content url replies destination).1 = Except.ok ()) :
    (download content url replies destination).2 = some (content url) ∨
      (isAllowed url = true ∧ continues (MAX_RETRIES - 1) replies = true) ∧
        (download content url replies destination).2 =
          some (expected (content url) destination) := by
  unfold download at h ⊢
  split at h
  · rename_i hallowed
    rw [if_pos hallowed]
    exact (streamAll_ok _ hwhole h).imp_right fun hlast =>
      ⟨⟨hallowed, hlast.left⟩, hlast.right⟩
  · cases h

theorem streamOnce_complete :
    streamOnce content (Reply.served false Ending.complete) destination =
      (Streamed.returned, some (expected content destination)) := by
  by_cases h : destination.getD [] = []
  · rw [streamOnce_anew Ending.complete (Or.inr h), expected, h]
    rfl
  · by_cases hlength : content.length ≤ (destination.getD []).length
    · rw [streamOnce_unsatisfiable Ending.complete h hlength, expected,
        resumed_of_length_le hlength]
      cases destination with
      | none => exact absurd rfl h
      | some bytes => rfl
    · rw [streamOnce_resumed Ending.complete h hlength]
      rfl

theorem download_complete {content : Text -> Bytes} {url : Text}
    (h : isAllowed url = true) (destination : Option Bytes) :
    ModelDownloader.download content url [] destination =
      (Except.ok (), some (expected (content url) destination)) := by
  have honce : streamOnce (content url) default destination =
      (Streamed.returned, some (expected (content url) destination)) :=
    streamOnce_complete
  rw [download, if_pos h, streamAll, List.headD_nil, honce]

end Transfers

end ModelDownloader
end DomainAI
