import DomainAI.Inference.ModelDownloader

/-!
# Resumable downloads

A download with the requests that it sends and the exceptions that it throws.  A
mirror that keeps its promises may be unreachable, busy or interrupted at any time,
and what a finished download leaves is still what it serves.
-/

namespace DomainAI
namespace ModelDownloader

/-!
# Requests and exceptions
-/

inductive Thrown where
  | MirrorFailedException (message : Text)
  | IllegalArgumentException (message : Text)
  | passedOn (message : Option Text)
  deriving DecidableEq, Repr

def Thrown.message : Thrown -> Option Text
  | Thrown.MirrorFailedException message => some message
  | Thrown.IllegalArgumentException message => some message
  | Thrown.passedOn message => message

structure Outcome where
  result : Except Thrown Unit
  requests : Nat
  destination : Option Bytes

/-- The exception that leaves `streamOnce` and is not retried. -/
def Reply.thrown : Reply -> Option Text -> Thrown
  | Reply.served _ (Ending.stopped _ _), message => Thrown.passedOn message
  | _, message => Thrown.MirrorFailedException (message.getD [])

def attempts (content : Bytes) : Nat -> List Reply -> Option Bytes -> Outcome
  | retries, replies, destination =>
      match streamOnce content (replies.headD default) destination with
      | (Streamed.returned, destination) =>
          { result := Except.ok (), requests := 1, destination := destination }
      | (Streamed.failed message, destination) =>
          { result := Except.error ((replies.headD default).thrown message),
            requests := 1, destination := destination }
      | (Streamed.transient message, destination) =>
          match retries with
          | 0 =>
              { result := Except.error (Thrown.MirrorFailedException
                  ("Failed after ".toList ++ (toString MAX_RETRIES).toList ++
                    " attempts: ".toList ++ message)),
                requests := 1, destination := destination }
          | retries + 1 =>
              let later := attempts content retries replies.tail destination
              { later with requests := later.requests + 1 }

def outcome (content : Text -> Bytes) (url : Text) (replies : List Reply)
    (destination : Option Bytes) : Outcome :=
  if isAllowed url then attempts (content url) (MAX_RETRIES - 1) replies destination
  else
    { result := Except.error (Thrown.IllegalArgumentException
        ("Refusing to download from a non-allow-listed host: ".toList ++
          (toHttpHostOrNull url).getD "null".toList)),
      requests := 0, destination := destination }

/-!
# The same downloads
-/

variable {content : Bytes} {destination : Option Bytes}

theorem streamOnce_served (content : Bytes) (ignoresRange : Bool) (ending : Ending)
    (destination : Option Bytes) :
    (streamOnce content (Reply.served ignoresRange ending) destination).1 =
        Streamed.returned ∨
      (streamOnce content (Reply.served ignoresRange ending) destination).1 =
        ending.streamed := by
  by_cases hanew : ignoresRange = true ∨ destination.getD [] = []
  · rw [streamOnce_anew ending hanew]
    exact Or.inr rfl
  · rw [not_or, Bool.not_eq_true] at hanew
    rcases hanew with ⟨rfl, hdestination⟩
    by_cases hlength : content.length ≤ (destination.getD []).length
    · rw [streamOnce_unsatisfiable ending hdestination hlength]
      exact Or.inl rfl
    · rw [streamOnce_resumed ending hdestination hlength]
      exact Or.inr rfl

theorem streamOnce_failed {reply : Reply} {message : Option Text}
    (h : (streamOnce content reply destination).1 = Streamed.failed message) :
    (exists status : ErrorStatus, reply = Reply.refused status ∧
        status.code ∉ RETRYABLE_CODES ∧ message = some (httpMessage status.code)) ∨
      exists ignoresRange arrived,
        reply = Reply.served ignoresRange (Ending.stopped arrived message) := by
  cases reply with
  | unreachable => cases h
  | refused status =>
      rw [streamOnce_refused] at h
      split at h
      · cases h
      · rename_i hstatus
        cases h
        exact Or.inl ⟨status, rfl, hstatus, rfl⟩
  | served ignoresRange ending =>
      rcases streamOnce_served content ignoresRange ending destination with hend | hend
      · rw [h] at hend
        cases hend
      · rw [h] at hend
        cases ending with
        | complete => cases hend
        | cutShort arrived => cases hend
        | interrupted arrived => cases hend
        | stopped arrived reason =>
            cases hend
            exact Or.inr ⟨ignoresRange, arrived, rfl⟩

theorem thrown_message {reply : Reply} {message : Option Text}
    (h : (streamOnce content reply destination).1 = Streamed.failed message) :
    (reply.thrown message).message = message := by
  rcases streamOnce_failed h with ⟨status, rfl, _, rfl⟩ | ⟨ignoresRange, arrived, rfl⟩
  · rfl
  · rfl

theorem attempts_eq (content : Bytes) (retries : Nat) (replies : List Reply)
    (destination : Option Bytes) :
    streamAll content retries replies destination =
      ((attempts content retries replies destination).result.mapError Thrown.message,
        (attempts content retries replies destination).destination) := by
  induction retries generalizing replies destination with
  | zero =>
      have hfailed := @thrown_message content destination (replies.headD default)
      rw [streamAll, attempts]
      generalize streamOnce content (replies.headD default) destination = r at hfailed ⊢
      rcases r with ⟨_ | message | message, left⟩
      · rfl
      · rfl
      · simp only [Except.mapError, hfailed rfl]
  | succ retries ih =>
      have hfailed := @thrown_message content destination (replies.headD default)
      rw [streamAll, attempts]
      generalize streamOnce content (replies.headD default) destination = r at hfailed ⊢
      rcases r with ⟨_ | message | message, left⟩
      · rfl
      · exact ih replies.tail left
      · simp only [Except.mapError, hfailed rfl]

theorem download_eq (content : Text -> Bytes) (url : Text) (replies : List Reply)
    (destination : Option Bytes) :
    ModelDownloader.download content url replies destination =
      ((outcome content url replies destination).result.mapError Thrown.message,
        (outcome content url replies destination).destination) := by
  unfold ModelDownloader.download outcome
  split
  · exact attempts_eq _ _ _ _
  · rfl

/-!
# Mirrors that keep their promises
-/

/-- Unreachable, busy, or a body that is sent to its end or interrupted. -/
def Reply.promised : Reply -> Bool
  | Reply.unreachable => true
  | Reply.refused status => status.code ∈ RETRYABLE_CODES
  | Reply.served _ Ending.complete => true
  | Reply.served _ (Ending.interrupted _) => true
  | Reply.served _ _ => false

theorem Reply.whole_of_promised {reply : Reply} (h : reply.promised = true) :
    reply.whole = true := by
  cases reply with
  | unreachable => rfl
  | refused status => rfl
  | served ignoresRange ending =>
      cases ending with
      | complete => rfl
      | cutShort arrived => cases h
      | interrupted arrived => rfl
      | stopped arrived message => cases h

theorem promised_headD {replies : List Reply}
    (h : forall reply, reply ∈ replies -> reply.promised = true) :
    (replies.headD default).promised = true := by
  cases replies with
  | nil => rfl
  | cons reply rest => exact h reply List.mem_cons_self

theorem streamOnce_promised {reply : Reply} {message : Option Text}
    (hpromised : reply.promised = true) :
    (streamOnce content reply destination).1 ≠ Streamed.failed message := by
  intro h
  rcases streamOnce_failed h with ⟨status, rfl, hstatus, _⟩ | ⟨_, _, rfl⟩
  · exact hstatus (of_decide_eq_true hpromised)
  · cases hpromised

theorem attempts_requests (content : Bytes) (retries : Nat) (replies : List Reply)
    (destination : Option Bytes) :
    (attempts content retries replies destination).requests ≤ retries + 1 := by
  induction retries generalizing replies destination with
  | zero =>
      rw [attempts]
      rcases streamOnce content (replies.headD default) destination with
        ⟨_ | message | message, left⟩
      all_goals exact Nat.le_refl 1
  | succ retries ih =>
      rw [attempts]
      rcases streamOnce content (replies.headD default) destination with
        ⟨_ | message | message, left⟩
      · exact Nat.le_add_left 1 _
      · exact Nat.succ_le_succ (ih replies.tail left)
      · exact Nat.le_add_left 1 _

theorem attempts_promised {retries : Nat} {replies : List Reply} {e : Thrown}
    (hpromised : forall reply, reply ∈ replies -> reply.promised = true)
    (h : (attempts content retries replies destination).result = Except.error e) :
    exists message, e = Thrown.MirrorFailedException message := by
  induction retries generalizing replies destination with
  | zero =>
      have hgoes := @streamOnce_promised content destination (replies.headD default)
      rw [attempts] at h
      generalize streamOnce content (replies.headD default) destination = r at hgoes h
      rcases r with ⟨_ | message | message, left⟩
      · cases h
      · cases h
        exact ⟨_, rfl⟩
      · exact absurd rfl (hgoes (promised_headD hpromised))
  | succ retries ih =>
      have hgoes := @streamOnce_promised content destination (replies.headD default)
      rw [attempts] at h
      generalize streamOnce content (replies.headD default) destination = r at hgoes h
      rcases r with ⟨_ | message | message, left⟩
      · cases h
      · exact ih (fun reply hreply => hpromised reply (List.mem_of_mem_tail hreply)) h
      · exact absurd rfl (hgoes (promised_headD hpromised))

/-- Whatever delays it, a download that finishes has fetched what the mirror serves;
it sends three requests at most, and fails only as a mirror that has failed. -/
theorem resumable_download (content : Text -> Bytes) {url : Text}
    (hallowed : isAllowed url = true) {replies : List Reply}
    (hpromised : forall reply, reply ∈ replies -> reply.promised = true) :
    let o := outcome content url replies none
    (o.result = Except.ok () -> o.destination = some (content url)) ∧
      o.requests ≤ 3 ∧
      forall e, o.result = Except.error e ->
        exists message, e = Thrown.MirrorFailedException message := by
  intro o
  have hrun : o = attempts (content url) (MAX_RETRIES - 1) replies none := if_pos hallowed
  refine ⟨?_, ?_, ?_⟩
  · intro hok
    have hwhole : forall reply, reply ∈ replies -> reply.whole = true :=
      fun reply hreply => Reply.whole_of_promised (hpromised reply hreply)
    have hdownload := download_eq content url replies none
    have hresult : (ModelDownloader.download content url replies none).1 =
        Except.ok () := by
      rw [hdownload]
      show o.result.mapError Thrown.message = _
      rw [hok]
      rfl
    have hleft : (ModelDownloader.download content url replies none).2 = o.destination :=
      congrArg Prod.snd hdownload
    rw [<- hleft]
    rcases download_ok hwhole hresult with hcontent | ⟨_, hexpected⟩
    · exact hcontent
    · exact hexpected
  · rw [hrun]
    exact attempts_requests _ _ _ _
  · intro e he
    rw [hrun] at he
    exact attempts_promised hpromised he

theorem resumable_download_interrupted :
    let replies := [Reply.served false (Ending.interrupted 1),
      Reply.served false (Ending.interrupted 2)]
    let o := outcome (fun _ => [0x47, 0x47, 0x55]) "https://huggingface.co/m".toList
      replies none
    o.destination = some [0x47, 0x47, 0x55] ∧ o.requests ≤ 3 := by
  intro replies o
  have hallowed : isAllowed "https://huggingface.co/m".toList = true := by
    decide
  have hpromised : forall reply, reply ∈ replies -> reply.promised = true := by
    decide
  have h := resumable_download (fun _ => [0x47, 0x47, 0x55]) hallowed hpromised
  exact ⟨h.left (by rfl), h.right.left⟩

end ModelDownloader
end DomainAI
