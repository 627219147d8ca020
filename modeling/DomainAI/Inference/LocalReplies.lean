import DomainAI.Data.SendFrame
import DomainAI.Inference.ChatFormat
import DomainAI.Llama.Delivery

/-!
# Replies of the loaded model

The repository and the run loop side by side.  A turn that is answered on the device collects
the flow of the loaded model: it takes the strings of one generation as the deltas of its
reply.  All else that the two do interleaves.
-/

namespace DomainAI
namespace LocalReplies

open Library ChatRepository LLamaAndroid
open PrivacyRouter (StreamingOutcome EngineSide)

structure System where
  app : App
  delivery : Delivery := {}
  generations : CallId -> Option GenerationId := fun _ => none
  claimed : GenerationId -> Bool := fun _ => false

inductive Event where
  | app (e : ChatRepository.Event)
  | loop (e : Delivery.Event)
  | collect (call : CallId)
  | deliver (call : CallId) (now : Millis)
  | complete (call : CallId) (now : Millis)
  | stop (call : CallId) (now : Millis)

def nextString (s : Delivery) (id : GenerationId) : Option Text :=
  match s.loop.producers id with
  | some p => p.point.buffered.head?
  | none => (s.left id).head?

def takeNext (s : Delivery) (id : GenerationId) : Delivery.Event :=
  if (s.loop.producers id).isSome then Delivery.Event.loop (LLamaAndroid.Event.take id)
  else Delivery.Event.drain id

/-- The coroutine has ended and its channel is empty. -/
def ended (s : Delivery) (id : GenerationId) : Bool :=
  (s.loop.producers id).isNone && (s.left id).isEmpty

/-- `generate` of the backend: the chat and what the fallback makes of it. -/
def chat (tokens : Flow) : Prompt :=
  let turns := ChatFormat.turns tokens.prompt tokens.history
  Prompt.chat turns (ChatFormat.fallback turns)

def resumes : ChatRepository.Event -> Option CallId
  | ChatRepository.Event.resume call _ _ => some call
  | _ => none

def collects : Delivery.Event -> Option GenerationId
  | Delivery.Event.loop (LLamaAndroid.Event.take id) => some id
  | Delivery.Event.loop (LLamaAndroid.Event.cancel id) => some id
  | Delivery.Event.loop _ => none
  | Delivery.Event.drain id => some id

namespace System

def resume (call : CallId) (input : Input) (now : Millis) (s : System) : Option System :=
  (ChatRepository.step s.app (ChatRepository.Event.resume call input now)).map fun app =>
    { s with app := app }

def deliver (e : Delivery.Event) (s : System) : Option System :=
  (Delivery.step s.delivery e).map fun delivery => { s with delivery := delivery }

def release (call : CallId) (s : System) : System :=
  { s with generations := Function.update s.generations call none }

def claim (call : CallId) (id : GenerationId) (s : System) : System :=
  { s with
    generations := Function.update s.generations call (some id)
    claimed := Function.update s.claimed id true }

end System

def step (s : System) : Event -> Option System
  | Event.app e =>
      match (resumes e).bind s.generations with
      | some _ => none
      | none => (ChatRepository.step s.app e).map fun app => { s with app := app }
  | Event.loop e =>
      if (collects e).any s.claimed then none else s.deliver e
  | Event.collect call =>
      match s.generations call, s.app.inFlight call with
      | none, some (Coroutine.streaming outcome []) =>
          if outcome.tokens.side = EngineSide.onDevice then
            (s.deliver (Delivery.Event.loop
              (LLamaAndroid.Event.collect (chat outcome.tokens)))).map
              (System.claim call s.delivery.loop.nextGeneration)
          else none
      | _, _ => none
  | Event.deliver call now =>
      match s.generations call with
      | none => none
      | some id =>
          match nextString s.delivery id with
          | none => none
          | some str =>
              (s.deliver (takeNext s.delivery id)).bind (System.resume call (Input.delta str) now)
  | Event.complete call now =>
      match s.generations call with
      | none => none
      | some id =>
          if ended s.delivery id then
            (s.resume call Input.completed now).map (System.release call)
          else none
  | Event.stop call now =>
      match s.generations call with
      | none => none
      | some id =>
          (((s.deliver (Delivery.Event.loop (LLamaAndroid.Event.cancel id))).getD s).resume
            call Input.cancelled now).map (System.release call)

/-!
# What one event of the run loop leaves alone
-/

theorem record_of_ne {element : Option (GenerationId × Text)} {id : GenerationId}
    (h : forall x, element = some x -> x.1 ≠ id) (lists : GenerationId -> List Text) :
    Delivery.record element lists id = lists id := by
  cases element with
  | none => rfl
  | some x => exact Function.update_of_ne (Ne.symm (h x rfl)) _ _

theorem taken_eq (s : RunLoop) (id : GenerationId) :
    LLamaAndroid.taken s (LLamaAndroid.Event.take id) =
      ((s.producers id).bind fun p => p.point.buffered.head?).map (Prod.mk id) := by
  rw [LLamaAndroid.taken]
  cases s.producers id <;> rfl

structure Untouched (id : GenerationId) (s s' : Delivery) : Prop where
  received : s'.received id = s.received id
  stopped : s'.stopped id = s.stopped id
  next : s.loop.nextGeneration ≤ s'.loop.nextGeneration

theorem step_untouched {s s' : Delivery} {e : Delivery.Event} {id : GenerationId}
    (h : Delivery.step s e = some s') (hother : collects e ≠ some id) :
    Untouched id s s' := by
  cases e with
  | drain other =>
      have hne : id ≠ other := fun heq => hother (congrArg some heq.symm)
      simp only [Delivery.step] at h
      split at h <;> cases h
      exact ⟨Function.update_of_ne hne _ _, rfl, Nat.le_refl _⟩
  | loop e =>
      rcases Option.map_eq_some_iff.mp h with ⟨loop, hloop, rfl⟩
      refine ⟨record_of_ne ?_ _, ?_, nextGeneration_le hloop⟩
      · intro x hx
        cases e with
        | take other =>
            rw [taken_eq] at hx
            rcases Option.map_eq_some_iff.mp hx with ⟨str, _, rfl⟩
            exact fun heq => hother (congrArg some heq)
        | _ => cases hx
      · have hstops : stops e ≠ some id := by
          cases e with
          | cancel other => exact hother
          | _ => exact fun hnone => by cases hnone
        show (s.stopped id || decide (stops e = some id)) = s.stopped id
        rw [decide_eq_false hstops, Bool.or_false]

theorem takeNext_received {s s' : Delivery} {id : GenerationId} {str : Text}
    (hnext : nextString s id = some str) (h : Delivery.step s (takeNext s id) = some s') :
    s'.received id = s.received id ++ [str] ∧ s'.stopped id = s.stopped id ∧
      s.loop.nextGeneration ≤ s'.loop.nextGeneration := by
  unfold nextString at hnext
  unfold takeNext at h
  split at hnext
  · rename_i p hp
    rw [if_pos (by rw [hp]; rfl)] at h
    rcases Option.map_eq_some_iff.mp h with ⟨loop, hloop, rfl⟩
    refine ⟨?_, Bool.or_false _, nextGeneration_le hloop⟩
    have htaken : LLamaAndroid.taken s.loop (LLamaAndroid.Event.take id) = some (id, str) := by
      rw [taken_eq, hp, Option.bind_some, hnext]
      rfl
    rw [htaken]
    exact Function.update_self _ _ _
  · rename_i hnone
    rw [if_neg (by rw [hnone]; exact Bool.false_ne_true)] at h
    simp only [Delivery.step] at h
    split at h <;> cases h
    rename_i first rest _ hleft
    rw [hleft] at hnext
    cases hnext
    exact ⟨Function.update_self _ _ _, rfl, Nat.le_refl _⟩

theorem collects_takeNext (s : Delivery) (id : GenerationId) :
    collects (takeNext s id) = some id := by
  unfold takeNext
  split <;> rfl

/-!
# What every run keeps
-/

/-- A call and the generation that it collects: it has put together the strings it has
received, and has not stopped. -/
structure Linked (s : System) (call : CallId) (id : GenerationId) : Prop where
  streaming : exists outcome, s.app.inFlight call =
    some (Coroutine.streaming outcome (s.delivery.received id).flatten)
  flowing : s.delivery.stopped id = false
  known : id < s.delivery.loop.nextGeneration
  claimed : s.claimed id = true

structure Inv (s : System) : Prop where
  app : Reachable s.app
  delivery : exists es, runEvents Delivery.step {} es = some s.delivery
  linked : forall call id, s.generations call = some id -> Linked s call id
  apart : forall call other id, s.generations call = some id ->
    s.generations other = some id -> call = other

theorem reachable_step {s s' : App} {e : ChatRepository.Event} (h : Reachable s)
    (hstep : ChatRepository.step s e = some s') : Reachable s' := by
  have hrun : runEvents ChatRepository.step s [e] = some s' :=
    runEvents_cons.mpr ⟨s', hstep, rfl⟩
  exact h.run hrun

section Steps

variable {s : System} {call other : CallId} {id : GenerationId}

theorem inFlight_of_ne {s s' : App} {e : ChatRepository.Event} (h : Reachable s)
    (hstep : ChatRepository.step s e = some s') {c : Coroutine}
    (hcall : s.inFlight call = some c) (hne : resumes e ≠ some call) :
    s'.inFlight call = some c := by
  have hbegun := h.numbered.inFlight call c hcall
  have hother : call ≠ callOf s e := by
    intro heq
    cases e with
    | resume other input now => exact hne (congrArg some heq.symm)
    | _ => exact absurd heq (Nat.ne_of_lt hbegun)
  rcases step_touches hstep with ⟨os, _, htouches⟩
  rw [htouches.others call hother, hcall]

theorem Linked.app {app : App} {e : ChatRepository.Event} (h : Linked s call id)
    (hreach : Reachable s.app) (hstep : ChatRepository.step s.app e = some app)
    (hne : resumes e ≠ some call) : Linked { s with app := app } call id := by
  rcases h.streaming with ⟨outcome, hstreaming⟩
  exact ⟨⟨outcome, inFlight_of_ne hreach hstep hstreaming hne⟩, h.flowing, h.known,
    h.claimed⟩

theorem Linked.deliver {delivery : Delivery} (h : Linked s call id)
    (huntouched : Untouched id s.delivery delivery) :
    Linked { s with delivery := delivery } call id where
  streaming := by
    rcases h.streaming with ⟨outcome, hstreaming⟩
    refine ⟨outcome, ?_⟩
    show s.app.inFlight call = _
    rw [hstreaming, huntouched.received]
  flowing := huntouched.stopped.trans h.flowing
  known := Nat.lt_of_lt_of_le h.known huntouched.next
  claimed := h.claimed

theorem Untouched.refl (id : GenerationId) (s : Delivery) : Untouched id s s :=
  ⟨rfl, rfl, Nat.le_refl _⟩

theorem Inv.onApp {app : App} {e : ChatRepository.Event} (h : Inv s)
    (hstep : ChatRepository.step s.app e = some app)
    (hfree : (resumes e).bind s.generations = none) : Inv { s with app := app } where
  app := reachable_step h.app hstep
  delivery := h.delivery
  linked call id hid := by
    apply (h.linked call id hid).app h.app hstep
    intro hresumes
    rw [hresumes, Option.bind_some, hid] at hfree
    cases hfree
  apart := h.apart

theorem Inv.onDelivery {delivery : Delivery} {e : Delivery.Event} (h : Inv s)
    (hstep : Delivery.step s.delivery e = some delivery)
    (hfree : (collects e).any s.claimed = false) : Inv { s with delivery := delivery } where
  app := h.app
  delivery := Delivery.reached_step h.delivery hstep
  linked call id hid := by
    have hlinked := h.linked call id hid
    apply hlinked.deliver (step_untouched hstep _)
    intro hcollects
    rw [hcollects, Option.any_some, hlinked.claimed] at hfree
    cases hfree
  apart := h.apart

theorem Inv.claim {delivery : Delivery} {outcome : StreamingOutcome Flow} {prompt : Prompt}
    (h : Inv s) (hnone : s.generations call = none)
    (hcall : s.app.inFlight call = some (Coroutine.streaming outcome []))
    (hstep : Delivery.step s.delivery
      (Delivery.Event.loop (LLamaAndroid.Event.collect prompt)) = some delivery) :
    Inv (System.claim call s.delivery.loop.nextGeneration { s with delivery := delivery }) := by
  rcases h.delivery with ⟨es, hrun⟩
  rcases (Delivery.run_inv hrun).left.fresh s.delivery.loop.nextGeneration (Nat.le_refl _) with
    ⟨_, _, _, hreceived, hstopped⟩
  have huntouched (id : GenerationId) : Untouched id s.delivery delivery :=
    step_untouched hstep fun hnone => by cases hnone
  have hlater : s.delivery.loop.nextGeneration < delivery.loop.nextGeneration := by
    cases hstep
    exact Nat.lt_succ_self _
  -- the generations of other calls are older
  have hcases {other : CallId} {id : GenerationId}
      (hid : Function.update s.generations call (some s.delivery.loop.nextGeneration) other =
        some id) :
      (other = call ∧ id = s.delivery.loop.nextGeneration) ∨
        (other ≠ call ∧ s.generations other = some id ∧
          id ≠ s.delivery.loop.nextGeneration) := by
    by_cases hsame : other = call
    · rw [hsame, Function.update_self, Option.some_inj] at hid
      exact Or.inl ⟨hsame, hid.symm⟩
    · rw [Function.update_of_ne hsame] at hid
      exact Or.inr ⟨hsame, hid, Nat.ne_of_lt (h.linked other id hid).known⟩
  refine ⟨h.app, Delivery.reached_step h.delivery hstep, ?_, ?_⟩
  · intro other id hid
    rcases hcases hid with ⟨rfl, rfl⟩ | ⟨hne, hid, hold⟩
    · refine ⟨⟨outcome, ?_⟩, ?_, hlater, Function.update_self _ _ _⟩
      · show s.app.inFlight other =
          some (Coroutine.streaming outcome (delivery.received _).flatten)
        rw [hcall, (huntouched _).received, hreceived]
        rfl
      · exact (huntouched _).stopped.trans hstopped
    · have hkept := (h.linked other id hid).deliver (huntouched id)
      exact ⟨hkept.streaming, hkept.flowing, hkept.known,
        (Function.update_of_ne hold _ _).trans hkept.claimed⟩
  · intro first second id hfirst hsecond
    rcases hcases hfirst with ⟨rfl, rfl⟩ | ⟨_, hfirst, hold⟩
    · rcases hcases hsecond with ⟨rfl, _⟩ | ⟨_, _, hold⟩
      · rfl
      · exact absurd rfl hold
    · rcases hcases hsecond with ⟨_, hnew⟩ | ⟨_, hsecond, _⟩
      · exact absurd hnew hold
      · exact h.apart first second id hfirst hsecond

theorem Inv.take {delivery : Delivery} {app : App} {str : Text} {now : Millis} (h : Inv s)
    (hid : s.generations call = some id) (hnext : nextString s.delivery id = some str)
    (htake : Delivery.step s.delivery (takeNext s.delivery id) = some delivery)
    (hstep : ChatRepository.step s.app
      (ChatRepository.Event.resume call (Input.delta str) now) = some app) :
    Inv { s with app := app, delivery := delivery } where
  app := reachable_step h.app hstep
  delivery := Delivery.reached_step h.delivery htake
  linked other id' hid' := by
    by_cases hsame : other = call
    · subst hsame
      rw [hid, Option.some_inj] at hid'
      subst hid'
      have hlinked := h.linked other id hid
      rcases hlinked.streaming with ⟨outcome, hstreaming⟩
      rcases takeNext_received hnext htake with ⟨hreceived, hstopped, hgrows⟩
      refine ⟨⟨outcome, ?_⟩, hstopped.trans hlinked.flowing,
        Nat.lt_of_lt_of_le hlinked.known hgrows, hlinked.claimed⟩
      show app.inFlight other = some (Coroutine.streaming outcome (delivery.received id).flatten)
      simp only [ChatRepository.step, ChatRepository.resume, hstreaming, Option.some.injEq]
        at hstep
      rw [<- hstep, receive, App.suspend_inFlight_self, hreceived, List.flatten_append,
        List.flatten_singleton]
    · have hne : id ≠ id' := fun heq => hsame (h.apart other call id (heq ▸ hid') hid)
      have hcollects : collects (takeNext s.delivery id) ≠ some id' := by
        rw [collects_takeNext]
        exact fun heq => hne (Option.some.inj heq)
      have hkept := (h.linked other id' hid').deliver (step_untouched htake hcollects)
      exact hkept.app h.app hstep fun heq => hsame (Option.some.inj heq).symm
  apart := h.apart

theorem Inv.release {delivery : Delivery} {app : App} {input : Input} {now : Millis}
    (h : Inv s) (hid : s.generations call = some id)
    (hdelivery : exists es, runEvents Delivery.step {} es = some delivery)
    (huntouched : forall other, other ≠ id -> Untouched other s.delivery delivery)
    (hstep : ChatRepository.step s.app (ChatRepository.Event.resume call input now) =
      some app) :
    Inv (System.release call { s with app := app, delivery := delivery }) := by
  have hcases {other : CallId} {id' : GenerationId}
      (hid' : Function.update s.generations call none other = some id') :
      other ≠ call ∧ s.generations other = some id' := by
    by_cases hsame : other = call
    · rw [hsame, Function.update_self] at hid'
      cases hid'
    · rw [Function.update_of_ne hsame] at hid'
      exact ⟨hsame, hid'⟩
  refine ⟨reachable_step h.app hstep, hdelivery, ?_, ?_⟩
  · intro other id' hid'
    rcases hcases hid' with ⟨hne, hold⟩
    have hapart : id' ≠ id := fun heq => hne (h.apart other call id (heq ▸ hold) hid)
    have hkept := ((h.linked other id' hold).deliver (huntouched id' hapart)).app h.app hstep
      fun heq => hne (Option.some.inj heq).symm
    exact ⟨hkept.streaming, hkept.flowing, hkept.known, hkept.claimed⟩
  · intro first second id' hfirst hsecond
    exact h.apart first second id' (hcases hfirst).right (hcases hsecond).right

end Steps

theorem step_inv {s s' : System} {e : Event} (h : Inv s) (hs : step s e = some s') :
    Inv s' := by
  cases e with
  | app e =>
      simp only [step] at hs
      split at hs
      · cases hs
      · rename_i hfree
        rcases Option.map_eq_some_iff.mp hs with ⟨app, hstep, rfl⟩
        exact h.onApp hstep hfree
  | loop e =>
      simp only [step] at hs
      split at hs
      · cases hs
      · rename_i hfree
        rcases Option.map_eq_some_iff.mp hs with ⟨delivery, hstep, rfl⟩
        exact h.onDelivery hstep (Bool.eq_false_iff.mpr hfree)
  | collect call =>
      simp only [step] at hs
      split at hs
      · rename_i outcome hnone hcall
        split at hs
        · rcases Option.map_eq_some_iff.mp hs with ⟨claimed, hclaimed, rfl⟩
          rcases Option.map_eq_some_iff.mp hclaimed with ⟨delivery, hstep, rfl⟩
          exact h.claim hnone hcall hstep
        · cases hs
      · cases hs
  | deliver call now =>
      simp only [step] at hs
      split at hs
      · cases hs
      · rename_i id hid
        split at hs
        · cases hs
        · rename_i str hnext
          rcases Option.bind_eq_some_iff.mp hs with ⟨taken, htaken, hresume⟩
          rcases Option.map_eq_some_iff.mp htaken with ⟨delivery, htake, rfl⟩
          rcases Option.map_eq_some_iff.mp hresume with ⟨app, hstep, rfl⟩
          exact h.take hid hnext htake hstep
  | complete call now =>
      simp only [step] at hs
      split at hs
      · cases hs
      · rename_i id hid
        split at hs
        · rcases Option.map_eq_some_iff.mp hs with ⟨resumed, hresume, rfl⟩
          rcases Option.map_eq_some_iff.mp hresume with ⟨app, hstep, rfl⟩
          exact h.release hid h.delivery (fun other _ => Untouched.refl other _) hstep
        · cases hs
  | stop call now =>
      simp only [step] at hs
      split at hs
      · cases hs
      · rename_i id hid
        rcases Option.map_eq_some_iff.mp hs with ⟨resumed, hresume, rfl⟩
        rcases Option.map_eq_some_iff.mp hresume with ⟨app, hstep, rfl⟩
        cases hcancel : Delivery.step s.delivery
            (Delivery.Event.loop (LLamaAndroid.Event.cancel id)) with
        | none =>
            rw [System.deliver, hcancel, Option.map_none, Option.getD_none] at hstep ⊢
            exact h.release hid h.delivery (fun other _ => Untouched.refl other _) hstep
        | some delivery =>
            rw [System.deliver, hcancel, Option.map_some, Option.getD_some] at hstep ⊢
            apply h.release hid (Delivery.reached_step h.delivery hcancel) _ hstep
            intro other hother
            exact step_untouched hcancel fun heq => hother (Option.some.inj heq).symm

theorem run_inv {l : Launch} {s : System} {es : List Event}
    (hrun : runEvents step { app := l.app } es = some s) : Inv s := by
  have hinitial : Inv { app := l.app } :=
    { app := ⟨l, [], rfl⟩
      delivery := ⟨[], rfl⟩
      linked := fun _ _ hnone => by cases hnone
      apart := fun _ _ _ hnone => by cases hnone }
  exact runEvents_keeps (fun _ _ _ => step_inv) hinitial hrun

def Stores (call : CallId) (text : Text) (now : Millis) (s s' : System) : Prop :=
  s'.app.chats = writeReply text now s.app.chats ∧
    s'.app.log = s.app.log ++ [Observation.finalized call text]

section Stores

variable {s s' : System} {call : CallId} {id : GenerationId}
  {outcome : StreamingOutcome Flow} {collected : Text} {now : Millis}

theorem stores_complete (hid : s.generations call = some id)
    (hstreaming : s.app.inFlight call = some (Coroutine.streaming outcome collected))
    (hs : step s (Event.complete call now) = some s') :
    ended s.delivery id = true ∧
      Stores call (ReplyText.finalText (ReplyText.stripLeadingNameLabel collected)
        outcome.note) now s s' := by
  simp only [step, hid] at hs
  split at hs
  · rename_i hended
    rcases Option.map_eq_some_iff.mp hs with ⟨resumed, hresume, rfl⟩
    rcases Option.map_eq_some_iff.mp hresume with ⟨app, hstep, rfl⟩
    simp only [ChatRepository.step, ChatRepository.resume, hstreaming, Option.some.injEq]
      at hstep
    rw [Stores, System.release, <- hstep, endStream, finalizeReply, Option.or_none]
    exact ⟨hended, persist_chats _ _ _, persist_log _ _ _⟩
  · cases hs

theorem stores_stop (hid : s.generations call = some id)
    (hstreaming : s.app.inFlight call = some (Coroutine.streaming outcome collected))
    (hs : step s (Event.stop call now) = some s') :
    Stores call (ReplyText.finalText (ReplyText.stripLeadingNameLabel collected)
      (outcome.note.or (some ReplyText.replyStopped))) now s s' := by
  simp only [step, hid] at hs
  rcases Option.map_eq_some_iff.mp hs with ⟨resumed, hresume, rfl⟩
  rcases Option.map_eq_some_iff.mp hresume with ⟨app, hstep, rfl⟩
  have happ : ((s.deliver (Delivery.Event.loop (LLamaAndroid.Event.cancel id))).getD s).app =
      s.app := by
    unfold System.deliver
    cases Delivery.step s.delivery (Delivery.Event.loop (LLamaAndroid.Event.cancel id)) <;> rfl
  rw [happ] at hstep
  simp only [ChatRepository.step, ChatRepository.resume, hstreaming, Option.some.injEq]
    at hstep
  rw [Stores, System.release, <- hstep, endStream, finalizeReply]
  exact ⟨persist_chats _ _ _, persist_log _ _ _⟩

theorem onTheWay_ended (h : ended s.delivery id = true) :
    s.delivery.loop.producers id = none ∧ s.delivery.onTheWay id = [] := by
  rw [ended, Bool.and_eq_true, Option.isNone_iff_eq_none, List.isEmpty_iff] at h
  refine ⟨h.left, ?_⟩
  rw [Delivery.onTheWay, h.left, h.right]

end Stores

/-- Between the native loop and the chat nothing of a reply is lost, doubled or mixed with
another: while it streams in, the call has put together the first of the strings of its
generation, and all but what is on the way; where the flow ends, the chat keeps all of them;
where it is stopped, those that the call has received. -/
theorem local_reply_stored {l : Launch} {s : System} {es : List Event}
    (hrun : runEvents step { app := l.app } es = some s) {call : CallId} {id : GenerationId}
    (hid : s.generations call = some id) :
    exists outcome received onTheWay,
      s.app.inFlight call = some (Coroutine.streaming outcome received.flatten) ∧
      s.delivery.produced id = received ++ onTheWay ∧
      onTheWay.length ≤ capacity + 1 ∧
      (forall now s', step s (Event.complete call now) = some s' ->
        Stores call (ReplyText.finalText
          (ReplyText.stripLeadingNameLabel (s.delivery.produced id).flatten) outcome.note)
          now s s') ∧
      forall now s', step s (Event.stop call now) = some s' ->
        Stores call (ReplyText.finalText
          (ReplyText.stripLeadingNameLabel received.flatten)
          (outcome.note.or (some ReplyText.replyStopped))) now s s' := by
  have hinv := run_inv hrun
  have hlinked := hinv.linked call id hid
  rcases hlinked.streaming with ⟨outcome, hstreaming⟩
  rcases hinv.delivery with ⟨es', hdelivery⟩
  rcases (Delivery.run_inv hdelivery).left.delivered id with ⟨_, hall, hlength⟩
  have hproduced := hall hlinked.flowing
  refine ⟨outcome, s.delivery.received id, s.delivery.onTheWay id, hstreaming, hproduced,
    hlength, ?_, fun now s' hs => stores_stop hid hstreaming hs⟩
  intro now s' hs
  rcases stores_complete hid hstreaming hs with ⟨hended, hstores⟩
  rw [hproduced, (onTheWay_ended hended).right, List.append_nil]
  exact hstores

def halfDelivered : List Event :=
  [Event.app (ChatRepository.Event.send "hello".toList false 4096 true 1),
   Event.app (ChatRepository.Event.resume 0 Input.privacyRead 2),
   Event.loop (Delivery.Event.loop (LLamaAndroid.Event.load request {})),
   Event.collect 0,
   Event.loop (Delivery.Event.loop (LLamaAndroid.Event.start 0 [] 4096 3)),
   Event.loop (Delivery.Event.loop (LLamaAndroid.Event.iterate (some "Domain AI: Hel".toList))),
   Event.deliver 0 4,
   Event.loop (Delivery.Event.loop (LLamaAndroid.Event.iterate (some "lo!".toList))),
   Event.loop (Delivery.Event.loop (LLamaAndroid.Event.iterate none))]

theorem local_reply_stored_halfDelivered :
    exists s, runEvents step { app := firstLaunch.app } halfDelivered = some s ∧
      s.delivery.produced 0 = ["Domain AI: Hel".toList, "lo!".toList] ∧
      exists outcome received onTheWay,
        s.app.inFlight 0 = some (Coroutine.streaming outcome received.flatten) ∧
        s.delivery.produced 0 = received ++ onTheWay ∧ onTheWay.length ≤ capacity + 1 ∧
        (forall now s', step s (Event.complete 0 now) = some s' ->
          Stores 0 (ReplyText.finalText
            (ReplyText.stripLeadingNameLabel (s.delivery.produced 0).flatten) outcome.note)
            now s s') ∧
        forall now s', step s (Event.stop 0 now) = some s' ->
          Stores 0 (ReplyText.finalText
            (ReplyText.stripLeadingNameLabel received.flatten)
            (outcome.note.or (some ReplyText.replyStopped))) now s s' :=
  ⟨_, rfl, rfl, @local_reply_stored firstLaunch _ halfDelivered rfl 0 0 rfl⟩

end LocalReplies
end DomainAI
