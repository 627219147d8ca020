import DomainAI.Data.ChatEdits
import DomainAI.Data.SendFrame
import DomainAI.Privacy.KillSwitch
import DomainAI.Privacy.Transparency

/-!
# Cloud turns that fail

A turn is routed once, before its reply streams.  When the stream of a cloud turn
fails no engine is asked again: the reply keeps its badge and ends with a note.
-/

namespace DomainAI
namespace ChatRepository

open Library PrivacyRouter Chats

/-!
# The reply of a call
-/

structure ReplyOf (s : App) (call : CallId) (outcome : StreamingOutcome Flow)
    (reply : Message) : Prop where
  seeded : Observation.seeded call reply outcome.tokens ∈ s.log
  route : reply.route = outcome.route
  only : forall other tokens, Observation.seeded call other tokens ∈ s.log ->
    other = reply ∧ tokens = outcome.tokens
  cloud : outcome.route = Route.CLOUD ->
    outcome.note = none ∧ outcome.tokens.side = EngineSide.cloud ∧
      exists privacy, Observation.accepted call privacy ∈ s.log

structure RoutedOnce (s : App) : Prop where
  unrouted : forall call c, s.inFlight call = some c -> c.unrouted = true ->
    forall reply tokens, Observation.seeded call reply tokens ∉ s.log
  streaming : forall call outcome builder,
    s.inFlight call = some (Coroutine.streaming outcome builder) ->
    exists reply, ReplyOf s call outcome reply

section RoutedOnce

variable {s s' : App} {e : Event} {call : CallId}
  {outcome : StreamingOutcome Flow} {builder : Text}

theorem beginSend_streaming {prompt : Text} {useCloud : Bool}
    {contextTokens : Int} {loaded : Bool} {now : Millis}
    (h : (beginSend prompt useCloud contextTokens loaded now s).inFlight call =
      some (Coroutine.streaming outcome builder)) :
    s.inFlight call = some (Coroutine.streaming outcome builder) := by
  unfold beginSend at h
  split at h
  · exact h
  · split at h
    · exact inFlight_of_suspend h rfl (by simp)
    · exact inFlight_of_suspend h rfl (by simp)

theorem resume_streaming {other : CallId} {input : Input} {now : Millis}
    (h : resume other input now s = some s')
    (hc : s'.inFlight call = some (Coroutine.streaming outcome builder)) :
    (exists before, s.inFlight call = some (Coroutine.streaming outcome before)) ∨
      exists send history,
        s.inFlight call = some (Coroutine.readingPrivacy send history) ∧
        outcome = routed send history s ∧ s' = route call send history now s := by
  unfold resume at h
  split at h
  · cases h
    exact Or.inl ⟨builder, inFlight_of_suspend hc rfl (by simp)⟩
  · cases h
    exact Or.inl ⟨builder, finish_cases hc⟩
  · cases h
    exact Or.inl ⟨builder, finish_cases hc⟩
  · cases h
    exact Or.inl ⟨builder, inFlight_of_suspend hc rfl (by simp)⟩
  · cases h
    exact Or.inl ⟨builder, inFlight_of_suspend (finish_cases hc) rfl (by simp)⟩
  · rename_i send history hcall
    cases h
    rcases suspend_cases hc with hold | ⟨hsame, hc⟩
    · exact Or.inl ⟨builder, hold⟩
    · cases hc
      subst hsame
      exact Or.inr ⟨send, history, hcall, rfl, rfl⟩
  · cases h
    exact Or.inl ⟨builder, finish_cases hc⟩
  · rename_i outcome0 builder0 text hcall
    cases h
    rcases suspend_cases hc with hold | ⟨hsame, hc⟩
    · exact Or.inl ⟨builder, hold⟩
    · cases hc
      subst hsame
      exact Or.inl ⟨builder0, hcall⟩
  all_goals
    cases h
  all_goals
    first
    | exact Or.inl ⟨builder, finish_cases hc⟩
    | exact Or.inl ⟨builder, inFlight_of_persist hc rfl (by simp)⟩

theorem step_streaming (h : step s e = some s')
    (hc : s'.inFlight call = some (Coroutine.streaming outcome builder)) :
    (exists before, s.inFlight call = some (Coroutine.streaming outcome before)) ∨
      exists send history now,
        s.inFlight call = some (Coroutine.readingPrivacy send history) ∧
        outcome = routed send history s ∧ s' = route call send history now s := by
  cases e with
  | restore =>
      simp only [step] at h
      split at h
      · cases h
        exact Or.inl ⟨builder, hc⟩
      · cases h
        exact Or.inl ⟨builder, inFlight_of_suspend hc rfl (by simp)⟩
  | send prompt useCloud contextTokens loaded now =>
      cases h
      exact Or.inl ⟨builder, beginSend_streaming hc⟩
  | deleteConversation id now =>
      cases h
      exact Or.inl ⟨builder, inFlight_of_persist hc rfl (by simp)⟩
  | renameConversation id title =>
      simp only [step] at h
      split at h
      · cases h
        exact Or.inl ⟨builder, inFlight_of_persist hc rfl (by simp)⟩
      · cases h
        exact Or.inl ⟨builder, hc⟩
  | validateProvider config =>
      cases h
      exact Or.inl ⟨builder, inFlight_of_suspend hc rfl (by simp)⟩
  | resume other input now =>
      rcases resume_streaming h hc with hold | ⟨send, history, hnew⟩
      · exact Or.inl hold
      · exact Or.inr ⟨send, history, now, hnew⟩
  | _ =>
      cases h
      exact Or.inl ⟨builder, hc⟩

theorem step_unrouted {c : Coroutine} (hbegun : call < s.nextCall) (h : step s e = some s')
    (hc : s'.inFlight call = some c) (hunrouted : c.unrouted = true) :
    exists before, s.inFlight call = some before ∧ before.unrouted = true := by
  rcases step_touches h with ⟨os, _, htouches⟩
  by_cases hsame : call = callOf s e
  · cases e with
    | resume other input now =>
        subst hsame
        exact resume_unrouted h hc hunrouted
    | _ => exact absurd hsame (Nat.ne_of_lt hbegun)
  · rw [htouches.others call hsame] at hc
    exact ⟨c, hc, hunrouted⟩

theorem replyOf_route {send : SendCall} {history : List Message} {now : Millis}
    (hfirst : forall reply tokens, Observation.seeded call reply tokens ∉ s.log) :
    ReplyOf (route call send history now s) call (routed send history s)
      (seed s.chats.nextUuid (routed send history s) now) where
  seeded :=
    List.mem_append_right _ (List.mem_append_right _ (List.mem_singleton.mpr rfl))
  route := rfl
  only other tokens hmem := by
    rcases List.mem_append.mp hmem with hold | hnew
    · exact absurd hold (hfirst other tokens)
    · rcases List.mem_append.mp hnew with hroute | hseeded
      · unfold routeObservations at hroute
        grind
      · cases List.mem_singleton.mp hseeded
        exact ⟨rfl, rfl⟩
  cloud hcloud := by
    rcases answer_cases localEngine (remoteProvider s.remoteConfig) send.prompt
        history s.privacy send.useCloudForThisTurn with
      ⟨hpermitted, r, hr, hanswer⟩ | ⟨_, note, _, hanswer⟩
    · have hside : (routed send history s).tokens.side = EngineSide.cloud := by
        rw [routed, hanswer]
        show (r.engine.generate _ _).side = _
        rw [remoteProvider_generate hr]
      refine ⟨?_, hside, s.privacy, ?_⟩
      · rw [routed, hanswer]
      · have hasked := accepts_of_routed hside
        apply List.mem_append_right
        apply List.mem_append_left
        apply List.mem_append_left
        rw [if_pos hasked]
        exact List.mem_singleton.mpr rfl
    · rw [routed, hanswer] at hcloud
      cases hcloud

theorem step_routedOnce (hnumbered : Numbered s) (h : RoutedOnce s)
    (hstep : step s e = some s') : RoutedOnce s' where
  unrouted call c hc hunrouted reply tokens hmem := by
    rcases step_seeded hstep hmem with
      hold | ⟨send, history, now, rfl, hcall, rfl, rfl⟩
    · have hbegun := hnumbered.log _ hold call rfl
      rcases step_unrouted hbegun hstep hc hunrouted with ⟨before, hbefore, hsame⟩
      exact h.unrouted call before hbefore hsame reply tokens hold
    · simp only [step, resume, hcall, Option.some.injEq] at hstep
      subst hstep
      rw [route, App.suspend_inFlight_self] at hc
      cases hc
      cases hunrouted
  streaming call outcome builder hc := by
    rcases step_streaming hstep hc with
      ⟨before, hold⟩ | ⟨send, history, now, hcall, rfl, rfl⟩
    · rcases h.streaming call outcome before hold with ⟨reply, hreply⟩
      rcases step_touches hstep with ⟨os, _, htouches⟩
      have hkept : forall o, o ∈ s.log -> o ∈ s'.log := by
        intro o ho
        rw [htouches.log]
        exact List.mem_append_left os ho
      refine ⟨reply, hkept _ hreply.seeded, hreply.route, ?_, ?_⟩
      · intro other tokens hmem
        rcases step_seeded hstep hmem with hseeded | ⟨_, _, _, _, hrouted, _⟩
        · exact hreply.only other tokens hseeded
        · rw [hold] at hrouted
          cases hrouted
      · intro hcloud
        rcases hreply.cloud hcloud with ⟨hnote, hside, privacy, haccepted⟩
        exact ⟨hnote, hside, privacy, hkept _ haccepted⟩
    · exact ⟨_, replyOf_route (h.unrouted call _ hcall rfl)⟩

theorem run_routedOnce {es : List Event} (hnumbered : Numbered s)
    (h : RoutedOnce s) (hrun : runEvents step s es = some s') :
    RoutedOnce s' := by
  induction es generalizing s with
  | nil =>
      cases hrun
      exact h
  | cons e es ih =>
      rcases runEvents_cons.mp hrun with ⟨mid, hmid, hrest⟩
      exact ih (step_numbered hnumbered hmid) (step_routedOnce hnumbered h hmid)
        hrest

theorem Reachable.routedOnce (h : Reachable s) : RoutedOnce s := by
  rcases h with ⟨l, es, hrun⟩
  refine run_routedOnce l.numbered ⟨?_, ?_⟩ hrun
  · intro call c hc
    cases hc
  · intro call outcome builder hc
    cases hc

end RoutedOnce

/-!
# Calls that only save
-/

structure OnlySaves (call : CallId) (s : App) : Prop where
  begun : call < s.nextCall
  saving : forall c, s.inFlight call = some c ->
    exists snapshot, c = Coroutine.saving false snapshot

theorem step_onlySaves {call : CallId} {s s' : App} {e : Event}
    (h : OnlySaves call s) (hstep : step s e = some s') :
    OnlySaves call s' ∧
      forall o, o ∈ s'.log -> o.call = some call -> o ∈ s.log := by
  rcases step_touches hstep with ⟨os, _, htouches⟩
  have hbegun := lt_of_lt_of_le h.begun (step_nextCall hstep)
  by_cases hsame : call = callOf s e
  · cases e with
    | resume other input now =>
        subst hsame
        rcases resume_inFlight hstep with ⟨c, hc⟩
        rcases h.saving c hc with ⟨snapshot, rfl⟩
        cases input with
        | saved faults =>
            rcases resume_saved hstep with ⟨_, _, _, rfl⟩
            refine ⟨⟨hbegun, ?_⟩, fun o ho _ => ho⟩
            intro c hc
            rw [App.finish_inFlight_self] at hc
            cases hc
        | _ => simp [step, resume, hc] at hstep
    | _ => exact absurd hsame (Nat.ne_of_lt h.begun)
  · refine ⟨⟨hbegun, ?_⟩, ?_⟩
    · intro c hc
      rw [htouches.others call hsame] at hc
      exact h.saving c hc
    · intro o ho habout
      rw [htouches.log] at ho
      rcases List.mem_append.mp ho with hold | hnew
      · exact hold
      · exact absurd (htouches.about o hnew call habout) hsame

theorem run_onlySaves {call : CallId} {s s' : App} {es : List Event}
    (h : OnlySaves call s) (hrun : runEvents step s es = some s') :
    forall o, o ∈ s'.log -> o.call = some call -> o ∈ s.log := by
  induction es generalizing s with
  | nil =>
      cases hrun
      exact fun o ho _ => ho
  | cons e es ih =>
      rcases runEvents_cons.mp hrun with ⟨mid, hmid, hrest⟩
      rcases step_onlySaves h hmid with ⟨hsaves, hsilent⟩
      intro o ho habout
      exact hsilent o (ih hsaves hrest o ho habout) habout

/-!
# A stream that fails
-/

def failureText (builder : Text) (message : Option Text) : Text :=
  ReplyText.finalText (ReplyText.stripLeadingNameLabel builder)
    (some (ReplyText.replyRequestFailed (message.getD [])))

/-- How a cloud turn ends whose stream fails after these deltas. -/
structure CloudFailure (s : App) (call : CallId)
    (outcome : StreamingOutcome Flow) (builder : Text) (message : Option Text)
    (now : Millis) (reply : Message) (s' : App) : Prop where
  replyOf : ReplyOf s call outcome reply
  badge : reply.route = Route.CLOUD
  chats : s'.chats = writeReply (failureText builder message) now s.chats
  shown : forall c front last, s.chats.currentActive = some c ->
    c.messages = front ++ [last] -> last.id = reply.id ->
    exists c', c' ∈ s'.chats.conversations ∧ c'.id = c.id ∧
      c'.messages = front ++
        [{ last with text := failureText builder message, route := Route.CLOUD }]
  log : s'.log =
    s.log ++ [Observation.finalized call (failureText builder message)]
  ends : s'.inFlight call =
    if s.restored then some (Coroutine.saving false s'.chats.snapshot) else none
  silent : forall es later, runEvents step s' es = some later ->
    forall o, o ∈ later.log -> o.call = some call -> o ∈ s'.log
  /-- Wherever the reply is found from then on, it has the badge of the cloud. -/
  badged : forall es later, runEvents step s' es = some later ->
    EveryMessage (fun m => m.id = reply.id -> m.route = Route.CLOUD)
      later.chats.conversations

theorem run_log {s s' : App} {es : List Event}
    (hrun : runEvents step s es = some s') {o : Observation} (ho : o ∈ s.log) :
    o ∈ s'.log := by
  induction es generalizing s with
  | nil =>
      cases hrun
      exact ho
  | cons e es ih =>
      rcases runEvents_cons.mp hrun with ⟨mid, hmid, hrest⟩
      rcases step_touches hmid with ⟨os, _, htouches⟩
      apply ih hrest
      rw [htouches.log]
      exact List.mem_append_left os ho

theorem run_recorded {field : Message -> alpha}
    (hfield : forall (m : Message) (text : Text),
      field { m with text := text } = field m)
    {s s' : App} {es : List Event} (hs : WellFormed s) (h : Recorded field s)
    (hrun : runEvents step s es = some s') : Recorded field s' := by
  induction es generalizing s with
  | nil =>
      cases hrun
      exact h
  | cons e es ih =>
      rcases runEvents_cons.mp hrun with ⟨mid, hmid, hrest⟩
      exact ih (step_wellFormed hs hmid) (step_recorded hfield hs h hmid) hrest

/-- Every reply has the route that it was made with, wherever it is found. -/
theorem Reachable.routes {s : App} (h : Reachable s) :
    Recorded Message.route s := by
  rcases h with ⟨l, es, hrun⟩
  refine run_recorded (fun _ _ => rfl) l.wellFormed ?_ hrun
  intro call reply tokens hmem
  cases hmem

theorem persist_inFlight_self (call : CallId) (cancellable : Bool) (s : App) :
    (persist call cancellable s).inFlight call =
      if s.restored then some (Coroutine.saving cancellable s.chats.snapshot)
      else none := by
  unfold persist
  split
  · exact App.suspend_inFlight_self _ _ _
  · exact App.finish_inFlight_self _ _

theorem onlySaves_endStream {s : App} {call : CallId}
    (outcome : StreamingOutcome Flow) (builder : Text) (note : Option Text)
    (now : Millis) (hbegun : call < s.nextCall) :
    OnlySaves call (endStream call outcome builder note now s) where
  begun := by
    rw [endStream_nextCall]
    exact hbegun
  saving c hc := by
    rw [endStream, finalizeReply, persist_inFlight_self] at hc
    split at hc
    · exact ⟨_, (Option.some.inj hc).symm⟩
    · cases hc

/-- Whenever and however the stream of a cloud turn fails, the turn ends with the one
reply that it had, still badged as a cloud reply and with the failure for a note. -/
theorem cloud_failure {s : App} (hreach : Reachable s) {call : CallId}
    {outcome : StreamingOutcome Flow} {builder : Text}
    (hcall : s.inFlight call = some (Coroutine.streaming outcome builder))
    (hcloud : outcome.route = Route.CLOUD) (message : Option Text)
    (now : Millis) :
    exists reply s',
      step s (Event.resume call (Input.failed message) now) = some s' ∧
      CloudFailure s call outcome builder message now reply s' := by
  rcases hreach.routedOnce.streaming call outcome builder hcall with ⟨reply, hreply⟩
  have hbadge : reply.route = Route.CLOUD := hreply.route.trans hcloud
  have hnote : outcome.note = none := (hreply.cloud hcloud).left
  have hroutes := (hreach.routes call reply _ hreply.seeded).right.chats
  have hbegun := hreach.numbered.inFlight call _ hcall
  have hstep : step s (Event.resume call (Input.failed message) now) =
      some (endStream call outcome builder
        (some (ReplyText.replyRequestFailed (message.getD []))) now s) := by
    simp only [step, resume, hcall]
  have hchats := endStream_chats call outcome builder
    (some (ReplyText.replyRequestFailed (message.getD []))) now s
  rw [hnote, Option.none_or] at hchats
  refine ⟨reply, _, hstep, hreply, hbadge, hchats, ?_, ?_, ?_, ?_, ?_⟩
  · intro c front last hopen hmessages hid
    have hlast : last.route = Route.CLOUD := by
      have hmem : last ∈ c.messages := by simp [hmessages]
      have hkept := hroutes c (currentActive_mem hopen) last hmem hid
      exact hkept.trans hbadge
    rw [hchats]
    refine ⟨_, mem_updateActive (currentActive_id hopen) (currentActive_mem hopen) _,
      Conversation.updateLastText_id _ _ _, ?_⟩
    rw [Conversation.updateLastText_messages, hmessages,
      Conversation.replaceLastText_append, <- hlast]
    rfl
  · show (persist call false _).log = _
    rw [persist_log, hnote]
    rfl
  · rw [endStream_chats]
    exact persist_inFlight_self _ _ _
  · intro es later hrun
    exact run_onlySaves (onlySaves_endStream _ _ _ _ hbegun) hrun
  · intro es later hrun c hc m hm hid
    have hrun' : runEvents step s
        (Event.resume call (Input.failed message) now :: es) = some later :=
      runEvents_cons.mpr ⟨_, hstep, hrun⟩
    have hkept := (hreach.run hrun').routes call reply _
      (run_log hrun' hreply.seeded)
    exact (hkept.right.chats c hc m hm hid).trans hbadge

def failedTurn : List Event :=
  cloudSetup ++ [Event.send "hello".toList true 4096 false 1,
    Event.resume 0 Input.privacyRead 2]

theorem cloud_failure_failedTurn :
    exists s outcome builder reply s',
      runEvents step firstLaunch.app failedTurn = some s ∧
      CloudFailure s 0 outcome builder none 3 reply s' := by
  rcases @cloud_failure _ ⟨firstLaunch, failedTurn, rfl⟩ 0 _ [] rfl rfl none 3 with
    ⟨reply, s', _, hfailure⟩
  exact ⟨_, _, _, reply, s', rfl, hfailure⟩

def onlyAnError : Conversation where
  id := 0
  title := "hello".toList
  messages :=
    [{ id := 2, role := Role.USER, text := "hello".toList, timestamp := 1 },
     { id := 3, role := Role.ORACLE,
       text := "_Request failed (). Partial reply shown._".toList,
       route := Route.CLOUD, sentPayloadPreview := some "hello".toList,
       timestamp := 2 }]
  updatedAt := 3

/-- The user is left with an error and no reply of the local engine. -/
theorem cloud_failure_fails :
    exists s, runEvents step firstLaunch.app
        (failedTurn ++ [Event.resume 0 (Input.failed none) 3]) = some s ∧
      s.inFlight 0 = none ∧ s.chats.conversations = [onlyAnError] ∧
      forall reply tokens, Observation.seeded 0 reply tokens ∈ s.log ->
        reply.route ≠ Route.LOCAL ∧ tokens.side ≠ EngineSide.onDevice := by
  refine ⟨_, rfl, rfl, rfl, ?_⟩
  intro reply tokens hmem
  change Observation.seeded 0 reply tokens ∈
    [Observation.privacySet _, Observation.begun 0, Observation.accepted 0 _,
     Observation.collected 0 _ _, Observation.seeded 0 _ _,
     Observation.finalized 0 _] at hmem
  simp only [List.mem_cons, List.not_mem_nil, Observation.seeded.injEq, reduceCtorEq,
    false_or, or_false, true_and] at hmem
  rcases hmem with ⟨rfl, rfl⟩
  exact ⟨by decide, by decide⟩

end ChatRepository
end DomainAI
