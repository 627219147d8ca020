import DomainAI.Data.WellFormed

/-!
# Calls in flight and what is observed of them

A step concerns one call.  It leaves every other call where it is suspended and
appends to the log what it makes observable.
-/

namespace DomainAI
namespace ChatRepository

open Library PrivacyRouter

/-!
# Calls are numbered
-/

def Observation.call : Observation -> Option CallId
  | Observation.privacySet _ => none
  | Observation.begun call => some call
  | Observation.accepted call _ => some call
  | Observation.collected call _ _ => some call
  | Observation.seeded call _ _ => some call
  | Observation.finalized call _ => some call
  | Observation.restored _ => none

/-- What a step does to the calls in flight and to the log. -/
structure Touches (call : CallId) (os : List Observation) (s s' : App) :
    Prop where
  others : forall other, other ≠ call -> s'.inFlight other = s.inFlight other
  log : s'.log = s.log ++ os
  about : forall o, o ∈ os -> forall c, o.call = some c -> c = call

structure Numbered (s : App) : Prop where
  inFlight : forall call c, s.inFlight call = some c -> call < s.nextCall
  log : forall o, o ∈ s.log -> forall call, o.call = some call ->
    call < s.nextCall

theorem Numbered.of_touches {s s' : App} (h : Numbered s) {call : CallId}
    {os : List Observation} (htouches : Touches call os s s')
    (hcall : call < s'.nextCall) (hle : s.nextCall ≤ s'.nextCall) :
    Numbered s' where
  inFlight other c hother := by
    by_cases hsame : other = call
    · rw [hsame]
      exact hcall
    · rw [htouches.others other hsame] at hother
      exact lt_of_lt_of_le (h.inFlight other c hother) hle
  log o ho c hc := by
    rw [htouches.log] at ho
    rcases List.mem_append.mp ho with hold | hnew
    · exact lt_of_lt_of_le (h.log o hold c hc) hle
    · rw [htouches.about o hnew c hc]
      exact hcall

section Touches

variable {call : CallId} {os : List Observation} {s s' : App}

theorem Touches.refl (call : CallId) (s : App) : Touches call [] s s where
  others _ _ := rfl
  log := (List.append_nil _).symm
  about := by simp

theorem Touches.suspend (h : Touches call os s s') (c : Coroutine) :
    Touches call os s (s'.suspend call c) where
  others other hne := by
    rw [App.suspend_inFlight_of_ne hne]
    exact h.others other hne
  log := h.log
  about := h.about

theorem Touches.finish (h : Touches call os s s') :
    Touches call os s (s'.finish call) where
  others other hne := by
    rw [App.finish_inFlight_of_ne hne]
    exact h.others other hne
  log := h.log
  about := h.about

theorem Touches.observe (h : Touches call os s s') {more : List Observation}
    (hmore : forall o, o ∈ more -> forall c, o.call = some c -> c = call) :
    Touches call (os ++ more) s (s'.observe more) where
  others := h.others
  log := by rw [App.observe, h.log, List.append_assoc]
  about o ho := by
    rcases List.mem_append.mp ho with ho | ho
    · exact h.about o ho
    · exact hmore o ho

theorem Touches.onChats (h : Touches call os s s') (f : Chats -> Chats) :
    Touches call os s (s'.onChats f) :=
  ⟨h.others, h.log, h.about⟩

theorem Touches.onFiles (h : Touches call os s s')
    (files : ConversationStore.Files) :
    Touches call os s (s'.onFiles files) :=
  ⟨h.others, h.log, h.about⟩

theorem Touches.setRestored (h : Touches call os s s') :
    Touches call os s s'.setRestored :=
  ⟨h.others, h.log, h.about⟩

theorem Touches.setPrivacy (h : Touches call os s s')
    (privacy : PrivacyState) : Touches call os s (s'.setPrivacy privacy) :=
  ⟨h.others, h.log, h.about⟩

theorem Touches.setRemoteConfig (h : Touches call os s s')
    (config : Option RemoteEngine.Config) :
    Touches call os s (s'.setRemoteConfig config) :=
  ⟨h.others, h.log, h.about⟩

theorem Touches.persist (h : Touches call os s s') (cancellable : Bool) :
    Touches call os s (persist call cancellable s') := by
  unfold ChatRepository.persist
  split
  · exact h.suspend _
  · exact h.finish

end Touches

/-!
# What a step does to them
-/

def callOf (s : App) : Event -> CallId
  | Event.resume call _ _ => call
  | _ => s.nextCall

def maybeSilent : Event -> Bool
  | Event.send _ _ _ _ _ => false
  | Event.validateProvider _ => false
  | Event.setPrivacy _ => false
  | _ => true

inductive Observes (s : App) : Event -> List Observation -> Prop where
  | nothing {e : Event} (h : maybeSilent e = true) : Observes s e []
  | privacySet (privacy : PrivacyState) :
      Observes s (Event.setPrivacy privacy) [Observation.privacySet privacy]
  | sendBegun (prompt : Text) (useCloud : Bool) (contextTokens : Int)
      (loaded : Bool) (now : Millis) :
      Observes s (Event.send prompt useCloud contextTokens loaded now)
        [Observation.begun s.nextCall]
  | validation (config : RemoteEngine.Config) :
      Observes s (Event.validateProvider config)
        [Observation.begun s.nextCall,
         Observation.collected s.nextCall "Hi".toList []]
  | routed {call : CallId} {send : SendCall} {history : List Message}
      (now : Millis)
      (hcall : s.inFlight call = some (Coroutine.readingPrivacy send history)) :
      Observes s (Event.resume call Input.privacyRead now)
        (routeObservations call send s.privacy (routed send history s).tokens ++
          [Observation.seeded call
            (seed s.chats.nextUuid (ChatRepository.routed send history s) now)
            (ChatRepository.routed send history s).tokens])
  | finalized {call : CallId} {outcome : StreamingOutcome Flow}
      {builder : Text} (input : Input) (now : Millis) (text : Text)
      (hcall : s.inFlight call = some (Coroutine.streaming outcome builder)) :
      Observes s (Event.resume call input now)
        [Observation.finalized call text]
  | restored {call : CallId} {loaded : List Conversation} (now : Millis)
      (hcall : s.inFlight call = some (Coroutine.restoring (some loaded))) :
      Observes s (Event.resume call Input.loaded now)
        [Observation.restored loaded]

theorem routeObservations_about {call : CallId} {send : SendCall}
    {privacy : PrivacyState} {tokens : Flow} :
    forall o, o ∈ routeObservations call send privacy tokens ->
      forall c, o.call = some c -> c = call := by
  intro o ho c hc
  rcases List.mem_append.mp ho with ho | ho
  all_goals
    split at ho
    · rw [List.mem_singleton.mp ho] at hc
      exact (Option.some.inj hc).symm
    · cases ho

theorem withHistory_touches {call : CallId} {os : List Observation} {s s' : App}
    (h : Touches call os s s') (send : SendCall) (history : List Message)
    (now : Millis) :
    Touches call os s (withHistory call send history now s') :=
  (h.onChats _).suspend _

theorem beginSend_touches (prompt : Text) (useCloud : Bool)
    (contextTokens : Int) (loaded : Bool) (now : Millis) (s : App) :
    Touches s.nextCall [Observation.begun s.nextCall] s
      (beginSend prompt useCloud contextTokens loaded now s) := by
  have hopened : Touches s.nextCall [Observation.begun s.nextCall] s
      (openSend now s) :=
    { others := fun _ _ => rfl
      log := rfl
      about := by
        intro o ho c hc
        rw [List.mem_singleton.mp ho] at hc
        exact (Option.some.inj hc).symm }
  unfold beginSend
  split
  · exact hopened
  · split
    · exact withHistory_touches hopened _ _ _
    · exact hopened.suspend _

theorem endStream_touches {call : CallId} (outcome : StreamingOutcome Flow)
    (builder : Text) (note : Option Text) (now : Millis) (s : App) :
    exists text, Touches call [Observation.finalized call text] s
      (endStream call outcome builder note now s) := by
  refine ⟨_, Touches.persist
    (Touches.observe ((Touches.refl call s).onChats _) ?_) false⟩
  intro o ho c hc
  rw [List.mem_singleton.mp ho] at hc
  exact (Option.some.inj hc).symm

theorem resume_touches {s s' : App} {call : CallId} {input : Input}
    {now : Millis} (h : resume call input now s = some s') :
    exists os, Observes s (Event.resume call input now) os ∧
      Touches call os s s' := by
  have hquiet := Touches.refl call s
  unfold resume at h
  split at h
  · cases h
    exact ⟨[], Observes.nothing rfl, (hquiet.onFiles _).suspend _⟩
  · rename_i loaded hcall
    cases h
    refine ⟨_, Observes.restored now hcall,
      ((hquiet.onChats _).setRestored.observe ?_).finish⟩
    intro o ho c hc
    rw [List.mem_singleton.mp ho] at hc
    cases hc
  · cases h
    exact ⟨[], Observes.nothing rfl, hquiet.finish⟩
  · cases h
    exact ⟨[], Observes.nothing rfl, withHistory_touches (hquiet.onChats _) _ _ _⟩
  · cases h
    exact ⟨[], Observes.nothing rfl,
      (withHistory_touches (hquiet.onChats _) _ _ _).finish⟩
  · rename_i send history hcall
    cases h
    refine ⟨_, Observes.routed now hcall, Touches.suspend
      (Touches.observe (hquiet.onChats _) ?_) _⟩
    intro o ho c hc
    rcases List.mem_append.mp ho with ho | ho
    · exact routeObservations_about o ho c hc
    · rw [List.mem_singleton.mp ho] at hc
      exact (Option.some.inj hc).symm
  · cases h
    exact ⟨[], Observes.nothing rfl, hquiet.finish⟩
  · cases h
    exact ⟨[], Observes.nothing rfl, (hquiet.onChats _).suspend _⟩
  · rename_i outcome builder hcall
    cases h
    rcases endStream_touches outcome builder _ now s with ⟨text, htouches⟩
    exact ⟨_, Observes.finalized _ now text hcall, htouches⟩
  · rename_i outcome builder message hcall
    cases h
    rcases endStream_touches outcome builder _ now s with ⟨text, htouches⟩
    exact ⟨_, Observes.finalized _ now text hcall, htouches⟩
  · rename_i outcome builder hcall
    cases h
    rcases endStream_touches outcome builder _ now s with ⟨text, htouches⟩
    exact ⟨_, Observes.finalized _ now text hcall, htouches⟩
  · cases h
    exact ⟨[], Observes.nothing rfl, (hquiet.onFiles _).finish⟩
  · cases h
    exact ⟨[], Observes.nothing rfl, hquiet.finish⟩
  · cases h
    exact ⟨[], Observes.nothing rfl, hquiet.finish⟩
  · cases h
    exact ⟨[], Observes.nothing rfl, hquiet.finish⟩
  · cases h
    exact ⟨[], Observes.nothing rfl, hquiet.finish⟩
  · cases h
    exact ⟨[], Observes.nothing rfl, hquiet.finish⟩
  · cases h

theorem resume_saved {s s' : App} {call : CallId}
    {faults : List ConversationStore.Fault} {now : Millis}
    (h : resume call (Input.saved faults) now s = some s') :
    exists cancellable snapshot,
      s.inFlight call = some (Coroutine.saving cancellable snapshot) ∧
      s' = (s.onFiles
        (ConversationStore.saveFiles snapshot faults s.files)).finish call := by
  rcases hco : s.inFlight call with _ | c
  · simp [resume, hco] at h
  · cases c with
    | saving cancellable snapshot =>
        simp only [resume, hco, Option.some.injEq] at h
        exact ⟨cancellable, snapshot, rfl, h.symm⟩
    | _ => simp [resume, hco] at h

theorem step_touches {s s' : App} {e : Event} (h : step s e = some s') :
    exists os, Observes s e os ∧ Touches (callOf s e) os s s' := by
  have hquiet := Touches.refl s.nextCall s
  have hbegun : Touches s.nextCall [] s s.begin :=
    ⟨hquiet.others, hquiet.log, hquiet.about⟩
  cases e with
  | restore =>
      simp only [step] at h
      split at h
      · cases h
        exact ⟨[], Observes.nothing rfl, hquiet⟩
      · cases h
        exact ⟨[], Observes.nothing rfl, hbegun.suspend _⟩
  | send prompt useCloud contextTokens loaded now =>
      cases h
      exact ⟨_, Observes.sendBegun _ _ _ _ _, beginSend_touches _ _ _ _ _ s⟩
  | newConversation now =>
      cases h
      exact ⟨[], Observes.nothing rfl, hquiet.onChats _⟩
  | selectConversation id =>
      cases h
      exact ⟨[], Observes.nothing rfl, hquiet.onChats _⟩
  | deleteConversation id now =>
      cases h
      exact ⟨[], Observes.nothing rfl, (hbegun.onChats _).persist true⟩
  | renameConversation id title =>
      simp only [step] at h
      split at h
      · cases h
        exact ⟨[], Observes.nothing rfl, (hbegun.onChats _).persist true⟩
      · cases h
        exact ⟨[], Observes.nothing rfl, hquiet⟩
  | validateProvider config =>
      cases h
      refine ⟨_, Observes.validation config, Touches.suspend
        (Touches.observe hbegun ?_) _⟩
      intro o ho c hc
      simp only [List.mem_cons, List.not_mem_nil, or_false] at ho
      rcases ho with rfl | rfl <;> exact (Option.some.inj hc).symm
  | saveRemoteConfig config =>
      cases h
      exact ⟨[], Observes.nothing rfl, hquiet.setRemoteConfig _⟩
  | clearRemoteConfig =>
      cases h
      exact ⟨[], Observes.nothing rfl, hquiet.setRemoteConfig _⟩
  | setPrivacy privacy =>
      cases h
      refine ⟨_, Observes.privacySet privacy,
        (hquiet.setPrivacy privacy).observe ?_⟩
      intro o ho c hc
      rw [List.mem_singleton.mp ho] at hc
      cases hc
  | resume call input now => exact resume_touches h

def Coroutine.isNew : Coroutine -> Bool
  | Coroutine.restoring loaded => loaded.isNone
  | Coroutine.streaming _ _ => false
  | Coroutine.saving cancellable _ => cancellable
  | _ => true

theorem persist_isNew {s : App} {call : CallId} {c : Coroutine}
    (h : (persist call true s).inFlight call = some c) : c.isNew = true := by
  unfold persist at h
  split at h
  · cases (App.suspend_inFlight_self call _ _).symm.trans h
    rfl
  · cases (App.finish_inFlight_self call _).symm.trans h

theorem step_new {s s' : App} {e : Event} {call : CallId} {c : Coroutine}
    (hresumes : forall call input now, e ≠ Event.resume call input now)
    (h : step s e = some s') (hc : s'.inFlight call = some c) :
    s.inFlight call = some c ∨ call = s.nextCall ∧ c.isNew = true := by
  by_cases hsame : call = s.nextCall
  · subst hsame
    cases e with
    | resume call input now => exact absurd rfl (hresumes call input now)
    | restore =>
        simp only [step] at h
        split at h <;> cases h
        · exact Or.inl hc
        · cases (App.suspend_inFlight_self _ _ _).symm.trans hc
          exact Or.inr ⟨rfl, rfl⟩
    | send prompt useCloud contextTokens loaded now =>
        cases h
        unfold beginSend at hc
        split at hc
        · exact Or.inl hc
        · right
          split at hc
          all_goals
            cases (App.suspend_inFlight_self _ _ _).symm.trans hc
            exact ⟨rfl, rfl⟩
    | deleteConversation id now =>
        cases h
        exact Or.inr ⟨rfl, persist_isNew hc⟩
    | renameConversation id title =>
        simp only [step] at h
        split at h <;> cases h
        · exact Or.inr ⟨rfl, persist_isNew hc⟩
        · exact Or.inl hc
    | validateProvider config =>
        cases h
        cases (App.suspend_inFlight_self _ _ _).symm.trans hc
        exact Or.inr ⟨rfl, rfl⟩
    | _ =>
        cases h
        exact Or.inl hc
  · rcases step_touches h with ⟨os, _, htouches⟩
    have hother : call ≠ callOf s e := by
      cases e with
      | resume call input now => exact absurd rfl (hresumes call input now)
      | _ => exact hsame
    rw [htouches.others call hother] at hc
    exact Or.inl hc

/-!
# What a resumed send writes
-/

inductive Write where
  | nothing
  | message
  | partialText
  | finalText

def writeOf : Option Coroutine -> Input -> Write
  | some (Coroutine.summarizing _ _ _), Input.summarized _ => Write.message
  | some (Coroutine.summarizing _ _ _), Input.cancelled => Write.message
  | some (Coroutine.readingPrivacy _ _), Input.privacyRead => Write.message
  | some (Coroutine.streaming _ _), Input.delta _ => Write.partialText
  | some (Coroutine.streaming _ _), _ => Write.finalText
  | _, _ => Write.nothing

/-!
# Calls stay numbered
-/

@[simp] theorem persist_nextCall (call : CallId) (cancellable : Bool)
    (s : App) : (persist call cancellable s).nextCall = s.nextCall := by
  unfold persist
  split <;> rfl

@[simp] theorem endStream_nextCall (call : CallId)
    (outcome : StreamingOutcome Flow) (builder : Text) (note : Option Text)
    (now : Millis) (s : App) :
    (endStream call outcome builder note now s).nextCall = s.nextCall := by
  simp [endStream, finalizeReply, App.observe, App.onChats]

theorem beginSend_nextCall (prompt : Text) (useCloud : Bool)
    (contextTokens : Int) (loaded : Bool) (now : Millis) (s : App) :
    (beginSend prompt useCloud contextTokens loaded now s).nextCall =
      s.nextCall + 1 := by
  unfold beginSend
  split
  · rfl
  · split <;> rfl

theorem resume_nextCall {s s' : App} {call : CallId} {input : Input}
    {now : Millis} (h : resume call input now s = some s') :
    s'.nextCall = s.nextCall := by
  unfold resume at h
  split at h <;> cases h <;> first | rfl | exact endStream_nextCall _ _ _ _ _ _

theorem resume_inFlight {s s' : App} {call : CallId} {input : Input}
    {now : Millis} (h : resume call input now s = some s') :
    exists c, s.inFlight call = some c := by
  cases hcall : s.inFlight call with
  | some c => exact ⟨c, rfl⟩
  | none => simp [resume, hcall] at h

theorem step_nextCall {s s' : App} {e : Event} (h : step s e = some s') :
    s.nextCall ≤ s'.nextCall := by
  cases e with
  | restore =>
      simp only [step] at h
      split at h
      · cases h
        exact Nat.le_refl _
      · cases h
        exact Nat.le_succ _
  | send prompt useCloud contextTokens loaded now =>
      cases h
      rw [beginSend_nextCall]
      exact Nat.le_succ _
  | deleteConversation id now =>
      cases h
      rw [persist_nextCall]
      exact Nat.le_succ _
  | renameConversation id title =>
      simp only [step] at h
      split at h
      · cases h
        rw [persist_nextCall]
        exact Nat.le_succ _
      · cases h
        exact Nat.le_refl _
  | validateProvider config =>
      cases h
      exact Nat.le_succ _
  | resume call input now => exact Nat.le_of_eq (resume_nextCall h).symm
  | _ =>
      cases h
      exact Nat.le_refl _

theorem step_numbered {s s' : App} {e : Event} (h : Numbered s)
    (hstep : step s e = some s') : Numbered s' := by
  rcases step_touches hstep with ⟨os, _, htouches⟩
  cases e with
  | restore =>
      simp only [step] at hstep
      split at hstep
      · cases hstep
        exact h
      · cases hstep
        exact h.of_touches htouches (Nat.lt_succ_self _) (Nat.le_succ _)
  | send prompt useCloud contextTokens loaded now =>
      cases hstep
      have hnext := beginSend_nextCall prompt useCloud contextTokens loaded now s
      refine h.of_touches htouches ?_ ?_
      · rw [hnext]
        exact Nat.lt_succ_self _
      · rw [hnext]
        exact Nat.le_succ _
  | newConversation now =>
      cases hstep
      exact ⟨h.inFlight, h.log⟩
  | selectConversation id =>
      cases hstep
      exact ⟨h.inFlight, h.log⟩
  | deleteConversation id now =>
      cases hstep
      refine h.of_touches htouches ?_ ?_ <;>
        simp [callOf, App.begin, App.onChats]
  | renameConversation id title =>
      simp only [step] at hstep
      split at hstep
      · cases hstep
        refine h.of_touches htouches ?_ ?_ <;>
          simp [callOf, App.begin, App.onChats]
      · cases hstep
        exact h
  | validateProvider config =>
      cases hstep
      exact h.of_touches htouches (Nat.lt_succ_self _) (Nat.le_succ _)
  | saveRemoteConfig config =>
      cases hstep
      exact ⟨h.inFlight, h.log⟩
  | clearRemoteConfig =>
      cases hstep
      exact ⟨h.inFlight, h.log⟩
  | setPrivacy privacy =>
      cases hstep
      refine ⟨h.inFlight, ?_⟩
      intro o ho c hc
      rcases List.mem_append.mp ho with hold | hnew
      · exact h.log o hold c hc
      · rw [List.mem_singleton.mp hnew] at hc
        cases hc
  | resume call input now =>
      rcases resume_inFlight hstep with ⟨c, hcall⟩
      have hnext := resume_nextCall hstep
      refine h.of_touches htouches ?_ (Nat.le_of_eq hnext.symm)
      rw [hnext]
      exact h.inFlight call c hcall

theorem Launch.numbered (l : Launch) : Numbered l.app where
  inFlight := by intro call c hc; cases hc
  log := by intro o ho; cases ho

theorem run_numbered {s s' : App} {es : List Event} (h : Numbered s)
    (hrun : runEvents step s es = some s') : Numbered s' := by
  induction es generalizing s with
  | nil =>
      cases hrun
      exact h
  | cons e es ih =>
      rcases runEvents_cons.mp hrun with ⟨mid, hmid, hrest⟩
      exact ih (step_numbered h hmid) hrest

theorem Reachable.numbered {s : App} (h : Reachable s) : Numbered s := by
  rcases h with ⟨l, es, hrun⟩
  exact run_numbered l.numbered hrun

end ChatRepository
end DomainAI
