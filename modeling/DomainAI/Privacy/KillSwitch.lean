import DomainAI.Data.Calls

/-!
# The kill switch

Every collected flow of the cloud engine is looked for in the log, together with
the acceptance by the guard that should precede it.  The validation of a
provider is the one operation that collects such a flow without asking.
-/

namespace DomainAI
namespace ChatRepository

open Library PrivacyRouter

def privacyAt (start : PrivacyState) (log : List Observation) : PrivacyState :=
  log.foldl
    (fun current o =>
      match o with
      | Observation.privacySet privacy => privacy
      | _ => current) start

/--
A collected flow is preceded by the guard's acceptance, within the same
operation, of the privacy state in force at that moment.
-/
def AsksGuard (start : PrivacyState) (earlier : List Observation) :
    Observation -> Prop
  | Observation.collected call _ _ =>
      exists before between privacy,
        earlier = before ++ Observation.accepted call privacy :: between ∧
        Observation.begun call ∈ before ∧
        privacyAt start before = privacy ∧
        NetworkGuard.Accepts privacy
  | _ => True

/-- No flow of the cloud engine is collected behind the guard's back. -/
def Guarded (start : PrivacyState) (log : List Observation) : Prop :=
  Follows (AsksGuard start) log

def isValidation : Event -> Bool
  | Event.validateProvider _ => true
  | _ => false

/-!
# What the log knows of a send in flight
-/

def Coroutine.unrouted : Coroutine -> Bool
  | Coroutine.summarizing _ _ _ => true
  | Coroutine.readingPrivacy _ _ => true
  | _ => false

structure Logged (start : PrivacyState) (s : App) : Prop where
  privacy : privacyAt start s.log = s.privacy
  begun : forall call c, s.inFlight call = some c -> c.unrouted = true ->
    Observation.begun call ∈ s.log

theorem privacyAt_append (start : PrivacyState) (log os : List Observation) :
    privacyAt start (log ++ os) = privacyAt (privacyAt start log) os :=
  List.foldl_append

theorem privacyAt_of_forall {os : List Observation}
    (h : forall privacy, Observation.privacySet privacy ∉ os)
    (start : PrivacyState) : privacyAt start os = start := by
  induction os generalizing start with
  | nil => rfl
  | cons o os ih =>
      have hrest := ih fun privacy hmem => h privacy (List.mem_cons_of_mem _ hmem)
      cases o with
      | privacySet privacy => exact absurd List.mem_cons_self (h privacy)
      | _ => exact hrest start

theorem routeObservations_privacySet {call : CallId} {send : SendCall}
    {privacy : PrivacyState} {tokens : Flow} {reply : Message}
    (new : PrivacyState) :
    Observation.privacySet new ∉
      routeObservations call send privacy tokens ++
        [Observation.seeded call reply tokens] := by
  intro hmem
  rcases List.mem_append.mp hmem with hmem | hmem
  · have habout := List.mem_append.mp hmem
    rcases habout with hmem | hmem
    all_goals
      split at hmem
      · cases List.mem_singleton.mp hmem
      · cases hmem
  · cases List.mem_singleton.mp hmem

@[simp] theorem persist_privacy (call : CallId) (cancellable : Bool) (s : App) :
    (persist call cancellable s).privacy = s.privacy := by
  unfold persist
  split <;> rfl

theorem resume_privacy {s s' : App} {call : CallId} {input : Input}
    {now : Millis} (h : resume call input now s = some s') :
    s'.privacy = s.privacy := by
  unfold resume at h
  split at h <;> cases h <;> first | rfl | exact persist_privacy _ _ _

theorem step_privacy {s s' : App} {e : Event} {os : List Observation}
    (hstep : step s e = some s') (hobserves : Observes s e os) :
    privacyAt s.privacy os = s'.privacy := by
  cases hobserves with
  | privacySet privacy =>
      cases hstep
      rfl
  | nothing hsilent =>
      cases e with
      | restore =>
          simp only [step] at hstep
          split at hstep <;> cases hstep <;> rfl
      | send | validateProvider | setPrivacy => cases hsilent
      | deleteConversation id now =>
          cases hstep
          rw [persist_privacy]
          rfl
      | renameConversation id title =>
          simp only [step] at hstep
          split at hstep <;> cases hstep
          · rw [persist_privacy]
            rfl
          · rfl
      | resume call input now => exact (resume_privacy hstep).symm
      | _ =>
          cases hstep
          rfl
  | sendBegun prompt useCloud contextTokens loaded now =>
      cases hstep
      unfold beginSend
      split
      · rfl
      · split <;> rfl
  | validation config =>
      cases hstep
      rfl
  | routed now hcall =>
      rw [resume_privacy hstep]
      exact privacyAt_of_forall routeObservations_privacySet _
  | finalized input now text hcall => exact (resume_privacy hstep).symm
  | restored now hcall => exact (resume_privacy hstep).symm

theorem persist_inFlight_unrouted {call : CallId} {cancellable : Bool} {s : App}
    {c : Coroutine} (h : (persist call cancellable s).inFlight call = some c) :
    c.unrouted = false := by
  unfold persist at h
  split at h
  · rw [App.suspend_inFlight_self] at h
    cases h
    rfl
  · rw [App.finish_inFlight_self] at h
    cases h

theorem resume_unrouted {s s' : App} {call : CallId} {input : Input}
    {now : Millis} (h : resume call input now s = some s') {c : Coroutine}
    (hc : s'.inFlight call = some c) (hunrouted : c.unrouted = true) :
    exists c0, s.inFlight call = some c0 ∧ c0.unrouted = true := by
  unfold resume at h
  split at h
  all_goals cases h
  all_goals
    first
    | exact ⟨_, ‹_›, rfl⟩
    | rw [App.finish_inFlight_self] at hc
      cases hc
    | have hrouted := persist_inFlight_unrouted hc
      rw [hunrouted] at hrouted
      cases hrouted
    | have hsuspended := (App.suspend_inFlight_self call _ _).symm.trans hc
      cases hsuspended
      exact absurd hunrouted Bool.false_ne_true

theorem beginSend_logged {start : PrivacyState} {s : App} (h : Logged start s)
    (prompt : Text) (useCloud : Bool) (contextTokens : Int) (loaded : Bool)
    (now : Millis) :
    forall call c,
      (beginSend prompt useCloud contextTokens loaded now s).inFlight call =
        some c -> c.unrouted = true ->
      Observation.begun call ∈
        (beginSend prompt useCloud contextTokens loaded now s).log := by
  have htouches := beginSend_touches prompt useCloud contextTokens loaded now s
  intro call c hc hunrouted
  rw [htouches.log]
  by_cases hsame : call = s.nextCall
  · rw [hsame]
    exact List.mem_append_right _ (List.mem_singleton.mpr rfl)
  · rw [htouches.others call hsame] at hc
    exact List.mem_append_left _ (h.begun call c hc hunrouted)

theorem step_logged {start : PrivacyState} {s s' : App} {e : Event}
    (h : Logged start s) (hstep : step s e = some s') : Logged start s' := by
  rcases step_touches hstep with ⟨os, hobserves, htouches⟩
  constructor
  · rw [htouches.log, privacyAt_append, h.privacy]
    exact step_privacy hstep hobserves
  · intro call c hc hunrouted
    by_cases hsame : call = callOf s e
    · subst hsame
      cases e with
      | send prompt useCloud contextTokens loaded now =>
          cases hstep
          exact beginSend_logged h _ _ _ _ _ _ c hc hunrouted
      | resume call input now =>
          rcases resume_unrouted hstep hc hunrouted with ⟨c0, hc0, hc0'⟩
          rw [htouches.log]
          exact List.mem_append_left _ (h.begun call c0 hc0 hc0')
      | restore =>
          simp only [step] at hstep
          split at hstep <;> cases hstep
          · exact h.begun _ c hc hunrouted
          · cases (App.suspend_inFlight_self _ _ _).symm.trans hc
            exact absurd hunrouted Bool.false_ne_true
      | deleteConversation id now =>
          cases hstep
          rw [persist_inFlight_unrouted hc] at hunrouted
          cases hunrouted
      | renameConversation id title =>
          simp only [step] at hstep
          split at hstep <;> cases hstep
          · rw [persist_inFlight_unrouted hc] at hunrouted
            cases hunrouted
          · exact h.begun _ c hc hunrouted
      | validateProvider config =>
          cases hstep
          cases (App.suspend_inFlight_self _ _ _).symm.trans hc
          exact absurd hunrouted Bool.false_ne_true
      | setPrivacy privacy =>
          cases hstep
          exact List.mem_append_left _ (h.begun _ c hc hunrouted)
      | _ =>
          cases hstep
          exact h.begun _ c hc hunrouted
    · rw [htouches.others call hsame] at hc
      rw [htouches.log]
      exact List.mem_append_left _ (h.begun call c hc hunrouted)

theorem Launch.logged (l : Launch) : Logged l.privacy l.app where
  privacy := rfl
  begun := by intro call c hc; cases hc

/-!
# One step against the guard
-/

theorem accepts_of_routed {send : SendCall} {history : List Message} {s : App}
    (h : (routed send history s).tokens.side = EngineSide.cloud) :
    send.useCloudForThisTurn = true ∧ NetworkGuard.Accepts s.privacy := by
  rcases answer_cases localEngine (remoteProvider s.remoteConfig) send.prompt
      history s.privacy send.useCloudForThisTurn with
    ⟨hpermitted, _⟩ | ⟨_, note, _, hanswer⟩
  · exact ⟨hpermitted.left, hpermitted.right.left⟩
  · rw [routed, hanswer] at h
    cases h

theorem guarded_route {start : PrivacyState} {s : App} {call : CallId}
    {send : SendCall} {history : List Message} {reply : Message}
    (hlogged : Logged start s)
    (hcall : s.inFlight call = some (Coroutine.readingPrivacy send history))
    (h : Guarded start s.log) :
    Guarded start (s.log ++ (routeObservations call send s.privacy
      (routed send history s).tokens ++
        [Observation.seeded call reply (routed send history s).tokens])) := by
  have hbegun := hlogged.begun call _ hcall rfl
  rw [← List.append_assoc]
  refine follows_concat.mpr ⟨?_, trivial⟩
  unfold routeObservations
  by_cases hcloud : (routed send history s).tokens.side = EngineSide.cloud
  · have haccepts := accepts_of_routed hcloud
    rw [if_pos haccepts, if_pos hcloud, ← List.append_assoc]
    refine follows_concat.mpr ⟨follows_concat.mpr ⟨h, trivial⟩, ?_⟩
    exact ⟨s.log, [], s.privacy, rfl, hbegun, hlogged.privacy, haccepts.right⟩
  · rw [if_neg hcloud, List.append_nil]
    split
    · exact follows_concat.mpr ⟨h, trivial⟩
    · rwa [List.append_nil]

theorem not_guarded_validation {start : PrivacyState} {s : App}
    (hnumbered : Numbered s) (prompt : Text) (history : List Message) :
    ¬ Guarded start (s.log ++ [Observation.begun s.nextCall,
      Observation.collected s.nextCall prompt history]) := by
  intro h
  rw [List.append_cons] at h
  have hlast := (follows_concat.mp h).right
  rcases hlast with ⟨before, between, privacy, hsplit, _⟩
  have hmem : Observation.accepted s.nextCall privacy ∈
      s.log ++ [Observation.begun s.nextCall] := by
    rw [hsplit]
    exact List.mem_append_right _ List.mem_cons_self
  rcases List.mem_append.mp hmem with hold | hnew
  · exact Nat.lt_irrefl _ (hnumbered.log _ hold s.nextCall rfl)
  · cases List.mem_singleton.mp hnew

theorem follows_of_append {start : PrivacyState} {log os : List Observation}
    (h : Guarded start (log ++ os)) : Guarded start log := by
  intro earlier o later hlog
  exact h earlier o (later ++ os) (by rw [hlog, List.append_assoc]; rfl)

theorem guarded_append_quiet {start : PrivacyState} {log : List Observation}
    {o : Observation} (ho : forall call prompt history,
      o ≠ Observation.collected call prompt history) (h : Guarded start log) :
    Guarded start (log ++ [o]) := by
  refine follows_concat.mpr ⟨h, ?_⟩
  cases o with
  | collected call prompt history => exact absurd rfl (ho call prompt history)
  | _ => trivial

theorem step_guarded {start : PrivacyState} {s s' : App} {e : Event}
    (hlogged : Logged start s) (hnumbered : Numbered s)
    (hstep : step s e = some s') :
    Guarded start s'.log <-> Guarded start s.log ∧ isValidation e = false := by
  rcases step_touches hstep with ⟨os, hobserves, htouches⟩
  rw [htouches.log]
  constructor
  · intro h
    refine ⟨follows_of_append h, ?_⟩
    cases hobserves with
    | validation config => exact absurd h (not_guarded_validation hnumbered _ _)
    | nothing hsilent =>
        cases e with
        | validateProvider config => cases hsilent
        | _ => rfl
    | _ => rfl
  · intro h
    rcases h with ⟨h, hvalidation⟩
    cases hobserves with
    | validation config => cases hvalidation
    | nothing hsilent => rwa [List.append_nil]
    | routed now hcall => exact guarded_route hlogged hcall h
    | _ => exact guarded_append_quiet (by simp) h

theorem run_guarded {start : PrivacyState} {s s' : App} {es : List Event}
    (hlogged : Logged start s) (hnumbered : Numbered s)
    (hrun : runEvents step s es = some s') :
    Guarded start s'.log <->
      Guarded start s.log ∧ forall e, e ∈ es -> isValidation e = false := by
  induction es generalizing s with
  | nil =>
      cases hrun
      simp
  | cons e es ih =>
      rcases runEvents_cons.mp hrun with ⟨mid, hmid, hrest⟩
      rw [ih (step_logged hlogged hmid) (step_numbered hnumbered hmid) hrest,
        step_guarded hlogged hnumbered hmid]
      simp [and_assoc]

/-!
# Runs with the kill switch on
-/

def KillSwitchStaysOn (start : PrivacyState) (es : List Event) : Prop :=
  start.networkKillSwitch = true ∧
    forall privacy, Event.setPrivacy privacy ∈ es ->
      privacy.networkKillSwitch = true

theorem run_privacySet {s s' : App} {es : List Event}
    (hrun : runEvents step s es = some s') {privacy : PrivacyState}
    (hmem : Observation.privacySet privacy ∈ s'.log) :
    Observation.privacySet privacy ∈ s.log ∨ Event.setPrivacy privacy ∈ es := by
  induction es generalizing s with
  | nil =>
      cases hrun
      exact Or.inl hmem
  | cons e es ih =>
      rcases runEvents_cons.mp hrun with ⟨mid, hmid, hrest⟩
      rcases ih hrest with hlog | hlater
      · rcases step_touches hmid with ⟨os, hobserves, htouches⟩
        rw [htouches.log] at hlog
        rcases List.mem_append.mp hlog with hold | hnew
        · exact Or.inl hold
        · right
          cases hobserves with
          | privacySet p =>
              cases List.mem_singleton.mp hnew
              exact List.mem_cons_self
          | nothing hsilent => cases hnew
          | routed now hcall =>
              exact absurd hnew (routeObservations_privacySet privacy)
          | _ => simp at hnew
      · exact Or.inr (List.mem_cons_of_mem _ hlater)

theorem privacyAt_killSwitch {start : PrivacyState} {log : List Observation}
    (hstart : start.networkKillSwitch = true)
    (hlog : forall privacy, Observation.privacySet privacy ∈ log ->
      privacy.networkKillSwitch = true) :
    (privacyAt start log).networkKillSwitch = true := by
  induction log generalizing start with
  | nil => exact hstart
  | cons o log ih =>
      have hrest := fun privacy hmem =>
        hlog privacy (List.mem_cons_of_mem o hmem)
      cases o with
      | privacySet privacy => exact ih (hlog privacy List.mem_cons_self) hrest
      | _ => exact ih hstart hrest

/-- With the kill switch on, a guarded log is one without collected flows. -/
theorem guarded_iff_of_killSwitch {start : PrivacyState}
    {log : List Observation} (hstart : start.networkKillSwitch = true)
    (hlog : forall privacy, Observation.privacySet privacy ∈ log ->
      privacy.networkKillSwitch = true) :
    (forall call prompt history,
      Observation.collected call prompt history ∉ log) <->
      Guarded start log := by
  constructor
  · intro hnone earlier o later heq
    cases o with
    | collected call prompt history =>
        refine absurd ?_ (hnone call prompt history)
        rw [heq]
        exact List.mem_append_right _ List.mem_cons_self
    | _ => trivial
  · intro h call prompt history hmem
    rcases List.append_of_mem hmem with ⟨earlier, later, heq⟩
    rcases h earlier _ later heq with
      ⟨before, between, privacy, hsplit, _, hprivacy, haccepts⟩
    have hon : (privacyAt start before).networkKillSwitch = true := by
      refine privacyAt_killSwitch hstart fun p hp => hlog p ?_
      rw [heq, hsplit]
      exact List.mem_append_left _ (List.mem_append_left _ hp)
    have hoff := ((NetworkGuard.accepts_iff privacy).mp haccepts).left
    rw [hprivacy, hoff] at hon
    cases hon

/--
In every run the log stays guarded exactly when no provider is validated; and
when the kill switch stays on, that is when no flow is collected at all.
-/
theorem kill_switch_absolute {l : Launch} {s : App} {es : List Event}
    (hrun : runEvents step l.app es = some s) :
    (Guarded l.privacy s.log <->
      forall e, e ∈ es -> isValidation e = false) ∧
    (KillSwitchStaysOn l.privacy es ->
      ((forall call prompt history,
          Observation.collected call prompt history ∉ s.log) <->
        forall e, e ∈ es -> isValidation e = false)) := by
  have hguarded : Guarded l.privacy s.log <->
      forall e, e ∈ es -> isValidation e = false := by
    rw [run_guarded l.logged l.numbered hrun]
    exact and_iff_right follows_nil
  refine ⟨hguarded, ?_⟩
  intro h
  rcases h with ⟨hstart, hes⟩
  rw [← hguarded]
  refine guarded_iff_of_killSwitch hstart fun privacy hmem => ?_
  rcases run_privacySet hrun hmem with hlaunch | hset
  · cases hlaunch
  · exact hes privacy hset

def consentedTurn : List Event :=
  cloudSetup ++ [Event.send "hello".toList true 4096 false 1,
    Event.resume 0 Input.privacyRead 2]

theorem kill_switch_absolute_consented :
    exists s, runEvents step firstLaunch.app consentedTurn = some s ∧
      Observation.collected 0 "hello".toList [] ∈ s.log ∧
      Guarded firstLaunch.privacy s.log := by
  refine ⟨_, rfl, by decide, ?_⟩
  apply (@kill_switch_absolute firstLaunch _ consentedTurn rfl).left.mpr
  decide

/-- A provider is saved while the kill switch is on. -/
theorem kill_switch_fails :
    exists s, runEvents step firstLaunch.app [Event.validateProvider provider] =
        some s ∧
      KillSwitchStaysOn firstLaunch.privacy [Event.validateProvider provider] ∧
      Observation.collected 0 "Hi".toList [] ∈ s.log ∧
      ¬ Guarded firstLaunch.privacy s.log := by
  refine ⟨_, rfl, ⟨rfl, by simp⟩, by decide, ?_⟩
  exact not_guarded_validation firstLaunch.numbered _ _

end ChatRepository
end DomainAI
