import DomainAI.Privacy.KillSwitch
import DomainAI.Privacy.Transparency
import DomainAI.Ui.SingleSend

/-!
# What the user has done before anything leaves the device

Each setting that a cloud turn depends on is traced back to the events of the device's life
that gave it its value, across every process in between.
-/

namespace DomainAI
namespace ChatRepository

open Library PrivacyRouter

/-!
# The arguments of a send in flight
-/

def Coroutine.sendCall : Coroutine -> Option SendCall
  | Coroutine.summarizing send _ _ => some send
  | Coroutine.readingPrivacy send _ => some send
  | _ => none

/-- Every send in flight that has not been routed has such arguments. -/
def Sends (P : CallId -> SendCall -> Prop) (s : App) : Prop :=
  forall call c send, s.inFlight call = some c -> c.sendCall = some send -> P call send

section Sends

variable {P : CallId -> SendCall -> Prop} {s s' : App}

theorem Sends.onChats (h : Sends P s) (f : Chats -> Chats) : Sends P (s.onChats f) := h

theorem Sends.observe (h : Sends P s) (os : List Observation) : Sends P (s.observe os) := h

theorem Sends.onFiles (h : Sends P s) (files : ConversationStore.Files) :
    Sends P (s.onFiles files) := h

theorem Sends.begin (h : Sends P s) : Sends P s.begin := h

theorem Sends.suspend (h : Sends P s) (call : CallId) {c : Coroutine}
    (hc : forall send, c.sendCall = some send -> P call send) : Sends P (s.suspend call c) := by
  intro other c' send hother hsend
  by_cases hsame : other = call
  · subst hsame
    cases (App.suspend_inFlight_self other _ _).symm.trans hother
    exact hc send hsend
  · rw [App.suspend_inFlight_of_ne hsame] at hother
    exact h other c' send hother hsend

theorem Sends.finish (h : Sends P s) (call : CallId) : Sends P (s.finish call) := by
  intro other c send hother hsend
  by_cases hsame : other = call
  · rw [hsame, App.finish_inFlight_self] at hother
    cases hother
  · rw [App.finish_inFlight_of_ne hsame] at hother
    exact h other c send hother hsend

theorem Sends.persist (h : Sends P s) (call : CallId) (cancellable : Bool) :
    Sends P (persist call cancellable s) := by
  unfold ChatRepository.persist
  split
  · exact h.suspend call (by simp [Coroutine.sendCall])
  · exact h.finish call

theorem Sends.withHistory (h : Sends P s) (call : CallId) {send : SendCall} (hsend : P call send)
    (history : List Message) (now : Millis) :
    Sends P (withHistory call send history now s) := by
  refine (h.onChats _).suspend call fun send' hsame => ?_
  cases hsame
  exact hsend

theorem Sends.endStream (h : Sends P s) (call : CallId) (outcome : StreamingOutcome Flow)
    (builder : Text) (note : Option Text) (now : Millis) :
    Sends P (endStream call outcome builder note now s) :=
  Sends.persist ((h.onChats _).observe _) call false

theorem resume_sends {call : CallId} {input : Input} {now : Millis} (h : Sends P s)
    (hresume : resume call input now s = some s') : Sends P s' := by
  unfold resume at hresume
  split at hresume
  · cases hresume
    exact (h.onFiles _).suspend call (by simp [Coroutine.sendCall])
  · cases hresume
    exact Sends.finish (Sends.observe (s := s.onChats _ |>.setRestored) h _) call
  · cases hresume
    exact h.finish call
  · rename_i send active _ completion hcall
    cases hresume
    exact (h.onChats _).withHistory call (h call _ send hcall rfl) _ _
  · rename_i send active _ hcall
    cases hresume
    exact ((h.onChats _).withHistory call (h call _ send hcall rfl) _ _).finish call
  · cases hresume
    exact Sends.suspend ((h.onChats _).observe _) call (by simp [Coroutine.sendCall])
  · cases hresume
    exact h.finish call
  · cases hresume
    exact (h.onChats _).suspend call (by simp [Coroutine.sendCall])
  · cases hresume
    exact h.endStream call _ _ _ _
  · cases hresume
    exact h.endStream call _ _ _ _
  · cases hresume
    exact h.endStream call _ _ _ _
  · cases hresume
    exact (h.onFiles _).finish call
  · cases hresume
    exact h.finish call
  · cases hresume
    exact h.finish call
  · cases hresume
    exact h.finish call
  · cases hresume
    exact h.finish call
  · cases hresume
    exact h.finish call
  · cases hresume

def Event.sendCall : Event -> Option SendCall
  | Event.send prompt useCloud _ _ _ =>
      some { prompt := prompt, useCloudForThisTurn := useCloud }
  | _ => none

theorem step_sends {e : Event} (h : Sends P s)
    (he : forall send, e.sendCall = some send -> P s.nextCall send)
    (hstep : step s e = some s') : Sends P s' := by
  cases e with
  | restore =>
      simp only [step] at hstep
      split at hstep <;> cases hstep
      · exact h
      · exact h.begin.suspend _ (by simp [Coroutine.sendCall])
  | send prompt useCloud contextTokens loaded now =>
      cases hstep
      have hopened : Sends P (openSend now s) := h
      unfold beginSend
      split
      · exact hopened
      · split
        · exact hopened.withHistory _ (he _ rfl) _ _
        · refine hopened.suspend _ fun send hsend => ?_
          cases hsend
          exact he _ rfl
  | deleteConversation id now =>
      cases hstep
      exact (h.begin.onChats _).persist _ true
  | renameConversation id title =>
      simp only [step] at hstep
      split at hstep <;> cases hstep
      · exact (h.begin.onChats _).persist _ true
      · exact h
  | validateProvider config =>
      cases hstep
      exact Sends.suspend (s := s.begin.observe _) h _ (by simp [Coroutine.sendCall])
  | resume call input now => exact resume_sends h hstep
  | _ =>
      cases hstep
      exact h

/-!
# The settings that a step changes
-/

def Event.privacyAfter (privacy : PrivacyState) : Event -> PrivacyState
  | Event.setPrivacy privacy' => privacy'
  | _ => privacy

def Event.remoteConfigAfter (saved : Option RemoteEngine.Config) :
    Event -> Option RemoteEngine.Config
  | Event.saveRemoteConfig config => some config
  | Event.clearRemoteConfig => none
  | _ => saved

@[simp] theorem persist_remoteConfig (call : CallId) (cancellable : Bool) (s : App) :
    (persist call cancellable s).remoteConfig = s.remoteConfig := by
  unfold persist
  split <;> rfl

theorem step_settings {e : Event} (hstep : step s e = some s') :
    s'.privacy = e.privacyAfter s.privacy ∧
      s'.remoteConfig = e.remoteConfigAfter s.remoteConfig := by
  cases e with
  | restore =>
      simp only [step] at hstep
      split at hstep <;> cases hstep
      · exact ⟨rfl, rfl⟩
      · exact ⟨rfl, rfl⟩
  | send prompt useCloud contextTokens loaded now =>
      cases hstep
      unfold beginSend
      split
      · exact ⟨rfl, rfl⟩
      · split
        · exact ⟨rfl, rfl⟩
        · exact ⟨rfl, rfl⟩
  | deleteConversation id now =>
      cases hstep
      exact ⟨persist_privacy _ _ _, persist_remoteConfig _ _ _⟩
  | renameConversation id title =>
      simp only [step] at hstep
      split at hstep <;> cases hstep
      · exact ⟨persist_privacy _ _ _, persist_remoteConfig _ _ _⟩
      · exact ⟨rfl, rfl⟩
  | resume call input now =>
      refine ⟨resume_privacy hstep, ?_⟩
      simp only [step, resume] at hstep
      split at hstep <;> cases hstep <;>
        first
        | rfl
        | exact persist_remoteConfig _ _ _
  | _ =>
      cases hstep
      exact ⟨rfl, rfl⟩

theorem step_waiting {e : Event} {call : CallId} (hcall : call < s.nextCall)
    (hbefore : s.inFlight call = none ∨ s.inFlight call = some Coroutine.validating)
    (hstep : step s e = some s') :
    s'.inFlight call = none ∨
      s'.inFlight call = some Coroutine.validating ∧ s'.inFlight call = s.inFlight call := by
  by_cases hresumes : exists other input now, e = Event.resume other input now
  · rcases hresumes with ⟨other, input, now, rfl⟩
    by_cases hsame : call = other
    · subst hsame
      rcases hbefore with hnone | hwaits
      · simp [step, resume, hnone] at hstep
      · left
        simp only [step] at hstep
        cases input <;> simp only [resume, hwaits] at hstep <;> cases hstep <;>
          exact App.finish_inFlight_self _ _
    · rcases step_touches hstep with ⟨os, _, htouches⟩
      rw [htouches.others call hsame]
      exact hbefore.imp id fun hwaits => ⟨hwaits, rfl⟩
  · have hother : forall other input now, e ≠ Event.resume other input now :=
      fun other input now heq => hresumes ⟨other, input, now, heq⟩
    cases hafter : s'.inFlight call with
    | none => exact Or.inl rfl
    | some c =>
        rcases step_new hother hstep hafter with hsame | ⟨hnext, _⟩
        · rcases hbefore with hnone | hwaits
          · cases hnone.symm.trans hsame
          · cases hwaits.symm.trans hsame
            exact Or.inr ⟨rfl, hwaits.symm⟩
        · exact absurd hnext (Nat.ne_of_lt hcall)

def Event.isPlain : Event -> Bool
  | Event.send _ _ _ _ _ => false
  | Event.setPrivacy _ => false
  | Event.saveRemoteConfig _ => false
  | Event.clearRemoteConfig => false
  | _ => true

theorem run_plain {es : List Event} (hes : forall e, e ∈ es -> e.isPlain = true)
    (hrun : runEvents step s es = some s') :
    s'.privacy = s.privacy ∧ s'.remoteConfig = s.remoteConfig ∧
      forall P, Sends P s -> Sends P s' := by
  induction es generalizing s with
  | nil =>
      cases hrun
      exact ⟨rfl, rfl, fun _ h => h⟩
  | cons e es ih =>
      rcases runEvents_cons.mp hrun with ⟨mid, hmid, hrest⟩
      rcases ih (fun e he => hes e (List.mem_cons_of_mem _ he)) hrest with
        ⟨hprivacy, hconfig, hsends⟩
      rcases step_settings hmid with ⟨hprivacy', hconfig'⟩
      rw [hprivacy, hconfig, hprivacy', hconfig']
      have hplain := hes e List.mem_cons_self
      have hnone : e.sendCall = none := by
        cases e <;> first | rfl | cases hplain
      refine ⟨?_, ?_, fun P h => hsends P (step_sends h ?_ hmid)⟩
      · cases e <;> first | rfl | cases hplain
      · cases e <;> first | rfl | cases hplain
      · intro send hsend
        rw [hnone] at hsend
        cases hsend

end Sends
end ChatRepository

namespace Session

open Library ChatRepository PrivacySettings Device

/-!
# What the user has asked for
-/

/-- The user has asked for this switch to have this value. -/
def Requested (past : List Event) (e : Edit) : Prop :=
  Event.setSwitch e.1 e.2 ∈ past ∨
    Event.acceptTerms ∈ past ∧
      (e = (Key.KEY_CLOUD_CONSENT, true) ∨ e = (Key.KEY_ALLOW_DATALOG, true))

/-- A step of the past began this call, which has been in flight ever since. -/
def Pending (begins : List Event -> Device -> Event -> Prop) (waits : Coroutine -> Prop)
    (past : List Event) (call : CallId) : Prop :=
  exists earlier e later moment begun,
    past = earlier ++ e :: later ∧ runEvents step installed earlier = some moment ∧
      moment.app.nextCall = call ∧ begins earlier moment e ∧ step moment e = some begun ∧
      AllSteps step (fun s _ => exists c, s.app.inFlight call = some c ∧ waits c) begun later

/-- The call is the trial that began when the user entered this provider, and nothing has
come of it so far. -/
def OnTrial (past : List Event) (call : CallId) (config : RemoteEngine.Config) : Prop :=
  Pending (fun _ _ e => e.asks = some config) (fun c => c = Coroutine.validating) past call

/-- The trial that began when the user entered this provider was answered. -/
def Validated (past : List Event) (config : RemoteEngine.Config) : Prop :=
  exists earlier call text now later moment,
    past = earlier ++ Event.resume call (Input.delta text) now :: later ∧
      runEvents step installed earlier = some moment ∧ OnTrial earlier call config ∧
      moment.app.inFlight call = some Coroutine.validating

/-- The user sends what is in the input field, to the cloud if it is what the screen shows
as selected. -/
structure Tapped (send : SendCall) (earlier : List Event) (moment : Device)
    (vm : ChatViewModel) : Prop where
  opened : moment.chat = some vm
  accepted : AcceptanceStore.isAccepted moment.acceptedVersion = true ∧
    Event.acceptTerms ∈ earlier
  typed : Event.updateInput vm.input ∈ earlier
  prompt : send.prompt = Text.trim vm.input
  cloud : send.useCloudForThisTurn = true ->
    vm.preferCloud = true ∧ vm.cloudModelId.isSome = true ∧
      Event.selectCloudModel ∈ earlier

/-- The call is the send that such a tap began, and it has not been routed. -/
def Sent (past : List Event) (call : CallId) (send : SendCall) : Prop :=
  Pending
    (fun earlier moment e =>
      (exists contextTokens loaded now, e = Event.onSend contextTokens loaded now) ∧
        exists vm, Tapped send earlier moment vm)
    (fun c => c.sendCall = some send) past call

section Mono

variable {past more : List Event}

theorem Requested.mono {e : Edit} (h : Requested past e) : Requested (past ++ more) e :=
  h.imp (List.mem_append_left more) (And.imp_left (List.mem_append_left more))

theorem Validated.mono {config : RemoteEngine.Config} (h : Validated past config) :
    Validated (past ++ more) config := by
  rcases h with ⟨earlier, call, text, now, later, moment, rfl, hrest⟩
  exact ⟨earlier, call, text, now, later ++ more, moment, List.append_assoc _ _ _, hrest⟩

end Mono

section Pending

variable {begins : List Event -> Device -> Event -> Prop} {waits : Coroutine -> Prop}
  {past : List Event} {s s' : Device} {e : Event}

theorem Pending.start (hrun : runEvents step installed past = some s)
    (hbegins : begins past s e) (hs : step s e = some s') :
    Pending begins waits (past ++ [e]) s.app.nextCall :=
  ⟨past, e, [], s, s', rfl, hrun, rfl, hbegins, hs, trivial⟩

theorem Pending.wait {call : CallId} {c : Coroutine} (h : Pending begins waits past call)
    (hrun : runEvents step installed past = some s) (hc : s.app.inFlight call = some c)
    (hwaits : waits c) : Pending begins waits (past ++ [e]) call := by
  rcases h with ⟨earlier, first, later, moment, begun, rfl, hmoment, hcall, hbegins, hbegun,
    hall⟩
  refine ⟨earlier, first, later ++ [e], moment, begun, List.append_assoc _ _ _, hmoment, hcall,
    hbegins, hbegun, hall.concat ?_ ⟨c, hc, hwaits⟩⟩
  rcases runEvents_append.mp hrun with ⟨mid, hmid, hrest⟩
  rw [hmoment] at hmid
  cases hmid
  rcases runEvents_cons.mp hrest with ⟨mid, hmid, hrest⟩
  rw [hbegun] at hmid
  cases hmid
  exact hrest

end Pending

def Tried (past : List Event) (app : App) (call : CallId) (config : RemoteEngine.Config) :
    Prop :=
  call < app.nextCall ∧
    (app.inFlight call = none ∨
      app.inFlight call = some Coroutine.validating ∧ OnTrial past call config)

theorem Tried.run {past : List Event} {app app' : App} {call : CallId}
    {config : RemoteEngine.Config} {es : List ChatRepository.Event}
    (h : Tried past app call config)
    (hrun : runEvents ChatRepository.step app es = some app') :
    Tried past app' call config := by
  refine runEvents_keeps (I := fun app => Tried past app call config)
    (fun mid e mid' hmid hstep => ?_) h hrun
  refine ⟨Nat.lt_of_lt_of_le hmid.left (step_nextCall hstep), ?_⟩
  rcases step_waiting hmid.left (hmid.right.imp id And.left) hstep with hnone | ⟨hwaits, hsame⟩
  · exact Or.inl hnone
  · rcases hmid.right with hnone | ⟨_, htrial⟩
    · cases hwaits.symm.trans (hsame.trans hnone)
    · exact Or.inr ⟨hwaits, htrial⟩

/-- Everything the device goes by, traced back to the past events of its life. -/
structure Chain (past : List Event) (s : Device) : Prop where
  privacy : s.app.privacy = PrivacySettings.state s.preferences
  writers : forall w, w ∈ s.writers -> forall e, e ∈ w -> Requested past e
  preferences : forall key value, s.preferences key = some value ->
    Requested past (key, value)
  accepted : AcceptanceStore.isAccepted s.acceptedVersion = true ->
    Event.acceptTerms ∈ past
  opened : s.chat.isSome = true -> AcceptanceStore.isAccepted s.acceptedVersion = true
  selection : s.selection = true -> Event.selectCloudModel ∈ past
  preferCloud : true ∈ s.preferCloudSeen -> Event.selectCloudModel ∈ past
  chosen : forall vm, s.chat = some vm -> vm.preferCloud = true ->
    Event.selectCloudModel ∈ past
  input : forall vm, s.chat = some vm -> vm.input = [] ∨ Event.updateInput vm.input ∈ past
  sends : Sends (Sent past) s.app
  validations : forall call config, s.validations call = some config ->
    Tried past s.app call config
  config : forall config, s.app.remoteConfig = some config -> Validated past config

section Chain

variable {past : List Event} {s s' : Device}

theorem Chain.mono (h : Chain past s) (hrun : runEvents step installed past = some s)
    (e : Event) : Chain (past ++ [e]) s where
  privacy := h.privacy
  writers w hw e he := (h.writers w hw e he).mono
  preferences key value hvalue := (h.preferences key value hvalue).mono
  accepted hs := List.mem_append_left [e] (h.accepted hs)
  opened := h.opened
  selection hs := List.mem_append_left [e] (h.selection hs)
  preferCloud hs := List.mem_append_left [e] (h.preferCloud hs)
  chosen vm hvm hs := List.mem_append_left [e] (h.chosen vm hvm hs)
  input vm hvm := (h.input vm hvm).imp id (List.mem_append_left [e])
  sends call c send hc hsend := (h.sends call c send hc hsend).wait hrun hc hsend
  validations call config hconfig := by
    rcases h.validations call config hconfig with ⟨hcall, hwaits⟩
    exact ⟨hcall, hwaits.imp id fun htrial =>
      ⟨htrial.left, htrial.right.wait hrun htrial.left rfl⟩⟩
  config config hconfig := (h.config config hconfig).mono

theorem Chain.settle (h : Chain past s) : Chain past s.settle :=
  { h with
    opened := by
      intro hopened
      refine h.opened ?_
      rwa [Device.settle, Option.isSome_map] at hopened
    chosen := by
      intro vm hvm
      rcases Option.map_eq_some_iff.mp hvm with ⟨vm0, hvm0, rfl⟩
      split
      · exact h.chosen vm0 hvm0
      · exact h.chosen vm0 hvm0
    input := by
      intro vm hvm
      rcases Option.map_eq_some_iff.mp hvm with ⟨vm0, hvm0, rfl⟩
      split
      · exact h.input vm0 hvm0
      · exact h.input vm0 hvm0 }

theorem Chain.onRepository (h : Chain past s) {es : List ChatRepository.Event}
    (hes : forall e, e ∈ es -> e.isPlain = true) (hs : s.onRepository es = some s') :
    Chain past s' := by
  rcases onRepository_eq_some.mp hs with ⟨app, hrun, rfl⟩
  rcases run_plain hes hrun with ⟨hprivacy, hconfig, hsends⟩
  refine Chain.settle ?_
  exact { h with
    privacy := hprivacy.trans h.privacy
    sends := hsends _ h.sends
    validations := fun call config hvalid => (h.validations call config hvalid).run hrun
    config := fun config hsaved => h.config config (hconfig.symm.trans hsaved) }

theorem Chain.onSettings (h : Chain past s) (f : SettingsViewModel -> SettingsViewModel) :
    Chain past (s.onSettings f) :=
  { h with }

theorem Chain.onChat (h : Chain past s) {f : ChatViewModel -> ChatViewModel}
    (hchosen : forall vm, (f vm).preferCloud = true ->
      vm.preferCloud = true ∨ Event.selectCloudModel ∈ past)
    (hinput : forall vm, (f vm).input = vm.input ∨ (f vm).input = [] ∨
      Event.updateInput (f vm).input ∈ past) :
    Chain past (s.onChat f) :=
  { h with
    opened := by
      intro hopened
      refine h.opened ?_
      rwa [Device.onChat, Option.isSome_map] at hopened
    chosen := by
      intro vm hvm hcloud
      rcases Option.map_eq_some_iff.mp hvm with ⟨vm0, hvm0, rfl⟩
      rcases hchosen vm0 hcloud with hbefore | hpast
      · exact h.chosen vm0 hvm0 hbefore
      · exact hpast
    input := by
      intro vm hvm
      rcases Option.map_eq_some_iff.mp hvm with ⟨vm0, hvm0, rfl⟩
      rcases hinput vm0 with hsame | htyped
      · rw [hsame]
        exact h.input vm0 hvm0
      · exact htyped }

theorem Chain.setPreferCloud (h : Chain past s) {value : Bool}
    (hvalue : value = true -> Event.selectCloudModel ∈ past) :
    Chain past (s.setPreferCloud value) :=
  { h with
    selection := hvalue
    preferCloud := by
      intro hseen
      rcases List.mem_append.mp hseen with hbefore | hnow
      · exact h.preferCloud hbefore
      · exact hvalue (List.mem_singleton.mp hnow).symm }

theorem Chain.setCloudModelId (h : Chain past s) (value : Option Text) :
    Chain past (s.setCloudModelId value) :=
  { h with }

theorem Chain.endValidation (h : Chain past s) (call : CallId) :
    Chain past { s with validations := Function.update s.validations call none } :=
  { h with
    validations := by
      intro other config hconfig
      dsimp only at hconfig
      by_cases hsame : other = call
      · rw [hsame, Function.update_self] at hconfig
        cases hconfig
      · rw [Function.update_of_ne hsame] at hconfig
        exact h.validations other config hconfig }

theorem Chain.restart (h : Chain past s) (files : ConversationStore.Files) :
    Chain past (s.restart files) where
  privacy := rfl
  writers w hw := by cases hw
  preferences := h.preferences
  accepted := h.accepted
  opened hopened := by cases hopened
  selection := h.selection
  preferCloud hseen := h.selection (List.mem_singleton.mp hseen).symm
  chosen vm hvm := by cases hvm
  input vm hvm := by cases hvm
  sends call c send hc := by cases hc
  validations call config hconfig := by cases hconfig
  config := h.config

theorem Chain.called (h : Chain past s) {e : ChatRepository.Event} (he : e.isPlain = true)
    (hs : s.onRepository [e] = some s') : Chain past s' := by
  refine h.onRepository ?_ hs
  intro e' he'
  rw [List.mem_singleton.mp he']
  exact he

theorem Chain.onSend (h : Chain past s) (hrun : runEvents step installed past = some s)
    {vm : ChatViewModel} (hvm : s.chat = some vm) {contextTokens : Int} {loaded : Bool}
    {now : Millis} (hs : s.onSend contextTokens loaded now vm = some s') :
    Chain (past ++ [Event.onSend contextTokens loaded now]) s' := by
  have hnow := h.mono hrun (Event.onSend contextTokens loaded now)
  have hstep : step s (Event.onSend contextTokens loaded now) = some s' :=
    Option.bind_eq_some_iff.mpr ⟨vm, hvm, hs⟩
  simp only [Device.onSend] at hs
  split at hs
  · cases hs
    exact hnow
  · rename_i hsends
    rw [Bool.not_eq_true, Bool.or_eq_false_iff] at hsends
    have htyped : Event.updateInput vm.input ∈ past := by
      refine (h.input vm hvm).resolve_left fun hempty => ?_
      rw [hempty] at hsends
      cases hsends.left
    have haccepted := h.opened (by rw [hvm]; rfl)
    rcases onRepository_eq_some.mp hs with ⟨app, hran, rfl⟩
    rcases runEvents_cons.mp hran with ⟨mid, hmid, hlast⟩
    cases hlast
    rcases step_settings hmid with ⟨hprivacy, hconfig⟩
    have hchat : Chain (past ++ [Event.onSend contextTokens loaded now]) (s.onChat fun vm =>
        { vm with
          input := [], isGenerating := true,
          generationJob := some s.app.nextCall }) :=
      hnow.onChat (fun _ => Or.inl) fun _ => Or.inr (Or.inl rfl)
    refine Chain.settle ?_
    exact { hchat with
      privacy := hprivacy.trans h.privacy
      sends := by
        refine step_sends hnow.sends ?_ hmid
        intro send hsend
        cases hsend
        refine Pending.start hrun ⟨⟨contextTokens, loaded, now, rfl⟩, vm, ?_⟩ hstep
        refine ⟨hvm, ⟨haccepted, h.accepted haccepted⟩, htyped, rfl, ?_⟩
        intro hcloud
        rw [Bool.and_eq_true] at hcloud
        exact ⟨hcloud.left, hcloud.right, h.chosen vm hvm hcloud.left⟩
      validations := fun call config hvalid =>
        (hnow.validations call config hvalid).run hran
      config := fun config hsaved => hnow.config config (hconfig.symm.trans hsaved) }

theorem Chain.validate (h : Chain past s) (hrun : runEvents step installed past = some s)
    {config : RemoteEngine.Config} {e : Event} (hasks : e.asks = some config)
    (hstep : step s e = some s') (hs : s.validate config = some s') :
    Chain (past ++ [e]) s' := by
  have hnow := h.mono hrun e
  rcases onRepository_eq_some.mp hs with ⟨app, hran, rfl⟩
  rcases run_plain (by simp [ChatRepository.Event.isPlain]) hran with
    ⟨hprivacy, hconfig, hsends⟩
  refine Chain.settle ?_
  exact { hnow with
    privacy := hprivacy.trans h.privacy
    sends := hsends _ hnow.sends
    validations := by
      intro other config' hvalid
      dsimp only [Device.onSettings] at hvalid
      by_cases hsame : other = s.app.nextCall
      · subst hsame
        rw [Function.update_self] at hvalid
        cases hvalid
        cases hran
        refine ⟨Nat.lt_succ_self _, Or.inr ⟨App.suspend_inFlight_self _ _ _, ?_⟩⟩
        exact Pending.start hrun hasks hstep
      · rw [Function.update_of_ne hsame] at hvalid
        exact (hnow.validations other config' hvalid).run hran
    config := fun config hsaved => hnow.config config (hconfig.symm.trans hsaved) }

theorem Chain.resume (h : Chain past s) (hrun : runEvents step installed past = some s)
    {call : CallId} {input : Input} {now : Millis}
    (hs : s.resume call input now = some s') :
    Chain (past ++ [Event.resume call input now]) s' := by
  have hnow := h.mono hrun (Event.resume call input now)
  unfold Device.resume at hs
  split at hs
  · split at hs
    · exact hnow.called rfl hs
    · cases hs
  · unfold Device.saved at hs
    split at hs
    · cases hs
    · split at hs
      · exact hnow.called rfl hs
      · cases hs
        exact hnow.restart _
  · split at hs
    · rename_i config hconfig
      have hended := hnow.endValidation call
      unfold Device.validated at hs
      split at hs
      · rename_i text _ _
        -- the provider has answered: it is saved
        rcases Option.map_eq_some_iff.mp hs with ⟨mid, hmid, rfl⟩
        rcases onRepository_eq_some.mp hmid with ⟨app, hran, rfl⟩
        have hvalidations := fun other config' hvalid =>
          (hended.validations other config' hvalid).run hran
        rcases runEvents_cons.mp hran with ⟨resumed, hresumed, hrest⟩
        rcases runEvents_cons.mp hrest with ⟨last, hsaved, hlast⟩
        cases hlast
        cases hsaved
        rcases step_settings hresumed with ⟨hprivacy, _⟩
        have hsends := step_sends hnow.sends (fun _ hsend => by cases hsend) hresumed
        refine Chain.onSettings (Chain.onSettings (Chain.setCloudModelId
          (Chain.settle ?_) _) _) _
        exact { hended with
          privacy := hprivacy.trans h.privacy
          sends := hsends
          validations := hvalidations
          config := by
            intro config' hconfig'
            cases hconfig'
            rcases (h.validations call config hconfig).right with hnone | ⟨hwaits, htrial⟩
            · rcases resume_inFlight hresumed with ⟨c, hc⟩
              cases hnone.symm.trans hc
            · exact ⟨past, call, text, now, [], s, rfl, hrun, htrial, hwaits⟩ }
      · rcases Option.map_eq_some_iff.mp hs with ⟨mid, hmid, rfl⟩
        exact (hended.called rfl hmid).onSettings _
      · rcases Option.map_eq_some_iff.mp hs with ⟨mid, hmid, rfl⟩
        exact (hended.called rfl hmid).onSettings _
    · exact hnow.called rfl hs

theorem Chain.addWriter (h : Chain past s) {edits : List Edit}
    (hedits : forall e, e ∈ edits -> Requested past e) :
    Chain past { s with writers := s.writers ++ [edits] } :=
  { h with
    writers := by
      intro w hw e he
      rcases List.mem_append.mp hw with hbefore | hnew
      · exact h.writers w hbefore e he
      · rw [List.mem_singleton.mp hnew] at he
        exact hedits e he }

theorem Chain.writeSwitch (h : Chain past s) {writer : Nat}
    (hs : s.writeSwitch writer = some s') : Chain past s' := by
  unfold Device.writeSwitch at hs
  split at hs
  · rename_i edit rest hwriter
    have hmem := List.mem_of_getElem? hwriter
    rcases onRepository_eq_some.mp hs with ⟨app, hrun, rfl⟩
    cases hrun
    refine Chain.settle ?_
    exact { h with
      privacy := rfl
      writers := by
        intro w hw e' he'
        rcases List.mem_or_eq_of_mem_set hw with hbefore | hrest
        · exact h.writers w hbefore e' he'
        · rw [hrest] at he'
          exact h.writers _ hmem e' (List.mem_cons_of_mem _ he')
      preferences := by
        intro key value hvalue
        rcases edit_cases hvalue with hedit | hbefore
        · rw [<- hedit]
          exact h.writers _ hmem edit List.mem_cons_self
        · exact h.preferences key value hbefore }
  · cases hs

theorem step_chain {e : Event} (h : Chain past s)
    (hrun : runEvents step installed past = some s) (hs : step s e = some s') :
    Chain (past ++ [e]) s' := by
  have hnow := h.mono hrun e
  have he : e ∈ past ++ [e] := List.mem_append_right past List.mem_cons_self
  cases e with
  | acceptTerms =>
      simp only [step] at hs
      split at hs <;> cases hs
      have hwritten := @Chain.addWriter _ _ hnow
        [(Key.KEY_CLOUD_CONSENT, true), (Key.KEY_ALLOW_DATALOG, true)] (by
          intro e' he'
          simp only [List.mem_cons, List.not_mem_nil, or_false] at he'
          exact Or.inr ⟨he, he'⟩)
      exact { hwritten with
        accepted := fun _ => he
        opened := fun _ => rfl }
  | openChat =>
      simp only [step] at hs
      split at hs
      · rename_i hopens
        rw [Bool.and_eq_true] at hopens
        refine Chain.called ?_ rfl hs
        exact { hnow with
          opened := fun _ => hopens.left
          chosen := by
            intro vm hvm hcloud
            cases hvm
            cases hcloud
          input := by
            intro vm hvm
            cases hvm
            exact Or.inl rfl }
      · cases hs
  | closeChat =>
      simp only [step] at hs
      split at hs <;> cases hs
      exact { hnow with
        opened := fun hopened => by cases hopened
        chosen := fun vm hvm => by cases hvm
        input := fun vm hvm => by cases hvm
        validations := fun call config hconfig => by cases hconfig }
  | updateInput text =>
      cases hs
      exact hnow.onChat (fun _ => Or.inl) fun _ => Or.inr (Or.inr he)
  | onSend contextTokens loaded now =>
      rcases Option.bind_eq_some_iff.mp hs with ⟨vm, hvm, hs⟩
      exact h.onSend hrun hvm hs
  | stopGeneration =>
      rcases Option.map_eq_some_iff.mp hs with ⟨vm, _, rfl⟩
      split
      · exact hnow
      · exact { hnow with }
  | newConversation now =>
      rcases Option.bind_eq_some_iff.mp hs with ⟨_, _, hs⟩
      exact hnow.called rfl hs
  | selectConversation id =>
      rcases Option.bind_eq_some_iff.mp hs with ⟨_, _, hs⟩
      exact hnow.called rfl hs
  | deleteConversation id now =>
      rcases Option.bind_eq_some_iff.mp hs with ⟨_, _, hs⟩
      exact hnow.called rfl hs
  | renameConversation id title =>
      rcases Option.bind_eq_some_iff.mp hs with ⟨_, _, hs⟩
      exact hnow.called rfl hs
  | selectLocalModel =>
      rcases Option.map_eq_some_iff.mp hs with ⟨_, _, rfl⟩
      exact hnow.setPreferCloud fun hvalue => by cases hvalue
  | selectCloudModel =>
      rcases Option.map_eq_some_iff.mp hs with ⟨_, _, rfl⟩
      exact hnow.setPreferCloud fun _ => he
  | showSelection preferCloud cloudModelId =>
      simp only [step] at hs
      split at hs
      · rename_i hshown
        cases hs
        refine hnow.onChat (fun _ hcloud => Or.inr ?_) fun _ => Or.inl rfl
        refine hnow.preferCloud ?_
        rw [<- show preferCloud = true from hcloud]
        exact hshown.left
      · cases hs
  | openSettings =>
      simp only [step] at hs
      split at hs <;> cases hs
      exact { hnow with }
  | closeSettings =>
      simp only [step] at hs
      split at hs <;> cases hs
      exact { hnow with validations := fun call config hconfig => by cases hconfig }
  | setSwitch key value =>
      rcases Option.map_eq_some_iff.mp hs with ⟨_, _, rfl⟩
      refine hnow.addWriter fun e' he' => ?_
      rw [List.mem_singleton.mp he']
      exact Or.inl he
  | saveProvider baseUrl apiKey model =>
      rcases Option.bind_eq_some_iff.mp hs with ⟨_, _, hs'⟩
      exact h.validate hrun rfl hs hs'
  | selectOpenRouterModel apiKey model =>
      rcases Option.bind_eq_some_iff.mp hs with ⟨_, _, hs'⟩
      exact h.validate hrun rfl hs hs'
  | clearProvider =>
      rcases Option.bind_eq_some_iff.mp hs with ⟨_, _, hs⟩
      rcases Option.map_eq_some_iff.mp hs with ⟨mid, hmid, rfl⟩
      rcases onRepository_eq_some.mp hmid with ⟨app, hrun, rfl⟩
      cases hrun
      refine Chain.onSettings (Chain.setPreferCloud (Chain.setCloudModelId
        (Chain.settle ?_) _) fun hvalue => by cases hvalue) _
      exact { hnow with config := fun config hconfig => by cases hconfig }
  | writeSwitch writer => exact hnow.writeSwitch hs
  | resume call input now => exact h.resume hrun hs
  | die interrupted =>
      cases hs
      exact hnow.restart _

theorem installed_chain : Chain [] installed where
  privacy := rfl
  writers w hw := by cases hw
  preferences key value hvalue := by cases hvalue
  accepted haccepted := by cases haccepted
  opened hopened := by cases hopened
  selection hselection := by cases hselection
  preferCloud hseen := by cases List.mem_singleton.mp hseen
  chosen vm hvm := by cases hvm
  input vm hvm := by cases hvm
  sends call c send hc := by cases hc
  validations call config hconfig := by cases hconfig
  config config hconfig := by cases hconfig

theorem run_chain {es : List Event} (hrun : runEvents step installed es = some s) :
    Chain es s := by
  have hstart : runEvents step installed [] = some installed ∧ Chain [] installed :=
    ⟨rfl, installed_chain⟩
  have hend := runEvents_history
    (I := fun past s => runEvents step installed past = some s ∧ Chain past s)
    (fun past s e s' h hs =>
      ⟨runEvents_append.mpr ⟨s, h.left, runEvents_cons.mpr ⟨s', hs, rfl⟩⟩,
        step_chain h.right h.left hs⟩) hstart hrun
  exact hend.right

end Chain

/-!
# What has left the device
-/

/-- A cloud turn of this call at this moment of the device's life: every setting it needs is
in force, and the user has asked for it. -/
structure Allowed (past : List Event) (moment : Device) (call : CallId) (prompt : Text)
    (history : List Message) : Prop where
  killSwitch : moment.preferences Key.KEY_KILL_SWITCH = some false ∧
    Event.setSwitch Key.KEY_KILL_SWITCH false ∈ past
  consent : moment.preferences Key.KEY_CLOUD_CONSENT = some true
  provider : exists config, moment.app.remoteConfig = some config ∧ Validated past config ∧
    (config.logsData = true -> moment.preferences Key.KEY_ALLOW_DATALOG = some true)
  message : exists send, Sent past call send ∧ send.useCloudForThisTurn = true ∧
    (moment.preferences Key.KEY_REDACT = some false ∧ prompt = send.prompt ∧
        Event.setSwitch Key.KEY_REDACT false ∈ past ∨
      moment.preferences Key.KEY_REDACT ≠ some false ∧
        prompt = (PiiRedactor.redact send.prompt).redactedText ∧
        forall m, m ∈ history ->
          exists text, m.text = (PiiRedactor.redact text).redactedText)

/-- This step hands the texts to a provider. -/
def HandsOver (moment : Device) (e : Event) (call : CallId) (prompt : Text)
    (history : List Message) : Prop :=
  Observation.collected call prompt history ∉ moment.app.log ∧
    exists after, step moment e = some after ∧
      Observation.collected call prompt history ∈ after.app.log

/-- What a step of the past handed to a provider for this call was the trial of one that the
user entered with it, or an allowed turn. -/
def Accounted (past : List Event) (call : CallId) (prompt : Text) (history : List Message) :
    Prop :=
  exists earlier e later moment,
    past = earlier ++ e :: later ∧ runEvents step installed earlier = some moment ∧
      HandsOver moment e call prompt history ∧
      (call = moment.app.nextCall ∧ prompt = "Hi".toList ∧ history = [] ∧
          (exists config, e.asks = some config) ∨
        Allowed earlier moment call prompt history)

theorem Accounted.mono {past : List Event} {call : CallId} {prompt : Text}
    {history : List Message} (h : Accounted past call prompt history) (more : List Event) :
    Accounted (past ++ more) call prompt history := by
  rcases h with ⟨earlier, e, later, moment, rfl, hrest⟩
  exact ⟨earlier, e, later ++ more, moment, List.append_assoc _ _ _, hrest⟩

section Accounted

variable {past : List Event} {s s' : Device}

theorem toSend_state (preferences : Preferences) (prompt : Text) (history : List Message) :
    (preferences Key.KEY_REDACT = some false ∧
      PrivacyRouter.toSend (PrivacySettings.state preferences) prompt = prompt) ∨
    (preferences Key.KEY_REDACT ≠ some false ∧
      PrivacyRouter.toSend (PrivacySettings.state preferences) prompt =
        (PiiRedactor.redact prompt).redactedText ∧
      forall m, m ∈ PrivacyRouter.historyToSend (PrivacySettings.state preferences) history ->
        exists text, m.text = (PiiRedactor.redact text).redactedText) := by
  have hstate : (PrivacySettings.state preferences).redactBeforeCloud = false <->
      preferences Key.KEY_REDACT = some false := by
    refine ⟨(@switch_of_state preferences).right.right.left, fun hoff => ?_⟩
    simp [PrivacySettings.state, hoff]
  by_cases hoff : preferences Key.KEY_REDACT = some false
  · refine Or.inl ⟨hoff, ?_⟩
    simp [PrivacyRouter.toSend, hstate.mpr hoff]
  · have hon := Bool.eq_true_of_not_eq_false (mt hstate.mp hoff)
    refine Or.inr ⟨hoff, by simp [PrivacyRouter.toSend, hon], ?_⟩
    intro m hm
    rw [PrivacyRouter.historyToSend, if_pos hon] at hm
    rcases List.mem_map.mp hm with ⟨m0, _, rfl⟩
    exact ⟨m0.text, rfl⟩

theorem Chain.switched (h : Chain past s) {key : Key} {value : Bool}
    (hvalue : s.preferences key = some value)
    (hkey : key ≠ Key.KEY_CLOUD_CONSENT ∧ key ≠ Key.KEY_ALLOW_DATALOG) :
    Event.setSwitch key value ∈ past := by
  refine (h.preferences key value hvalue).resolve_right fun hterms => ?_
  rcases hterms.right with hedit | hedit
  · exact hkey.left (Prod.mk.inj hedit).left
  · exact hkey.right (Prod.mk.inj hedit).left

theorem Chain.allowed (h : Chain past s) {call : CallId} {send : SendCall}
    {history : List Message}
    (hcall : s.app.inFlight call = some (Coroutine.readingPrivacy send history))
    (hcloud : (routed send history s.app).tokens.side = PrivacyRouter.EngineSide.cloud) :
    Allowed past s call (routed send history s.app).tokens.prompt
      (routed send history s.app).tokens.history := by
  have hsent := h.sends call _ send hcall rfl
  rcases routed_cases send history s.app with ⟨hpermitted, htokens, _⟩ | ⟨_, hside⟩
  · rcases hpermitted with ⟨huse, haccepts, r, hr, hlogs⟩
    rcases (NetworkGuard.accepts_iff _).mp haccepts with ⟨hkill, hconsent⟩
    rcases Option.map_eq_some_iff.mp hr with ⟨config, hconfig, rfl⟩
    have hsaved : s.app.remoteConfig = some config :=
      (Option.filter_eq_some_iff.mp hconfig).left
    rw [h.privacy] at hkill hconsent hlogs
    have hstate := @switch_of_state s.preferences
    have hoff := hstate.left hkill
    refine ⟨⟨hoff, h.switched hoff (by simp)⟩, hstate.right.left hconsent,
      ⟨config, hsaved, h.config config hsaved, ?_⟩, send, hsent, huse, ?_⟩
    · intro hlogging
      refine hstate.right.right.right (hlogs.resolve_left ?_)
      intro hquiet
      rw [show config.logsData = false from hquiet] at hlogging
      cases hlogging
    · rw [htokens, h.privacy]
      rcases toSend_state s.preferences send.prompt history with
        ⟨hplain, hsame⟩ | ⟨hredacts, hprompt, hhistory⟩
      · exact Or.inl ⟨hplain, hsame, h.switched hplain (by simp)⟩
      · exact Or.inr ⟨hredacts, hprompt, hhistory⟩
  · rw [hcloud] at hside
    cases hside

theorem step_collects {app app' : App} {e : ChatRepository.Event} {call : CallId}
    {prompt : Text} {history : List Message} (hstep : ChatRepository.step app e = some app')
    (hmem : Observation.collected call prompt history ∈ app'.log) :
    Observation.collected call prompt history ∈ app.log ∨
      (call = app.nextCall ∧ prompt = "Hi".toList ∧ history = [] ∧
        exists config, e = ChatRepository.Event.validateProvider config) ∨
      exists send turns,
        app.inFlight call = some (Coroutine.readingPrivacy send turns) ∧
        (routed send turns app).tokens.side = PrivacyRouter.EngineSide.cloud ∧
        (routed send turns app).tokens.prompt = prompt ∧
        (routed send turns app).tokens.history = history := by
  rcases step_touches hstep with ⟨os, hobserves, htouches⟩
  rw [htouches.log] at hmem
  refine (List.mem_append.mp hmem).imp id fun hnew => ?_
  cases hobserves with
  | nothing hsilent => cases hnew
  | privacySet privacy => cases List.mem_singleton.mp hnew
  | sendBegun => cases List.mem_singleton.mp hnew
  | validation config =>
      simp only [List.mem_cons, List.not_mem_nil, or_false] at hnew
      rcases hnew with hbegun | hcollected
      · cases hbegun
      · cases hcollected
        exact Or.inl ⟨rfl, rfl, rfl, config, rfl⟩
  | routed now hcall =>
      rcases List.mem_append.mp hnew with hrouted | hseeded
      · rcases List.mem_append.mp hrouted with haccepted | hcollected
        · split at haccepted
          · cases List.mem_singleton.mp haccepted
          · cases haccepted
        · split at hcollected
          · rename_i hcloud
            cases List.mem_singleton.mp hcollected
            exact Or.inr ⟨_, _, hcall, hcloud, rfl, rfl⟩
          · cases hcollected
      · cases List.mem_singleton.mp hseeded
  | finalized input now text hcall => cases List.mem_singleton.mp hnew
  | restored now hcall => cases List.mem_singleton.mp hnew

theorem saves_log {app app' : App} {es : List ChatRepository.Event}
    (hes : forall e, e ∈ es ->
      exists config, e = ChatRepository.Event.saveRemoteConfig config)
    (hrun : runEvents ChatRepository.step app es = some app') : app'.log = app.log := by
  induction es generalizing app with
  | nil =>
      cases hrun
      rfl
  | cons e es ih =>
      rcases runEvents_cons.mp hrun with ⟨mid, hmid, hrest⟩
      rcases hes e List.mem_cons_self with ⟨config, rfl⟩
      cases hmid
      have hlater := ih (fun e he => hes e (List.mem_cons_of_mem _ he)) hrest
      exact hlater

structure AllAccounted (past : List Event) (s : Device) : Prop where
  run : runEvents step installed past = some s
  log : forall call prompt history,
    Observation.collected call prompt history ∈ s.app.log ->
      Accounted past call prompt history

theorem step_allAccounted {e : Event} (h : AllAccounted past s) (hs : step s e = some s') :
    AllAccounted (past ++ [e]) s' := by
  refine ⟨runEvents_append.mpr ⟨s, h.run, runEvents_cons.mpr ⟨s', hs, rfl⟩⟩, ?_⟩
  intro call prompt history hmem
  by_cases hbefore : Observation.collected call prompt history ∈ s.app.log
  · exact (h.log call prompt history hbefore).mono [e]
  have hhands : HandsOver s e call prompt history := ⟨hbefore, s', hs, hmem⟩
  cases step_effect hs with
  | ran es hran hasks hlater =>
      cases es with
      | nil =>
          rw [<- Option.some.inj hran] at hmem
          exact absurd hmem hbefore
      | cons called later =>
          rcases runEvents_cons.mp hran with ⟨mid, hmid, hrest⟩
          rw [saves_log hlater hrest] at hmem
          rcases step_collects hmid hmem with
            hold | ⟨hcall, hprompt, hhistory, config, rfl⟩ |
              ⟨send, turns, hcall, hcloud, rfl, rfl⟩
          · exact absurd hold hbefore
          · refine ⟨past, e, [], s, rfl, h.run, hhands,
              Or.inl ⟨hcall, hprompt, hhistory, config, ?_⟩⟩
            exact hasks config List.mem_cons_self
          · exact ⟨past, e, [], s, rfl, h.run, hhands,
              Or.inr ((run_chain h.run).allowed hcall hcloud)⟩
  | launched files happ hsound =>
      rw [happ] at hmem
      cases hmem

/-- Whatever was handed to a provider, in any process of the device's life, was either the
trial of the provider that the user entered at that moment, or what the user had sent from the
input field while the screen showed the cloud model as selected; the latter at a moment when
the kill switch was turned off, consent given and a provider saved that had answered the trial
begun for it, and redacted unless redaction was turned off at that moment. -/
theorem nothing_leaves_unasked {es : List Event} {s : Device}
    (hrun : runEvents step installed es = some s) {call : CallId} {prompt : Text}
    {history : List Message}
    (hmem : Observation.collected call prompt history ∈ s.app.log) :
    Accounted es call prompt history := by
  have hstart : AllAccounted [] installed := ⟨rfl, fun _ _ _ hnone => by cases hnone⟩
  have hend := runEvents_history (fun _ _ _ _ h hs => step_allAccounted h hs) hstart hrun
  exact hend.log call prompt history hmem

end Accounted

def firstCloudTurn : List Event :=
  [Event.acceptTerms, Event.writeSwitch 0, Event.openChat, Event.openSettings,
   Event.setSwitch Key.KEY_KILL_SWITCH false, Event.writeSwitch 1,
   Event.saveProvider "https://openrouter.ai/api/v1".toList "key ".toList "model".toList,
   Event.resume 1 (Input.delta "Hi".toList) 1,
   Event.closeSettings, Event.selectCloudModel,
   Event.showSelection true (some "model".toList),
   Event.updateInput "hello ".toList, Event.onSend 4096 false 2,
   Event.resume 2 Input.privacyRead 3]

theorem firstCloudTurn_accounted :
    exists s earlier e moment, runEvents step installed firstCloudTurn = some s ∧
      Observation.collected 1 "Hi".toList [] ∈ s.app.log ∧
      Accounted firstCloudTurn 1 "Hi".toList [] ∧
      Observation.collected 2 "hello".toList [] ∈ s.app.log ∧
      runEvents step installed earlier = some moment ∧
      HandsOver moment e 2 "hello".toList [] ∧ Allowed earlier moment 2 "hello".toList [] := by
  have hrun : (runEvents step installed firstCloudTurn).isSome = true := by decide
  rcases Option.isSome_iff_exists.mp hrun with ⟨s, hs⟩
  have hmem : Observation.collected 1 "Hi".toList [] ∈ s.app.log ∧
      Observation.collected 2 "hello".toList [] ∈ s.app.log := by
    cases hs
    exact ⟨by decide, by decide⟩
  rcases nothing_leaves_unasked hs hmem.right with
    ⟨earlier, e, _, moment, _, hmoment, hhands, ⟨_, hprompt, _⟩ | hallowed⟩
  · cases hprompt
  · exact ⟨s, earlier, e, moment, hs, hmem.left, nothing_leaves_unasked hs hmem.left,
      hmem.right, hmoment, hhands, hallowed⟩

end Session
end DomainAI
