import DomainAI.Ui.Session

/-!
# One send at a time

The repository would take any number of sends at once.  The view model keeps it to one that
has not been cancelled, in every process of the device's life.
-/

namespace DomainAI
namespace ChatRepository

open Library App

/-!
# What kind of call it is
-/

/-- The call is a send; only a reply is saved beyond cancellation. -/
def Coroutine.isSend : Coroutine -> Bool
  | Coroutine.summarizing _ _ _ => true
  | Coroutine.readingPrivacy _ _ => true
  | Coroutine.streaming _ _ => true
  | Coroutine.saving cancellable _ => !cancellable
  | Coroutine.restoring _ => false
  | Coroutine.validating => false

def Event.isSend : Event -> Bool
  | Event.send _ _ _ _ _ => true
  | _ => false

section Kinds

variable {s s' : App} {call : CallId} {c : Coroutine}

theorem persist_isSend {cancellable : Bool}
    (h : (persist call cancellable s).inFlight call = some c) : c.isSend = !cancellable := by
  unfold persist at h
  split at h
  · rw [App.suspend_inFlight_self] at h
    cases h
    rfl
  · rw [App.finish_inFlight_self] at h
    cases h

theorem resume_isSend {input : Input} {now : Millis} (h : resume call input now s = some s')
    (hc : s'.inFlight call = some c) :
    exists c0, s.inFlight call = some c0 ∧ c.isSend = c0.isSend := by
  unfold resume at h
  split at h
  all_goals cases h
  all_goals rename_i hcall
  all_goals
    first
    | rw [App.finish_inFlight_self] at hc
      cases hc
    | exact ⟨_, hcall, persist_isSend hc⟩
    | have hsuspended := (App.suspend_inFlight_self call _ _).symm.trans hc
      cases hsuspended
      exact ⟨_, hcall, rfl⟩

theorem beginSend_isSend (hidle : s.inFlight s.nextCall = none) {prompt : Text}
    {useCloud : Bool} {contextTokens : Int} {loaded : Bool} {now : Millis}
    (hc : (beginSend prompt useCloud contextTokens loaded now s).inFlight s.nextCall =
      some c) : c.isSend = true := by
  unfold beginSend at hc
  split at hc
  · rw [show (openSend now s).inFlight s.nextCall = none from hidle] at hc
    cases hc
  · split at hc
    all_goals
      cases (App.suspend_inFlight_self s.nextCall _ _).symm.trans hc
      rfl

theorem step_isSend {e : Event} (hnumbered : Numbered s) (h : step s e = some s')
    (hc : s'.inFlight call = some c) :
    (exists c0, s.inFlight call = some c0 ∧ c.isSend = c0.isSend) ∨
      call = s.nextCall ∧ c.isSend = e.isSend := by
  by_cases hsame : call = callOf s e
  · cases e with
    | resume other input now =>
        subst hsame
        exact Or.inl (resume_isSend h hc)
    | send prompt useCloud contextTokens loaded now =>
        cases h
        subst hsame
        exact Or.inr ⟨rfl, beginSend_isSend hnumbered.next_idle hc⟩
    | restore =>
        simp only [step] at h
        split at h <;> cases h
        · exact Or.inl ⟨c, hc, rfl⟩
        · subst hsame
          cases (App.suspend_inFlight_self _ _ _).symm.trans hc
          exact Or.inr ⟨rfl, rfl⟩
    | deleteConversation id now =>
        cases h
        subst hsame
        exact Or.inr ⟨rfl, persist_isSend hc⟩
    | renameConversation id title =>
        simp only [step] at h
        split at h <;> cases h
        · subst hsame
          exact Or.inr ⟨rfl, persist_isSend hc⟩
        · exact Or.inl ⟨c, hc, rfl⟩
    | validateProvider config =>
        cases h
        subst hsame
        cases (App.suspend_inFlight_self _ _ _).symm.trans hc
        exact Or.inr ⟨rfl, rfl⟩
    | _ =>
        cases h
        exact Or.inl ⟨c, hc, rfl⟩
  · rcases step_touches h with ⟨os, _, htouches⟩
    rw [htouches.others call hsame] at hc
    exact Or.inl ⟨c, hc, rfl⟩

theorem run_nextCall {es : List Event} (hrun : runEvents step s es = some s') :
    s.nextCall ≤ s'.nextCall := by
  induction es generalizing s with
  | nil =>
      cases hrun
      exact Nat.le_refl _
  | cons e es ih =>
      rcases runEvents_cons.mp hrun with ⟨mid, hmid, hrest⟩
      exact Nat.le_trans (step_nextCall hmid) (ih hrest)

theorem run_isSend {es : List Event} (hes : forall e, e ∈ es -> e.isSend = false)
    (hnumbered : Numbered s) (hrun : runEvents step s es = some s')
    (hc : s'.inFlight call = some c) :
    (exists c0, s.inFlight call = some c0 ∧ c.isSend = c0.isSend) ∨
      s.nextCall ≤ call ∧ c.isSend = false := by
  induction es generalizing s with
  | nil =>
      cases hrun
      exact Or.inl ⟨c, hc, rfl⟩
  | cons e es ih =>
      rcases runEvents_cons.mp hrun with ⟨mid, hmid, hrest⟩
      have hlater := fun e' he' => hes e' (List.mem_cons_of_mem e he')
      rcases ih hlater (step_numbered hnumbered hmid) hrest with
        ⟨c0, hc0, hsame⟩ | ⟨hle, hno⟩
      · rcases step_isSend hnumbered hmid hc0 with ⟨c1, hc1, hsame'⟩ | ⟨hnew, hkind⟩
        · exact Or.inl ⟨c1, hc1, hsame.trans hsame'⟩
        · right
          rw [hsame, hkind, hes e List.mem_cons_self, hnew]
          exact ⟨Nat.le_refl _, rfl⟩
      · exact Or.inr ⟨Nat.le_trans (step_nextCall hmid) hle, hno⟩

end Kinds
end ChatRepository

namespace Session

open Library ChatRepository ConversationStore Device

/-!
# The repository under the device
-/

theorem onRepository_eq_some {es : List ChatRepository.Event} {s s' : Device} :
    s.onRepository es = some s' <->
      exists app, runEvents ChatRepository.step s.app es = some app ∧
        s' = { s with app := app }.settle := by
  rw [onRepository, Option.map_eq_some_iff]
  exact exists_congr fun app => and_congr_right fun _ => eq_comm

theorem awaits_eq_some {app : App} {call : CallId} {snapshot : List Conversation}
    (h : awaits app call = some snapshot) :
    exists cancellable, app.inFlight call = some (Coroutine.saving cancellable snapshot) := by
  rcases Option.bind_eq_some_iff.mp h with ⟨c, hc, hwaits⟩
  cases c with
  | saving cancellable waiting =>
      cases hwaits
      exact ⟨cancellable, hc⟩
  | _ => cases hwaits

theorem restart_reachable {files : Files} {s : Device}
    (hfiles : files.All (Sound s.app.chats.nextUuid)) :
    ChatRepository.Reachable (s.restart files).app :=
  ⟨{ files := files, privacy := PrivacySettings.state s.preferences,
     remoteConfig := s.app.remoteConfig, nextUuid := s.app.chats.nextUuid,
     sound := hfiles }, [], rfl⟩

theorem filesAfter_sound {app : App} (h : WellFormed app)
    (interrupted : Option (CallId × Nat)) :
    (filesAfter interrupted app).All (Sound app.chats.nextUuid) := by
  unfold filesAfter
  split
  · exact h.held.files
  · split
    · rename_i cancellable snapshot hcall
      exact stopAfter_save_all (h.held.inFlight _ _ _ hcall rfl) h.held.files _
    · exact stopAfter_load_all (Sound.nil _) h.held.files _
    · exact h.held.files

def Event.asks : Event -> Option RemoteEngine.Config
  | Event.saveProvider baseUrl apiKey model =>
      some
        { baseUrl := Text.trim baseUrl, apiKey := Text.trim apiKey
          model := Text.trim model }
  | Event.selectOpenRouterModel apiKey model =>
      some
        { baseUrl := "https://openrouter.ai/api/v1".toList, apiKey := Text.trim apiKey
          model := model.id, logsData := model.logsData }
  | _ => none

/-- What a step does to the repository: it makes at most one call there, which the saving of
a provider may follow, or the next process is launched. -/
inductive Effect (s : Device) (e : Event) (app : App) : Prop where
  | ran (es : List ChatRepository.Event)
      (hrun : runEvents ChatRepository.step s.app es = some app)
      (hasks : forall config, ChatRepository.Event.validateProvider config ∈ es ->
        e.asks = some config)
      (hlater : forall later, later ∈ es.tail ->
        exists config, later = ChatRepository.Event.saveRemoteConfig config)
  | launched (files : Files) (happ : app = (s.restart files).app)
      (hsound : WellFormed s.app -> files.All (Sound s.app.chats.nextUuid))

section Effect

variable {s s' mid : Device} {e : Event}

theorem Effect.nothing (s : Device) (e : Event) : Effect s e s.app :=
  Effect.ran [] rfl (by simp) (by simp)

theorem onRepository_effect {called : ChatRepository.Event} {es : List ChatRepository.Event}
    (hs : s.onRepository (called :: es) = some s') (happ : s.app = mid.app)
    (hasks : forall config, called = ChatRepository.Event.validateProvider config ->
      e.asks = some config)
    (hlater : forall later, later ∈ es ->
      exists config, later = ChatRepository.Event.saveRemoteConfig config) :
    Effect mid e s'.app := by
  rcases onRepository_eq_some.mp hs with ⟨app, hrun, rfl⟩
  rw [happ] at hrun
  refine Effect.ran (called :: es) hrun ?_ hlater
  intro config hconfig
  rcases List.mem_cons.mp hconfig with hcalled | hmem
  · exact hasks config hcalled.symm
  · rcases hlater _ hmem with ⟨saved, hsaved⟩
    cases hsaved

theorem called_effect {called : ChatRepository.Event}
    (hs : s.onRepository [called] = some s') (happ : s.app = mid.app)
    (hcalled : forall config, called ≠ ChatRepository.Event.validateProvider config) :
    Effect mid e s'.app :=
  onRepository_effect hs happ (fun config hsame => absurd hsame (hcalled config))
    fun _ hnone => by cases hnone

theorem resume_effect {call : CallId} {input : Input} {now : Millis}
    (hs : s.resume call input now = some s') :
    Effect s (Event.resume call input now) s'.app := by
  unfold Device.resume at hs
  split at hs
  · split at hs
    · exact called_effect hs rfl (by simp)
    · cases hs
  · rename_i faults
    unfold Device.saved at hs
    split at hs
    · cases hs
    · rename_i snapshot hwaits
      split at hs
      · exact called_effect hs rfl (by simp)
      · cases hs
        refine Effect.launched (saveFiles snapshot faults s.app.files) rfl fun h => ?_
        rcases awaits_eq_some hwaits with ⟨cancellable, hcall⟩
        exact saveFiles_all (h.held.inFlight call _ snapshot hcall rfl) h.held.files faults
  · split at hs
    · unfold Device.validated at hs
      split at hs
      · rcases Option.map_eq_some_iff.mp hs with ⟨after, hafter, rfl⟩
        show Effect s _ after.app
        refine onRepository_effect hafter rfl (fun _ hsame => by cases hsame) ?_
        intro later hlater
        exact ⟨_, List.mem_singleton.mp hlater⟩
      · rcases Option.map_eq_some_iff.mp hs with ⟨after, hafter, rfl⟩
        show Effect s _ after.app
        exact called_effect hafter rfl (by simp)
      · rcases Option.map_eq_some_iff.mp hs with ⟨after, hafter, rfl⟩
        show Effect s _ after.app
        exact called_effect hafter rfl (by simp)
    · exact called_effect hs rfl (by simp)

theorem step_effect (hs : step s e = some s') : Effect s e s'.app := by
  cases e with
  | acceptTerms =>
      simp only [step] at hs
      split at hs <;> cases hs
      exact Effect.nothing s _
  | openChat =>
      simp only [step] at hs
      split at hs
      · exact called_effect hs rfl (by simp)
      · cases hs
  | closeChat =>
      simp only [step] at hs
      split at hs <;> cases hs
      exact Effect.nothing s _
  | updateInput text =>
      cases hs
      exact Effect.nothing s _
  | onSend contextTokens loaded now =>
      rcases Option.bind_eq_some_iff.mp hs with ⟨vm, _, hs⟩
      simp only [Device.onSend] at hs
      split at hs
      · cases hs
        exact Effect.nothing s _
      · exact called_effect hs rfl (by simp)
  | stopGeneration =>
      rcases Option.map_eq_some_iff.mp hs with ⟨vm, _, rfl⟩
      split
      · exact Effect.nothing s _
      · exact Effect.nothing s _
  | newConversation now =>
      rcases Option.bind_eq_some_iff.mp hs with ⟨_, _, hs⟩
      exact called_effect hs rfl (by simp)
  | selectConversation id =>
      rcases Option.bind_eq_some_iff.mp hs with ⟨_, _, hs⟩
      exact called_effect hs rfl (by simp)
  | deleteConversation id now =>
      rcases Option.bind_eq_some_iff.mp hs with ⟨_, _, hs⟩
      exact called_effect hs rfl (by simp)
  | renameConversation id title =>
      rcases Option.bind_eq_some_iff.mp hs with ⟨_, _, hs⟩
      exact called_effect hs rfl (by simp)
  | selectLocalModel =>
      rcases Option.map_eq_some_iff.mp hs with ⟨_, _, rfl⟩
      exact Effect.nothing s _
  | selectCloudModel =>
      rcases Option.map_eq_some_iff.mp hs with ⟨_, _, rfl⟩
      exact Effect.nothing s _
  | showSelection preferCloud cloudModelId =>
      simp only [step] at hs
      split at hs <;> cases hs
      exact Effect.nothing s _
  | openSettings =>
      simp only [step] at hs
      split at hs <;> cases hs
      exact Effect.nothing s _
  | closeSettings =>
      simp only [step] at hs
      split at hs <;> cases hs
      exact Effect.nothing s _
  | setSwitch key value =>
      rcases Option.map_eq_some_iff.mp hs with ⟨_, _, rfl⟩
      exact Effect.nothing s _
  | saveProvider baseUrl apiKey model =>
      rcases Option.bind_eq_some_iff.mp hs with ⟨_, _, hs⟩
      refine onRepository_effect hs rfl (fun config hsame => ?_) (by simp)
      cases hsame
      rfl
  | selectOpenRouterModel apiKey model =>
      rcases Option.bind_eq_some_iff.mp hs with ⟨_, _, hs⟩
      refine onRepository_effect hs rfl (fun config hsame => ?_) (by simp)
      cases hsame
      rfl
  | clearProvider =>
      rcases Option.bind_eq_some_iff.mp hs with ⟨_, _, hs⟩
      rcases Option.map_eq_some_iff.mp hs with ⟨after, hafter, rfl⟩
      show Effect s _ after.app
      exact called_effect hafter rfl (by simp)
  | writeSwitch writer =>
      simp only [step, Device.writeSwitch] at hs
      split at hs
      · exact called_effect hs rfl (by simp)
      · cases hs
  | resume call input now => exact resume_effect hs
  | die interrupted =>
      cases hs
      exact Effect.launched (filesAfter interrupted s.app) rfl fun h =>
        filesAfter_sound h interrupted

theorem step_reachable (h : ChatRepository.Reachable s.app)
    (hs : step s e = some s') : ChatRepository.Reachable s'.app := by
  cases step_effect hs with
  | ran es hrun _ _ => exact h.run hrun
  | launched files happ hsound =>
      rw [happ]
      exact restart_reachable (hsound h.wellFormed)

end Effect

/-!
# The invariant
-/

/-- The chat screen says that it generates while its own send is in flight, and every other
send in flight has been cancelled. -/
structure OneSend (s : Device) : Prop where
  numbered : Numbered s.app
  begun : forall vm job, s.chat = some vm -> vm.generationJob = some job ->
    job < s.app.nextCall
  generating : forall vm, s.chat = some vm ->
    vm.isGenerating = isRunning s.app vm.generationJob
  job : forall vm job c, s.chat = some vm -> vm.generationJob = some job ->
    s.app.inFlight job = some c -> c.isSend = true
  sends : forall call c, s.app.inFlight call = some c -> c.isSend = true ->
    s.cancelled call = true ∨ exists vm, s.chat = some vm ∧ vm.generationJob = some call

section OneSend

variable {s s' : Device}

theorem OneSend.congr (h : OneSend s) (happ : s'.app = s.app) (hchat : s'.chat = s.chat)
    (hcancelled : forall call, s.cancelled call = true -> s'.cancelled call = true) :
    OneSend s' where
  numbered := by
    rw [happ]
    exact h.numbered
  begun := by
    rw [happ, hchat]
    exact h.begun
  generating := by
    rw [happ, hchat]
    exact h.generating
  job := by
    rw [happ, hchat]
    exact h.job
  sends := by
    rw [happ, hchat]
    intro call c hc hsend
    exact (h.sends call c hc hsend).imp (hcancelled call) id

theorem OneSend.onChat (h : OneSend s) {f : ChatViewModel -> ChatViewModel}
    (hjob : forall vm, (f vm).generationJob = vm.generationJob)
    (hgenerating : forall vm, (f vm).isGenerating = vm.isGenerating) :
    OneSend (s.onChat f) where
  numbered := h.numbered
  begun vm job hvm hvmJob := by
    rcases Option.map_eq_some_iff.mp hvm with ⟨vm0, hvm0, rfl⟩
    exact h.begun vm0 job hvm0 ((hjob vm0).symm.trans hvmJob)
  generating vm hvm := by
    rcases Option.map_eq_some_iff.mp hvm with ⟨vm0, hvm0, rfl⟩
    rw [hgenerating, hjob]
    exact h.generating vm0 hvm0
  job vm job c hvm hvmJob hc := by
    rcases Option.map_eq_some_iff.mp hvm with ⟨vm0, hvm0, rfl⟩
    exact h.job vm0 job c hvm0 ((hjob vm0).symm.trans hvmJob) hc
  sends call c hc hsend := by
    refine (h.sends call c hc hsend).imp id fun hjobs => ?_
    rcases hjobs with ⟨vm, hvm, hvmJob⟩
    exact ⟨f vm, Option.map_eq_some_iff.mpr ⟨vm, hvm, rfl⟩, (hjob vm).trans hvmJob⟩

theorem settle_chat {vm : ChatViewModel} (h : s.settle.chat = some vm) :
    exists vm0, s.chat = some vm0 ∧ vm.generationJob = vm0.generationJob ∧
      vm.isGenerating = (vm0.isGenerating && isRunning s.app vm0.generationJob) := by
  rcases Option.map_eq_some_iff.mp h with ⟨vm0, hvm0, rfl⟩
  refine ⟨vm0, hvm0, ?_⟩
  split
  · rename_i hrunning
    simp [hrunning]
  · rename_i hended
    simp [hended]

theorem settle_chat_of_some {vm : ChatViewModel} (h : s.chat = some vm) :
    exists vm', s.settle.chat = some vm' ∧ vm'.generationJob = vm.generationJob := by
  refine ⟨_, Option.map_eq_some_iff.mpr ⟨vm, h, rfl⟩, ?_⟩
  split <;> rfl

theorem OneSend.onRepository (h : OneSend s) {es : List ChatRepository.Event}
    (hes : forall e, e ∈ es -> e.isSend = false) (hs : s.onRepository es = some s') :
    OneSend s' := by
  rcases onRepository_eq_some.mp hs with ⟨app, hrun, rfl⟩
  have hle := run_nextCall hrun
  -- a job that is in flight afterwards was in flight before
  have hbefore : forall vm job c, s.chat = some vm -> vm.generationJob = some job ->
      app.inFlight job = some c ->
      exists c0, s.app.inFlight job = some c0 ∧ c.isSend = c0.isSend := by
    intro vm job c hvm hjob hc
    refine (run_isSend hes h.numbered hrun hc).resolve_right ?_
    intro hnew
    exact Nat.not_lt.mpr hnew.left (h.begun vm job hvm hjob)
  constructor
  · exact run_numbered h.numbered hrun
  · intro vm job hvm hjob
    rcases settle_chat hvm with ⟨vm0, hvm0, hsame, _⟩
    exact lt_of_lt_of_le (h.begun vm0 job hvm0 (hsame.symm.trans hjob)) hle
  · intro vm hvm
    rcases settle_chat hvm with ⟨vm0, hvm0, hsame, hgenerating⟩
    rw [hgenerating, hsame, h.generating vm0 hvm0]
    show (_ && isRunning app _) = isRunning app _
    rw [Bool.and_eq_right_iff_imp]
    intro hrunning
    rcases hjob : vm0.generationJob with _ | job
    · rw [hjob] at hrunning
      cases hrunning
    · rw [hjob] at hrunning
      rcases Option.isSome_iff_exists.mp hrunning with ⟨c, hc⟩
      rcases hbefore vm0 job c hvm0 hjob hc with ⟨c0, hc0, _⟩
      exact Option.isSome_iff_exists.mpr ⟨c0, hc0⟩
  · intro vm job c hvm hjob hc
    rcases settle_chat hvm with ⟨vm0, hvm0, hsame, _⟩
    rcases hbefore vm0 job c hvm0 (hsame.symm.trans hjob) hc with ⟨c0, hc0, hkind⟩
    rw [hkind]
    exact h.job vm0 job c0 hvm0 (hsame.symm.trans hjob) hc0
  · intro call c hc hsend
    rcases run_isSend hes h.numbered hrun hc with ⟨c0, hc0, hkind⟩ | ⟨_, hno⟩
    · refine (h.sends call c0 hc0 (hkind.symm.trans hsend)).imp id fun hjobs => ?_
      rcases hjobs with ⟨vm, hvm, hjob⟩
      rcases settle_chat_of_some (s := { s with app := app }) hvm with ⟨vm', hvm', hsame⟩
      exact ⟨vm', hvm', hsame.trans hjob⟩
    · rw [hno] at hsend
      cases hsend

theorem OneSend.dispatch (h : OneSend s) {vm : ChatViewModel} (hvm : s.chat = some vm)
    (hidle : vm.isGenerating = false) {text : Text} {useCloud : Bool} {contextTokens : Int}
    {loaded : Bool} {now : Millis}
    (hs : s.dispatch text useCloud contextTokens loaded now = some s') : OneSend s' := by
  rcases onRepository_eq_some.mp hs with ⟨app, hrun, rfl⟩
  rcases runEvents_cons.mp hrun with ⟨mid, hmid, hlast⟩
  cases hlast
  have hnext : app.nextCall = s.app.nextCall + 1 := by
    cases hmid
    exact beginSend_nextCall _ _ _ _ _ _
  have hchat : forall vm', ({ s.onChat (fun vm =>
      { vm with
        input := [], isGenerating := true,
        generationJob := some s.app.nextCall }) with app := app }.settle).chat = some vm' ->
      vm'.generationJob = some s.app.nextCall ∧
        vm'.isGenerating = isRunning app (some s.app.nextCall) := by
    intro vm' hvm'
    rcases settle_chat hvm' with ⟨vm0, hvm0, hsame, hgenerating⟩
    rcases Option.map_eq_some_iff.mp hvm0 with ⟨_, _, rfl⟩
    exact ⟨hsame, hgenerating.trans (Bool.true_and _)⟩
  constructor
  · exact step_numbered h.numbered hmid
  · intro vm' job hvm' hjob
    rw [(hchat vm' hvm').left] at hjob
    cases hjob
    exact lt_of_lt_of_eq (Nat.lt_succ_self _) hnext.symm
  · intro vm' hvm'
    rw [(hchat vm' hvm').left]
    exact (hchat vm' hvm').right
  · intro vm' job c hvm' hjob hc
    rw [(hchat vm' hvm').left] at hjob
    cases hjob
    cases hmid
    exact beginSend_isSend h.numbered.next_idle hc
  · intro call c hc hsend
    by_cases hnew : call = s.app.nextCall
    · right
      rcases settle_chat_of_some (s := { s.onChat (fun vm =>
        { vm with
          input := [], isGenerating := true,
          generationJob := some s.app.nextCall }) with app := app })
        (Option.map_eq_some_iff.mpr ⟨vm, hvm, rfl⟩) with ⟨vm', hvm', hsame⟩
      exact ⟨vm', hvm', hsame.trans (congrArg some hnew.symm)⟩
    · left
      rcases step_isSend h.numbered hmid hc with ⟨c0, hc0, hkind⟩ | ⟨hcall, _⟩
      · refine (h.sends call c0 hc0 (hkind.symm.trans hsend)).resolve_right ?_
        intro hjobs
        rcases hjobs with ⟨vm0, hvm0, hjob⟩
        rw [hvm] at hvm0
        cases hvm0
        have hgenerating := h.generating vm hvm
        rw [hidle, hjob] at hgenerating
        simp [isRunning, hc0] at hgenerating
      · exact absurd hcall hnew

theorem OneSend.launch {app : App} (happ : app.inFlight = fun _ => none)
    (hlog : app.log = []) (h : s.app = app) (hchat : s.chat = none) : OneSend s where
  numbered :=
    { inFlight := by
        intro call c hc
        rw [h, happ] at hc
        cases hc
      log := by
        intro o ho
        rw [h, hlog] at ho
        cases ho }
  begun vm job hvm := by
    rw [hchat] at hvm
    cases hvm
  generating vm hvm := by
    rw [hchat] at hvm
    cases hvm
  job vm job c hvm := by
    rw [hchat] at hvm
    cases hvm
  sends call c hc := by
    rw [h, happ] at hc
    cases hc

theorem OneSend.restart (files : Files) (s : Device) : OneSend (s.restart files) :=
  OneSend.launch rfl rfl rfl rfl

theorem OneSend.resume (h : OneSend s) {call : CallId} {input : Input} {now : Millis}
    (hs : s.resume call input now = some s') : OneSend s' := by
  have hresumed : forall e, e ∈ [ChatRepository.Event.resume call input now] ->
      e.isSend = false := by
    intro e he
    rw [List.mem_singleton.mp he]
    rfl
  unfold Device.resume at hs
  split at hs
  · split at hs
    · exact h.onRepository hresumed hs
    · cases hs
  · unfold Device.saved at hs
    split at hs
    · cases hs
    · split at hs
      · exact h.onRepository hresumed hs
      · cases hs
        exact OneSend.restart _ s
  · split at hs
    · rename_i config _
      have hended : OneSend { s with
          validations := Function.update s.validations call none } :=
        h.congr rfl rfl fun _ hc => hc
      unfold Device.validated at hs
      split at hs
      · rcases Option.map_eq_some_iff.mp hs with ⟨mid, hmid, rfl⟩
        refine (hended.onRepository ?_ hmid).congr rfl rfl fun _ hc => hc
        intro e he
        rcases List.mem_cons.mp he with rfl | he
        · rfl
        · rw [List.mem_singleton.mp he]
          rfl
      · rcases Option.map_eq_some_iff.mp hs with ⟨mid, hmid, rfl⟩
        exact (hended.onRepository hresumed hmid).congr rfl rfl fun _ hc => hc
      · rcases Option.map_eq_some_iff.mp hs with ⟨mid, hmid, rfl⟩
        exact (hended.onRepository hresumed hmid).congr rfl rfl fun _ hc => hc
    · exact h.onRepository hresumed hs

theorem OneSend.validate (h : OneSend s) {config : RemoteEngine.Config}
    (hs : s.validate config = some s') : OneSend s' := by
  unfold Device.validate at hs
  refine OneSend.onRepository ?_ ?_ hs
  · exact h.congr rfl rfl fun _ hc => hc
  · intro e he
    rw [List.mem_singleton.mp he]
    rfl

theorem OneSend.onSend (h : OneSend s) {vm : ChatViewModel} (hvm : s.chat = some vm)
    {contextTokens : Int} {loaded : Bool} {now : Millis}
    (hs : s.onSend contextTokens loaded now vm = some s') : OneSend s' := by
  unfold Device.onSend at hs
  dsimp only at hs
  split at hs
  · cases hs
    exact h
  · rename_i hsends
    have hidle : vm.isGenerating = false := by
      rw [Bool.not_eq_true, Bool.or_eq_false_iff] at hsends
      exact hsends.right
    exact h.dispatch hvm hidle hs

theorem step_oneSend {e : Event} (h : OneSend s) (hs : step s e = some s') :
    OneSend s' := by
  -- an event that is one call of the repository other than `send`
  have hcalled : forall {e : ChatRepository.Event}, e.isSend = false ->
      s.onRepository [e] = some s' -> OneSend s' := by
    intro e he hs
    refine h.onRepository ?_ hs
    intro e' he'
    rw [List.mem_singleton.mp he']
    exact he
  cases e with
  | acceptTerms =>
      simp only [step] at hs
      split at hs <;> cases hs
      exact h.congr rfl rfl fun _ hc => hc
  | openChat =>
      simp only [step] at hs
      split at hs
      · rename_i hopens
        rw [Bool.and_eq_true, Option.isNone_iff_eq_none] at hopens
        refine OneSend.onRepository (s := { s with chat := some {} }) ?_ ?_ hs
        · refine ⟨h.numbered, ?_, ?_, ?_, ?_⟩
          · intro vm job hvm hjob
            cases hvm
            cases hjob
          · intro vm hvm
            cases hvm
            rfl
          · intro vm job c hvm hjob
            cases hvm
            cases hjob
          · intro call c hc hsend
            refine (h.sends call c hc hsend).imp id fun hjobs => ?_
            rcases hjobs with ⟨vm, hvm, _⟩
            rw [hopens.right] at hvm
            cases hvm
        · intro e he
          rw [List.mem_singleton.mp he]
          rfl
      · cases hs
  | closeChat =>
      simp only [step] at hs
      split at hs <;> cases hs
      refine ⟨h.numbered, ?_, ?_, ?_, ?_⟩
      · intro vm job hvm
        cases hvm
      · intro vm hvm
        cases hvm
      · intro vm job c hvm
        cases hvm
      · intro call c hc _
        left
        show (s.cancelled call || (s.app.inFlight call).isSome) = true
        rw [show s.app.inFlight call = some c from hc, Option.isSome_some, Bool.or_true]
  | updateInput text =>
      cases hs
      exact h.onChat (fun _ => rfl) fun _ => rfl
  | onSend contextTokens loaded now =>
      rcases Option.bind_eq_some_iff.mp hs with ⟨vm, hvm, hs⟩
      exact h.onSend hvm hs
  | stopGeneration =>
      rcases Option.map_eq_some_iff.mp hs with ⟨vm, _, rfl⟩
      split
      · exact h
      · rename_i job _
        refine h.congr rfl rfl fun call hc => ?_
        by_cases hsame : call = job
        · rw [hsame]
          exact Function.update_self _ _ _
        · exact (Function.update_of_ne hsame _ _).trans hc
  | newConversation now =>
      rcases Option.bind_eq_some_iff.mp hs with ⟨_, _, hs⟩
      exact hcalled rfl hs
  | selectConversation id =>
      rcases Option.bind_eq_some_iff.mp hs with ⟨_, _, hs⟩
      exact hcalled rfl hs
  | deleteConversation id now =>
      rcases Option.bind_eq_some_iff.mp hs with ⟨_, _, hs⟩
      exact hcalled rfl hs
  | renameConversation id title =>
      rcases Option.bind_eq_some_iff.mp hs with ⟨_, _, hs⟩
      exact hcalled rfl hs
  | selectLocalModel =>
      rcases Option.map_eq_some_iff.mp hs with ⟨_, _, rfl⟩
      exact h.congr rfl rfl fun _ hc => hc
  | selectCloudModel =>
      rcases Option.map_eq_some_iff.mp hs with ⟨_, _, rfl⟩
      exact h.congr rfl rfl fun _ hc => hc
  | showSelection preferCloud cloudModelId =>
      simp only [step] at hs
      split at hs <;> cases hs
      exact h.onChat (fun _ => rfl) fun _ => rfl
  | openSettings =>
      simp only [step] at hs
      split at hs <;> cases hs
      exact h.congr rfl rfl fun _ hc => hc
  | closeSettings =>
      simp only [step] at hs
      split at hs <;> cases hs
      refine h.congr rfl rfl fun call hc => ?_
      show (s.cancelled call || (s.validations call).isSome) = true
      rw [hc, Bool.true_or]
  | setSwitch key value =>
      rcases Option.map_eq_some_iff.mp hs with ⟨_, _, rfl⟩
      exact h.congr rfl rfl fun _ hc => hc
  | saveProvider baseUrl apiKey model =>
      rcases Option.bind_eq_some_iff.mp hs with ⟨_, _, hs⟩
      exact h.validate hs
  | selectOpenRouterModel apiKey model =>
      rcases Option.bind_eq_some_iff.mp hs with ⟨_, _, hs⟩
      exact h.validate hs
  | clearProvider =>
      rcases Option.bind_eq_some_iff.mp hs with ⟨_, _, hs⟩
      rcases Option.map_eq_some_iff.mp hs with ⟨mid, hmid, rfl⟩
      refine (h.onRepository ?_ hmid).congr rfl rfl fun _ hc => hc
      intro e he
      rw [List.mem_singleton.mp he]
      rfl
  | writeSwitch writer =>
      simp only [step, Device.writeSwitch] at hs
      split at hs
      · refine OneSend.onRepository ?_ ?_ hs
        · exact h.congr rfl rfl fun _ hc => hc
        · intro e he
          rw [List.mem_singleton.mp he]
          rfl
      · cases hs
  | resume call input now => exact h.resume hs
  | die interrupted =>
      cases hs
      exact OneSend.restart _ s

end OneSend

/-!
# Every run of the device
-/

theorem run_oneSend {es : List Event} {s s' : Device} (h : OneSend s)
    (hreachable : ChatRepository.Reachable s.app) (hrun : runEvents step s es = some s') :
    OneSend s' ∧ ChatRepository.Reachable s'.app :=
  runEvents_keeps (I := fun s => OneSend s ∧ ChatRepository.Reachable s.app)
    (fun _ _ _ h hs => ⟨step_oneSend h.left hs, step_reachable h.right hs⟩)
    ⟨h, hreachable⟩ hrun

theorem installed_reachable : ChatRepository.Reachable installed.app :=
  ⟨firstLaunch, [], rfl⟩

theorem installed_oneSend : OneSend installed :=
  OneSend.launch rfl rfl rfl rfl

/-- However often the process ends, the repository is in one of its reachable states, the
chat screen says that it generates while its own send is in flight and at no other time,
and of the sends in flight at most one has not been cancelled: the screen's own. -/
theorem one_send_at_a_time {es : List Event} {s : Device}
    (hrun : runEvents step installed es = some s) :
    ChatRepository.Reachable s.app ∧
    (forall vm, s.chat = some vm ->
      (vm.isGenerating = true <->
        exists call c, vm.generationJob = some call ∧ s.app.inFlight call = some c ∧
          c.isSend = true)) ∧
    (forall call c, s.app.inFlight call = some c -> c.isSend = true ->
      s.cancelled call = false ->
      exists vm, s.chat = some vm ∧ vm.isGenerating = true ∧ vm.generationJob = some call) := by
  rcases run_oneSend installed_oneSend installed_reachable hrun with ⟨h, hreachable⟩
  refine ⟨hreachable, ?_, ?_⟩
  · intro vm hvm
    rw [h.generating vm hvm]
    constructor
    · intro hrunning
      rcases hjob : vm.generationJob with _ | job
      · rw [hjob] at hrunning
        cases hrunning
      · rw [hjob] at hrunning
        rcases Option.isSome_iff_exists.mp hrunning with ⟨c, hc⟩
        exact ⟨job, c, rfl, hc, h.job vm job c hvm hjob hc⟩
    · intro hsends
      rcases hsends with ⟨call, c, hjob, hc, _⟩
      rw [hjob]
      exact Option.isSome_iff_exists.mpr ⟨c, hc⟩
  · intro call c hc hsend hgoes
    rcases h.sends call c hc hsend with hcancelled | ⟨vm, hvm, hjob⟩
    · rw [hgoes] at hcancelled
      cases hcancelled
    · refine ⟨vm, hvm, ?_, hjob⟩
      rw [h.generating vm hvm, hjob]
      exact Option.isSome_iff_exists.mpr ⟨c, hc⟩

def impatient : List Event :=
  [Event.acceptTerms, Event.openChat, Event.updateInput "Hi ".toList, Event.onSend 0 false 0,
   Event.stopGeneration, Event.updateInput "Hello".toList, Event.onSend 0 false 1]

theorem impatient_sends_once :
    exists s vm, runEvents step installed impatient = some s ∧ s.chat = some vm ∧
      vm.input = "Hello".toList ∧
      exists call c, vm.generationJob = some call ∧ s.app.inFlight call = some c ∧
        c.isSend = true :=
  ⟨_, _, rfl, rfl, rfl, ((@one_send_at_a_time impatient _ rfl).right.left _ rfl).mp rfl⟩

end Session
end DomainAI
