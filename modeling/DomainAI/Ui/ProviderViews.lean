import DomainAI.Privacy.ConsentChain

/-!
# What the screens show of the provider

The stored provider is read once for each flow and each screen; afterwards the copies are
kept up to date by hand.
-/

namespace DomainAI
namespace Session

open Library ChatRepository Device

structure Shown (s : Device) : Prop where
  settings : forall vm, s.settings = some vm ->
    vm.hasProvider = s.provider.isSome ∧
      vm.activeModelId = s.provider.map RemoteEngine.Config.model
  selection : s.preferCloud = s.selection
  usable : forall config, s.provider = some config -> s.cloudModelId = some config.model
  stored : forall model, s.cloudModelId = some model ->
    exists config, s.app.remoteConfig = some config ∧ config.model = model

section Shown

variable {s s' : Device}

theorem Shown.congr (h : Shown s) (hsettings : s'.settings = s.settings ∨ s'.settings = none)
    (hconfig : s'.app.remoteConfig = s.app.remoteConfig)
    (hselection : s'.preferCloud = s.preferCloud ∧ s'.selection = s.selection)
    (hmodel : s'.cloudModelId = s.cloudModelId) : Shown s' := by
  have hprovider : s'.provider = s.provider := congrArg RemoteConfigStore.load hconfig
  refine ⟨?_, ?_, ?_, ?_⟩
  · intro vm hvm
    rw [hprovider]
    rcases hsettings with hsame | hclosed
    · exact h.settings vm (hsame.symm.trans hvm)
    · rw [hclosed] at hvm
      cases hvm
  · rw [hselection.left, hselection.right]
    exact h.selection
  · rw [hprovider, hmodel]
    exact h.usable
  · rw [hconfig, hmodel]
    exact h.stored

theorem Shown.onRepository (h : Shown s) {es : List ChatRepository.Event}
    (hes : forall e, e ∈ es -> e.isPlain = true) (hs : s.onRepository es = some s') :
    Shown s' := by
  rcases onRepository_eq_some.mp hs with ⟨app, hrun, rfl⟩
  rcases run_plain hes hrun with ⟨_, hconfig, _⟩
  exact h.congr (Or.inl rfl) hconfig ⟨rfl, rfl⟩ rfl

theorem Shown.called (h : Shown s) {e : ChatRepository.Event} (he : e.isPlain = true)
    (hs : s.onRepository [e] = some s') : Shown s' := by
  refine h.onRepository ?_ hs
  intro e' he'
  rw [List.mem_singleton.mp he']
  exact he

theorem Shown.onSettings (h : Shown s) {f : SettingsViewModel -> SettingsViewModel}
    (hf : forall vm, (f vm).hasProvider = vm.hasProvider ∧
      (f vm).activeModelId = vm.activeModelId) : Shown (s.onSettings f) where
  settings vm hvm := by
    rcases Option.map_eq_some_iff.mp hvm with ⟨vm0, hvm0, rfl⟩
    rw [(hf vm0).left, (hf vm0).right]
    exact h.settings vm0 hvm0
  selection := h.selection
  usable := h.usable
  stored := h.stored

theorem Shown.setPreferCloud (h : Shown s) (value : Bool) : Shown (s.setPreferCloud value) where
  settings := h.settings
  selection := rfl
  usable := h.usable
  stored := h.stored

theorem Shown.restart (files : ConversationStore.Files) (s : Device) :
    Shown (s.restart files) where
  settings vm hvm := by cases hvm
  selection := rfl
  usable config hconfig := congrArg (Option.map RemoteEngine.Config.model) hconfig
  stored model hmodel := by
    rcases Option.map_eq_some_iff.mp hmodel with ⟨config, hconfig, rfl⟩
    exact ⟨config, (Option.filter_eq_some_iff.mp hconfig).left, rfl⟩

theorem shown_saved {config : RemoteEngine.Config} (hselection : s.preferCloud = s.selection)
    (hconfig : s.app.remoteConfig = some config)
    (hmodel : s.cloudModelId = some config.model) : Shown s.refreshProvider where
  settings vm hvm := by
    rcases Option.map_eq_some_iff.mp hvm with ⟨vm0, hvm0, rfl⟩
    exact ⟨rfl, rfl⟩
  selection := hselection
  usable config' hconfig' := by
    have hsaved := (Option.filter_eq_some_iff.mp hconfig').left
    rw [show s.refreshProvider.app.remoteConfig = some config from hconfig] at hsaved
    cases hsaved
    exact hmodel
  stored model hstored := by
    have hsame := hmodel.symm.trans hstored
    cases hsame
    exact ⟨config, hconfig, rfl⟩

theorem Shown.resume (h : Shown s) {call : CallId} {input : Input} {now : Millis}
    (hs : s.resume call input now = some s') : Shown s' := by
  unfold Device.resume at hs
  split at hs
  · split at hs
    · exact h.called rfl hs
    · cases hs
  · unfold Device.saved at hs
    split at hs
    · cases hs
    · split at hs
      · exact h.called rfl hs
      · cases hs
        exact Shown.restart _ s
  · split at hs
    · have hended : Shown { s with
          validations := Function.update s.validations call none } :=
        h.congr (Or.inl rfl) rfl ⟨rfl, rfl⟩ rfl
      unfold Device.validated at hs
      split at hs
      · rcases Option.map_eq_some_iff.mp hs with ⟨mid, hmid, rfl⟩
        rcases onRepository_eq_some.mp hmid with ⟨app, hrun, rfl⟩
        rcases runEvents_cons.mp hrun with ⟨resumed, _, hrest⟩
        cases hrest
        exact shown_saved h.selection rfl rfl
      · rcases Option.map_eq_some_iff.mp hs with ⟨mid, hmid, rfl⟩
        exact (hended.called rfl hmid).onSettings fun _ => ⟨rfl, rfl⟩
      · rcases Option.map_eq_some_iff.mp hs with ⟨mid, hmid, rfl⟩
        exact (hended.called rfl hmid).onSettings fun _ => ⟨rfl, rfl⟩
    · exact h.called rfl hs

theorem Shown.validate (h : Shown s) {config : RemoteEngine.Config}
    (hs : s.validate config = some s') : Shown s' := by
  unfold Device.validate at hs
  refine Shown.called ?_ rfl hs
  refine Shown.onSettings ?_ fun _ => ⟨rfl, rfl⟩
  exact h.congr (Or.inl rfl) rfl ⟨rfl, rfl⟩ rfl

theorem step_shown {e : Event} (h : Shown s) (hs : step s e = some s') : Shown s' := by
  have hkept := @Shown.congr s
  cases e with
  | acceptTerms =>
      simp only [step] at hs
      split at hs <;> cases hs
      exact hkept h (Or.inl rfl) rfl ⟨rfl, rfl⟩ rfl
  | openChat =>
      simp only [step] at hs
      split at hs
      · refine Shown.called ?_ rfl hs
        exact hkept h (Or.inl rfl) rfl ⟨rfl, rfl⟩ rfl
      · cases hs
  | closeChat =>
      simp only [step] at hs
      split at hs <;> cases hs
      exact hkept h (Or.inr rfl) rfl ⟨rfl, rfl⟩ rfl
  | updateInput text =>
      cases hs
      exact hkept h (Or.inl rfl) rfl ⟨rfl, rfl⟩ rfl
  | onSend contextTokens loaded now =>
      rcases Option.bind_eq_some_iff.mp hs with ⟨vm, _, hs⟩
      simp only [Device.onSend] at hs
      split at hs
      · cases hs
        exact h
      · rcases onRepository_eq_some.mp hs with ⟨app, hrun, rfl⟩
        rcases runEvents_cons.mp hrun with ⟨mid, hmid, hlast⟩
        cases hlast
        exact hkept h (Or.inl rfl) (step_settings hmid).right ⟨rfl, rfl⟩ rfl
  | stopGeneration =>
      rcases Option.map_eq_some_iff.mp hs with ⟨vm, _, rfl⟩
      split
      · exact h
      · exact hkept h (Or.inl rfl) rfl ⟨rfl, rfl⟩ rfl
  | newConversation now =>
      rcases Option.bind_eq_some_iff.mp hs with ⟨_, _, hs⟩
      exact h.called rfl hs
  | selectConversation id =>
      rcases Option.bind_eq_some_iff.mp hs with ⟨_, _, hs⟩
      exact h.called rfl hs
  | deleteConversation id now =>
      rcases Option.bind_eq_some_iff.mp hs with ⟨_, _, hs⟩
      exact h.called rfl hs
  | renameConversation id title =>
      rcases Option.bind_eq_some_iff.mp hs with ⟨_, _, hs⟩
      exact h.called rfl hs
  | selectLocalModel =>
      rcases Option.map_eq_some_iff.mp hs with ⟨_, _, rfl⟩
      exact h.setPreferCloud false
  | selectCloudModel =>
      rcases Option.map_eq_some_iff.mp hs with ⟨_, _, rfl⟩
      exact h.setPreferCloud true
  | showSelection preferCloud cloudModelId =>
      simp only [step] at hs
      split at hs <;> cases hs
      exact hkept h (Or.inl rfl) rfl ⟨rfl, rfl⟩ rfl
  | openSettings =>
      simp only [step] at hs
      split at hs <;> cases hs
      refine ⟨?_, h.selection, h.usable, h.stored⟩
      intro vm hvm
      cases hvm
      exact ⟨rfl, rfl⟩
  | closeSettings =>
      simp only [step] at hs
      split at hs <;> cases hs
      exact hkept h (Or.inr rfl) rfl ⟨rfl, rfl⟩ rfl
  | setSwitch key value =>
      rcases Option.map_eq_some_iff.mp hs with ⟨_, _, rfl⟩
      exact hkept h (Or.inl rfl) rfl ⟨rfl, rfl⟩ rfl
  | saveProvider baseUrl apiKey model =>
      rcases Option.bind_eq_some_iff.mp hs with ⟨_, _, hs⟩
      exact h.validate hs
  | selectOpenRouterModel apiKey model =>
      rcases Option.bind_eq_some_iff.mp hs with ⟨_, _, hs⟩
      exact h.validate hs
  | clearProvider =>
      rcases Option.bind_eq_some_iff.mp hs with ⟨_, _, hs⟩
      rcases Option.map_eq_some_iff.mp hs with ⟨mid, hmid, rfl⟩
      rcases onRepository_eq_some.mp hmid with ⟨app, hrun, rfl⟩
      cases hrun
      refine ⟨?_, rfl, ?_, ?_⟩
      · intro vm hvm
        rcases Option.map_eq_some_iff.mp hvm with ⟨vm0, _, rfl⟩
        exact ⟨rfl, rfl⟩
      · intro config hconfig
        cases hconfig
      · intro model hmodel
        cases hmodel
  | writeSwitch writer =>
      simp only [step, Device.writeSwitch] at hs
      split at hs
      · rcases onRepository_eq_some.mp hs with ⟨app, hrun, rfl⟩
        cases hrun
        exact hkept h (Or.inl rfl) rfl ⟨rfl, rfl⟩ rfl
      · cases hs
  | resume call input now => exact h.resume hs
  | die interrupted =>
      cases hs
      exact Shown.restart _ s

theorem installed_shown : Shown installed where
  settings vm hvm := by cases hvm
  selection := rfl
  usable config hconfig := by cases hconfig
  stored model hmodel := by cases hmodel

end Shown

/-- The cloud model that `selectedModelLabel` names, or none for the model on the device. -/
def Device.selectedModel (s : Device) : Option Text :=
  if s.preferCloud then s.cloudModelId else none

/-- The selected model is that of the stored provider where the cloud is the stored choice,
and otherwise the one on the device. -/
structure Selected (s : Device) : Prop where
  stored : forall model, s.selectedModel = some model ->
    s.selection = true ∧ exists config, s.app.remoteConfig = some config ∧ config.model = model
  usable : forall config, s.provider = some config -> s.selection = true ->
    s.selectedModel = some config.model
  onDevice : s.selection = false -> s.selectedModel = none

theorem Shown.selected {s : Device} (h : Shown s) : Selected s := by
  have hmodel : s.selectedModel = if s.selection then s.cloudModelId else none := by
    rw [Device.selectedModel, h.selection]
  rcases hselection : s.selection with _ | _ <;> rw [hselection] at hmodel
  · refine ⟨?_, ?_, fun _ => hmodel⟩
    · intro model hactive
      cases hmodel.symm.trans hactive
    · intro config _ hchosen
      cases hselection.symm.trans hchosen
  · refine ⟨?_, ?_, ?_⟩
    · intro model hactive
      exact ⟨hselection, h.stored model (hmodel.symm.trans hactive)⟩
    · intro config hconfig _
      exact hmodel.trans (h.usable config hconfig)
    · intro hchosen
      cases hselection.symm.trans hchosen

/-- In every state of every process, the settings screen shows the provider that a turn would
use, the picker offers it, and offers nothing that is not stored; the selected model is the
stored provider's where the cloud is the stored choice; and a stored provider has answered the
trial that began when the user entered it. -/
theorem provider_shown {es : List Event} {s : Device}
    (hrun : runEvents step installed es = some s) :
    Shown s ∧ Selected s ∧
      forall config, s.app.remoteConfig = some config -> Validated es config := by
  have hshown : Shown s :=
    runEvents_keeps (fun _ _ _ h hs => step_shown h hs) installed_shown hrun
  exact ⟨hshown, hshown.selected, (run_chain hrun).config⟩

def savedProvider : List Event :=
  [Event.acceptTerms, Event.openChat, Event.openSettings,
   Event.saveProvider "https://openrouter.ai/api/v1".toList " key".toList "model".toList,
   Event.resume 1 (Input.delta "Hi".toList) 1, Event.selectCloudModel, Event.die none]

theorem provider_shown_saved :
    exists s config, runEvents step installed savedProvider = some s ∧
      s.provider = some config ∧ s.selectedModel = some "model".toList ∧ Shown s ∧
      Selected s ∧ Validated savedProvider config :=
  ⟨_, _, rfl, rfl, rfl, (@provider_shown savedProvider _ rfl).left,
    (@provider_shown savedProvider _ rfl).right.left,
    (@provider_shown savedProvider _ rfl).right.right _ rfl⟩

end Session
end DomainAI
