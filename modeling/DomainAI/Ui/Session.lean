import DomainAI.Data.EndedTurns
import DomainAI.Data.Settings
import DomainAI.Inference.OpenRouterClient

/-!
# The app on one device

The two view models over the repository, with the settings that outlive the process.  An
event is something the user does, a suspended call that goes on, or the end of the process.

What a screen shows of a flow may lag behind it, so a screen shows any value that the flow
has had since the process began.
-/

namespace DomainAI
namespace Session

open Library ChatRepository PrivacySettings ConversationStore

/-- The part of `ChatUiState` that the view model decides by, and its job. -/
structure ChatViewModel where
  input : Text := []
  isGenerating : Bool := false
  preferCloud : Bool := false
  cloudModelId : Option Text := none
  generationJob : Option CallId := none
  deriving DecidableEq, Repr

structure SettingsViewModel where
  hasProvider : Bool
  activeModelId : Option Text
  providerValidating : Bool := false
  providerError : Option Text := none
  deriving DecidableEq, Repr

structure Device where
  app : App
  preferences : Preferences := fun _ => none
  /-- Coroutines that edit the preferences, each with the edits it has yet to make. -/
  writers : List (List Edit) := []
  acceptedVersion : Int := 0
  selection : Bool := false
  /-- `_preferCloud` and the values it has had in this process. -/
  preferCloud : Bool := false
  preferCloudSeen : List Bool := [false]
  cloudModelId : Option Text := none
  cloudModelIdSeen : List (Option Text) := [none]
  chat : Option ChatViewModel := none
  settings : Option SettingsViewModel := none
  /-- The configurations under validation for the settings screen that is open. -/
  validations : CallId -> Option RemoteEngine.Config := fun _ => none
  /-- The calls whose coroutine has been cancelled. -/
  cancelled : CallId -> Bool := fun _ => false

inductive Event where
  | acceptTerms
  | openChat
  | closeChat
  | updateInput (text : Text)
  | onSend (contextTokens : Int) (localModelLoaded : Bool) (now : Millis)
  | stopGeneration
  | newConversation (now : Millis)
  | selectConversation (id : Uuid)
  | deleteConversation (id : Uuid) (now : Millis)
  | renameConversation (id : Uuid) (title : Text)
  | selectLocalModel
  | selectCloudModel
  | showSelection (preferCloud : Bool) (cloudModelId : Option Text)
  | openSettings
  | closeSettings
  | setSwitch (key : Key) (value : Bool)
  | saveProvider (baseUrl apiKey model : Text)
  | selectOpenRouterModel (apiKey : Text) (model : OpenRouterClient.FreeModel)
  | clearProvider
  | writeSwitch (writer : Nat)
  | resume (call : CallId) (input : Input) (now : Millis)
  /-- The process dies, maybe some file operations into a call that uses the files. -/
  | die (interrupted : Option (CallId × Nat))

namespace Device

def isRunning (app : App) (job : Option CallId) : Bool :=
  job.any fun call => (app.inFlight call).isSome

/-- A coroutine that has ended has run its `finally` block. -/
def settle (s : Device) : Device :=
  { s with
    chat := s.chat.map fun vm =>
      if isRunning s.app vm.generationJob then vm else { vm with isGenerating := false } }

def onRepository (es : List ChatRepository.Event) (s : Device) : Option Device :=
  (runEvents ChatRepository.step s.app es).map fun app => { s with app := app }.settle

def setPreferCloud (value : Bool) (s : Device) : Device :=
  { s with
    selection := value, preferCloud := value,
    preferCloudSeen := s.preferCloudSeen ++ [value] }

def setCloudModelId (value : Option Text) (s : Device) : Device :=
  { s with
    cloudModelId := value, cloudModelIdSeen := s.cloudModelIdSeen ++ [value] }

def onChat (f : ChatViewModel -> ChatViewModel) (s : Device) : Device :=
  { s with chat := s.chat.map f }

def onSettings (f : SettingsViewModel -> SettingsViewModel) (s : Device) : Device :=
  { s with settings := s.settings.map f }

def provider (s : Device) : Option RemoteEngine.Config :=
  RemoteConfigStore.load s.app.remoteConfig

def refreshProvider (s : Device) : Device :=
  s.onSettings fun vm =>
    { vm with
      hasProvider := s.provider.isSome
      activeModelId := s.provider.map RemoteEngine.Config.model }

/-- The files that a process leaves which dies inside a call. -/
def filesAfter (interrupted : Option (CallId × Nat)) (app : App) : Files :=
  match interrupted with
  | none => app.files
  | some (call, steps) =>
      match app.inFlight call with
      | some (Coroutine.saving _ snapshot) =>
          Program.stopAfter exec (ConversationStore.save snapshot) steps [] app.files
      | some (Coroutine.restoring none) =>
          Program.stopAfter exec ConversationStore.load steps [] app.files
      | _ => app.files

def restart (files : Files) (s : Device) : Device :=
  let modelId := s.provider.map RemoteEngine.Config.model
  { app :=
      { chats := { nextUuid := s.app.chats.nextUuid }
        files := files
        privacy := PrivacySettings.state s.preferences
        remoteConfig := s.app.remoteConfig }
    preferences := s.preferences
    acceptedVersion := s.acceptedVersion
    selection := s.selection
    preferCloud := s.selection
    preferCloudSeen := [s.selection]
    cloudModelId := modelId
    cloudModelIdSeen := [modelId] }

/-- `dispatch`, for a text that is sent. -/
def dispatch (text : Text) (useCloud : Bool) (contextTokens : Int)
    (localModelLoaded : Bool) (now : Millis) (s : Device) : Option Device :=
  (s.onChat fun vm =>
    { vm with
      input := [], isGenerating := true,
      generationJob := some s.app.nextCall }).onRepository
    [ChatRepository.Event.send text useCloud contextTokens localModelLoaded now]

def onSend (contextTokens : Int) (localModelLoaded : Bool) (now : Millis) (vm : ChatViewModel)
    (s : Device) : Option Device :=
  let text := Text.trim vm.input
  if text.isEmpty || vm.isGenerating then some s
  else
    s.dispatch text (vm.preferCloud && vm.cloudModelId.isSome) contextTokens
      localModelLoaded now

/-- `validateAndSave` up to its first suspension. -/
def validate (config : RemoteEngine.Config) (s : Device) : Option Device :=
  ({ s with
      validations := Function.update s.validations s.app.nextCall (some config)
    }.onSettings fun vm => { vm with providerValidating := true, providerError := none
    }).onRepository [ChatRepository.Event.validateProvider config]

/-- `R.string.provider_validate_failed`. -/
def providerValidateFailed : Text :=
  "Couldn't validate the connection.".toList

/-- The rest of `validateAndSave`, for the input that the validation got. -/
def validated (call : CallId) (config : RemoteEngine.Config) (input : Input) (now : Millis)
    (s : Device) : Option Device :=
  let s := { s with validations := Function.update s.validations call none }
  let resumed := ChatRepository.Event.resume call input now
  match input with
  | Input.delta _ =>
      (s.onRepository [resumed, ChatRepository.Event.saveRemoteConfig config]).map fun s =>
        ((s.setCloudModelId (some config.model)).onSettings fun vm =>
          { vm with providerValidating := false }).refreshProvider
  | Input.failed message =>
      (s.onRepository [resumed]).map (onSettings fun vm =>
        { vm with
          providerValidating := false
          providerError := some (message.getD providerValidateFailed) })
  | _ =>
      -- the flow ends without an element, and `first` throws
      (s.onRepository [resumed]).map (onSettings fun vm =>
        { vm with
          providerValidating := false
          providerError := some "Expected at least one element".toList })

/-- A save that throws ends the coroutine that has no handler, and the process with it. -/
def saved (call : CallId) (faults : List Fault) (now : Millis) (s : Device) : Option Device :=
  match awaits s.app call with
  | none => none
  | some snapshot =>
      if saveReturns snapshot faults s.app.files then
        s.onRepository [ChatRepository.Event.resume call (Input.saved faults) now]
      else some (s.restart (saveFiles snapshot faults s.app.files))

def resume (call : CallId) (input : Input) (now : Millis) (s : Device) : Option Device :=
  match input with
  | Input.cancelled =>
      if s.cancelled call then
        s.onRepository [ChatRepository.Event.resume call Input.cancelled now]
      else none
  | Input.saved faults => s.saved call faults now
  | _ =>
      match s.validations call with
      | some config => s.validated call config input now
      | none => s.onRepository [ChatRepository.Event.resume call input now]

def writeSwitch (writer : Nat) (s : Device) : Option Device :=
  match s.writers[writer]? with
  | some (e :: rest) =>
      { s with
        preferences := edit e s.preferences
        writers := s.writers.set writer rest }.onRepository
        [ChatRepository.Event.setPrivacy (PrivacySettings.state (edit e s.preferences))]
  | _ => none

end Device

open Device

/-- One step; none when it is not enabled. -/
def step (s : Device) : Event -> Option Device
  | Event.acceptTerms =>
      if AcceptanceStore.isAccepted s.acceptedVersion then none
      else
        some { s with
          acceptedVersion := AcceptanceStore.CURRENT_VERSION
          writers := s.writers ++
            [[(Key.KEY_CLOUD_CONSENT, true), (Key.KEY_ALLOW_DATALOG, true)]] }
  | Event.openChat =>
      if AcceptanceStore.isAccepted s.acceptedVersion && s.chat.isNone then
        { s with chat := some {} }.onRepository [ChatRepository.Event.restore]
      else none
  | Event.closeChat =>
      if s.chat.isNone then none
      else
        some { s with
          chat := none, settings := none, validations := fun _ => none
          cancelled := fun call => s.cancelled call || (s.app.inFlight call).isSome }
  | Event.updateInput text => some (s.onChat fun vm => { vm with input := text })
  | Event.onSend contextTokens localModelLoaded now =>
      s.chat.bind fun vm => s.onSend contextTokens localModelLoaded now vm
  | Event.stopGeneration =>
      s.chat.map fun vm =>
        match vm.generationJob with
        | none => s
        | some job => { s with cancelled := Function.update s.cancelled job true }
  | Event.newConversation now =>
      s.chat.bind fun _ => s.onRepository [ChatRepository.Event.newConversation now]
  | Event.selectConversation id =>
      s.chat.bind fun _ => s.onRepository [ChatRepository.Event.selectConversation id]
  | Event.deleteConversation id now =>
      s.chat.bind fun _ => s.onRepository [ChatRepository.Event.deleteConversation id now]
  | Event.renameConversation id title =>
      s.chat.bind fun _ => s.onRepository [ChatRepository.Event.renameConversation id title]
  | Event.selectLocalModel => s.chat.map fun _ => s.setPreferCloud false
  | Event.selectCloudModel => s.chat.map fun _ => s.setPreferCloud true
  | Event.showSelection preferCloud cloudModelId =>
      if preferCloud ∈ s.preferCloudSeen ∧ cloudModelId ∈ s.cloudModelIdSeen then
        some (s.onChat fun vm =>
          { vm with preferCloud := preferCloud, cloudModelId := cloudModelId })
      else none
  | Event.openSettings =>
      if s.chat.isSome && s.settings.isNone then
        some { s with
          settings := some
            { hasProvider := s.provider.isSome
              activeModelId := s.provider.map RemoteEngine.Config.model } }
      else none
  | Event.closeSettings =>
      if s.settings.isNone then none
      else
        some { s with
          settings := none, validations := fun _ => none
          cancelled := fun call => s.cancelled call || (s.validations call).isSome }
  | Event.setSwitch key value =>
      s.settings.map fun _ => { s with writers := s.writers ++ [[(key, value)]] }
  | Event.saveProvider baseUrl apiKey model =>
      s.settings.bind fun _ => s.validate
        { baseUrl := Text.trim baseUrl, apiKey := Text.trim apiKey
          model := Text.trim model }
  | Event.selectOpenRouterModel apiKey model =>
      s.settings.bind fun _ => s.validate
        { baseUrl := "https://openrouter.ai/api/v1".toList, apiKey := Text.trim apiKey
          model := model.id, logsData := model.logsData }
  | Event.clearProvider =>
      s.settings.bind fun _ =>
        (s.onRepository [ChatRepository.Event.clearRemoteConfig]).map fun s =>
          ((s.setCloudModelId none).setPreferCloud false).onSettings fun vm =>
            { vm with hasProvider := false, activeModelId := none, providerError := none }
  | Event.writeSwitch writer => s.writeSwitch writer
  | Event.resume call input now => s.resume call input now
  | Event.die interrupted => some (s.restart (filesAfter interrupted s.app))

def installed : Device where
  app := firstLaunch.app

end Session
end DomainAI
