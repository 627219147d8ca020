import DomainAI.Data.ConversationStore
import DomainAI.Data.History
import DomainAI.Data.ReplyText
import DomainAI.Inference.PrivacyRouter
import DomainAI.Inference.RemoteEngine
import DomainAI.Library.Run
import Mathlib.Logic.Function.Basic

/-!
# ChatRepository

All calls run on one thread and interleave only where they suspend.  A call in
flight is the point where it is suspended together with the local variables it
still needs; an event is either a new call or the resumption of one in flight
with what it was waiting for.

A file operation runs while its call is suspended, and is one event of its own.
-/

namespace DomainAI
namespace ChatRepository

open Library PrivacyRouter

abbrev CallId := Nat

/-- A flow of tokens is known by the call of `generate` that makes it. -/
abbrev Flow := Invocation

structure SendCall where
  prompt : Text
  useCloudForThisTurn : Bool
  deriving DecidableEq, Repr

/-- Where a call is suspended. -/
inductive Coroutine where
  /-- `restore`, in `conversationStore.load`. -/
  | restoring (loaded : Option (List Conversation))
  /-- `send`, in `summarizeTurns`. -/
  | summarizing (send : SendCall) (active : Conversation) (prompt : Text)
  /-- `send`, in `privacyState.first`. -/
  | readingPrivacy (send : SendCall) (history : List Message)
  /-- `send`, collecting the tokens of its outcome. -/
  | streaming (outcome : StreamingOutcome Flow) (builder : Text)
  /-- `persist`, in `conversationStore.save`. -/
  | saving (cancellable : Bool) (snapshot : List Conversation)
  /-- `validateProvider`, waiting for the first token. -/
  | validating

/-- What is observed of a run. -/
inductive Observation where
  | privacySet (privacy : PrivacyState)
  | begun (call : CallId)
  /-- `NetworkGuard.assertNetworkAllowed` accepted this state. -/
  | accepted (call : CallId) (privacy : PrivacyState)
  /-- A flow of `RemoteEngine.generate` is collected. -/
  | collected (call : CallId) (prompt : Text) (history : List Message)
  /-- The reply of a turn is this message, filled in from this flow. -/
  | seeded (call : CallId) (reply : Message) (tokens : Flow)
  | finalized (call : CallId) (text : Text)
  | restored (loaded : List Conversation)
  deriving DecidableEq, Repr

structure App where
  chats : Chats := {}
  /-- True once history has been loaded from disk. -/
  restored : Bool := false
  privacy : PrivacyState := {}
  remoteConfig : Option RemoteEngine.Config := none
  files : ConversationStore.Files := {}
  nextCall : CallId := 0
  inFlight : CallId -> Option Coroutine := fun _ => none
  log : List Observation := []

inductive Input where
  /-- The load ran; it has not been delivered yet. -/
  | loadRan (faults : List ConversationStore.Fault)
  | loaded
  /-- The on-device engine's summary, or none when it failed. -/
  | summarized (completion : Option Text)
  | privacyRead
  | delta (text : Text)
  | completed
  | failed (message : Option Text)
  | cancelled
  | saved (faults : List ConversationStore.Fault)
  deriving DecidableEq, Repr

inductive Event where
  | restore
  | send (prompt : Text) (useCloudForThisTurn : Bool) (contextTokens : Int)
      (localModelLoaded : Bool) (now : Millis)
  | newConversation (now : Millis)
  | selectConversation (id : Uuid)
  | deleteConversation (id : Uuid) (now : Millis)
  | renameConversation (id : Uuid) (title : Text)
  | validateProvider (config : RemoteEngine.Config)
  | saveRemoteConfig (config : RemoteEngine.Config)
  | clearRemoteConfig
  | setPrivacy (privacy : PrivacyState)
  | resume (call : CallId) (input : Input) (now : Millis)
  deriving DecidableEq, Repr

/-!
# Engines
-/

def localEngine : InferenceEngine Flow where
  displayName := "Domain AI".toList
  generate := fun prompt history =>
    { side := EngineSide.onDevice, prompt := prompt, history := history }

def remoteEngine (config : RemoteEngine.Config) : InferenceEngine Flow where
  displayName := "Cloud · ".toList ++ config.model
  generate := fun prompt history =>
    { side := EngineSide.cloud, prompt := prompt, history := history }

def remoteProvider (saved : Option RemoteEngine.Config) : Option (Remote Flow) :=
  (RemoteConfigStore.load saved).map fun config =>
    { engine := remoteEngine config, logsData := config.logsData }

namespace App

def observe (observations : List Observation) (s : App) : App :=
  { s with log := s.log ++ observations }

def suspend (call : CallId) (c : Coroutine) (s : App) : App :=
  { s with inFlight := Function.update s.inFlight call (some c) }

def finish (call : CallId) (s : App) : App :=
  { s with inFlight := Function.update s.inFlight call none }

def begin (s : App) : App :=
  { s with nextCall := s.nextCall + 1 }

def onChats (f : Chats -> Chats) (s : App) : App :=
  { s with chats := f s.chats }

def onFiles (files : ConversationStore.Files) (s : App) : App :=
  { s with files := files }

def setRestored (s : App) : App :=
  { s with restored := true }

def setPrivacy (privacy : PrivacyState) (s : App) : App :=
  { s with privacy := privacy }

def setRemoteConfig (config : Option RemoteEngine.Config) (s : App) : App :=
  { s with remoteConfig := config }

@[simp] theorem suspend_inFlight_self (call : CallId) (c : Coroutine) (s : App) :
    (s.suspend call c).inFlight call = some c :=
  Function.update_self _ _ _

theorem suspend_inFlight_of_ne {call other : CallId} (h : other ≠ call)
    (c : Coroutine) (s : App) :
    (s.suspend call c).inFlight other = s.inFlight other :=
  Function.update_of_ne h _ _

@[simp] theorem finish_inFlight_self (call : CallId) (s : App) :
    (s.finish call).inFlight call = none :=
  Function.update_self _ _ _

theorem finish_inFlight_of_ne {call other : CallId} (h : other ≠ call)
    (s : App) : (s.finish call).inFlight other = s.inFlight other :=
  Function.update_of_ne h _ _

end App

open App

/-!
# The steps of a send
-/

def appendPrompt (prompt : Text) (now : Millis) (s : Chats) : Chats :=
  Chats.updateActive
    (Conversation.addMessage
      { id := s.nextUuid, role := Role.USER, text := prompt, timestamp := now }
      now) s.draw

def seed (id : Uuid) (outcome : StreamingOutcome Flow) (now : Millis) : Message :=
  { id := id, role := Role.ORACLE, text := [], route := outcome.route,
    sentPayloadPreview := outcome.sentPayloadPreview, timestamp := now }

def appendSeed (prompt : Text) (reply : Message) (now : Millis) (s : Chats) :
    Chats :=
  Chats.updateActive
    (fun c => (c.addMessage reply now).retitleIfNeeded prompt) s.draw

def writeReply (text : Text) (now : Millis) (s : Chats) : Chats :=
  s.updateActive (Conversation.updateLastText text now)

/-- `persist` as the last thing a call does. -/
def persist (call : CallId) (cancellable : Bool) (s : App) : App :=
  if s.restored then
    s.suspend call (Coroutine.saving cancellable s.chats.snapshot)
  else s.finish call

def withHistory (call : CallId) (send : SendCall) (history : List Message)
    (now : Millis) (s : App) : App :=
  (s.onChats (appendPrompt send.prompt now)).suspend call
    (Coroutine.readingPrivacy send history)

def ensureActive (now : Millis) (s : Chats) : Chats :=
  if s.currentActive.isNone then s.newConversation now else s

def openSend (now : Millis) (s : App) : App :=
  (s.begin.observe [Observation.begun s.nextCall]).onChats fun chats =>
    (ensureActive now chats).draw

def beginSend (prompt : Text) (useCloudForThisTurn : Bool)
    (contextTokens : Int) (localModelLoaded : Bool) (now : Millis) (s : App) :
    App :=
  let send : SendCall :=
    { prompt := prompt, useCloudForThisTurn := useCloudForThisTurn }
  match (ensureActive now s.chats).currentActive with
  | none => openSend now s
  | some active =>
      -- the identifier just drawn is the one a summary message would take
      match History.plan contextTokens localModelLoaded
          (ensureActive now s.chats).nextUuid now active with
      | History.Plan.ready history =>
          withHistory s.nextCall send history now (openSend now s)
      | History.Plan.summarize turns =>
          (openSend now s).suspend s.nextCall
            (Coroutine.summarizing send active
              (History.summarizePrompt active.summary turns))

def endSummary (call : CallId) (send : SendCall) (active : Conversation)
    (completion : Option Text) (now : Millis) (s : App) : App :=
  let id := s.chats.nextUuid
  withHistory call send (History.afterSummary completion id now active) now
    (s.onChats fun chats =>
      chats.draw.updateActive (History.withSummary completion active))

def routed (send : SendCall) (history : List Message) (s : App) :
    StreamingOutcome Flow :=
  (answer localEngine (remoteProvider s.remoteConfig) send.prompt history
    s.privacy send.useCloudForThisTurn).outcome

def routeObservations (call : CallId) (send : SendCall)
    (privacy : PrivacyState) (tokens : Flow) : List Observation :=
  (if send.useCloudForThisTurn ∧ NetworkGuard.Accepts privacy then
    [Observation.accepted call privacy] else []) ++
  (if tokens.side = EngineSide.cloud then
    [Observation.collected call tokens.prompt tokens.history] else [])

def route (call : CallId) (send : SendCall) (history : List Message)
    (now : Millis) (s : App) : App :=
  let outcome := routed send history s
  let reply := seed s.chats.nextUuid outcome now
  ((s.onChats (appendSeed send.prompt reply now)).observe
    (routeObservations call send s.privacy outcome.tokens ++
      [Observation.seeded call reply outcome.tokens])).suspend call
    (Coroutine.streaming outcome [])

def receive (call : CallId) (outcome : StreamingOutcome Flow) (builder : Text)
    (now : Millis) (s : App) : App :=
  (s.onChats (writeReply (ReplyText.stripLeadingNameLabel builder) now)).suspend
    call (Coroutine.streaming outcome builder)

def finalizeReply (call : CallId) (body : Text) (note : Option Text)
    (now : Millis) (s : App) : App :=
  persist call false
    ((s.onChats (writeReply (ReplyText.finalText body note) now)).observe
      [Observation.finalized call (ReplyText.finalText body note)])

def endStream (call : CallId) (outcome : StreamingOutcome Flow) (builder : Text)
    (note : Option Text) (now : Millis) (s : App) : App :=
  finalizeReply call (ReplyText.stripLeadingNameLabel builder)
    (outcome.note.or note) now s

/-!
# Steps
-/

/-- Resume a suspended call; none when it does not wait for this. -/
def resume (call : CallId) (input : Input) (now : Millis) (s : App) :
    Option App :=
  match s.inFlight call, input with
  | some (Coroutine.restoring none), Input.loadRan faults =>
      let ran := Program.run ConversationStore.exec ConversationStore.load
        faults s.files
      some ((s.onFiles ran.2.1).suspend call
        (Coroutine.restoring (some ran.1)))
  | some (Coroutine.restoring (some loaded)), Input.loaded =>
      some (((s.onChats (Chats.restoreFrom loaded now)).setRestored.observe
        [Observation.restored loaded]).finish call)
  | some (Coroutine.restoring _), Input.cancelled => some (s.finish call)
  | some (Coroutine.summarizing send active _), Input.summarized completion =>
      some (endSummary call send active completion now s)
  -- the cancellation is caught with every other failure of the summary, and
  -- thrown again by the next suspension
  | some (Coroutine.summarizing send active _), Input.cancelled =>
      some ((endSummary call send active none now s).finish call)
  | some (Coroutine.readingPrivacy send history), Input.privacyRead =>
      some (route call send history now s)
  | some (Coroutine.readingPrivacy _ _), Input.cancelled =>
      some (s.finish call)
  | some (Coroutine.streaming outcome builder), Input.delta text =>
      some (receive call outcome (builder ++ text) now s)
  | some (Coroutine.streaming outcome builder), Input.completed =>
      some (endStream call outcome builder none now s)
  | some (Coroutine.streaming outcome builder), Input.failed message =>
      some (endStream call outcome builder
        (some (ReplyText.replyRequestFailed (message.getD []))) now s)
  | some (Coroutine.streaming outcome builder), Input.cancelled =>
      some (endStream call outcome builder (some ReplyText.replyStopped) now s)
  | some (Coroutine.saving _ snapshot), Input.saved faults =>
      some ((s.onFiles
        (ConversationStore.saveFiles snapshot faults s.files)).finish call)
  | some (Coroutine.saving true _), Input.cancelled => some (s.finish call)
  | some Coroutine.validating, Input.delta _ => some (s.finish call)
  | some Coroutine.validating, Input.completed => some (s.finish call)
  | some Coroutine.validating, Input.failed _ => some (s.finish call)
  | some Coroutine.validating, Input.cancelled => some (s.finish call)
  | _, _ => none

def step (s : App) : Event -> Option App
  | Event.restore =>
      if s.restored then some s
      else some (s.begin.suspend s.nextCall (Coroutine.restoring none))
  | Event.send prompt useCloudForThisTurn contextTokens localModelLoaded now =>
      some (beginSend prompt useCloudForThisTurn contextTokens localModelLoaded
        now s)
  | Event.newConversation now => some (s.onChats (Chats.newConversation now))
  | Event.selectConversation id => some (s.onChats (Chats.selectConversation id))
  | Event.deleteConversation id now =>
      some (persist s.nextCall true
        (s.begin.onChats (Chats.deleteConversation id now)))
  | Event.renameConversation id title =>
      if (s.chats.renameConversation id title).1 then
        some (persist s.nextCall true
          (s.begin.onChats fun chats => (chats.renameConversation id title).2))
      else some s
  | Event.validateProvider config =>
      let tokens := (remoteEngine config).generate "Hi".toList []
      some ((s.begin.observe
        [Observation.begun s.nextCall,
         Observation.collected s.nextCall tokens.prompt tokens.history]).suspend
          s.nextCall Coroutine.validating)
  | Event.saveRemoteConfig config => some (s.setRemoteConfig (some config))
  | Event.clearRemoteConfig => some (s.setRemoteConfig none)
  | Event.setPrivacy privacy =>
      some ((s.setPrivacy privacy).observe [Observation.privacySet privacy])
  | Event.resume call input now => resume call input now s

end ChatRepository
end DomainAI
