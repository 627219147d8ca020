import DomainAI.Data.Models
import DomainAI.Privacy.NetworkGuard
import DomainAI.Privacy.PiiRedactor

/-!
# PrivacyRouter

The routing decision of one turn.  A call of `generate` records itself, so that the
specification can say which engine was invoked, how often and with what.
-/

namespace DomainAI

/-- A source of completions over an arbitrary type of token flows. -/
structure InferenceEngine (flow : Type) where
  displayName : Text
  generate : Text -> List Message -> flow

namespace PrivacyRouter

structure Remote (flow : Type) where
  engine : InferenceEngine flow
  logsData : Bool := false

inductive EngineSide where
  | onDevice
  | cloud
  deriving DecidableEq, Repr

structure Invocation where
  side : EngineSide
  prompt : Text
  history : List Message
  deriving DecidableEq, Repr

structure StreamingOutcome (flow : Type) where
  route : Route
  sentPayloadPreview : Option Text := none
  note : Option Text := none
  tokens : flow

/-- An outcome together with the calls made to reach it. -/
structure Answered (result : Type) where
  calls : List Invocation
  outcome : result

instance : Monad Answered where
  pure outcome := { calls := [], outcome := outcome }
  bind first next :=
    { calls := first.calls ++ (next first.outcome).calls
      outcome := (next first.outcome).outcome }

/-- Call `generate` of the engine on this side; nothing else makes a record. -/
def invoke (side : EngineSide) (engine : InferenceEngine flow) (prompt : Text)
    (history : List Message) : Answered flow where
  calls := [{ side := side, prompt := prompt, history := history }]
  outcome := engine.generate prompt history

theorem invoke_bind (side : EngineSide) (engine : InferenceEngine flow) (prompt : Text)
    (history : List Message) (next : flow -> StreamingOutcome flow) :
    (do let tokens <- invoke side engine prompt history
        return next tokens) =
      { calls := [{ side := side, prompt := prompt, history := history }]
        outcome := next (engine.generate prompt history) } := rfl

def localFallback (onDevice : InferenceEngine flow) (prompt : Text)
    (history : List Message) (note : Option Text) :
    Answered (StreamingOutcome flow) := do
  let tokens <- invoke EngineSide.onDevice onDevice prompt history
  return { route := Route.LOCAL, note := note, tokens := tokens }

def noProviderNote : Text :=
  "No cloud provider is configured. Answered on-device.".toList

def dataLoggingNote : Text :=
  "This model may log your data. Enable data-logging models in Settings to use it. Answered on-device.".toList

def redactMessage (m : Message) : Message :=
  { m with text := (PiiRedactor.redact m.text).redactedText }

def toSend (privacy : PrivacyState) (prompt : Text) : Text :=
  if privacy.redactBeforeCloud then (PiiRedactor.redact prompt).redactedText
  else prompt

def historyToSend (privacy : PrivacyState) (history : List Message) :
    List Message :=
  if privacy.redactBeforeCloud then history.map redactMessage else history

def answer (onDevice : InferenceEngine flow) (remote : Option (Remote flow))
    (prompt : Text) (history : List Message) (privacy : PrivacyState)
    (useCloudForThisTurn : Bool) : Answered (StreamingOutcome flow) :=
  if !useCloudForThisTurn then
    localFallback onDevice prompt history none
  else
    match NetworkGuard.assertNetworkAllowed privacy with
    | Except.error e => localFallback onDevice prompt history (some e.message)
    | Except.ok _ =>
        match remote with
        | none => localFallback onDevice prompt history (some noProviderNote)
        | some r =>
            if r.logsData && !privacy.allowDataLoggingModels then
              localFallback onDevice prompt history (some dataLoggingNote)
            else do
              let tokens <- invoke EngineSide.cloud r.engine (toSend privacy prompt)
                (historyToSend privacy history)
              return { route := Route.CLOUD, tokens := tokens,
                       sentPayloadPreview := some (toSend privacy prompt) }

/-!
# Specification
-/

/-- The four gates of a cloud turn, all open. -/
def CloudPermitted (remote : Option (Remote flow)) (privacy : PrivacyState)
    (useCloudForThisTurn : Bool) : Prop :=
  useCloudForThisTurn = true ∧ NetworkGuard.Accepts privacy ∧
    exists r, remote = some r ∧
      (r.logsData = false ∨ privacy.allowDataLoggingModels = true)

/-- Every way a turn can go: through all four gates, or back on the device. -/
theorem answer_cases (onDevice : InferenceEngine flow)
    (remote : Option (Remote flow)) (prompt : Text) (history : List Message)
    (privacy : PrivacyState) (useCloudForThisTurn : Bool) :
    (CloudPermitted remote privacy useCloudForThisTurn ∧
      exists r, remote = some r ∧
        answer onDevice remote prompt history privacy useCloudForThisTurn =
          { calls :=
              [{ side := EngineSide.cloud, prompt := toSend privacy prompt,
                 history := historyToSend privacy history }]
            outcome :=
              { route := Route.CLOUD
                sentPayloadPreview := some (toSend privacy prompt)
                tokens := r.engine.generate (toSend privacy prompt)
                  (historyToSend privacy history) } }) ∨
    (¬ CloudPermitted remote privacy useCloudForThisTurn ∧
      exists note : Option Text,
        (note.isSome = useCloudForThisTurn) ∧
        answer onDevice remote prompt history privacy useCloudForThisTurn =
          localFallback onDevice prompt history note) := by
  unfold answer
  cases useCloudForThisTurn with
  | false =>
      right
      exact ⟨fun h => absurd h.left (by decide), none, rfl, rfl⟩
  | true =>
      cases hguard : NetworkGuard.assertNetworkAllowed privacy with
      | error e =>
          right
          refine ⟨?_, some e.message, rfl, rfl⟩
          intro h
          rcases h with ⟨_, haccepts, _⟩
          rw [NetworkGuard.Accepts, hguard] at haccepts
          cases haccepts
      | ok _ =>
          cases remote with
          | none =>
              right
              refine ⟨?_, some noProviderNote, rfl, rfl⟩
              intro h
              rcases h with ⟨_, _, r, hr, _⟩
              cases hr
          | some r =>
              by_cases hlogs : (r.logsData && !privacy.allowDataLoggingModels) = true
              · right
                refine ⟨?_, some dataLoggingNote, rfl, by simp [hlogs]⟩
                intro h
                rcases h with ⟨_, _, r', hr, hallowed⟩
                cases hr
                simp only [Bool.and_eq_true, Bool.not_eq_true'] at hlogs
                rcases hallowed with h | h
                · rw [hlogs.left] at h
                  cases h
                · rw [hlogs.right] at h
                  cases h
              · left
                refine ⟨⟨rfl, hguard, r, rfl, ?_⟩, r, rfl, by simp [hlogs, invoke_bind]⟩
                simp only [Bool.and_eq_true, Bool.not_eq_true', not_and,
                  Bool.not_eq_false] at hlogs
                cases hl : r.logsData with
                | false => exact Or.inl rfl
                | true => exact Or.inr (hlogs hl)

end PrivacyRouter
end DomainAI
