import DomainAI.Inference.RemoteEngine
import DomainAI.Privacy.NetworkGuard
import Mathlib.Logic.Function.Basic

/-!
# Settings that outlive the process

The privacy settings are a table of switches, most of which are absent at first; an absent
switch counts as its most private value.
-/

namespace DomainAI
namespace PrivacySettings

inductive Key where
  | KEY_KILL_SWITCH
  | KEY_CLOUD_CONSENT
  | KEY_REDACT
  | KEY_ALLOW_DATALOG
  | KEY_CRASH_REPORTING
  deriving DecidableEq, Repr

abbrev Preferences := Key -> Option Bool

def state (prefs : Preferences) : PrivacyState where
  networkKillSwitch := (prefs Key.KEY_KILL_SWITCH).getD true
  cloudConsentGiven := (prefs Key.KEY_CLOUD_CONSENT).getD false
  redactBeforeCloud := (prefs Key.KEY_REDACT).getD true
  allowDataLoggingModels := (prefs Key.KEY_ALLOW_DATALOG).getD false

abbrev Edit := Key × Bool

def edit (e : Edit) (prefs : Preferences) : Preferences :=
  Function.update prefs e.1 (some e.2)

theorem edit_cases {e : Edit} {prefs : Preferences} {key : Key} {value : Bool}
    (h : edit e prefs key = some value) : e = (key, value) ∨ prefs key = some value := by
  by_cases hsame : key = e.1
  · left
    rw [hsame, edit, Function.update_self] at h
    rw [hsame, <- Option.some.inj h]
  · right
    rwa [edit, Function.update_of_ne hsame] at h

theorem switch_of_state {prefs : Preferences} :
    ((state prefs).networkKillSwitch = false -> prefs Key.KEY_KILL_SWITCH = some false) ∧
    ((state prefs).cloudConsentGiven = true -> prefs Key.KEY_CLOUD_CONSENT = some true) ∧
    ((state prefs).redactBeforeCloud = false -> prefs Key.KEY_REDACT = some false) ∧
    ((state prefs).allowDataLoggingModels = true ->
      prefs Key.KEY_ALLOW_DATALOG = some true) := by
  unfold state
  refine ⟨?_, ?_, ?_, ?_⟩
  · cases prefs Key.KEY_KILL_SWITCH <;> simp
  · cases prefs Key.KEY_CLOUD_CONSENT <;> simp
  · cases prefs Key.KEY_REDACT <;> simp
  · cases prefs Key.KEY_ALLOW_DATALOG <;> simp

end PrivacySettings

namespace AcceptanceStore

def CURRENT_VERSION : Int := 1

def isAccepted (acceptedVersion : Int) : Bool :=
  CURRENT_VERSION ≤ acceptedVersion

end AcceptanceStore
end DomainAI
