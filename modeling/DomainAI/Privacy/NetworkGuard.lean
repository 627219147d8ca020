import DomainAI.Data.Text

/-!
# PrivacyState and NetworkGuard
-/

namespace DomainAI

/-- The privacy configuration; the defaults are the most private ones. -/
structure PrivacyState where
  networkKillSwitch : Bool := true
  cloudConsentGiven : Bool := false
  redactBeforeCloud : Bool := true
  allowDataLoggingModels : Bool := false
  deriving DecidableEq, Repr

namespace NetworkGuard

structure NetworkBlockedException where
  message : Text
  deriving DecidableEq, Repr

def assertNetworkAllowed (state : PrivacyState) :
    Except NetworkBlockedException Unit :=
  if state.networkKillSwitch then
    Except.error
      { message := "Network Kill Switch is ON. Domain AI refused to send anything off-device.".toList }
  else if !state.cloudConsentGiven then
    Except.error
      { message := "Cloud has not been consented to. Domain AI stayed on-device.".toList }
  else
    Except.ok ()

def isNetworkAllowed (state : PrivacyState) : Bool :=
  !state.networkKillSwitch && state.cloudConsentGiven

def Accepts (state : PrivacyState) : Prop :=
  assertNetworkAllowed state = Except.ok ()

theorem accepts_iff (state : PrivacyState) :
    Accepts state <->
      state.networkKillSwitch = false ∧ state.cloudConsentGiven = true := by
  unfold Accepts assertNetworkAllowed
  cases state.networkKillSwitch <;> cases state.cloudConsentGiven <;> simp

theorem accepts_iff_isNetworkAllowed (state : PrivacyState) :
    Accepts state <-> isNetworkAllowed state = true := by
  rw [accepts_iff]
  simp [isNetworkAllowed]

instance (state : PrivacyState) : Decidable (Accepts state) :=
  decidable_of_iff _ (accepts_iff_isNetworkAllowed state).symm

end NetworkGuard
end DomainAI
