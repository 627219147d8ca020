import DomainAI.Data.Numerals
import Mathlib.Data.List.Sort

/-!
# DeviceCapabilities

What the device can run: how many threads, on which cores, and how long a context.
-/

namespace DomainAI

structure IllegalArgumentException where
  message : Text
  deriving DecidableEq, Repr

/-- `coerceIn`: a range that is empty is refused. -/
def coerceIn (value minimumValue maximumValue : Int) :
    Except IllegalArgumentException Int :=
  if maximumValue < minimumValue then
    Except.error
      { message := "Cannot coerce value to an empty range: maximum ".toList ++
          (toString maximumValue).toList ++ " is less than minimum ".toList ++
          (toString minimumValue).toList ++ ".".toList }
  else Except.ok (max minimumValue (min value maximumValue))

theorem coerceIn_of_le {value low high : Int} (h : low ≤ high) :
    coerceIn value low high = Except.ok (max low (min value high)) :=
  if_neg (by omega)

namespace DeviceCapabilities

structure Device where
  availableProcessors : Int
  /-- The text of `cpufreq/cpuinfo_max_freq` of a core, if it can be read. -/
  cpuinfoMaxFreq : Nat -> Option Text
  totalRamMb : Int
  isLowRam : Bool
  digit : Text.Digits

namespace Device

def maxFreq (d : Device) (cpu : Nat) : Option Int :=
  (d.cpuinfoMaxFreq cpu).bind fun text => Text.toLong d.digit (Text.trim text)

def total (d : Device) : Int :=
  max d.availableProcessors 1

def NoSlower (d : Device) (a b : Nat) : Prop :=
  (d.maxFreq b).getD 0 ≤ (d.maxFreq a).getD 0

instance decidableNoSlower (d : Device) : DecidableRel d.NoSlower :=
  fun _ _ => inferInstanceAs (Decidable (_ ≤ _))

instance total_noSlower (d : Device) : Std.Total d.NoSlower where
  total _ _ := le_total _ _

instance trans_noSlower (d : Device) : IsTrans Nat d.NoSlower where
  trans _ _ _ hab hbc := le_trans hbc hab

def haveFreqs (d : Device) : Bool :=
  (List.range d.total.toNat).all fun cpu => (d.maxFreq cpu).isSome

/-- The cores with the fastest first, if it is known of all of them how fast they are. -/
def sorted (d : Device) : List Nat :=
  if d.haveFreqs then (List.range d.total.toNat).insertionSort d.NoSlower else []

def computeCpuProfile (d : Device) :
    Except IllegalArgumentException (Int × List Nat) := do
  let threads ← coerceIn (d.total / 2) 2 (min d.total 6)
  pure (threads, d.sorted)

def maxThreads (d : Device) : Int :=
  max (min 6 d.availableProcessors) 2

def recommendedContextTokens (d : Device) : Int :=
  if d.isLowRam ∨ d.totalRamMb < 3000 then 2048
  else if d.totalRamMb < 6000 then 4096
  else 8192

def maxAllowedContextTokens (d : Device) : Int :=
  if d.isLowRam ∨ d.totalRamMb < 3000 then 4096
  else if d.totalRamMb < 6000 then 8192
  else 16384

theorem computeCpuProfile_ok {d : Device} (h : 2 ≤ d.availableProcessors) :
    d.computeCpuProfile =
      Except.ok (max 2 (min (d.total / 2) (min d.total 6)), d.sorted) := by
  have hrange : 2 ≤ min d.total 6 := by
    rw [total]
    omega
  rw [computeCpuProfile, coerceIn_of_le hrange]
  rfl

theorem computeCpuProfile_single {d : Device} (h : d.availableProcessors < 2) :
    d.computeCpuProfile =
      Except.error
        { message := ("Cannot coerce value to an empty range: maximum 1 is less than " ++
            "minimum 2.").toList } := by
  have htotal : d.total = 1 := by
    rw [total]
    omega
  rw [computeCpuProfile, htotal]
  rfl

end Device
end DeviceCapabilities
end DomainAI
