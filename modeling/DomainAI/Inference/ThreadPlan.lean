import DomainAI.Inference.ModelManager
import DomainAI.Library.StableSort
import DomainAI.Privacy.DeviceCapabilities

/-!
# Threads and cores

How many threads a model is loaded with, and on which cores, for every device and
whatever the user has chosen.
-/

namespace DomainAI
namespace ModelManager

open Library DeviceCapabilities

/-!
# The settings of a device
-/

structure Preferences where
  chosenTokens : Int := 0
  chosenThreads : Int := 0
  deriving DecidableEq, Repr

/-- The settings that the application hands to its manager. -/
def Settings.ofDevice (d : Device) (preferences : Preferences) (backendInfo : Text) :
    Except IllegalArgumentException Settings := do
  let cpuProfile ← d.computeCpuProfile
  pure
    { deviceRecommendedContext := d.recommendedContextTokens
      deviceMaxContext := d.maxAllowedContextTokens
      deviceAutoThreads := cpuProfile.1
      deviceMaxThreads := d.maxThreads
      coresBySpeed := cpuProfile.2.map Int.ofNat
      chosenTokens := preferences.chosenTokens
      chosenThreads := preferences.chosenThreads
      backendInfo := backendInfo }

/-!
# Plans
-/

/-- So many different cores of the device, and none that is left out is known to be
faster than one of them. -/
structure FastestCores (d : Device) (n : Int) (cores : List Nat) : Prop where
  length : (cores.length : Int) = n
  nodup : cores.Nodup
  valid : forall cpu, cpu ∈ cores -> (cpu : Int) < d.availableProcessors
  fastest : forall cpu other : Nat, cpu ∈ cores -> (other : Int) < d.availableProcessors ->
    other ∉ cores -> forall f g, d.maxFreq cpu = some f -> d.maxFreq other = some g ->
      g ≤ f

/-- Some core does not tell how fast it is. -/
def Unreadable (d : Device) : Prop :=
  exists cpu : Nat, (cpu : Int) < d.availableProcessors ∧ d.maxFreq cpu = none

structure Planned (d : Device) (s : Settings) (request : LLamaAndroid.LoadRequest) :
    Prop where
  atLeast : 2 ≤ request.nThreads
  atMost : request.nThreads ≤ d.maxThreads
  effective : request.nThreads = s.effectiveThreads
  affinity : Unreadable d ∧ request.affinityCores = [] ∨
    ¬ Unreadable d ∧ exists cores : List Nat,
      request.affinityCores = cores.map Int.ofNat ∧
        FastestCores d (min s.effectiveThreads d.availableProcessors) cores

theorem haveFreqs_iff {d : Device} (h : 1 ≤ d.availableProcessors) :
    d.haveFreqs = true <-> ¬ Unreadable d := by
  have htotal : d.total.toNat = d.availableProcessors.toNat := by
    rw [Device.total]
    omega
  rw [Device.haveFreqs, htotal, List.all_eq_true]
  constructor
  · intro hall hunreadable
    rcases hunreadable with ⟨cpu, hcpu, hnone⟩
    have hsome := hall cpu (List.mem_range.mpr (by omega))
    rw [hnone] at hsome
    cases hsome
  · intro hreadable cpu hcpu
    rw [Option.isSome_iff_ne_none]
    intro hnone
    have hlt := List.mem_range.mp hcpu
    exact hreadable ⟨cpu, by omega, hnone⟩

theorem fastestCores_take {d : Device} (h : 1 ≤ d.availableProcessors)
    (hread : d.haveFreqs = true) (k : Nat) :
    FastestCores d (min k d.availableProcessors) (d.sorted.take k) := by
  have htotal : (d.total.toNat : Int) = d.availableProcessors := by
    rw [Device.total]
    omega
  rw [Device.sorted, if_pos hread]
  constructor
  · rw [length_take_insertionSort, List.length_range]
    omega
  · exact nodup_take_insertionSort _ List.nodup_range
  · intro cpu hcpu
    have hlt := List.mem_range.mp (mem_of_mem_take_insertionSort _ hcpu)
    omega
  · intro cpu other hcpu hother hleft f g hf hg
    have hrange : other ∈ List.range d.total.toNat := List.mem_range.mpr (by omega)
    have hslower : d.NoSlower cpu other := take_insertionSort_le _ hcpu hrange hleft
    rw [Device.NoSlower, hf, hg] at hslower
    exact hslower

theorem effectiveThreads_bounds {s : Settings} (hauto : 2 ≤ s.deviceAutoThreads)
    (hmax : s.deviceAutoThreads ≤ s.deviceMaxThreads) :
    2 ≤ s.effectiveThreads ∧ s.effectiveThreads ≤ s.deviceMaxThreads := by
  unfold Settings.effectiveThreads
  split
  · omega
  · exact ⟨hauto, hmax⟩

theorem planned_of_profile {d : Device} {s : Settings} (h : 2 ≤ d.availableProcessors)
    (hauto : s.deviceAutoThreads = max 2 (min (d.total / 2) (min d.total 6)))
    (hmax : s.deviceMaxThreads = d.maxThreads)
    (hcores : s.coresBySpeed = d.sorted.map Int.ofNat) (path : Text)
    (gpuLayers : Int) : Planned d s (loadRequest path gpuLayers s) := by
  have hone : 1 ≤ d.availableProcessors := by omega
  have hwithin : s.deviceAutoThreads ≤ s.deviceMaxThreads := by
    rw [hauto, hmax, Device.maxThreads, Device.total]
    omega
  have hbounds := effectiveThreads_bounds (by rw [hauto]; omega) hwithin
  have haffinity : s.affinity =
      (d.sorted.take s.effectiveThreads.toNat).map Int.ofNat := by
    rw [Settings.affinity, hcores, List.map_take]
  refine ⟨hbounds.left, hmax ▸ hbounds.right, rfl, ?_⟩
  by_cases hread : d.haveFreqs = true
  · apply Or.inr
    refine ⟨(haveFreqs_iff hone).mp hread, _, haffinity, ?_⟩
    have hfastest := fastestCores_take hone hread s.effectiveThreads.toNat
    rwa [Int.toNat_of_nonneg (by omega)] at hfastest
  · apply Or.inl
    constructor
    · by_contra hreadable
      exact hread ((haveFreqs_iff hone).mpr hreadable)
    · show s.affinity = []
      rw [haffinity, Device.sorted, if_neg hread, List.take_nil, List.map_nil]

/-- With two cores or more every load is planned, and with a single core the
application does not start. -/
theorem thread_plan (d : Device) (preferences : Preferences) (backendInfo : Text) :
    (exists s, Settings.ofDevice d preferences backendInfo = Except.ok s ∧
      forall path gpuLayers, Planned d s (loadRequest path gpuLayers s)) <->
        2 ≤ d.availableProcessors := by
  constructor
  · intro h
    rcases h with ⟨s, hs, _⟩
    by_contra hfew
    rw [Settings.ofDevice, Device.computeCpuProfile_single (by omega)] at hs
    cases hs
  · intro h
    refine ⟨_, by rw [Settings.ofDevice, Device.computeCpuProfile_ok h]; rfl, ?_⟩
    exact planned_of_profile h rfl rfl rfl

def singleCore : Device where
  availableProcessors := 1
  cpuinfoMaxFreq _ := some "1100000".toList
  totalRamMb := 1024
  isLowRam := true
  digit := Text.asciiDigit

theorem thread_plan_fails :
    singleCore.computeCpuProfile =
      Except.error
        { message := ("Cannot coerce value to an empty range: maximum 1 is less than " ++
            "minimum 2.").toList } ∧
      forall preferences backendInfo s,
        Settings.ofDevice singleCore preferences backendInfo ≠ Except.ok s := by
  have hthrows := Device.computeCpuProfile_single (d := singleCore) (by decide)
  refine ⟨hthrows, ?_⟩
  intro preferences backendInfo s hok
  rw [Settings.ofDevice, hthrows] at hok
  cases hok

end ModelManager
end DomainAI
