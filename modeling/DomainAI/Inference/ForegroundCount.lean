import DomainAI.Inference.ForegroundWork
import Mathlib.Data.List.Count

/-!
# The count of operations in flight

`begin` and `end` are called from several threads.  Each is more than one atomic
step, so calls are interleaved step by step.
-/

namespace DomainAI
namespace ForegroundCount

open Library

inductive Stage where
  /-- `begin` has counted it, and is about to start the service. -/
  | counted
  | inFlight
  /-- `end` has found nothing left in flight, and is about to set the count to 0. -/
  | nothingLeft
  /-- `end` is about to stop the service. -/
  | reset
  | ended
  deriving DecidableEq, Repr

structure State where
  active : Int := 0
  /-- The service has been stopped since it was last started. -/
  stopped : Bool := true
  callers : List Stage := []
  deriving DecidableEq, Repr

inductive Event where
  | incrementAndGet
  | startForegroundService (i : Nat)
  | decrementAndGet (i : Nat)
  | set (i : Nat)
  | stopService (i : Nat)
  deriving DecidableEq, Repr

def State.advance (s : State) (i : Nat) (stage : Stage) : State :=
  { s with callers := s.callers.set i stage }

def step (s : State) : Event -> Option State
  | Event.incrementAndGet =>
      some { s with active := s.active + 1, callers := s.callers ++ [Stage.counted] }
  | Event.startForegroundService i =>
      if s.callers[i]? = some Stage.counted then
        some { s.advance i Stage.inFlight with stopped := false }
      else none
  | Event.decrementAndGet i =>
      if s.callers[i]? = some Stage.inFlight then
        some { s.advance i
            (if s.active - 1 ≤ 0 then Stage.nothingLeft else Stage.ended) with
          active := s.active - 1 }
      else none
  | Event.set i =>
      if s.callers[i]? = some Stage.nothingLeft then
        some { s.advance i Stage.reset with active := 0 }
      else none
  | Event.stopService i =>
      if s.callers[i]? = some Stage.reset then
        some { s.advance i Stage.ended with stopped := true }
      else none

def State.inFlight (s : State) : Nat :=
  s.callers.count Stage.inFlight

def State.Quiet (s : State) : Prop :=
  forall c, c ∈ s.callers -> c = Stage.inFlight ∨ c = Stage.ended

/-- The count is right when nothing is executing, and the service has not been
stopped under an operation in flight. -/
def Counts (s : State) : Prop :=
  (s.Quiet -> s.active = s.inFlight) ∧ (0 < s.inFlight -> s.stopped = false)

/-!
# Calls that do not overlap
-/

theorem begin_countActive (s : State) (text : Text) :
    runEvents step s
        [Event.incrementAndGet, Event.startForegroundService s.callers.length] =
      some
        { active := ForegroundWork.countActive s.active (ForegroundWork.Call.begin text)
          stopped := false
          callers := s.callers ++ [Stage.inFlight] } := by
  simp [runEvents, step, State.advance, ForegroundWork.countActive]

def endEvents (active : Int) (i : Nat) : List Event :=
  if active - 1 ≤ 0 then [Event.decrementAndGet i, Event.set i, Event.stopService i]
  else [Event.decrementAndGet i]

theorem end_countActive (s : State) {i : Nat} (h : s.callers[i]? = some Stage.inFlight) :
    runEvents step s (endEvents s.active i) =
      some
        { active := ForegroundWork.countActive s.active ForegroundWork.Call.finish
          stopped := s.stopped || decide (s.active - 1 ≤ 0)
          callers := s.callers.set i Stage.ended } := by
  rcases List.getElem?_eq_some_iff.mp h with ⟨hi, hget⟩
  unfold endEvents
  by_cases hlast : s.active - 1 ≤ 0
  · rw [if_pos hlast]
    simp [runEvents, step, State.advance, ForegroundWork.countActive, hget, hlast, hi]
  · rw [if_neg hlast]
    simp [runEvents, step, State.advance, ForegroundWork.countActive, h, hlast]

/-!
# Calls that overlap
-/

def Stage.counts : Stage -> Bool
  | Stage.counted => true
  | Stage.inFlight => true
  | _ => false

/-- No `begin` counts between the decrement of an `end` that leaves nothing in flight
and its set, and none starts the service between that decrement and its stop. -/
def Undisturbed (s : State) : Event -> Prop
  | Event.incrementAndGet => Stage.nothingLeft ∉ s.callers
  | Event.startForegroundService _ =>
      Stage.nothingLeft ∉ s.callers ∧ Stage.reset ∉ s.callers
  | _ => True

instance (s : State) : (e : Event) -> Decidable (Undisturbed s e)
  | Event.incrementAndGet => inferInstanceAs (Decidable (¬ _))
  | Event.startForegroundService _ => inferInstanceAs (Decidable (_ ∧ _))
  | Event.decrementAndGet _ => isTrue trivial
  | Event.set _ => isTrue trivial
  | Event.stopService _ => isTrue trivial

structure Sound (s : State) : Prop where
  active : s.active = (s.callers.countP Stage.counts : Int)
  nothingLeft : Stage.nothingLeft ∈ s.callers -> s.callers.countP Stage.counts = 0
  started : Stage.inFlight ∈ s.callers -> s.stopped = false
  stopping : Stage.nothingLeft ∈ s.callers ∨ Stage.reset ∈ s.callers ->
    Stage.inFlight ∉ s.callers

theorem countP_set {l : List Stage} {i : Nat} {c : Stage} (h : l[i]? = some c)
    (stage : Stage) :
    ((l.set i stage).countP Stage.counts : Int) =
      l.countP Stage.counts - (if c.counts then 1 else 0) +
        (if stage.counts then 1 else 0) := by
  rcases List.getElem?_eq_some_iff.mp h with ⟨hi, rfl⟩
  have hpos : l[i].counts = true -> 0 < l.countP Stage.counts := by
    intro hcounts
    exact List.countP_pos_iff.mpr ⟨l[i], List.getElem_mem hi, hcounts⟩
  rw [List.countP_set hi]
  cases hcounts : l[i].counts with
  | false => cases stage.counts <;> simp
  | true =>
      have hsome := hpos hcounts
      cases stage.counts <;> simp only [if_true, Bool.false_eq_true, if_false] <;> omega

theorem mem_advance {l : List Stage} {i : Nat} {c stage : Stage}
    (h : c ∈ l.set i stage) : c ∈ l ∨ c = stage :=
  List.mem_or_eq_of_mem_set h

theorem not_inFlight_of_countP {l : List Stage} (h : l.countP Stage.counts = 0) :
    Stage.inFlight ∉ l := by
  intro hmem
  exact List.countP_eq_zero.mp h _ hmem rfl

theorem sound_step (s : State) (e : Event) (s' : State) (hs : Sound s)
    (he : Undisturbed s e) (h : step s e = some s') : Sound s' := by
  cases e with
  | incrementAndGet =>
      cases h
      constructor
      · simp [hs.active, Stage.counts]
      · intro hmem
        have hbefore : Stage.nothingLeft ∈ s.callers := by simpa using hmem
        exact absurd hbefore he
      · intro hmem
        exact hs.started (by simpa using hmem)
      · intro hmem
        have hbefore := hs.stopping (by simpa using hmem)
        simpa using hbefore
  | startForegroundService i =>
      simp only [step] at h
      split at h
      · rename_i hi
        cases h
        constructor
        · have hcount := countP_set hi Stage.inFlight
          simp only [State.advance, Stage.counts, if_true] at hcount ⊢
          rw [hs.active, hcount]
          omega
        · intro hmem
          rcases mem_advance hmem with hmem | hmem
          · exact absurd hmem he.left
          · cases hmem
        · intro _
          rfl
        · rintro (hmem | hmem)
          · rcases mem_advance hmem with hmem | hmem
            · exact absurd hmem he.left
            · cases hmem
          · rcases mem_advance hmem with hmem | hmem
            · exact absurd hmem he.right
            · cases hmem
      · cases h
  | decrementAndGet i =>
      simp only [step] at h
      split at h
      · rename_i hi
        have hmem := List.mem_of_getElem? hi
        -- so nobody has found nothing left, or is about to stop the service
        have hnothing : Stage.nothingLeft ∉ s.callers := fun hnothing =>
          hs.stopping (Or.inl hnothing) hmem
        have hreset : Stage.reset ∉ s.callers := fun hreset =>
          hs.stopping (Or.inr hreset) hmem
        cases h
        by_cases hlast : s.active - 1 ≤ 0
        · have hcount := countP_set hi Stage.nothingLeft
          simp only [Stage.counts, if_true, Bool.false_eq_true, if_false] at hcount
          have hzero : (s.callers.set i Stage.nothingLeft).countP Stage.counts = 0 := by
            have hactive := hs.active
            omega
          simp only [State.advance, if_pos hlast]
          constructor
          · show s.active - 1 = _
            rw [hs.active, hcount]
            omega
          · intro _
            exact hzero
          · intro hleft
            exact absurd hleft (not_inFlight_of_countP hzero)
          · intro _
            exact not_inFlight_of_countP hzero
        · have hcount := countP_set hi Stage.ended
          simp only [Stage.counts, if_true, Bool.false_eq_true, if_false] at hcount
          simp only [State.advance, if_neg hlast]
          constructor
          · show s.active - 1 = _
            rw [hs.active, hcount]
            omega
          · intro hleft
            rcases mem_advance hleft with hleft | hleft
            · exact absurd hleft hnothing
            · cases hleft
          · intro _
            exact hs.started hmem
          · rintro (hleft | hleft)
            · rcases mem_advance hleft with hleft | hleft
              · exact absurd hleft hnothing
              · cases hleft
            · rcases mem_advance hleft with hleft | hleft
              · exact absurd hleft hreset
              · cases hleft
      · cases h
  | set i =>
      simp only [step] at h
      split at h
      · rename_i hi
        have hzero := hs.nothingLeft (List.mem_of_getElem? hi)
        have hcount := countP_set hi Stage.reset
        simp only [Stage.counts, Bool.false_eq_true, if_false] at hcount
        have hnone : (s.callers.set i Stage.reset).countP Stage.counts = 0 := by omega
        cases h
        constructor
        · simp [State.advance, hnone]
        · intro _
          exact hnone
        · intro hleft
          exact absurd hleft (not_inFlight_of_countP hnone)
        · intro _
          exact not_inFlight_of_countP hnone
      · cases h
  | stopService i =>
      simp only [step] at h
      split at h
      · rename_i hi
        have hnone := hs.stopping (Or.inr (List.mem_of_getElem? hi))
        have hcount := countP_set hi Stage.ended
        simp only [Stage.counts, Bool.false_eq_true, if_false] at hcount
        have hstill : Stage.inFlight ∉ s.callers.set i Stage.ended := by
          intro hleft
          rcases mem_advance hleft with hleft | hleft
          · exact hnone hleft
          · cases hleft
        cases h
        constructor
        · simp only [State.advance]
          rw [hs.active, hcount]
          omega
        · intro hleft
          rcases mem_advance hleft with hleft | hleft
          · have hzero := hs.nothingLeft hleft
            simp only [State.advance]
            omega
          · cases hleft
        · intro hleft
          exact absurd hleft hstill
        · intro _
          exact hstill
      · cases h

theorem sound_counts {s : State} (h : Sound s) : Counts s := by
  constructor
  · intro hquiet
    rw [h.active, State.inFlight, List.count_eq_countP]
    congr 1
    apply List.countP_congr
    intro c hc
    rcases hquiet c hc with rfl | rfl <;> decide
  · intro hsome
    exact h.started (List.count_pos_iff.mp hsome)

theorem run_sound {es : List Event} {s : State} (hrun : runEvents step {} es = some s)
    (hundisturbed : AllSteps step Undisturbed {} es) : Sound s := by
  have hempty : Sound {} := by
    constructor <;> simp
  exact runEvents_invariant sound_step hempty hundisturbed hrun

/-- In every interleaving in which no `begin` comes between the steps of an `end` that
leaves nothing in flight, the count is right and the service runs. -/
theorem foreground_count {es : List Event} {s : State}
    (hrun : runEvents step {} es = some s)
    (hundisturbed : AllSteps step Undisturbed {} es) : Counts s :=
  sound_counts (run_sound hrun hundisturbed)

/-!
# What the steps amount to
-/

def Event.delta : Event -> Int
  | Event.incrementAndGet => 1
  | Event.decrementAndGet _ => -1
  | _ => 0

def Event.isDecrement : Event -> Bool
  | Event.decrementAndGet _ => true
  | _ => false

theorem step_countP {s s' : State} {e : Event} (h : step s e = some s') :
    (s'.callers.countP Stage.counts : Int) = s.callers.countP Stage.counts + e.delta := by
  cases e with
  | incrementAndGet =>
      cases h
      simp [Stage.counts, Event.delta]
  | startForegroundService i =>
      simp only [step] at h
      split at h <;> cases h
      rename_i hi
      simpa [Stage.counts, Event.delta, State.advance] using countP_set hi Stage.inFlight
  | decrementAndGet i =>
      simp only [step] at h
      split at h <;> cases h
      rename_i hi
      have hstage : (if s.active - 1 ≤ 0 then Stage.nothingLeft else Stage.ended).counts =
          false := by
        split <;> rfl
      simp only [State.advance]
      rw [countP_set hi, hstage]
      simp [Stage.counts, Event.delta, Int.sub_eq_add_neg]
  | set i =>
      simp only [step] at h
      split at h <;> cases h
      rename_i hi
      simpa [Stage.counts, Event.delta, State.advance] using countP_set hi Stage.reset
  | stopService i =>
      simp only [step] at h
      split at h <;> cases h
      rename_i hi
      simpa [Stage.counts, Event.delta, State.advance] using countP_set hi Stage.ended

/-- Undisturbed, the count is the increments less the decrements. -/
theorem active_eq_count {es : List Event} {s : State} (hrun : runEvents step {} es = some s)
    (hundisturbed : AllSteps step Undisturbed {} es) :
    s.active = es.count Event.incrementAndGet - es.countP Event.isDecrement := by
  have hstart : (({} : State).callers.countP Stage.counts : Int) =
      ([] : List Event).count Event.incrementAndGet -
        ([] : List Event).countP Event.isDecrement := rfl
  have hcount := runEvents_history
    (I := fun past s => (s.callers.countP Stage.counts : Int) =
      past.count Event.incrementAndGet - past.countP Event.isDecrement)
    (fun past s e s' h hstep => by
      rw [step_countP hstep, h, List.count_append, List.countP_append]
      cases e <;> simp [Event.delta, Event.isDecrement] <;> omega) hstart hrun
  rw [(run_sound hrun hundisturbed).active, hcount, List.nil_append]

def overlapping : List Event :=
  [Event.incrementAndGet, Event.incrementAndGet, Event.startForegroundService 1,
   Event.startForegroundService 0, Event.decrementAndGet 0, Event.decrementAndGet 1,
   Event.set 1, Event.stopService 1]

theorem overlapping_undisturbed : AllSteps step Undisturbed {} overlapping := by
  apply AllSteps.cons (by decide) rfl
  apply AllSteps.cons (by decide) rfl
  apply AllSteps.cons (by decide) rfl
  apply AllSteps.cons (by decide) rfl
  apply AllSteps.cons trivial rfl
  apply AllSteps.cons trivial rfl
  apply AllSteps.cons trivial rfl
  exact AllSteps.cons trivial rfl trivial

theorem foreground_count_overlapping :
    exists s, runEvents step {} overlapping = some s ∧ Counts s :=
  ⟨_, rfl, foreground_count rfl overlapping_undisturbed⟩

/-- A `begin` counts before the set, which overwrites its count. -/
def overwritten : List Event :=
  [Event.incrementAndGet, Event.startForegroundService 0, Event.decrementAndGet 0,
   Event.incrementAndGet, Event.set 0, Event.stopService 0,
   Event.startForegroundService 1]

/-- A `begin` starts the service before the stop. -/
def stoppedLate : List Event :=
  [Event.incrementAndGet, Event.startForegroundService 0, Event.decrementAndGet 0,
   Event.set 0, Event.incrementAndGet, Event.startForegroundService 1,
   Event.stopService 0]

theorem foreground_count_fails :
    (exists s, runEvents step {} overwritten = some s ∧ s.Quiet ∧
      ¬ s.active = s.inFlight) ∧
    exists s, runEvents step {} stoppedLate = some s ∧ 0 < s.inFlight ∧
      ¬ s.stopped = false := by
  constructor
  · refine ⟨_, rfl, ?_, by decide⟩
    intro c hc
    revert c
    decide
  · exact ⟨_, rfl, by decide, by decide⟩

end ForegroundCount
end DomainAI
