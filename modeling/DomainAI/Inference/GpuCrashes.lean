import DomainAI.Inference.ModelLifecycle
import DomainAI.Library.Interference
import DomainAI.Library.Run

/-!
# GpuGuard

The user toggles GPU offload without the mutex, so also between two accesses of
a load to the preferences.  A load is therefore modelled once more, one access
at a time; without a toggle it does what `ModelManager.loadIntoContext` does.
-/

namespace DomainAI
namespace GpuCrashes

open Library ModelManager

/-!
# The guard
-/

inductive Key where
  | userEnabled
  | attempting
  | disabled
  deriving DecidableEq, Repr

def getBoolean (g : GpuGuard) : Key -> Bool
  | Key.userEnabled => g.userEnabled
  | Key.attempting => g.attempting
  | Key.disabled => g.disabled

/-- What `layersToOffload` writes when it finds the marker. -/
def noteCrash (g : GpuGuard) : GpuGuard :=
  { g with disabled := true, attempting := false }

def reset (g : GpuGuard) : GpuGuard :=
  { g with disabled := false, attempting := false }

def offloads (g : GpuGuard) : Bool :=
  g.userEnabled && !g.attempting && !g.disabled

/-!
# A load
-/

/-- The coroutine of a load, and whether GPU has been turned on, or the guard
reset with GPU on, since the last `beginAttempt` of a rung on the GPU. -/
structure Process extends Coroutine where
  turnedOn : Bool := false
  deriving DecidableEq, Repr

namespace Process

def guard (p : Process) : GpuGuard :=
  p.manager.gpuGuard

def setGuard (g : GpuGuard) (p : Process) : Process :=
  { p with manager := p.manager.setGpuGuard g }

end Process

inductive LoadOp where
  | getBoolean (key : Key)
  | noteCrash
  | beginAttempt (layers : Int)
  | endAttempt
  | manager (o : ManagerOp)

abbrev LoadOp.Result : LoadOp -> Type
  | LoadOp.getBoolean _ => Bool
  | LoadOp.noteCrash => Unit
  | LoadOp.beginAttempt _ => Unit
  | LoadOp.endAttempt => Unit
  | LoadOp.manager o => o.Result

def LoadOp.layers : LoadOp -> Int
  | LoadOp.manager (ManagerOp.withContext (Block.load request)) =>
      request.nGpuLayers
  | _ => 0

def exec : (o : LoadOp) -> Answer -> Process -> o.Result × Process
  | LoadOp.getBoolean key, _, p => (getBoolean p.guard key, p)
  | LoadOp.noteCrash, _, p => ((), p.setGuard (noteCrash p.guard))
  | LoadOp.beginAttempt layers, _, p =>
      ((), { p.setGuard (p.guard.beginAttempt layers) with
        turnedOn := if 0 < layers then false else p.turnedOn })
  | LoadOp.endAttempt, _, p => ((), p.setGuard p.guard.endAttempt)
  | LoadOp.manager o, a, p =>
      let (result, c) := ModelManager.exec o a p.toCoroutine
      (result, { p with toCoroutine := c })

abbrev LoadProgram := Program LoadOp LoadOp.Result

@[simp] def perform (o : LoadOp) : LoadProgram o.Result :=
  Program.operation o

@[simp] def assign (f : Manager -> Manager) : LoadProgram Unit :=
  Program.operation (LoadOp.manager (ManagerOp.assign f))

@[simp] def withContext (block : Block) :
    LoadProgram (Except Failure block.Result) :=
  Program.operation (LoadOp.manager (ManagerOp.withContext block))

def offloadUnlessDisabled : LoadProgram Int := do
  if ← perform (LoadOp.getBoolean Key.disabled) then
    pure 0
  else
    pure 99

def layersToOffload : LoadProgram Int := do
  if !(← perform (LoadOp.getBoolean Key.userEnabled)) then
    pure 0
  else
    if ← perform (LoadOp.getBoolean Key.attempting) then
      perform LoadOp.noteCrash
    offloadUnlessDisabled

def attemptFailed (e : Failure) : LoadProgram (Option Failure) := do
  perform LoadOp.endAttempt
  assign (Manager.setBackend none)
  pure (some e)

def loadRung (path displayName fileName : Text) (gpuLayers : Int)
    (settings : Settings) : LoadProgram (Option Failure) := do
  match ← withContext (Block.load (loadRequest path gpuLayers settings)) with
  | Except.error e => attemptFailed e
  | Except.ok () =>
      perform LoadOp.endAttempt
      assign (Manager.setBackend (some displayName))
      assign (Manager.setState (State.Ready displayName
        (some (detailOf gpuLayers settings.backendInfo)) (some fileName)))
      pure none

def attemptLoad (path displayName fileName : Text) (gpuLayers : Int) :
    LoadProgram (Option Failure) := do
  match ← withContext Block.unload with
  | Except.error e => attemptFailed e
  | Except.ok () =>
      assign (Manager.setBackend none)
      perform (LoadOp.beginAttempt gpuLayers)
      let m ← perform (LoadOp.manager ManagerOp.read)
      loadRung path displayName fileName gpuLayers m.settings

def climb (path displayName fileName : Text) :
    List Int -> Option Failure -> LoadProgram (Option Failure)
  | [], lastFailure => pure lastFailure
  | layers :: rest, _ => do
      match ← attemptLoad path displayName fileName layers with
      | none => pure none
      | some e => climb path displayName fileName rest (some e)

/-- The end of `loadIntoContext`. -/
def reportFailure : Option Failure -> LoadProgram Unit
  | none => pure ()
  | some e =>
      assign (Manager.setState (State.Error
        (e.message.getD "Could not load model.".toList)))

def loadIntoContext (path displayName fileName : Text) : LoadProgram Unit := do
  assign (Manager.setState (State.Loading displayName (some fileName)))
  assign Manager.refreshInstalled
  let layers ← layersToOffload
  let ladder := if layers ≤ 0 then [0] else gpuLayerLadder
  let lastFailure ← climb path displayName fileName ladder none
  reportFailure lastFailure

section Alone

open Program

variable (path displayName fileName : Text) {p : Process}
  {Q : Option Failure -> Coroutine -> Prop}

theorem attemptFailed_alone (e : Failure) :
    Ensures exec (attemptFailed e) (fun r p => Q r p.toCoroutine) p <->
      Ensures ModelManager.exec (ModelManager.attemptFailed e) Q p.toCoroutine := by
  simp only [attemptFailed, ModelManager.attemptFailed, perform, assign,
    ModelManager.assign, operation_bind, ensures_perform, pure_eq, ensures_done]
  exact Iff.rfl

theorem loadRung_alone (gpuLayers : Int) (settings : Settings) :
    Ensures exec (loadRung path displayName fileName gpuLayers settings)
        (fun r p => Q r p.toCoroutine) p <->
      Ensures ModelManager.exec
        (ModelManager.loadRung path displayName fileName gpuLayers settings) Q
        p.toCoroutine := by
  simp only [loadRung, ModelManager.loadRung, withContext,
    ModelManager.withContext, operation_bind, ensures_perform]
  apply forall_congr'
  intro a
  simp only [exec]
  rcases ModelManager.exec (ManagerOp.withContext (Block.load
    (loadRequest path gpuLayers settings))) a p.toCoroutine with ⟨result, c⟩
  cases result with
  | error e => exact attemptFailed_alone e
  | ok _ =>
      simp only [perform, assign, ModelManager.assign, operation_bind,
        ensures_perform, pure_eq, ensures_done]
      exact Iff.rfl

theorem attemptLoad_alone (gpuLayers : Int) :
    Ensures exec (attemptLoad path displayName fileName gpuLayers)
        (fun r p => Q r p.toCoroutine) p <->
      Ensures ModelManager.exec
        (ModelManager.attemptLoad path displayName fileName gpuLayers) Q
        p.toCoroutine := by
  simp only [attemptLoad, ModelManager.attemptLoad, withContext,
    ModelManager.withContext, operation_bind, ensures_perform]
  apply forall_congr'
  intro a
  simp only [exec]
  rcases ModelManager.exec (ManagerOp.withContext Block.unload) a
    p.toCoroutine with ⟨result, c⟩
  cases result with
  | error e => exact attemptFailed_alone e
  | ok _ =>
      simp only [perform, assign, ModelManager.assign, ModelManager.read, operation_bind,
        ensures_perform]
      apply forall_congr'
      intro _
      apply forall_congr'
      intro _
      apply forall_congr'
      intro _
      exact loadRung_alone path displayName fileName gpuLayers _

theorem climb_alone (ladder : List Int) (lastFailure : Option Failure) :
    Ensures exec (climb path displayName fileName ladder lastFailure)
        (fun r p => Q r p.toCoroutine) p <->
      Ensures ModelManager.exec
        (ModelManager.climb path displayName fileName ladder lastFailure) Q
        p.toCoroutine := by
  induction ladder generalizing lastFailure p with
  | nil => exact Iff.rfl
  | cons layers rest ih =>
      simp only [climb, ModelManager.climb, ensures_bind_iff]
      rw [<- attemptLoad_alone path displayName fileName layers]
      apply ensures_congr
      intro r p'
      cases r with
      | none => exact Iff.rfl
      | some e => exact ih (some e)

/-- One access at a time, and undisturbed, the guard answers as
`GpuGuard.layersToOffload` does. -/
theorem layersToOffload_alone {R : Int -> Process -> Prop} :
    Ensures exec layersToOffload R p <->
      R p.guard.layersToOffload.1 (p.setGuard p.guard.layersToOffload.2) := by
  rcases p with ⟨⟨m, cancelled⟩, turnedOn⟩
  rcases m with ⟨_, _, _, _, _, _, ⟨userEnabled, attempting, disabled⟩, _, _⟩
  cases userEnabled <;> cases attempting <;> cases disabled <;>
    simp [layersToOffload, offloadUnlessDisabled, exec, getBoolean, Process.guard,
      Process.setGuard, GpuGuard.layersToOffload, noteCrash, Manager.setGpuGuard]

/-- Undisturbed, a load ends as `ModelManager.loadIntoContext` does. -/
theorem loadIntoContext_alone {R : Coroutine -> Prop} :
    Ensures exec (loadIntoContext path displayName fileName)
        (fun _ p => R p.toCoroutine) p <->
      Ensures ModelManager.exec
        (ModelManager.loadIntoContext path displayName fileName) (fun _ => R)
        p.toCoroutine := by
  have hreport : forall r p, Ensures exec (reportFailure r)
        (fun _ p => R p.toCoroutine) p <->
      Ensures ModelManager.exec
        (match r with
          | none => pure ()
          | some e => ModelManager.assign (Manager.setState (State.Error
              (e.message.getD "Could not load model.".toList))))
        (fun _ => R) p.toCoroutine := by
    intro r p
    cases r with
    | none => exact Iff.rfl
    | some e => exact Iff.rfl
  simp only [loadIntoContext, ModelManager.loadIntoContext, assign,
    ModelManager.assign, ModelManager.refreshInstalled, ModelManager.read,
    operation_bind, ensures_perform, ensures_bind_iff, layersToOffload_alone]
  apply forall_congr'
  intro _
  apply forall_congr'
  intro _
  constructor
  · intro h _ _
    exact (climb_alone path displayName fileName _ none).mp
      ((ensures_congr hreport).mp h)
  · intro h
    exact (ensures_congr hreport).mpr
      ((climb_alone path displayName fileName _ none).mpr (h default default))

end Alone

/-!
# Runs

A process runs or does not; what the preferences and the files hold outlives it.
Loads wait for the mutex.  The toggles of the guard do not, nor does what else
the manager and the user do meanwhile, which leaves the guard alone.
-/

inductive Work where
  | stopped
  | idle
  | loading (rest : LoadProgram Unit)

structure Phone where
  process : Process
  work : Work

inductive Event where
  | launch
  | load (path displayName fileName : Text)
  | proceed (a : Answer)
  | abort
  | setUserEnabled (enabled : Bool)
  | reset
  | elsewhere (f : Manager -> Manager)

def Event.turnsOn : Event -> Bool
  | Event.setUserEnabled enabled => enabled
  | Event.reset => true
  | _ => false

namespace Process

def launch (p : Process) : Process where
  manager := atStart p.manager.modelStore p.manager.modelStorage
    p.manager.gpuGuard p.manager.settings

def setUserEnabled (enabled : Bool) (p : Process) : Process :=
  { p.setGuard (p.guard.setUserEnabled enabled) with turnedOn := enabled }

def reset (p : Process) : Process :=
  { p.setGuard (GpuCrashes.reset p.guard) with turnedOn := p.guard.userEnabled }

def elsewhere (f : Manager -> Manager) (p : Process) : Process :=
  { p with manager := (f p.manager).setGpuGuard p.guard }

end Process

namespace Phone

def off (m : Manager) : Phone where
  process := { manager := m }
  work := Work.stopped

def abort (s : Phone) : Phone :=
  { s with work := Work.stopped }

def running (s : Phone) : Bool :=
  match s.work with
  | Work.stopped => false
  | _ => true

/-- How many layers the `llama.load` that the process is in offloads; a
cancelled coroutine makes no call. -/
def layersRequested (s : Phone) : Int :=
  match s.work with
  | Work.loading (Program.perform o _) =>
      if s.process.cancelled then 0 else o.layers
  | _ => 0

def RequestsGpu (s : Phone) : Prop :=
  0 < s.layersRequested

end Phone

def step (s : Phone) : Event -> Option Phone
  | Event.launch =>
      if s.running then none
      else some { process := s.process.launch, work := Work.idle }
  | Event.load path displayName fileName =>
      match s.work with
      | Work.idle => some
          { process := { s.process with cancelled := false }
            work := Work.loading (loadIntoContext path displayName fileName) }
      | _ => none
  | Event.proceed a =>
      match s.work with
      | Work.loading (Program.done _) => some { s with work := Work.idle }
      | Work.loading (Program.perform o next) => some
          { process := (exec o a s.process).2
            work := Work.loading (next (exec o a s.process).1) }
      | _ => none
  | Event.abort => if s.running then some s.abort else none
  | Event.setUserEnabled enabled =>
      if s.running then some { s with process := s.process.setUserEnabled enabled }
      else none
  | Event.reset =>
      if s.running then some { s with process := s.process.reset } else none
  | Event.elsewhere f =>
      if s.running then some { s with process := s.process.elsewhere f } else none

/-- No load requests the GPU before it is turned on or the guard is reset. -/
def Recovers (s : Phone) : Prop :=
  forall es s', (forall e, e ∈ es -> e.turnsOn = false) ->
    runEvents step s es = some s' -> ¬ s'.RequestsGpu

/-!
# Invariants
-/

inductive Disturbs (allowed : Event -> Prop) : Process -> Process -> Prop where
  | setUserEnabled (enabled : Bool) (p : Process)
      (h : allowed (Event.setUserEnabled enabled)) :
      Disturbs allowed p (p.setUserEnabled enabled)
  | reset (p : Process) (h : allowed Event.reset) : Disturbs allowed p p.reset
  | elsewhere (f : Manager -> Manager) (p : Process) :
      Disturbs allowed p (p.elsewhere f)

section Attends

variable {allowed : Event -> Prop} {ok : LoadOp -> Process -> Prop}
  {I : GpuGuard -> Prop}

/-- The guard is as claimed unless a load is in progress, and the load
withstands what may happen meanwhile. -/
def Attends (allowed : Event -> Prop) (ok : LoadOp -> Process -> Prop)
    (I : GpuGuard -> Prop) (s : Phone) : Prop :=
  match s.work with
  | Work.loading rest =>
      Program.Withstands exec (Disturbs allowed) ok rest
        (fun _ p => I p.guard) s.process
  | _ => I s.process.guard

theorem Attends.guard (hok : forall o p, ok o p -> I p.guard) {s : Phone}
    (hs : Attends allowed ok I s) : I s.process.guard := by
  rcases s with ⟨p, work⟩
  cases work with
  | stopped => exact hs
  | idle => exact hs
  | loading rest =>
      cases rest with
      | done r =>
          change Program.Withstands exec (Disturbs allowed) ok (Program.done r)
            (fun _ p => I p.guard) p at hs
          exact hs.ends
      | perform o next => exact hok o p (Program.Withstands.admits hs)

theorem Attends.disturb (hI : Program.Stable (Disturbs allowed) fun p => I p.guard)
    {p p' : Process} {work : Work} (hs : Attends allowed ok I ⟨p, work⟩)
    (hmove : Disturbs allowed p p') : Attends allowed ok I ⟨p', work⟩ := by
  cases work with
  | stopped => exact hI p p' hmove hs
  | idle => exact hI p p' hmove hs
  | loading rest =>
      exact Program.Withstands.moves hs (Relation.ReflTransGen.single hmove)

theorem step_attends (hI : Program.Stable (Disturbs allowed) fun p => I p.guard)
    (hok : forall o p, ok o p -> I p.guard)
    (hload : forall path displayName fileName p, I p.guard ->
      Program.Withstands exec (Disturbs allowed) ok
        (loadIntoContext path displayName fileName) (fun _ p => I p.guard) p)
    {s s' : Phone} {e : Event} (hs : Attends allowed ok I s) (he : allowed e)
    (hstep : step s e = some s') : Attends allowed ok I s' := by
  have hguard := hs.guard hok
  rcases s with ⟨p, work⟩
  cases e with
  | launch =>
      simp only [step, Option.ite_none_left_eq_some, Option.some.injEq] at hstep
      rw [<- hstep.right]
      exact hguard
  | load path displayName fileName =>
      cases work with
      | idle =>
          cases hstep
          exact hload path displayName fileName _ hguard
      | stopped => cases hstep
      | loading rest => cases hstep
  | proceed a =>
      cases work with
      | stopped => cases hstep
      | idle => cases hstep
      | loading rest =>
          cases rest with
          | done _ =>
              cases hstep
              exact hguard
          | perform o next =>
              cases hstep
              exact Program.Withstands.next hs a
  | abort =>
      simp only [step, Option.ite_none_right_eq_some, Option.some.injEq] at hstep
      rw [<- hstep.right]
      exact hguard
  | setUserEnabled enabled =>
      simp only [step, Option.ite_none_right_eq_some, Option.some.injEq] at hstep
      rw [<- hstep.right]
      exact hs.disturb hI (Disturbs.setUserEnabled enabled p he)
  | reset =>
      simp only [step, Option.ite_none_right_eq_some, Option.some.injEq] at hstep
      rw [<- hstep.right]
      exact hs.disturb hI (Disturbs.reset p he)
  | elsewhere f =>
      simp only [step, Option.ite_none_right_eq_some, Option.some.injEq] at hstep
      rw [<- hstep.right]
      exact hs.disturb hI (Disturbs.elsewhere f p)

end Attends

/-!
# The marker

From `beginAttempt` to the end of the rung, the guard would let the next process
offload exactly if GPU has been turned on meanwhile.
-/

section Marked

open Program

def Any (_ : Event) : Prop :=
  True

def Marked (p : Process) : Prop :=
  p.turnedOn = offloads p.guard

theorem marked_disturbs {p p' : Process} (h : Disturbs Any p p')
    (hp : Marked p) : Marked p' := by
  cases h with
  | setUserEnabled enabled _ _ => cases enabled <;> rfl
  | reset _ _ =>
      change p.guard.userEnabled = (p.guard.userEnabled && true && true)
      rw [Bool.and_true, Bool.and_true]
  | elsewhere f _ => exact hp

theorem marked_beginAttempt {layers : Int} (hlayers : 0 < layers) (a : Answer)
    (p : Process) : Marked (exec (LoadOp.beginAttempt layers) a p).2 := by
  simp [Marked, exec, hlayers, offloads, Process.guard, Process.setGuard,
    Manager.setGpuGuard, GpuGuard.beginAttempt]

def MarkedLoad (o : LoadOp) (p : Process) : Prop :=
  0 < o.layers -> Marked p

variable {path displayName fileName : Text}

theorem markedLoad_of_le {o : LoadOp} (ho : o.layers ≤ 0) (p : Process) :
    MarkedLoad o p := by
  intro hpos
  exact absurd hpos (not_lt.mpr ho)

theorem stable_true : Stable (Disturbs Any) fun _ => True := by
  intro _ _ _ _
  trivial

theorem withstands_off_gpu {alpha : Type} {program : LoadProgram alpha}
    (h : Obeys (fun o => o.layers ≤ 0) (fun _ _ => True) (fun _ => True) program)
    (p : Process) :
    Withstands exec (Disturbs Any) MarkedLoad program (fun _ _ => True) p := by
  have hkept : Withstands exec (Disturbs Any) MarkedLoad program
      (fun _ _ => True ∧ True) p := by
    apply withstands_of_obeys stable_true _ h trivial
    intro o _ p _ ho
    exact ⟨markedLoad_of_le ho p, trivial, trivial⟩
  exact withstands_mono hkept fun _ _ _ => trivial

theorem attemptFailed_marked (e : Failure) (p : Process) :
    Withstands exec (Disturbs Any) MarkedLoad (attemptFailed e)
      (fun _ _ => True) p := by
  apply withstands_off_gpu
  exact ⟨le_rfl, fun _ _ => ⟨le_rfl, fun _ _ => trivial⟩⟩

theorem layersToOffload_marked (p : Process) :
    Withstands exec (Disturbs Any) MarkedLoad layersToOffload
      (fun _ _ => True) p := by
  apply withstands_off_gpu
  simp [layersToOffload, offloadUnlessDisabled, Obeys, LoadOp.layers]

theorem loadRung_marked (gpuLayers : Int) (settings : Settings) {p : Process}
    (hp : 0 < gpuLayers -> Marked p) :
    Withstands exec (Disturbs Any) MarkedLoad
      (loadRung path displayName fileName gpuLayers settings)
      (fun _ _ => True) p := by
  have hstable : Stable (Disturbs Any) fun p => 0 < gpuLayers -> Marked p := by
    intro p p' hmove h hpos
    exact marked_disturbs hmove (h hpos)
  apply withstands_perform hstable _ _ hp
  · intro p h
    exact h
  · intro p a _
    cases (exec (LoadOp.manager (ManagerOp.withContext (Block.load
        (loadRequest path gpuLayers settings)))) a p).1 with
    | error e => exact attemptFailed_marked e _
    | ok _ =>
        apply withstands_off_gpu
        exact ⟨le_rfl, fun _ _ => ⟨le_rfl, fun _ _ => ⟨le_rfl, fun _ _ => trivial⟩⟩⟩

theorem attemptLoad_marked (gpuLayers : Int) (p : Process) :
    Withstands exec (Disturbs Any) MarkedLoad
      (attemptLoad path displayName fileName gpuLayers) (fun _ _ => True) p := by
  have hstable : Stable (Disturbs Any) fun p => 0 < gpuLayers -> Marked p := by
    intro p p' hmove h hpos
    exact marked_disturbs hmove (h hpos)
  apply withstands_perform stable_true (fun p _ => markedLoad_of_le le_rfl p) _
    trivial
  intro p a _
  cases (exec (LoadOp.manager (ManagerOp.withContext Block.unload)) a p).1 with
  | error e => exact attemptFailed_marked e _
  | ok _ =>
      apply withstands_perform stable_true (fun p _ => markedLoad_of_le le_rfl p) _
        trivial
      intro p a _
      apply withstands_perform stable_true (fun p _ => markedLoad_of_le le_rfl p) _
        trivial
      intro p a _
      apply withstands_perform hstable (fun p _ => markedLoad_of_le le_rfl p) _
        (fun hpos => marked_beginAttempt hpos a p)
      intro p a hp
      exact loadRung_marked gpuLayers _ hp

theorem climb_marked (ladder : List Int) (lastFailure : Option Failure)
    (p : Process) :
    Withstands exec (Disturbs Any) MarkedLoad
      (climb path displayName fileName ladder lastFailure) (fun _ _ => True) p := by
  induction ladder generalizing lastFailure p with
  | nil => exact withstands_done stable_true trivial
  | cons layers rest ih =>
      apply withstands_bind
      apply withstands_mono (attemptLoad_marked layers p)
      intro r p' _
      cases r with
      | none => exact withstands_done stable_true trivial
      | some e => exact ih (some e) p'

theorem loadIntoContext_marked (p : Process) :
    Withstands exec (Disturbs Any) MarkedLoad
      (loadIntoContext path displayName fileName) (fun _ _ => True) p := by
  apply withstands_perform stable_true (fun p _ => markedLoad_of_le le_rfl p) _
    trivial
  intro p a _
  apply withstands_perform stable_true (fun p _ => markedLoad_of_le le_rfl p) _
    trivial
  intro p a _
  apply withstands_bind (p := layersToOffload)
  apply withstands_mono (layersToOffload_marked _)
  intro layers p _
  apply withstands_bind (p := climb path displayName fileName _ none)
  apply withstands_mono (climb_marked _ none p)
  intro r p _
  apply withstands_off_gpu
  cases r with
  | none => trivial
  | some e => exact ⟨le_rfl, fun _ _ => trivial⟩

end Marked

/-!
# After a crash

Until GPU is turned on again, a guard that would not offload stays so: a load
that reads it finds the preference, the marker or the verdict, and what it then
clears is the marker at most.
-/

section Declines

open Program

def Calm (e : Event) : Prop :=
  e.turnsOn = false

def Off (g : GpuGuard) : Prop :=
  g.userEnabled = true -> g.disabled = true

theorem Off.declines {g : GpuGuard} (h : Off g) : offloads g = false := by
  rcases g with ⟨userEnabled, attempting, disabled⟩
  cases userEnabled with
  | false => rfl
  | true =>
      cases h rfl
      cases attempting <;> rfl

theorem off_of_disabled {g : GpuGuard} (h : g.disabled = true) : Off g :=
  fun _ => h

theorem stable_of_guard {G : GpuGuard -> Prop}
    (hG : forall g, G g -> G { g with userEnabled := false }) :
    Stable (Disturbs Calm) fun p => G p.guard := by
  intro p p' hmove hp
  cases hmove with
  | setUserEnabled enabled _ h =>
      cases enabled with
      | true => cases h
      | false => exact hG p.guard hp
  | reset _ h => cases h
  | elsewhere f _ => exact hp

theorem stable_declines :
    Stable (Disturbs Calm) fun p => offloads p.guard = false :=
  stable_of_guard (G := fun g => offloads g = false) fun _ _ => rfl

theorem stable_off : Stable (Disturbs Calm) fun p => Off p.guard :=
  stable_of_guard (G := Off) fun _ _ h => by cases h

theorem stable_disabled :
    Stable (Disturbs Calm) fun p => p.guard.disabled = true :=
  stable_of_guard (G := fun g => g.disabled = true) fun _ h => h

theorem stable_noted : Stable (Disturbs Calm) fun p =>
    p.guard.attempting = true ∨ p.guard.disabled = true :=
  stable_of_guard (G := fun g => g.attempting = true ∨ g.disabled = true)
    fun _ h => h

theorem noted_declines {g : GpuGuard}
    (h : g.attempting = true ∨ g.disabled = true) : offloads g = false := by
  rcases g with ⟨userEnabled, attempting, disabled⟩
  cases h with
  | inl h =>
      cases h
      cases userEnabled <;> rfl
  | inr h => exact (off_of_disabled h).declines

theorem noted_of_declines {g : GpuGuard} (h : offloads g = false)
    (huser : g.userEnabled = true) : g.attempting = true ∨ g.disabled = true := by
  rcases g with ⟨userEnabled, attempting, disabled⟩
  cases huser
  cases attempting with
  | true => exact Or.inl rfl
  | false =>
      cases disabled with
      | true => exact Or.inr rfl
      | false => cases h

def Declined (o : LoadOp) (p : Process) : Prop :=
  offloads p.guard = false ∧ o.layers ≤ 0

def NoLayers (layers : Int) (p : Process) : Prop :=
  layers = 0 ∧ Off p.guard

theorem noLayers_ends {p : Process} (hp : Off p.guard) :
    Withstands exec (Disturbs Calm) Declined (done 0) NoLayers p := by
  have hstable : Stable (Disturbs Calm) (NoLayers 0) := by
    intro p p' hmove h
    exact ⟨h.left, stable_off p p' hmove h.right⟩
  exact withstands_done hstable ⟨rfl, hp⟩

theorem offloadUnlessDisabled_declines {p : Process}
    (hp : p.guard.disabled = true) :
    Withstands exec (Disturbs Calm) Declined offloadUnlessDisabled NoLayers p := by
  apply withstands_perform stable_disabled _ _ hp
  · intro p hp
    exact ⟨(off_of_disabled hp).declines, le_rfl⟩
  · intro p a hp
    have hread : (exec (LoadOp.getBoolean Key.disabled) a p).1 = true := hp
    rw [hread]
    exact noLayers_ends (off_of_disabled hp)

theorem layersToOffload_declines {p : Process} (hp : offloads p.guard = false) :
    Withstands exec (Disturbs Calm) Declined layersToOffload NoLayers p := by
  apply withstands_perform stable_declines (fun p hp => ⟨hp, le_rfl⟩) _ hp
  intro p a hp
  cases huser : (exec (LoadOp.getBoolean Key.userEnabled) a p).1 with
  | false =>
      apply noLayers_ends
      intro htrue
      exact absurd (huser.symm.trans htrue) Bool.false_ne_true
  | true =>
      apply withstands_perform stable_noted
        (fun p hp => ⟨noted_declines hp, le_rfl⟩) _ (noted_of_declines hp huser)
      intro p a hp
      cases hmarker : (exec (LoadOp.getBoolean Key.attempting) a p).1 with
      | false =>
          have hclear : ¬ p.guard.attempting = true := by
            intro htrue
            exact Bool.false_ne_true (hmarker.symm.trans htrue)
          exact offloadUnlessDisabled_declines (hp.resolve_left hclear)
      | true =>
          apply withstands_perform stable_noted
            (fun p hp => ⟨noted_declines hp, le_rfl⟩) _ hp
          intro p a _
          exact offloadUnlessDisabled_declines rfl

def Spares (o : LoadOp) : Prop :=
  o.layers ≤ 0 ∧ forall a p, Off p.guard -> Off (exec o a p).2.guard

theorem withstands_spares {alpha : Type} {program : LoadProgram alpha}
    (h : Obeys Spares (fun _ _ => True) (fun _ => True) program) {p : Process}
    (hp : Off p.guard) :
    Withstands exec (Disturbs Calm) Declined program (fun _ p => Off p.guard) p := by
  have hkept : Withstands exec (Disturbs Calm) Declined program
      (fun _ p => True ∧ Off p.guard) p := by
    apply withstands_of_obeys stable_off _ h hp
    intro o a p hp ho
    exact ⟨⟨hp.declines, ho.left⟩, trivial, ho.right a p hp⟩
  exact withstands_mono hkept fun _ _ h => h.right

theorem spares_assign {f : Manager -> Manager}
    (hf : forall m, (f m).gpuGuard = m.gpuGuard) :
    Spares (LoadOp.manager (ManagerOp.assign f)) := by
  constructor
  · exact le_rfl
  · intro a p hp
    change Off (f p.manager).gpuGuard
    rw [hf]
    exact hp

theorem run_gpuGuard (block : Block) (a : Answer) (m : Manager) :
    (block.run a m).2.gpuGuard = m.gpuGuard := by
  cases block <;> rfl

theorem spares_withContext {block : Block}
    (hblock : (LoadOp.manager (ManagerOp.withContext block)).layers ≤ 0) :
    Spares (LoadOp.manager (ManagerOp.withContext block)) := by
  constructor
  · exact hblock
  · intro a p hp
    have hguard : (exec (LoadOp.manager (ManagerOp.withContext block)) a p).2.guard =
        p.guard := by
      rcases exec_withContext block a p.toCoroutine with
        ⟨_, _, hm⟩ | ⟨_, _, hm⟩ | ⟨_, _, _, hm⟩
      · exact congrArg Manager.gpuGuard hm
      · exact (congrArg Manager.gpuGuard hm).trans (run_gpuGuard block a p.manager)
      · exact (congrArg Manager.gpuGuard hm).trans (run_gpuGuard block a p.manager)
    rw [hguard]
    exact hp

theorem spares_endAttempt : Spares LoadOp.endAttempt :=
  ⟨le_rfl, fun _ _ hp => hp⟩

theorem spares_beginAttempt {layers : Int} (hlayers : layers ≤ 0) :
    Spares (LoadOp.beginAttempt layers) := by
  constructor
  · exact le_rfl
  · intro a p hp
    have hguard : (exec (LoadOp.beginAttempt layers) a p).2.guard = p.guard := by
      change p.guard.beginAttempt layers = p.guard
      rw [GpuGuard.beginAttempt, if_neg (not_lt.mpr hlayers)]
    rw [hguard]
    exact hp

theorem spares_read : Spares (LoadOp.manager ManagerOp.read) :=
  ⟨le_rfl, fun _ _ hp => hp⟩

variable {path displayName fileName : Text}

theorem attemptFailed_spares (e : Failure) :
    Obeys Spares (fun _ _ => True) (fun _ => True) (attemptFailed e) := by
  refine ⟨spares_endAttempt, fun _ _ => ⟨spares_assign fun _ => rfl, fun _ _ => ?_⟩⟩
  trivial

theorem attemptLoad_spares {layers : Int} (hlayers : layers ≤ 0) :
    Obeys Spares (fun _ _ => True) (fun _ => True)
      (attemptLoad path displayName fileName layers) := by
  refine ⟨spares_withContext le_rfl, fun r _ => ?_⟩
  cases r with
  | error e => exact attemptFailed_spares e
  | ok _ =>
      refine ⟨spares_assign fun _ => rfl, fun _ _ => ?_⟩
      refine ⟨spares_beginAttempt hlayers, fun _ _ => ?_⟩
      refine ⟨spares_read, fun m _ => ?_⟩
      refine ⟨spares_withContext hlayers, fun r _ => ?_⟩
      cases r with
      | error e => exact attemptFailed_spares e
      | ok _ =>
          refine ⟨spares_endAttempt, fun _ _ => ?_⟩
          refine ⟨spares_assign fun _ => rfl, fun _ _ => ?_⟩
          refine ⟨spares_assign fun _ => rfl, fun _ _ => ?_⟩
          trivial

theorem climb_spares {ladder : List Int} (h : forall layers, layers ∈ ladder -> layers ≤ 0)
    (lastFailure : Option Failure) :
    Obeys Spares (fun _ _ => True) (fun _ => True)
      (climb path displayName fileName ladder lastFailure) := by
  induction ladder generalizing lastFailure with
  | nil => trivial
  | cons layers rest ih =>
      apply obeys_bind (attemptLoad_spares (h layers List.mem_cons_self))
      intro r _
      cases r with
      | none => trivial
      | some e =>
          exact ih (fun layers hmem => h layers (List.mem_cons_of_mem _ hmem)) (some e)

theorem readAndClimb_declines {p : Process} (hp : offloads p.guard = false) :
    Withstands exec (Disturbs Calm) Declined
      (layersToOffload >>= fun layers =>
        climb path displayName fileName
          (if layers ≤ 0 then [0] else gpuLayerLadder) none >>= reportFailure)
      (fun _ p => offloads p.guard = false) p := by
  apply withstands_bind
  apply withstands_mono (layersToOffload_declines hp)
  intro layers p h
  rcases h with ⟨hlayers, hoff⟩
  rw [hlayers]
  have hrest : Obeys Spares (fun _ _ => True) (fun _ => True)
      (climb path displayName fileName [0] none >>= reportFailure) := by
    apply obeys_bind (climb_spares (by simp) none)
    intro r _
    cases r with
    | none => trivial
    | some e => exact ⟨spares_assign fun _ => rfl, fun _ _ => trivial⟩
  exact withstands_mono (withstands_spares hrest hoff) fun _ _ h => h.declines

theorem loadIntoContext_declines {p : Process} (hp : offloads p.guard = false) :
    Withstands exec (Disturbs Calm) Declined
      (loadIntoContext path displayName fileName)
      (fun _ p => offloads p.guard = false) p := by
  apply withstands_perform stable_declines (fun p hp => ⟨hp, le_rfl⟩) _ hp
  intro p a hp
  refine withstands_perform stable_declines (fun p hp => ⟨hp, le_rfl⟩) ?_ ?_
  · intro p a hp
    exact readAndClimb_declines hp
  · exact hp

end Declines

/-!
# Aborted loads
-/

theorem Attends.admits {allowed : Event -> Prop} {ok : LoadOp -> Process -> Prop}
    {I : GpuGuard -> Prop} {s : Phone} (hs : Attends allowed ok I s)
    (hgpu : s.RequestsGpu) : exists o : LoadOp, 0 < o.layers ∧ ok o s.process := by
  rcases s with ⟨p, work⟩
  cases work with
  | stopped => exact absurd hgpu (lt_irrefl 0)
  | idle => exact absurd hgpu (lt_irrefl 0)
  | loading rest =>
      cases rest with
      | done _ => exact absurd hgpu (lt_irrefl 0)
      | perform o next =>
          exists o
          constructor
          · change 0 < if p.cancelled then 0 else o.layers at hgpu
            split at hgpu
            · exact absurd hgpu (lt_irrefl 0)
            · exact hgpu
          · exact Program.Withstands.admits hs

theorem marked_of_requestsGpu {m : Manager} {es : List Event} {s : Phone}
    (hrun : runEvents step (Phone.off m) es = some s) (hgpu : s.RequestsGpu) :
    Marked s.process := by
  have hstart : Attends Any MarkedLoad (fun _ => True) (Phone.off m) := trivial
  have hsteps : AllSteps step (fun _ e => Any e) (Phone.off m) es :=
    AllSteps.of_forall (fun _ _ => trivial) _ es
  have hattends : Attends Any MarkedLoad (fun _ => True) s := by
    apply runEvents_invariant _ hstart hsteps hrun
    intro s e s' hs _ hstep
    exact step_attends stable_true (fun _ _ _ => trivial)
      (fun _ _ _ p _ => loadIntoContext_marked p) hs trivial hstep
  rcases hattends.admits hgpu with ⟨o, hlayers, hmarked⟩
  exact hmarked hlayers

theorem recovers_of_declines {s : Phone} (hs : offloads s.process.guard = false) :
    Recovers s.abort := by
  intro es s' hcalm hrun hgpu
  have hstart : Attends Calm Declined (fun g => offloads g = false) s.abort := hs
  have hsteps : AllSteps step (fun _ e => Calm e) s.abort es := by
    apply AllSteps.mono _ (AllSteps.of_forall (fun _ _ => trivial) s.abort es)
    intro _ e he _
    exact hcalm e he
  have hattends : Attends Calm Declined (fun g => offloads g = false) s' := by
    apply runEvents_invariant _ hstart hsteps hrun
    intro s e s' hs he hstep
    exact step_attends stable_declines (fun _ _ h => h.left)
      (fun _ _ _ _ hp => loadIntoContext_declines hp) hs he hstep
  rcases hattends.admits hgpu with ⟨o, hlayers, hdeclined⟩
  exact absurd hlayers (not_lt.mpr hdeclined.right)

def firstRung (path displayName fileName : Text) : List Event :=
  [Event.launch, Event.load path displayName fileName] ++
    List.replicate 9 (Event.proceed {})

theorem firstRung_requestsGpu (path displayName fileName : Text) {p : Process}
    (hp : offloads p.guard = true) :
    exists s, runEvents step { process := p, work := Work.stopped }
        (firstRung path displayName fileName) = some s ∧
      s.RequestsGpu ∧ s.process.turnedOn = false := by
  rcases p with ⟨⟨m, cancelled⟩, turnedOn⟩
  rcases m with ⟨_, _, _, _, _, _, ⟨userEnabled, attempting, disabled⟩, _, _⟩
  change (userEnabled && !attempting && !disabled) = true at hp
  simp only [Bool.and_eq_true, Bool.not_eq_true'] at hp
  rcases hp with ⟨⟨huser, hmarker⟩, hverdict⟩
  cases huser
  cases hmarker
  cases hverdict
  refine ⟨_, rfl, ?_, rfl⟩
  change (0 : Int) < 99
  decide

/--
After the process has aborted in a load on the GPU, no load requests the GPU
until it is turned on or the guard is reset, exactly if neither has happened
between the `beginAttempt` of that load and the abort.
-/
theorem recovers_iff {m : Manager} {es : List Event} {s : Phone}
    (hrun : runEvents step (Phone.off m) es = some s) (hgpu : s.RequestsGpu) :
    Recovers s.abort <-> s.process.turnedOn = false := by
  have hmarked : s.process.turnedOn = offloads s.process.guard :=
    marked_of_requestsGpu hrun hgpu
  rw [hmarked]
  constructor
  · intro hrecovers
    by_contra hoffloads
    rcases firstRung_requestsGpu [] [] [] (Bool.of_not_eq_false hoffloads) with
      ⟨s', hs', hagain, _⟩
    apply hrecovers (firstRung [] [] []) s' _ hs' hagain
    decide
  · exact recovers_of_declines

theorem recovers_iff_firstRung :
    exists s, runEvents step (Phone.off {})
        (firstRung "m".toList "m".toList "m".toList) = some s ∧
      s.RequestsGpu ∧ Recovers s.abort := by
  rcases firstRung_requestsGpu "m".toList "m".toList "m".toList
    (p := { manager := {} }) rfl with ⟨s, hrun, hgpu, hturnedOn⟩
  exact ⟨s, hrun, hgpu, (recovers_iff (m := {}) hrun hgpu).mpr hturnedOn⟩

/-- The user turns GPU off and on again before the driver aborts. -/
theorem recovers_fails :
    exists es s, runEvents step (Phone.off {}) es = some s ∧ s.RequestsGpu ∧
      ¬ Recovers s.abort := by
  refine ⟨firstRung [] [] [] ++
    [Event.setUserEnabled false, Event.setUserEnabled true], _, rfl, ?_, ?_⟩
  · change (0 : Int) < 99
    decide
  · intro hrecovers
    rcases firstRung_requestsGpu [] [] [] (p := Process.setUserEnabled true _) rfl
      with ⟨s', hs', hagain, _⟩
    apply hrecovers (firstRung [] [] []) s' _ hs' hagain
    decide

end GpuCrashes
end DomainAI
