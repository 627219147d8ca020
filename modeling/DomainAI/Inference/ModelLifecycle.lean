import DomainAI.Inference.ModelManager
import DomainAI.Llama.NativeObjects

/-!
# Model lifecycle

Whenever the mutex is free, the state that is shown, the backend, the native
wrapper and the stored descriptor should speak of the same model.
-/

namespace DomainAI
namespace ModelManager

open Library LLamaAndroid ModelStorage

/-!
# Coherence
-/

namespace Manager

def readyFile (m : Manager) : Option Text :=
  match m.state with
  | State.Ready _ _ fileName => fileName
  | _ => none

def loadedFile (m : Manager) : Option Text :=
  match m.llama.threadLocalState with
  | LLamaAndroid.State.Loaded h => some h.path
  | LLamaAndroid.State.Idle => none

def isLoading (m : Manager) : Bool :=
  match m.state with
  | State.Loading _ _ => true
  | _ => false

end Manager

structure Coherent (m : Manager) : Prop where
  /-- Not in the middle of a load, and a ready model has a file. -/
  settled : m.state = State.NotLoaded ∨ (exists message, m.state = State.Error message) ∨
    exists name detail file, m.state = State.Ready name detail (some file)
  native : m.loadedFile = m.readyFile.map fileFor
  backend : m.backend.isSome = m.readyFile.isSome
  stored : forall file, m.readyFile = some file ->
    m.modelStore.map ModelDescriptor.fileName = some file

def atStart (modelStore : Option ModelDescriptor) (modelStorage : Directory)
    (gpuGuard : GpuGuard) (settings : Settings) : Manager where
  modelStore := modelStore
  modelStorage := modelStorage
  gpuGuard := gpuGuard
  settings := settings

theorem coherent_atStart (modelStore : Option ModelDescriptor)
    (modelStorage : Directory) (gpuGuard : GpuGuard) (settings : Settings) :
    Coherent (atStart modelStore modelStorage gpuGuard settings) where
  settled := Or.inl rfl
  native := rfl
  backend := rfl
  stored := by intro file hfile; cases hfile

structure SameModel (m m' : Manager) : Prop where
  state : m'.state = m.state
  backend : m'.backend = m.backend
  modelStore : m'.modelStore = m.modelStore
  llama : m'.llama = m.llama

namespace SameModel

variable {m m' : Manager}

theorem refl (m : Manager) : SameModel m m :=
  ⟨rfl, rfl, rfl, rfl⟩

theorem readyFile (h : SameModel m m') : m'.readyFile = m.readyFile := by
  simp only [Manager.readyFile, h.state]

theorem loadedFile (h : SameModel m m') : m'.loadedFile = m.loadedFile := by
  simp only [Manager.loadedFile, h.llama]

theorem coherent (h : SameModel m m') (hm : Coherent m) : Coherent m' where
  settled := by
    rw [h.state]
    exact hm.settled
  native := by
    rw [h.loadedFile, h.readyFile]
    exact hm.native
  backend := by
    rw [h.backend, h.readyFile]
    exact hm.backend
  stored := by
    rw [h.readyFile, h.modelStore]
    exact hm.stored

end SameModel

/-!
# Suspensions
-/

def NotRun (a : Answer) (c : Coroutine) : Prop :=
  c.cancelled = true ∨ a.delivery = Delivery.cancelledBefore

def RunInVain (a : Answer) (c : Coroutine) : Prop :=
  c.cancelled = false ∧ a.delivery = Delivery.cancelledAfter

theorem RunInVain.ran {a : Answer} {c : Coroutine} (h : RunInVain a c) :
    ¬ NotRun a c := by
  rintro (hcancelled | hbefore)
  · rw [h.left] at hcancelled
    cases hcancelled
  · rw [h.right] at hbefore
    cases hbefore

/-- A ladder is not cancelled before it has unloaded the previous model, nor an
operation after it has unloaded the current one, nor a ladder after a rung has
loaded the model. -/
def Undisturbed : ManagerOp -> Answer -> Coroutine -> Prop
  | ManagerOp.withContext Block.unload, a, c =>
      c.manager.loadedFile ≠ none ->
        if c.manager.isLoading then ¬ NotRun a c else ¬ RunInVain a c
  | ManagerOp.withContext (Block.load _), a, c =>
      a.load.opens = true -> ¬ RunInVain a c
  | _, _, _ => True

instance decidableNotRun (a : Answer) (c : Coroutine) : Decidable (NotRun a c) :=
  inferInstanceAs (Decidable (_ ∨ _))

instance decidableRunInVain (a : Answer) (c : Coroutine) :
    Decidable (RunInVain a c) :=
  inferInstanceAs (Decidable (_ ∧ _))

instance decidableUndisturbed :
    (o : ManagerOp) -> (a : Answer) -> (c : Coroutine) ->
      Decidable (Undisturbed o a c)
  | ManagerOp.withContext Block.unload, a, c =>
      inferInstanceAs (Decidable (c.manager.loadedFile ≠ none ->
        if c.manager.isLoading then ¬ NotRun a c else ¬ RunInVain a c))
  | ManagerOp.withContext (Block.load _), a, c =>
      inferInstanceAs (Decidable (a.load.opens = true -> ¬ RunInVain a c))
  | ManagerOp.withContext (Block.importFrom _ _), _, _ => isTrue trivial
  | ManagerOp.withContext (Block.finalize _ _), _, _ => isTrue trivial
  | ManagerOp.withContext (Block.delete _), _, _ => isTrue trivial
  | ManagerOp.withContext (Block.download _ _ _ _), _, _ => isTrue trivial
  | ManagerOp.read, _, _ => isTrue trivial
  | ManagerOp.assign _, _, _ => isTrue trivial
  | ManagerOp.nonCancellable _, _, _ => isTrue trivial

theorem exec_withContext (block : Block) (a : Answer) (c : Coroutine) :
    (NotRun a c ∧ (exec (ManagerOp.withContext block) a c).1 =
        Except.error a.cancellation ∧
      (exec (ManagerOp.withContext block) a c).2.manager = c.manager) ∨
    (RunInVain a c ∧ (exec (ManagerOp.withContext block) a c).1 =
        Except.error a.cancellation ∧
      (exec (ManagerOp.withContext block) a c).2.manager =
        (block.run a c.manager).2) ∨
    (¬ NotRun a c ∧ ¬ RunInVain a c ∧
      (exec (ManagerOp.withContext block) a c).1 = (block.run a c.manager).1 ∧
      (exec (ManagerOp.withContext block) a c).2.manager =
        (block.run a c.manager).2) := by
  rcases c with ⟨m, _ | _⟩
  · cases hdelivery : a.delivery <;>
      simp [exec, NotRun, RunInVain, hdelivery]
  · simp [exec, NotRun, RunInVain]

section Rules

variable {alpha : Type} {Q : alpha -> Coroutine -> Prop} {c : Coroutine}

theorem withContext_rule {block : Block}
    {next : Except Failure block.Result -> ManagerProgram alpha}
    (hnotRun : forall a c', NotRun a c -> c'.manager = c.manager ->
      Undisturbed (ManagerOp.withContext block) a c ->
      Program.EnsuresWhen exec Undisturbed
        (next (Except.error a.cancellation)) Q c')
    (hvain : forall a c', RunInVain a c ->
      c'.manager = (block.run a c.manager).2 ->
      Undisturbed (ManagerOp.withContext block) a c ->
      Program.EnsuresWhen exec Undisturbed
        (next (Except.error a.cancellation)) Q c')
    (hreturned : forall a c', c'.manager = (block.run a c.manager).2 ->
      Program.EnsuresWhen exec Undisturbed
        (next (block.run a c.manager).1) Q c') :
    Program.EnsuresWhen exec Undisturbed
      (Program.perform (ManagerOp.withContext block) next) Q c := by
  rw [Program.ensuresWhen_perform]
  intro a ha
  rcases exec_withContext block a c with
    ⟨hcase, hresult, hm⟩ | ⟨hcase, hresult, hm⟩ | ⟨_, _, hresult, hm⟩
  · rw [hresult]
    exact hnotRun a _ hcase hm ha
  · rw [hresult]
    exact hvain a _ hcase hm ha
  · rw [hresult]
    exact hreturned a _ hm

def Block.onDisk : Block -> Bool
  | Block.unload => false
  | Block.load _ => false
  | _ => true

theorem run_onDisk {block : Block} (hblock : block.onDisk = true) (a : Answer)
    (m : Manager) : SameModel m (block.run a m).2 := by
  cases block with
  | unload => cases hblock
  | load request => cases hblock
  | _ => exact ⟨rfl, rfl, rfl, rfl⟩

theorem onDisk_rule {block : Block} (hblock : block.onDisk = true)
    {next : Except Failure block.Result -> ManagerProgram alpha}
    (h : forall r c', SameModel c.manager c'.manager ->
      (forall v, r = Except.ok v ->
        exists a, (block.run a c.manager).1 = Except.ok v) ->
      Program.EnsuresWhen exec Undisturbed (next r) Q c') :
    Program.EnsuresWhen exec Undisturbed
      (Program.perform (ManagerOp.withContext block) next) Q c := by
  refine withContext_rule ?_ ?_ ?_
  · intro a c' _ hm _
    refine h _ c' ?_ (by intro v hv; cases hv)
    rw [hm]
    exact SameModel.refl _
  · intro a c' _ hm _
    refine h _ c' ?_ (by intro v hv; cases hv)
    rw [hm]
    exact run_onDisk hblock a _
  · intro a c' hm
    refine h _ c' ?_ (fun v hv => ⟨a, hv⟩)
    rw [hm]
    exact run_onDisk hblock a _

end Rules

/-!
# The ladder
-/

theorem unload_threadLocalState (w : Wrapper) :
    w.unload.threadLocalState = LLamaAndroid.State.Idle := by
  unfold Wrapper.unload
  split
  · rfl
  · assumption

theorem run_unload (a : Answer) (m : Manager) :
    (Block.unload.run a m).2.loadedFile = none ∧
      (Block.unload.run a m).2.state = m.state ∧
      (Block.unload.run a m).2.backend = m.backend ∧
      (Block.unload.run a m).2.modelStore = m.modelStore := by
  refine ⟨?_, rfl, rfl, rfl⟩
  simp [Block.run, Manager.setLlama, Manager.loadedFile, unload_threadLocalState]

theorem threadLocalState_of_loadedFile {m : Manager} (hm : m.loadedFile = none) :
    m.llama.threadLocalState = LLamaAndroid.State.Idle := by
  rcases hstate : m.llama.threadLocalState with _ | h
  · rfl
  · simp [Manager.loadedFile, hstate] at hm

theorem run_unload_idle (a : Answer) {m : Manager} (hm : m.loadedFile = none) :
    SameModel m (Block.unload.run a m).2 := by
  refine ⟨rfl, rfl, rfl, ?_⟩
  simp [Block.run, Manager.setLlama, Wrapper.unload,
    threadLocalState_of_loadedFile hm]

theorem run_load {m : Manager} (hm : m.loadedFile = none) (request : LoadRequest)
    (a : Answer) :
    (if a.load.opens then
      ((Block.load request).run a m).1 = Except.ok () ∧
        ((Block.load request).run a m).2.loadedFile = some request.pathToModel
    else
      (exists e, ((Block.load request).run a m).1 = Except.error e) ∧
        ((Block.load request).run a m).2.loadedFile = none) ∧
    ((Block.load request).run a m).2.state = m.state ∧
    ((Block.load request).run a m).2.modelStore = m.modelStore := by
  rcases Wrapper.load_spec (threadLocalState_of_loadedFile hm) request a.load
    with ⟨_, _, hresult⟩
  refine ⟨?_, rfl, rfl⟩
  split at hresult
  · rename_i hopens
    rw [if_pos hopens]
    rcases hresult with ⟨hok, hloaded, _⟩
    simp [Block.run, Manager.setLlama, Manager.loadedFile, hok, hloaded,
      nextLoaded, Except.mapError]
  · rename_i hopens
    rw [if_neg hopens]
    rcases hresult with ⟨⟨e, he⟩, hidle⟩
    simp [Block.run, Manager.setLlama, Manager.loadedFile, he, hidle,
      Except.mapError]

structure Running (path displayName fileName : Text) (m : Manager) : Prop where
  state : exists detail, m.state = State.Ready displayName detail (some fileName)
  backend : m.backend = some displayName
  native : m.loadedFile = some path

structure Emptied (m : Manager) : Prop where
  backend : m.backend = none
  native : m.loadedFile = none

def Outcome (path displayName fileName : Text) (c : Coroutine) :
    Option Failure -> Coroutine -> Prop
  | none, c' => Running path displayName fileName c'.manager ∧
      c'.manager.modelStore = c.manager.modelStore
  | some _, c' => Emptied c'.manager ∧ c'.manager.state = c.manager.state ∧
      c'.manager.modelStore = c.manager.modelStore

section Ladder

variable {path displayName fileName : Text} {c : Coroutine}

theorem attemptFailed_ensures (e : Failure) {c' : Coroutine}
    (hnative : c'.manager.loadedFile = none)
    (hstate : c'.manager.state = c.manager.state)
    (hstore : c'.manager.modelStore = c.manager.modelStore) :
    Program.EnsuresWhen exec Undisturbed (attemptFailed e)
      (Outcome path displayName fileName c) c' := by
  simp only [attemptFailed, assign, Program.operation_bind,
    Program.ensuresWhen_perform, exec, Program.pure_eq,
    Program.ensuresWhen_done]
  intro _ _ _ _
  exact ⟨⟨rfl, hnative⟩, hstate, hstore⟩

theorem loadRung_ensures (gpuLayers : Int) (settings : Settings)
    {c' : Coroutine} (hnative : c'.manager.loadedFile = none)
    (hstate : c'.manager.state = c.manager.state)
    (hstore : c'.manager.modelStore = c.manager.modelStore) :
    Program.EnsuresWhen exec Undisturbed
      (loadRung path displayName fileName gpuLayers settings)
      (Outcome path displayName fileName c) c' := by
  simp only [loadRung, withContext, Program.operation_bind]
  refine withContext_rule ?_ ?_ ?_
  · intro a c'' _ hm _
    exact attemptFailed_ensures _ (by rw [hm, hnative]) (by rw [hm, hstate])
      (by rw [hm, hstore])
  · intro a c'' hcase hm ha
    rcases run_load hnative (loadRequest path gpuLayers settings) a with
      ⟨hload, hstate', hstore'⟩
    rw [if_neg fun hopens => ha hopens hcase] at hload
    exact attemptFailed_ensures _ (by rw [hm, hload.right])
      (by rw [hm, hstate', hstate]) (by rw [hm, hstore', hstore])
  · intro a c'' hm
    rcases run_load hnative (loadRequest path gpuLayers settings) a with
      ⟨hload, hstate', hstore'⟩
    rw [← hm] at hload hstate' hstore'
    split at hload
    · rw [hload.left]
      simp only [assign, Program.operation_bind, Program.ensuresWhen_perform,
        exec, Program.pure_eq, Program.ensuresWhen_done]
      intro _ _ _ _ _ _
      exact ⟨⟨⟨_, rfl⟩, rfl, hload.right⟩, hstore'.trans hstore⟩
    · rcases hload with ⟨⟨e, he⟩, hidle⟩
      rw [he]
      exact attemptFailed_ensures _ hidle (hstate'.trans hstate)
        (hstore'.trans hstore)

theorem attemptLoad_ensures (hloading : c.manager.isLoading = true)
    (gpuLayers : Int) :
    Program.EnsuresWhen exec Undisturbed
      (attemptLoad path displayName fileName gpuLayers)
      (Outcome path displayName fileName c) c := by
  simp only [attemptLoad, withContext, Program.operation_bind]
  refine withContext_rule ?_ ?_ ?_
  · intro a c' hcase hm ha
    refine attemptFailed_ensures _ ?_ (by rw [hm]) (by rw [hm])
    rw [hm]
    by_contra hloaded
    have hrun := ha hloaded
    rw [if_pos hloading] at hrun
    exact hrun hcase
  · intro a c' _ hm _
    rcases run_unload a c.manager with ⟨hnative, hstate, _, hstore⟩
    exact attemptFailed_ensures _ (by rw [hm, hnative]) (by rw [hm, hstate])
      (by rw [hm, hstore])
  · intro a c' hm
    rcases run_unload a c.manager with ⟨hnative, hstate, _, hstore⟩
    rw [← hm] at hnative hstate hstore
    simp only [Block.run, assign, read, Program.operation_bind,
      Program.ensuresWhen_perform, exec]
    intro _ _ _ _ _ _
    exact loadRung_ensures gpuLayers _ hnative hstate hstore

theorem climb_ensures (ladder : List Int) {lastFailure : Option Failure}
    (hloading : c.manager.isLoading = true)
    (hlast : ladder = [] -> Outcome path displayName fileName c lastFailure c) :
    Program.EnsuresWhen exec Undisturbed
      (climb path displayName fileName ladder lastFailure)
      (Outcome path displayName fileName c) c := by
  induction ladder generalizing c lastFailure with
  | nil => exact (Program.ensuresWhen_done _).mpr (hlast rfl)
  | cons layers rest ih =>
      refine Program.ensuresWhen_bind (Program.ensuresWhen_mono
        (attemptLoad_ensures hloading layers) ?_)
      intro result c' hc'
      rcases result with _ | e
      · exact (Program.ensuresWhen_done _).mpr hc'
      · rcases hc' with ⟨hempty, hstate, hstore⟩
        have hloading' : c'.manager.isLoading = true := by
          rw [Manager.isLoading, hstate]
          exact hloading
        refine Program.ensuresWhen_mono
          (ih hloading' fun _ => ⟨hempty, rfl, rfl⟩) ?_
        intro result c'' h
        rcases result with _ | e'
        · exact ⟨h.left, h.right.trans hstore⟩
        · exact ⟨h.left, h.right.left.trans hstate, h.right.right.trans hstore⟩

inductive Settled (path displayName fileName : Text)
    (modelStore : Option ModelDescriptor) (m : Manager) : Prop where
  | loaded (hm : Running path displayName fileName m)
      (hstore : m.modelStore = modelStore)
  | failed (hm : Emptied m) (hstate : exists message, m.state = State.Error message)

theorem ladder_ne_nil (g : GpuGuard) :
    (if g.layersToOffload.1 ≤ 0 then [0] else gpuLayerLadder) ≠ [] := by
  split
  · exact List.cons_ne_nil _ _
  · exact List.cons_ne_nil _ _

theorem loadIntoContext_ensures (path displayName fileName : Text)
    (c : Coroutine) :
    Program.EnsuresWhen exec Undisturbed
      (loadIntoContext path displayName fileName)
      (fun _ c' => Settled path displayName fileName c.manager.modelStore
        c'.manager) c := by
  simp only [loadIntoContext, refreshInstalled, assign, read,
    Program.operation_bind, Program.ensuresWhen_perform, exec]
  intro _ _ _ _ _ _ _ _
  refine Program.ensuresWhen_bind (Program.ensuresWhen_mono
    (climb_ensures _ rfl ?_) ?_)
  · exact fun hladder => absurd hladder (ladder_ne_nil _)
  · intro result c' hc'
    rcases result with _ | e
    · exact (Program.ensuresWhen_done _).mpr
        (Settled.loaded hc'.left hc'.right)
    · simp only [Program.operation, Program.ensuresWhen_perform, exec,
        Program.ensuresWhen_done]
      intro _ _
      exact Settled.failed ⟨hc'.left.backend, hc'.left.native⟩ ⟨_, rfl⟩

end Ladder

/-!
# Operations
-/

theorem Coherent.not_isLoading {m : Manager} (hm : Coherent m) :
    m.isLoading = false := by
  rcases hm.settled with hstate | ⟨_, hstate⟩ | ⟨_, _, _, hstate⟩ <;>
    rw [Manager.isLoading, hstate]

def EndsCoherent {alpha : Type} (p : ManagerProgram alpha) (c : Coroutine) : Prop :=
  Program.EnsuresWhen exec Undisturbed p (fun _ c' => Coherent c'.manager) c

theorem endsCoherent_bind {alpha beta : Type} {p : ManagerProgram alpha}
    {f : alpha -> ManagerProgram beta} {c : Coroutine} (hp : EndsCoherent p c)
    (hf : forall a c', Coherent c'.manager -> EndsCoherent (f a) c') :
    EndsCoherent (p >>= f) c :=
  Program.ensuresWhen_bind (Program.ensuresWhen_mono hp hf)

theorem endsCoherent_pure {alpha : Type} (a : alpha) {c : Coroutine}
    (hc : Coherent c.manager) : EndsCoherent (pure a) c :=
  (Program.ensuresWhen_done a).mpr hc

theorem endsCoherent_assign {f : Manager -> Manager}
    (hf : forall m, SameModel m (f m)) {c : Coroutine} (hc : Coherent c.manager) :
    EndsCoherent (assign f) c := by
  simp only [EndsCoherent, assign, Program.operation,
    Program.ensuresWhen_perform, exec, Program.ensuresWhen_done]
  intro _ _
  exact (hf c.manager).coherent hc

theorem endsCoherent_refreshInstalled {c : Coroutine} (hc : Coherent c.manager) :
    EndsCoherent refreshInstalled c := by
  refine endsCoherent_assign (f := Manager.refreshInstalled) ?_ hc
  exact fun _ => ⟨rfl, rfl, rfl, rfl⟩

theorem endsCoherent_setTransfer (transfer : TransferState) {c : Coroutine}
    (hc : Coherent c.manager) :
    EndsCoherent (assign (Manager.setTransfer transfer)) c := by
  refine endsCoherent_assign (f := Manager.setTransfer transfer) ?_ hc
  exact fun _ => ⟨rfl, rfl, rfl, rfl⟩

theorem Running.coherent {displayName fileName : Text} {m : Manager}
    (hm : Running (fileFor fileName) displayName fileName m)
    (hstore : m.modelStore.map ModelDescriptor.fileName = some fileName) :
    Coherent m := by
  rcases hm.state with ⟨detail, hstate⟩
  have hready : m.readyFile = some fileName := by
    rw [Manager.readyFile, hstate]
  refine ⟨Or.inr (Or.inr ⟨_, _, _, hstate⟩), ?_, ?_, ?_⟩
  · rw [hready]
    exact hm.native
  · rw [hready, hm.backend]
    rfl
  · intro file hfile
    rw [hready] at hfile
    rw [← hfile]
    exact hstore

theorem Emptied.coherent {m : Manager} (hm : Emptied m)
    (hstate : m.state = State.NotLoaded ∨ exists message,
      m.state = State.Error message) : Coherent m := by
  have hready : m.readyFile = none := by
    rcases hstate with hstate | ⟨_, hstate⟩ <;> rw [Manager.readyFile, hstate]
  refine ⟨?_, ?_, ?_, ?_⟩
  · rcases hstate with hstate | hstate
    · exact Or.inl hstate
    · exact Or.inr (Or.inl hstate)
  · rw [hready]
    exact hm.native
  · rw [hready, hm.backend]
  · intro file hfile
    rw [hready] at hfile
    cases hfile

theorem saveIfReady_coherent {displayName : Text} (descriptor : ModelDescriptor)
    {modelStore : Option ModelDescriptor} {c : Coroutine}
    (hc : Settled (fileFor descriptor.fileName) displayName descriptor.fileName
      modelStore c.manager) : EndsCoherent (saveIfReady descriptor) c := by
  simp only [EndsCoherent, saveIfReady, read, Program.operation_bind,
    Program.ensuresWhen_perform, exec]
  intro _ _
  cases hc with
  | loaded hm _ =>
      rcases hm.state with ⟨detail, hstate⟩
      rw [hstate]
      simp only [assign, Program.operation, Program.ensuresWhen_perform, exec,
        Program.ensuresWhen_done]
      intro _ _
      exact Running.coherent ⟨hm.state, hm.backend, hm.native⟩ rfl
  | failed hm hstate =>
      have hcoherent := hm.coherent (Or.inr hstate)
      rcases hstate with ⟨message, hstate⟩
      rw [hstate]
      exact (Program.ensuresWhen_done _).mpr hcoherent

theorem activate_coherent {path fileName : Text} (hpath : path = fileFor fileName)
    (displayName : Text) (source : ModelSource) (sizeBytes : Nat) (c : Coroutine) :
    EndsCoherent (activate path displayName fileName source sizeBytes) c := by
  rw [hpath]
  refine Program.ensuresWhen_bind (Program.ensuresWhen_mono
    (loadIntoContext_ensures _ _ _ _) ?_)
  intro _ c' hc'
  apply endsCoherent_bind (saveIfReady_coherent _ hc')
  exact fun _ c'' hc'' => endsCoherent_refreshInstalled hc''

theorem selectInstalled_coherent (fileName : Text) {c : Coroutine}
    (hc : Coherent c.manager) : EndsCoherent (selectInstalled fileName) c := by
  simp only [EndsCoherent, selectInstalled, read, Program.operation_bind,
    Program.ensuresWhen_perform, exec]
  intro _ _
  refine Program.ensuresWhen_ite (fun _ => ?_) (fun _ => ?_)
  · exact endsCoherent_refreshInstalled hc
  · refine Program.ensuresWhen_ite (fun _ => ?_) (fun _ => ?_)
    · exact endsCoherent_pure () hc
    · refine Program.ensuresWhen_bind (Program.ensuresWhen_mono
        (loadIntoContext_ensures _ _ _ _) ?_)
      intro _ c' hc'
      simp only [Program.ensuresWhen_perform, exec]
      intro _ _
      apply endsCoherent_bind (saveIfReady_coherent _ hc')
      exact fun _ c'' hc'' => endsCoherent_refreshInstalled hc''

/-- The stored file of a model that is ready must still be there. -/
theorem loadActiveModelIfPresent_coherent {c : Coroutine}
    (hc : Coherent c.manager)
    (hfile : forall file, c.manager.readyFile = some file ->
      c.manager.modelStorage.present (fileFor file) = true) :
    EndsCoherent loadActiveModelIfPresent c := by
  simp only [EndsCoherent, loadActiveModelIfPresent, read,
    Program.operation_bind, Program.ensuresWhen_perform, exec]
  intro _ _
  split
  · exact endsCoherent_refreshInstalled hc
  · rename_i descriptor hdescriptor
    refine Program.ensuresWhen_ite (fun _ => ?_) (fun habsent => ?_)
    · refine Program.ensuresWhen_bind (Program.ensuresWhen_mono
        (loadIntoContext_ensures _ _ _ _) ?_)
      intro _ c' hc'
      apply endsCoherent_refreshInstalled
      cases hc' with
      | loaded hm hstore =>
          apply hm.coherent
          rw [hstore, hdescriptor]
          rfl
      | failed hm hstate => exact hm.coherent (Or.inr hstate)
    · have hready : c.manager.readyFile = none := by
        rcases hready : c.manager.readyFile with _ | file
        · rfl
        · have hstored := hc.stored file hready
          rw [hdescriptor] at hstored
          cases hstored
          exact absurd (hfile _ hready) habsent
      simp only [assign, Program.operation_bind, Program.ensuresWhen_perform,
        exec]
      intro _ _
      refine endsCoherent_refreshInstalled ⟨hc.settled, hc.native, hc.backend, ?_⟩
      intro file h
      exact absurd (hready.symm.trans h) (by simp)

theorem deleteFile_coherent (fileName : Text) {c : Coroutine}
    (hc : Coherent c.manager) : EndsCoherent (deleteFile fileName) c := by
  simp only [EndsCoherent, deleteFile, withContext, Program.operation_bind]
  refine onDisk_rule rfl ?_
  intro result c' hsame _
  rcases result with e | _
  · exact endsCoherent_pure _ (hsame.coherent hc)
  · refine endsCoherent_bind
      (endsCoherent_refreshInstalled (hsame.coherent hc)) ?_
    exact fun _ c'' hc'' => endsCoherent_pure _ hc''

theorem unloadCurrent_coherent {next : ManagerProgram (Option Failure)}
    {c : Coroutine} (hc : Coherent c.manager)
    (hnext : forall c', Coherent c'.manager -> EndsCoherent next c') :
    EndsCoherent (do
      match ← withContext Block.unload with
      | Except.error e => pure (some e)
      | Except.ok () =>
          forgetActive
          next) c := by
  simp only [EndsCoherent, withContext, Program.operation_bind]
  refine withContext_rule ?_ ?_ ?_
  · intro a c' _ hm _
    apply endsCoherent_pure _
    rw [hm]
    exact hc
  · intro a c' hcase hm ha
    apply endsCoherent_pure _
    have hidle : c.manager.loadedFile = none := by
      by_contra hloaded
      have hrun := ha hloaded
      rw [if_neg (by rw [hc.not_isLoading]; exact Bool.false_ne_true)] at hrun
      exact hrun hcase
    rw [hm]
    exact (run_unload_idle a hidle).coherent hc
  · intro a c' hm
    rcases run_unload a c.manager with ⟨hnative, _⟩
    rw [← hm] at hnative
    simp only [Block.run, forgetActive, assign, Program.operation,
      Program.perform_bind, Program.done_bind, Program.ensuresWhen_perform, exec]
    intro _ _ _ _ _ _
    exact hnext _ (Emptied.coherent ⟨rfl, hnative⟩ (Or.inl rfl))

theorem deleteInstalled_coherent (fileName : Text) {c : Coroutine}
    (hc : Coherent c.manager) : EndsCoherent (deleteInstalled fileName) c := by
  simp only [EndsCoherent, deleteInstalled, read, Program.operation_bind,
    Program.ensuresWhen_perform, exec]
  intro _ _
  refine Program.ensuresWhen_ite (fun _ => ?_) (fun _ => ?_)
  · exact unloadCurrent_coherent hc fun c' hc' => deleteFile_coherent fileName hc'
  · exact deleteFile_coherent fileName hc

theorem unload_coherent {c : Coroutine} (hc : Coherent c.manager) :
    EndsCoherent unload c := by
  refine unloadCurrent_coherent hc fun c' hc' => ?_
  apply endsCoherent_bind (endsCoherent_refreshInstalled hc')
  exact fun _ c'' hc'' => endsCoherent_pure none hc''

theorem ok_of_mapError {epsilon alpha : Type} {f : epsilon -> Failure}
    {r : Except epsilon alpha} {v : alpha} (h : r.mapError f = Except.ok v) :
    r = Except.ok v := by
  cases r with
  | error e => cases h
  | ok w =>
      cases h
      rfl

theorem run_importFrom_ok {a : Answer} {m : Manager} {source : Bytes}
    {name file : Text}
    (h : ((Block.importFrom source name).run a m).1 = Except.ok file) :
    file = fileFor file := by
  rw [importFrom_ok (ok_of_mapError h), fileFor_fileFor]

theorem run_finalize_ok {a : Answer} {m : Manager} {temp name file : Text}
    (h : ((Block.finalize temp name).run a m).1 = Except.ok file) :
    file = fileFor file := by
  rw [promote_ok (ok_of_mapError h), fileFor_fileFor]

theorem importModel_coherent (input : Bytes) (fileName displayName : Text)
    {c : Coroutine} (hc : Coherent c.manager) :
    EndsCoherent (importModel input fileName displayName) c := by
  refine endsCoherent_bind (endsCoherent_setTransfer _ hc) fun _ c' hc' => ?_
  simp only [EndsCoherent, withContext, Program.operation_bind]
  refine onDisk_rule rfl ?_
  intro result c'' hsame hfile
  rcases result with e | file
  · exact endsCoherent_setTransfer _ (hsame.coherent hc')
  · refine endsCoherent_bind
      (endsCoherent_setTransfer _ (hsame.coherent hc')) fun _ c3 _ => ?_
    simp only [EndsCoherent, read, Program.operation_bind,
      Program.ensuresWhen_perform, exec]
    intro _ _
    rcases hfile file rfl with ⟨a, ha⟩
    exact activate_coherent (run_importFrom_ok ha) _ _ _ _

theorem downloadCancelled_coherent (temp : Text) (e : Failure) {c : Coroutine}
    (hc : Coherent c.manager) : EndsCoherent (downloadCancelled temp e) c := by
  simp only [EndsCoherent, downloadCancelled, nonCancellable,
    Program.operation_bind, Program.ensuresWhen_perform, exec]
  intro a _
  refine endsCoherent_bind (endsCoherent_setTransfer _ ?_)
    fun _ c' hc' => endsCoherent_pure _ hc'
  exact (run_onDisk rfl a c.manager).coherent hc

theorem mirrorFailed_coherent (temp : Text) (e : Failure) {c : Coroutine}
    (hc : Coherent c.manager) : EndsCoherent (mirrorFailed temp e) c := by
  refine Program.ensuresWhen_ite (fun _ => ?_) (fun _ => ?_)
  · exact downloadCancelled_coherent temp e hc
  · simp only [withContext, Program.operation_bind]
    refine onDisk_rule rfl ?_
    intro result c' hsame _
    rcases result with e' | _
    · exact endsCoherent_pure _ (hsame.coherent hc)
    · exact endsCoherent_pure _ (hsame.coherent hc)

theorem tryMirror_coherent (spec : ModelSpec) (temp url : Text) {c : Coroutine}
    (hc : Coherent c.manager) : EndsCoherent (tryMirror spec temp url) c := by
  simp only [EndsCoherent, tryMirror, withContext, Program.operation_bind]
  refine onDisk_rule rfl ?_
  intro result c' hsame _
  rcases result with e | _
  · exact mirrorFailed_coherent temp e (hsame.coherent hc)
  · have hc' := hsame.coherent hc
    simp only [read, Program.operation_bind, Program.ensuresWhen_perform, exec]
    intro _ _
    refine Program.ensuresWhen_ite (fun _ => ?_) (fun _ => ?_)
    · exact mirrorFailed_coherent temp _ hc'
    · refine onDisk_rule rfl ?_
      intro result c'' hsame' hfile
      rcases result with e | file
      · exact mirrorFailed_coherent temp e (hsame'.coherent hc')
      · refine endsCoherent_bind
          (endsCoherent_setTransfer _ (hsame'.coherent hc')) fun _ c3 _ => ?_
        simp only [EndsCoherent, Program.ensuresWhen_perform, exec]
        intro _ _
        rcases hfile file rfl with ⟨a, ha⟩
        exact endsCoherent_bind (activate_coherent (run_finalize_ok ha) _ _ _ _)
          fun _ c4 hc4 => endsCoherent_pure _ hc4

theorem tryMirrors_coherent (spec : ModelSpec) (temp : Text) (urls : List Text)
    (lastError : Option Text) {c : Coroutine} (hc : Coherent c.manager) :
    EndsCoherent (tryMirrors spec temp urls lastError) c := by
  induction urls generalizing c lastError with
  | nil =>
      exact endsCoherent_bind (endsCoherent_setTransfer _ hc)
        fun _ c' hc' => endsCoherent_pure none hc'
  | cons url rest ih =>
      apply endsCoherent_bind (tryMirror_coherent spec temp url hc)
      intro result c' hc'
      rcases result with _ | e | message
      · exact endsCoherent_pure none hc'
      · exact endsCoherent_pure (some e) hc'
      · exact ih message hc'

theorem downloadModel_coherent (spec : ModelSpec) {c : Coroutine}
    (hc : Coherent c.manager) : EndsCoherent (downloadModel spec) c :=
  endsCoherent_bind (endsCoherent_setTransfer _ hc)
    fun _ _ hc' => tryMirrors_coherent spec _ spec.urls none hc'

theorem clearTransfer_coherent {c : Coroutine} (hc : Coherent c.manager) :
    EndsCoherent clearTransfer c := by
  simp only [EndsCoherent, clearTransfer, read, Program.operation_bind,
    Program.ensuresWhen_perform, exec]
  intro _ _
  split
  · exact endsCoherent_setTransfer _ hc
  · exact endsCoherent_pure () hc

/-!
# Steps
-/

/-- At every suspension of the operation, and where the operation looks at the
file of the active model. -/
def Meets (m : Manager) (e : Event) : Prop :=
  Program.Along exec Undisturbed e.operation.program e.answers { manager := m } ∧
    (e.operation = Operation.loadActiveModelIfPresent ->
      forall file, m.readyFile = some file ->
        m.modelStorage.present (fileFor file) = true)

theorem program_coherent {m : Manager} {e : Event} (hm : Coherent m)
    (hfile : e.operation = Operation.loadActiveModelIfPresent ->
      forall file, m.readyFile = some file ->
        m.modelStorage.present (fileFor file) = true) :
    EndsCoherent e.operation.program { manager := m } := by
  rcases e with ⟨operation, answers⟩
  cases operation with
  | loadActiveModelIfPresent =>
      exact loadActiveModelIfPresent_coherent hm (hfile rfl)
  | selectInstalled fileName => exact selectInstalled_coherent fileName hm
  | deleteInstalled fileName =>
      exact endsCoherent_bind (deleteInstalled_coherent fileName hm)
        fun _ _ hc => endsCoherent_pure () hc
  | importModel input fileName displayName =>
      exact importModel_coherent input fileName displayName hm
  | downloadModel spec =>
      exact endsCoherent_bind (downloadModel_coherent spec hm)
        fun _ _ hc => endsCoherent_pure () hc
  | unload =>
      exact endsCoherent_bind (unload_coherent hm)
        fun _ _ hc => endsCoherent_pure () hc
  | clearTransfer => exact clearTransfer_coherent hm
  | setGpuEnabled enabled =>
      refine endsCoherent_assign (c := { manager := m }) ?_ hm
      exact fun _ => ⟨rfl, rfl, rfl, rfl⟩
  | setContextTokens tokens =>
      refine endsCoherent_assign (c := { manager := m }) ?_ hm
      exact fun _ => ⟨rfl, rfl, rfl, rfl⟩
  | setThreadCount count =>
      refine endsCoherent_assign (c := { manager := m }) ?_ hm
      exact fun _ => ⟨rfl, rfl, rfl, rfl⟩

theorem step_coherent {m : Manager} {e : Event} (hm : Coherent m)
    (he : Meets m e) : Coherent (step m e) :=
  program_coherent hm he.right e.answers he.left

end ModelManager
end DomainAI
