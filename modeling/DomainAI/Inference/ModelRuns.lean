import DomainAI.Inference.ModelLifecycle
import DomainAI.Library.Run

/-!
# Runs of the model manager

What the operations keep one by one holds after every sequence of them.  That
no native context is left behind does not depend on any cancellation.
-/

namespace DomainAI
namespace ModelManager

open Library LLamaAndroid ModelStorage

/-!
# Contexts
-/

/-- No load that is run fails after its context was created. -/
def LeakFree : ManagerOp -> Answer -> Coroutine -> Prop
  | ManagerOp.withContext (Block.load _), a, c =>
      ¬ NotRun a c -> a.load.leaksContext = false
  | ManagerOp.nonCancellable (Block.load _), a, _ => a.load.leaksContext = false
  | _, _, _ => True

instance decidableLeakFree :
    (o : ManagerOp) -> (a : Answer) -> (c : Coroutine) -> Decidable (LeakFree o a c)
  | ManagerOp.withContext (Block.load _), a, c =>
      inferInstanceAs (Decidable (¬ NotRun a c -> a.load.leaksContext = false))
  | ManagerOp.nonCancellable (Block.load _), a, _ =>
      inferInstanceAs (Decidable (a.load.leaksContext = false))
  | ManagerOp.withContext Block.unload, _, _ => isTrue trivial
  | ManagerOp.withContext (Block.importFrom _ _), _, _ => isTrue trivial
  | ManagerOp.withContext (Block.finalize _ _), _, _ => isTrue trivial
  | ManagerOp.withContext (Block.delete _), _, _ => isTrue trivial
  | ManagerOp.withContext (Block.download _ _ _ _), _, _ => isTrue trivial
  | ManagerOp.nonCancellable Block.unload, _, _ => isTrue trivial
  | ManagerOp.nonCancellable (Block.importFrom _ _), _, _ => isTrue trivial
  | ManagerOp.nonCancellable (Block.finalize _ _), _, _ => isTrue trivial
  | ManagerOp.nonCancellable (Block.delete _), _, _ => isTrue trivial
  | ManagerOp.nonCancellable (Block.download _ _ _ _), _, _ => isTrue trivial
  | ManagerOp.read, _, _ => isTrue trivial
  | ManagerOp.assign _, _, _ => isTrue trivial

def KeepsNative : ManagerOp -> Prop
  | ManagerOp.assign f => forall m, (f m).llama = m.llama
  | _ => True

theorem run_noLeak {m : Manager} (hm : m.llama.NoLeak) {block : Block} {a : Answer}
    (ha : forall request, block = Block.load request ->
      a.load.leaksContext = false) : (block.run a m).2.llama.NoLeak := by
  cases block with
  | unload => exact hm.unload
  | load request => exact hm.load request (ha request rfl)
  | _ => exact hm

theorem exec_noLeak (o : ManagerOp) (a : Answer) (c : Coroutine)
    (hc : c.manager.llama.NoLeak) (hpre : KeepsNative o) (ha : LeakFree o a c) :
    True ∧ (exec o a c).2.manager.llama.NoLeak := by
  refine ⟨trivial, ?_⟩
  cases o with
  | read => exact hc
  | assign f =>
      simp only [exec]
      rw [hpre c.manager]
      exact hc
  | withContext block =>
      rcases exec_withContext block a c with
        ⟨_, _, hm⟩ | ⟨hvain, _, hm⟩ | ⟨hrun, _, _, hm⟩
      · rw [hm]
        exact hc
      · rw [hm]
        apply run_noLeak hc
        intro request heq
        subst heq
        exact ha hvain.ran
      · rw [hm]
        apply run_noLeak hc
        intro request heq
        subst heq
        exact ha hrun
  | nonCancellable block =>
      apply run_noLeak hc
      intro request heq
      subst heq
      exact ha

def AsksOnly {alpha : Type} (p : ManagerProgram alpha) : Prop :=
  Program.Obeys KeepsNative (fun _ _ => True) (fun _ => True) p

section AsksOnly

variable {alpha beta : Type}

theorem asksOnly_pure (a : alpha) : AsksOnly (pure a : ManagerProgram alpha) :=
  trivial

theorem asksOnly_bind {p : ManagerProgram alpha} {f : alpha -> ManagerProgram beta}
    (hp : AsksOnly p) (hf : forall a, AsksOnly (f a)) : AsksOnly (p >>= f) :=
  Program.obeys_bind hp fun a _ => hf a

theorem asksOnly_ite {p : Prop} [Decidable p] {q r : ManagerProgram alpha}
    (hq : AsksOnly q) (hr : AsksOnly r) : AsksOnly (if p then q else r) :=
  Program.obeys_ite (fun _ => hq) (fun _ => hr)

theorem asksOnly_read : AsksOnly read :=
  ⟨trivial, fun _ _ => trivial⟩

theorem asksOnly_assign {f : Manager -> Manager}
    (hf : forall m, (f m).llama = m.llama) : AsksOnly (assign f) :=
  ⟨hf, fun _ _ => trivial⟩

theorem asksOnly_withContext (block : Block) : AsksOnly (withContext block) :=
  ⟨trivial, fun _ _ => trivial⟩

theorem asksOnly_nonCancellable (block : Block) :
    AsksOnly (nonCancellable block) :=
  ⟨trivial, fun _ _ => trivial⟩

theorem asksOnly_refreshInstalled : AsksOnly refreshInstalled :=
  ⟨fun _ => rfl, fun _ _ => trivial⟩

end AsksOnly

inductive RungStep (displayName fileName : Text) : ManagerOp -> Prop where
  | read : RungStep displayName fileName ManagerOp.read
  | unload : RungStep displayName fileName (ManagerOp.withContext Block.unload)
  | load (request : LoadRequest) :
      RungStep displayName fileName (ManagerOp.withContext (Block.load request))
  | setBackend (name : Option Text) :
      RungStep displayName fileName (ManagerOp.assign (Manager.setBackend name))
  | setGpuGuard (f : Manager -> GpuGuard) :
      RungStep displayName fileName (ManagerOp.assign fun m => m.setGpuGuard (f m))
  | ready (detail : Option Text) :
      RungStep displayName fileName (ManagerOp.assign
        (Manager.setState (State.Ready displayName detail (some fileName))))

inductive LoadStep (displayName fileName : Text) : ManagerOp -> Prop where
  | rung {o : ManagerOp} (h : RungStep displayName fileName o) :
      LoadStep displayName fileName o
  | setState (s : State) :
      LoadStep displayName fileName (ManagerOp.assign (Manager.setState s))
  | refreshInstalled :
      LoadStep displayName fileName (ManagerOp.assign Manager.refreshInstalled)

abbrev Takes (steps : ManagerOp -> Prop) {alpha : Type} (p : ManagerProgram alpha) :
    Prop :=
  Program.Obeys steps (fun _ _ => True) (fun _ => True) p

section Takes

variable (path displayName fileName : Text)

theorem attemptFailed_steps (e : Failure) :
    Takes (RungStep displayName fileName) (attemptFailed e) := by
  constructor
  · exact RungStep.setGpuGuard fun m => m.gpuGuard.endAttempt
  · intro _ _
    exact ⟨RungStep.setBackend none, fun _ _ => trivial⟩

theorem loadRung_steps (gpuLayers : Int) (settings : Settings) :
    Takes (RungStep displayName fileName)
      (loadRung path displayName fileName gpuLayers settings) := by
  constructor
  · exact RungStep.load _
  · intro result _
    rcases result with e | _
    · exact attemptFailed_steps displayName fileName e
    · constructor
      · exact RungStep.setGpuGuard fun m => m.gpuGuard.endAttempt
      · intro _ _
        constructor
        · exact RungStep.setBackend _
        · intro _ _
          exact ⟨RungStep.ready _, fun _ _ => trivial⟩

theorem attemptLoad_steps (gpuLayers : Int) :
    Takes (RungStep displayName fileName)
      (attemptLoad path displayName fileName gpuLayers) := by
  constructor
  · exact RungStep.unload
  · intro result _
    rcases result with e | _
    · exact attemptFailed_steps displayName fileName e
    · constructor
      · exact RungStep.setBackend none
      · intro _ _
        constructor
        · exact RungStep.setGpuGuard fun m => m.gpuGuard.beginAttempt gpuLayers
        · intro _ _
          exact ⟨RungStep.read, fun m _ =>
            loadRung_steps path displayName fileName gpuLayers m.settings⟩

theorem climb_steps (ladder : List Int) (lastFailure : Option Failure) :
    Takes (RungStep displayName fileName)
      (climb path displayName fileName ladder lastFailure) := by
  induction ladder generalizing lastFailure with
  | nil => trivial
  | cons layers rest ih =>
      apply Program.obeys_bind (attemptLoad_steps path displayName fileName layers)
      intro result _
      rcases result with _ | e
      · trivial
      · exact ih _

theorem loadIntoContext_steps :
    Takes (LoadStep displayName fileName)
      (loadIntoContext path displayName fileName) := by
  constructor
  · exact LoadStep.setState _
  · intro _ _
    constructor
    · exact LoadStep.refreshInstalled
    · intro _ _
      constructor
      · exact LoadStep.rung RungStep.read
      · intro m _
        constructor
        · exact LoadStep.rung (RungStep.setGpuGuard fun _ => m.gpuGuard.layersToOffload.2)
        · intro _ _
          have hclimb : Takes (LoadStep displayName fileName)
              (climb path displayName fileName
                (if m.gpuGuard.layersToOffload.1 ≤ 0 then [0] else gpuLayerLadder) none) :=
            Program.obeys_mono (fun _ => LoadStep.rung)
              (climb_steps path displayName fileName _ none)
          apply Program.obeys_bind hclimb
          intro result _
          rcases result with _ | e
          · trivial
          · exact ⟨LoadStep.setState _, fun _ _ => trivial⟩

end Takes

def Loads : ManagerOp -> Prop
  | ManagerOp.read => True
  | ManagerOp.assign f =>
      forall m, (f m).llama = m.llama ∧ (f m).modelStorage = m.modelStorage
  | ManagerOp.withContext Block.unload => True
  | ManagerOp.withContext (Block.load _) => True
  | _ => False

def LoadsOnly {alpha : Type} (p : ManagerProgram alpha) : Prop :=
  Program.Obeys Loads (fun _ _ => True) (fun _ => True) p

section LoadsOnly

variable {alpha beta : Type}

theorem loadsOnly_pure (a : alpha) : LoadsOnly (pure a : ManagerProgram alpha) :=
  trivial

theorem loadsOnly_bind {p : ManagerProgram alpha} {f : alpha -> ManagerProgram beta}
    (hp : LoadsOnly p) (hf : forall a, LoadsOnly (f a)) : LoadsOnly (p >>= f) :=
  Program.obeys_bind hp fun a _ => hf a

theorem loadsOnly_read : LoadsOnly read :=
  ⟨trivial, fun _ _ => trivial⟩

theorem loadsOnly_assign {f : Manager -> Manager}
    (hf : forall m, (f m).llama = m.llama ∧ (f m).modelStorage = m.modelStorage) :
    LoadsOnly (assign f) :=
  ⟨hf, fun _ _ => trivial⟩

theorem loadsOnly_refreshInstalled : LoadsOnly refreshInstalled :=
  ⟨fun _ => ⟨rfl, rfl⟩, fun _ _ => trivial⟩

theorem LoadsOnly.asksOnly {p : ManagerProgram alpha} (h : LoadsOnly p) :
    AsksOnly p := by
  apply Program.obeys_mono _ h
  intro o ho
  cases o with
  | assign f => exact fun m => (ho m).left
  | _ => trivial

end LoadsOnly

theorem loadIntoContext_loadsOnly (path displayName fileName : Text) :
    LoadsOnly (loadIntoContext path displayName fileName) := by
  apply Program.obeys_mono _ (loadIntoContext_steps path displayName fileName)
  intro o ho
  cases ho with
  | rung h =>
      cases h with
      | setBackend name => exact fun _ => ⟨rfl, rfl⟩
      | setGpuGuard f => exact fun _ => ⟨rfl, rfl⟩
      | ready detail => exact fun _ => ⟨rfl, rfl⟩
      | _ => trivial
  | setState s => exact fun _ => ⟨rfl, rfl⟩
  | refreshInstalled => exact fun _ => ⟨rfl, rfl⟩

theorem saveIfReady_loadsOnly (descriptor : ModelDescriptor) :
    LoadsOnly (saveIfReady descriptor) := by
  refine loadsOnly_bind loadsOnly_read fun m => ?_
  split
  · exact loadsOnly_assign fun _ => ⟨rfl, rfl⟩
  · exact loadsOnly_pure _

theorem activate_loadsOnly (path displayName fileName : Text) (source : ModelSource)
    (sizeBytes : Nat) :
    LoadsOnly (activate path displayName fileName source sizeBytes) := by
  refine loadsOnly_bind (loadIntoContext_loadsOnly _ _ _) fun _ => ?_
  exact loadsOnly_bind (saveIfReady_loadsOnly _) fun _ => loadsOnly_refreshInstalled

theorem deleteFile_asksOnly (fileName : Text) : AsksOnly (deleteFile fileName) := by
  apply asksOnly_bind (asksOnly_withContext _)
  intro result
  rcases result with e | _
  · exact asksOnly_pure _
  · exact asksOnly_bind asksOnly_refreshInstalled fun _ => asksOnly_pure _

theorem forgetActive_asksOnly : AsksOnly forgetActive := by
  refine asksOnly_bind (asksOnly_assign fun _ => rfl) fun _ => ?_
  refine asksOnly_bind (asksOnly_assign fun _ => rfl) fun _ => ?_
  exact asksOnly_assign fun _ => rfl

theorem mirrorFailed_asksOnly (temp : Text) (e : Failure) :
    AsksOnly (mirrorFailed temp e) := by
  refine asksOnly_ite ?_ ?_
  · refine asksOnly_bind (asksOnly_nonCancellable _) fun _ => ?_
    exact asksOnly_bind (asksOnly_assign fun _ => rfl) fun _ => asksOnly_pure _
  · apply asksOnly_bind (asksOnly_withContext _)
    intro result
    rcases result with e' | _
    · exact asksOnly_pure _
    · exact asksOnly_pure _

theorem tryMirror_asksOnly (spec : ModelSpec) (temp url : Text) :
    AsksOnly (tryMirror spec temp url) := by
  apply asksOnly_bind (asksOnly_withContext _)
  intro result
  rcases result with e | _
  · exact mirrorFailed_asksOnly temp e
  · refine asksOnly_bind asksOnly_read fun m => ?_
    apply asksOnly_ite (mirrorFailed_asksOnly temp _)
    apply asksOnly_bind (asksOnly_withContext _)
    intro result
    rcases result with e | file
    · exact mirrorFailed_asksOnly temp e
    · refine asksOnly_bind (asksOnly_assign fun _ => rfl) fun _ => ?_
      refine asksOnly_bind asksOnly_read fun m => ?_
      exact asksOnly_bind (activate_loadsOnly _ _ _ _ _).asksOnly fun _ => asksOnly_pure _

theorem tryMirrors_asksOnly (spec : ModelSpec) (temp : Text) (urls : List Text)
    (lastError : Option Text) :
    AsksOnly (tryMirrors spec temp urls lastError) := by
  induction urls generalizing lastError with
  | nil =>
      exact asksOnly_bind (asksOnly_assign fun _ => rfl) fun _ => asksOnly_pure _
  | cons url rest ih =>
      apply asksOnly_bind (tryMirror_asksOnly _ _ _)
      intro result
      rcases result with _ | e | message
      · exact asksOnly_pure _
      · exact asksOnly_pure _
      · exact ih _

theorem program_asksOnly (operation : Operation) : AsksOnly operation.program := by
  cases operation with
  | loadActiveModelIfPresent =>
      refine asksOnly_bind asksOnly_read fun m => ?_
      split
      · exact asksOnly_refreshInstalled
      · refine asksOnly_ite ?_ ?_
        · exact asksOnly_bind (loadIntoContext_loadsOnly _ _ _).asksOnly
            fun _ => asksOnly_refreshInstalled
        · exact asksOnly_bind (asksOnly_assign fun _ => rfl)
            fun _ => asksOnly_refreshInstalled
  | selectInstalled fileName =>
      refine asksOnly_bind asksOnly_read fun m => ?_
      refine asksOnly_ite asksOnly_refreshInstalled ?_
      apply asksOnly_ite (asksOnly_pure _)
      refine asksOnly_bind (loadIntoContext_loadsOnly _ _ _).asksOnly fun _ => ?_
      refine asksOnly_bind asksOnly_read fun m => ?_
      exact asksOnly_bind (saveIfReady_loadsOnly _).asksOnly fun _ => asksOnly_refreshInstalled
  | deleteInstalled fileName =>
      refine asksOnly_bind ?_ fun _ => asksOnly_pure _
      refine asksOnly_bind asksOnly_read fun m => ?_
      refine asksOnly_ite ?_ (deleteFile_asksOnly _)
      apply asksOnly_bind (asksOnly_withContext _)
      intro result
      rcases result with e | _
      · exact asksOnly_pure _
      · exact asksOnly_bind forgetActive_asksOnly fun _ => deleteFile_asksOnly _
  | importModel input fileName displayName =>
      refine asksOnly_bind (asksOnly_assign fun _ => rfl) fun _ => ?_
      apply asksOnly_bind (asksOnly_withContext _)
      intro result
      rcases result with e | file
      · exact asksOnly_assign fun _ => rfl
      · refine asksOnly_bind (asksOnly_assign fun _ => rfl) fun _ => ?_
        exact asksOnly_bind asksOnly_read fun m => (activate_loadsOnly _ _ _ _ _).asksOnly
  | downloadModel spec =>
      refine asksOnly_bind ?_ fun _ => asksOnly_pure _
      exact asksOnly_bind (asksOnly_assign fun _ => rfl)
        fun _ => tryMirrors_asksOnly _ _ _ _
  | unload =>
      refine asksOnly_bind ?_ fun _ => asksOnly_pure _
      apply asksOnly_bind (asksOnly_withContext _)
      intro result
      rcases result with e | _
      · exact asksOnly_pure _
      · refine asksOnly_bind forgetActive_asksOnly fun _ => ?_
        exact asksOnly_bind asksOnly_refreshInstalled fun _ => asksOnly_pure _
  | clearTransfer =>
      refine asksOnly_bind asksOnly_read fun m => ?_
      split
      · exact asksOnly_assign fun _ => rfl
      · exact asksOnly_pure _
  | setGpuEnabled enabled => exact asksOnly_assign fun _ => rfl
  | setContextTokens tokens => exact asksOnly_assign fun _ => rfl
  | setThreadCount count => exact asksOnly_assign fun _ => rfl

def Leakless (m : Manager) (e : Event) : Prop :=
  Program.Along exec LeakFree e.operation.program e.answers { manager := m }

instance decidableLeakless (m : Manager) (e : Event) : Decidable (Leakless m e) :=
  Program.decidableAlong _ _ _

theorem step_noLeak {m : Manager} {e : Event} (hm : m.llama.NoLeak)
    (he : Leakless m e) : (step m e).llama.NoLeak :=
  (Program.ensuresWhen_of_obeys (I := fun c => c.manager.llama.NoLeak)
    exec_noLeak (program_asksOnly e.operation) hm e.answers he).right

/-!
# Runs
-/

/-- Whenever the mutex is free, everything speaks of the same model and no other
context lives, as long as no step is disturbed and no load leaks. -/
theorem lifecycle_coherent {modelStore : Option ModelDescriptor}
    {modelStorage : Directory} {gpuGuard : GpuGuard} {settings : Settings}
    {es : List Event} {m : Manager}
    (hrun : runEvents (always step)
      (atStart modelStore modelStorage gpuGuard settings) es = some m) :
    (AllSteps (always step) Meets
        (atStart modelStore modelStorage gpuGuard settings) es -> Coherent m) ∧
      (AllSteps (always step) Leakless
        (atStart modelStore modelStorage gpuGuard settings) es ->
          m.llama.NoLeak) := by
  constructor
  · intro hmeets
    refine runEvents_invariant ?_ (coherent_atStart _ _ _ _) hmeets hrun
    intro s e s' hs he hstep
    cases hstep
    exact step_coherent hs he
  · intro hleakless
    refine runEvents_invariant (I := fun m => m.llama.NoLeak) ?_ noLeak_initial
      hleakless hrun
    intro s e s' hs he hstep
    cases hstep
    exact step_noLeak hs he

def gguf : Bytes := magic ++ [0]

def importGguf : Event where
  operation := Operation.importModel gguf "m.gguf".toList "M".toList
  answers := []

def importToDelete : List Event :=
  [importGguf,
   { operation := Operation.unload, answers := [] },
   { operation := Operation.selectInstalled "m.gguf".toList, answers := [] },
   { operation := Operation.deleteInstalled "m.gguf".toList, answers := [] }]

theorem lifecycle_coherent_importToDelete :
    exists m, runEvents (always step) (atStart none [] {} {}) importToDelete =
        some m ∧ Coherent m ∧ m.llama.NoLeak := by
  refine ⟨_, rfl, ?_⟩
  rcases @lifecycle_coherent none [] {} {} importToDelete _ rfl with
    ⟨hcoherent, hnoLeak⟩
  constructor
  · apply hcoherent
    refine AllSteps.cons ⟨by decide +kernel, by intro h; cases h⟩ rfl ?_
    refine AllSteps.cons ⟨by decide +kernel, by intro h; cases h⟩ rfl ?_
    refine AllSteps.cons ⟨by decide +kernel, by intro h; cases h⟩ rfl ?_
    exact AllSteps.cons ⟨by decide +kernel, by intro h; cases h⟩ rfl trivial
  · apply hnoLeak
    apply AllSteps.cons (by decide +kernel) rfl
    apply AllSteps.cons (by decide +kernel) rfl
    apply AllSteps.cons (by decide +kernel) rfl
    exact AllSteps.cons (by decide +kernel) rfl trivial

def cancelledLoad : Event where
  operation := Operation.downloadModel
    { displayName := "M".toList
      fileName := "m.gguf".toList
      sizeBytes := 5
      urls := ["https://m".toList] }
  answers :=
    [{}, { downloaded := some gguf }] ++ List.replicate 12 {} ++
      [{ delivery := Delivery.cancelledAfter }]

def cancelledReload : Event where
  operation := Operation.loadActiveModelIfPresent
  answers := List.replicate 5 {} ++ [{ delivery := Delivery.cancelledBefore }]

def cancelledUnload : Event where
  operation := Operation.unload
  answers := [{ delivery := Delivery.cancelledAfter }]

def refusedImport : Event where
  operation := importGguf.operation
  answers := [{}, { renameRefused := true }]

def load : Event where
  operation := Operation.loadActiveModelIfPresent
  answers := []

/-- An error is shown while a model is held, a model is shown while none is
held, or a model is shown that is not the stored one. -/
theorem lifecycle_coherent_fails :
    (exists m, runEvents (always step) (atStart none [] {} {})
        [cancelledLoad] = some m ∧ ¬ Coherent m) ∧
    (exists m, runEvents (always step) (atStart none [] {} {})
        [importGguf, cancelledReload] = some m ∧ ¬ Coherent m) ∧
    (exists m, runEvents (always step) (atStart none [] {} {})
        [importGguf, cancelledUnload] = some m ∧ ¬ Coherent m) ∧
    (exists m, runEvents (always step) (atStart none [] {} {})
        [importGguf, refusedImport, load] = some m ∧ ¬ Coherent m) := by
  refine ⟨⟨_, rfl, ?_⟩, ⟨_, rfl, ?_⟩, ⟨_, rfl, ?_⟩, ⟨_, rfl, ?_⟩⟩
  · exact fun h => absurd h.native (by decide +kernel)
  · exact fun h => absurd h.native (by decide +kernel)
  · exact fun h => absurd h.native (by decide +kernel)
  · exact fun h => absurd (h.stored "m.gguf".toList (by decide +kernel))
      (by decide +kernel)

end ModelManager
end DomainAI
