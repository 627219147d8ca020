import DomainAI.Inference.ModelLifecycle
import DomainAI.Library.Interference
import DomainAI.Library.Run

/-!
# Settings in force

The context length and the thread count are read when a model is loaded, and can be changed
at any time, also in the middle of a load.  Every change launches a reload, which waits for
the mutex.
-/

namespace DomainAI
namespace SettingsInForce

open Library Program ModelManager
open LLamaAndroid (Wrapper NativeCall Handle LoadRequest LoadAnswer)

def setChosenTokens (tokens : Int) (s : Settings) : Settings :=
  { s with chosenTokens := max tokens 0 }

def setChosenThreads (count : Int) (s : Settings) : Settings :=
  { s with chosenThreads := max count 0 }

def holdsMutex : Operation -> Bool
  | Operation.loadActiveModelIfPresent => true
  | Operation.selectInstalled _ => true
  | Operation.deleteInstalled _ => true
  | Operation.importModel _ _ _ => true
  | Operation.downloadModel _ => true
  | Operation.unload => true
  | Operation.clearTransfer => false
  | Operation.setGpuEnabled _ => false
  | Operation.setContextTokens _ => false
  | Operation.setThreadCount _ => false

/-- The manager, what the operation that has the mutex has still to do, and how many reloads
wait for it. -/
structure Desk where
  coroutine : Coroutine
  work : Option (ManagerProgram Unit) := none
  reloads : Nat := 0

inductive Event where
  | start (o : Operation)
  | reload
  | proceed (a : Answer)
  | setContextTokens (tokens : Int)
  | setThreadCount (count : Int)
  /-- It may fall between two accesses of a load to the preferences of the guard, so what
  they hold afterwards is left open. -/
  | setGpuEnabled (guard : GpuGuard)
  | clearTransfer

namespace Desk

def manager (s : Desk) : Manager :=
  s.coroutine.manager

def onManager (f : Manager -> Manager) (s : Desk) : Desk :=
  { s with coroutine := { s.coroutine with manager := f s.coroutine.manager } }

/-- `scope.launch { loadActiveModelIfPresent() }`. -/
def launchReload (s : Desk) : Desk :=
  { s with reloads := s.reloads + 1 }

def begin (p : ManagerProgram Unit) (s : Desk) : Desk :=
  { s with coroutine := { manager := s.manager }, work := some p }

end Desk

def step (s : Desk) : Event -> Option Desk
  | Event.start o =>
      if s.work.isNone && holdsMutex o then some (s.begin o.program) else none
  | Event.reload =>
      if s.work.isNone && 0 < s.reloads then
        some { s.begin Operation.loadActiveModelIfPresent.program with
          reloads := s.reloads - 1 }
      else none
  | Event.proceed a =>
      match s.work with
      | none => none
      | some (Program.done _) => some { s with work := none }
      | some (Program.perform o next) =>
          let (result, c) := exec o a s.coroutine
          some { s with coroutine := c, work := some (next result) }
  | Event.setContextTokens tokens =>
      some (s.onManager fun m =>
        m.setSettings (setChosenTokens tokens m.settings)).launchReload
  | Event.setThreadCount count =>
      some (s.onManager fun m =>
        m.setSettings (setChosenThreads count m.settings)).launchReload
  | Event.setGpuEnabled guard =>
      some (s.onManager (Manager.setGpuGuard guard)).launchReload
  | Event.clearTransfer =>
      some (s.onManager fun m =>
        match m.transfer with
        | TransferState.Failed _ _ => m.setTransfer TransferState.Idle
        | _ => m)

/-!
# What a context was opened with
-/

structure Opening where
  nCtx : Int
  nThreads : Int
  affinityCores : List Int
  deriving DecidableEq, Repr

def openingIn (context : Handle) : NativeCall -> Option Opening
  | NativeCall.new_context _ nCtx nThreads affinityCores context' =>
      if context' = context then some ⟨nCtx, nThreads, affinityCores⟩ else none
  | _ => none

def openedWith (calls : List NativeCall) (context : Handle) : Option Opening :=
  calls.reverse.findSome? (openingIn context)

def chosen (s : Settings) : Opening where
  nCtx := s.effectiveContextTokens
  nThreads := s.effectiveThreads
  affinityCores := s.affinity

/-- The model that answers runs with these settings. -/
def InForce (m : Manager) : Prop :=
  m.backend.isSome = true -> forall h,
    m.llama.threadLocalState = LLamaAndroid.State.Loaded h ->
    openedWith m.llama.calls h.context = some (chosen m.settings)

/-- The same for a model that the next launch loads again. -/
def Applied (m : Manager) : Prop :=
  m.modelStore.isSome = true -> InForce m

theorem InForce.applied {m : Manager} (h : InForce m) : Applied m :=
  fun _ => h

theorem inForce_of_none {m : Manager} (h : m.backend = none) : InForce m := by
  intro hsome
  rw [h] at hsome
  cases hsome

theorem InForce.congr {m m' : Manager} (h : InForce m) (hbackend : m'.backend = m.backend)
    (hllama : m'.llama = m.llama) (hsettings : m'.settings = m.settings) : InForce m' := by
  unfold InForce
  rw [hbackend, hllama, hsettings]
  exact h

theorem Applied.congr {m m' : Manager} (h : Applied m) (hbackend : m'.backend = m.backend)
    (hllama : m'.llama = m.llama) (hsettings : m'.settings = m.settings)
    (hstore : m'.modelStore = m.modelStore) : Applied m' := by
  intro hstored
  rw [hstore] at hstored
  exact (h hstored).congr hbackend hllama hsettings

theorem applied_of_idle {m : Manager}
    (h : m.llama.threadLocalState = LLamaAndroid.State.Idle) : Applied m := by
  intro _ _ handles hloaded
  rw [h] at hloaded
  cases hloaded

/-!
# Loads
-/

theorem openedWith_load {w : Wrapper} {request : LoadRequest} {answer : LoadAnswer}
    (hok : (w.load request answer).1 = Except.ok ()) {h : LLamaAndroid.Loaded}
    (hloaded : (w.load request answer).2.threadLocalState = LLamaAndroid.State.Loaded h) :
    openedWith (w.load request answer).2.calls h.context =
      some ⟨request.nCtx, request.nThreads, request.affinityCores⟩ := by
  rcases hstate : w.threadLocalState with _ | handles
  · rcases Wrapper.load_spec hstate request answer with ⟨hcalls, _, hresult⟩
    split at hresult
    · rename_i hopens
      rcases hresult with ⟨_, hnext, _⟩
      rw [hloaded] at hnext
      cases hnext
      rw [hcalls]
      rcases answer with ⟨_ | _, lastError, _ | _, _ | _, _ | _⟩ <;> cases hopens
      simp [LLamaAndroid.loadCalls, openedWith, openingIn, LLamaAndroid.nextLoaded,
        List.findSome?_cons]
    · rcases hresult with ⟨⟨e, he⟩, _⟩
      rw [hok] at he
      cases he
  · rw [Wrapper.load_of_loaded hstate] at hok
    cases hok

section Loads

def Clears (c c' : Coroutine) : Prop :=
  exists transfer, c' = { c with manager := c.manager.setTransfer transfer }

abbrev Ends {alpha : Type} (p : ManagerProgram alpha) (Q : Coroutine -> Prop)
    (c : Coroutine) : Prop :=
  Withstands exec Clears (fun _ _ => True) p (fun _ c' => Q c') c

theorem stable_inForce : Stable Clears fun c => InForce c.manager := by
  rintro c _ ⟨transfer, rfl⟩ hc
  exact hc.congr rfl rfl rfl

theorem stable_applied : Stable Clears fun c => Applied c.manager := by
  rintro c _ ⟨transfer, rfl⟩ hc
  exact hc.congr rfl rfl rfl rfl

def Has (llama : Wrapper) (settings : Settings) (c : Coroutine) : Prop :=
  c.manager.llama = llama ∧ c.manager.settings = settings

theorem stable_has (llama : Wrapper) (settings : Settings) :
    Stable Clears (Has llama settings) := by
  rintro c _ ⟨transfer, rfl⟩ hc
  exact hc

theorem stable_settings (settings : Settings) :
    Stable Clears fun c => c.manager.settings = settings := by
  rintro c _ ⟨transfer, rfl⟩ hc
  exact hc

variable {alpha : Type} {Q : Coroutine -> Prop} {c : Coroutine}

/-- An assertion that holds while the program waits to assign, and what holds afterwards. -/
theorem ends_assign {A : Coroutine -> Prop} (hA : Stable Clears A)
    {f : Manager -> Manager} {next : Unit -> ManagerProgram alpha}
    (hnext : forall c, A c -> Ends (next ()) Q { c with manager := f c.manager })
    (hc : A c) : Ends (Program.perform (ManagerOp.assign f) next) Q c :=
  withstands_perform hA (fun _ _ => trivial) (fun c' _ hc' => hnext c' hc') hc

theorem ends_read {A : Coroutine -> Prop} (hA : Stable Clears A)
    {next : Manager -> ManagerProgram alpha}
    (hnext : forall c, A c -> Ends (next c.manager) Q c) (hc : A c) :
    Ends (Program.perform ManagerOp.read next) Q c :=
  withstands_perform hA (fun _ _ => trivial) (fun c' _ hc' => hnext c' hc') hc

theorem ends_withContext {A : Coroutine -> Prop} (hA : Stable Clears A) {block : Block}
    {next : Except Failure block.Result -> ManagerProgram alpha}
    (hcancelled : forall c a c', A c ->
      c'.manager = c.manager ∨ c'.manager = (block.run a c.manager).2 ->
      Ends (next (Except.error a.cancellation)) Q c')
    (hreturned : forall c a c', A c -> c'.manager = (block.run a c.manager).2 ->
      Ends (next (block.run a c.manager).1) Q c') (hc : A c) :
    Ends (Program.perform (ManagerOp.withContext block) next) Q c := by
  refine withstands_perform hA (fun _ _ => trivial) (fun c a hc => ?_) hc
  rcases exec_withContext block a c with
    ⟨_, hresult, hm⟩ | ⟨_, hresult, hm⟩ | ⟨_, _, hresult, hm⟩
  · rw [hresult]
    exact hcancelled c a _ hc (Or.inl hm)
  · rw [hresult]
    exact hcancelled c a _ hc (Or.inr hm)
  · rw [hresult]
    exact hreturned c a _ hc hm

theorem stable_true : Stable Clears fun _ => True :=
  fun _ _ _ _ => trivial

variable (path displayName fileName : Text)

theorem attemptFailed_inForce (e : Failure) :
    Ends (attemptFailed e) (fun c' => InForce c'.manager) c := by
  simp only [attemptFailed, assign, operation_bind, pure_eq]
  refine ends_assign stable_true (fun c' _ => ?_) trivial
  refine ends_assign stable_true (fun c'' _ => ?_) trivial
  exact withstands_done stable_inForce (inForce_of_none rfl)

theorem loadRung_inForce (gpuLayers : Int) {settings : Settings}
    (hc : c.manager.settings = settings) :
    Ends (loadRung path displayName fileName gpuLayers settings)
      (fun c' => InForce c'.manager) c := by
  simp only [loadRung, ModelManager.withContext, operation_bind]
  refine ends_withContext (stable_settings settings)
    (fun _ a _ _ _ => attemptFailed_inForce _) (fun c a c' hc hc' => ?_) hc
  cases hload : (c.manager.llama.load (loadRequest path gpuLayers settings) a.load).1 with
  | error message =>
      simp only [Block.run, hload, Except.mapError]
      exact attemptFailed_inForce _
  | ok _ =>
      simp only [Block.run, hload, Except.mapError, assign, operation_bind, pure_eq]
      have hhas := stable_has
        (c.manager.llama.load (loadRequest path gpuLayers settings) a.load).2 settings
      have hloaded : Has
          (c.manager.llama.load (loadRequest path gpuLayers settings) a.load).2 settings
          c' := by
        rw [Has, hc']
        exact ⟨rfl, hc⟩
      refine ends_assign hhas (fun c' hc' => ?_) hloaded
      refine ends_assign hhas (fun c' hc' => ?_) hc'
      refine ends_assign hhas (fun c' hc' => ?_) hc'
      refine withstands_done stable_inForce fun _ h hh => ?_
      rcases hc' with ⟨hllama, hsettings⟩
      simp only [Manager.setState] at hh ⊢
      rw [hllama] at hh ⊢
      rw [hsettings]
      exact openedWith_load hload hh

theorem attemptLoad_inForce (gpuLayers : Int) :
    Ends (attemptLoad path displayName fileName gpuLayers)
      (fun c' => InForce c'.manager) c := by
  simp only [attemptLoad, ModelManager.withContext, operation_bind]
  refine ends_withContext stable_true (fun _ _ _ _ _ => attemptFailed_inForce _)
    (fun _ _ _ _ _ => ?_) trivial
  simp only [Block.run, assign, ModelManager.read, operation_bind]
  refine ends_assign stable_true (fun _ _ => ?_) trivial
  refine ends_assign stable_true (fun _ _ => ?_) trivial
  refine ends_read stable_true (fun c' _ => ?_) trivial
  exact loadRung_inForce path displayName fileName gpuLayers rfl

theorem climb_inForce (ladder : List Int) {lastFailure : Option Failure}
    (hlast : ladder = [] -> InForce c.manager) :
    Ends (climb path displayName fileName ladder lastFailure)
      (fun c' => InForce c'.manager) c := by
  induction ladder generalizing c lastFailure with
  | nil => exact withstands_done stable_inForce (hlast rfl)
  | cons layers rest ih =>
      refine withstands_bind (withstands_mono
        (attemptLoad_inForce path displayName fileName layers) ?_)
      intro result c' hc'
      cases result with
      | none => exact withstands_done stable_inForce hc'
      | some e => exact ih fun _ => hc'

theorem loadIntoContext_inForce :
    Ends (loadIntoContext path displayName fileName) (fun c' => InForce c'.manager) c := by
  simp only [loadIntoContext, refreshInstalled, assign, ModelManager.read, operation_bind]
  refine ends_assign stable_true (fun _ _ => ?_) trivial
  refine ends_assign stable_true (fun _ _ => ?_) trivial
  refine ends_read stable_true (fun _ _ => ?_) trivial
  refine ends_assign stable_true (fun _ _ => ?_) trivial
  refine withstands_bind (withstands_mono (climb_inForce path displayName fileName _
    fun hladder => absurd hladder (ladder_ne_nil _)) ?_)
  intro result c' hc'
  cases result with
  | none => exact withstands_done stable_inForce hc'
  | some e =>
      exact ends_assign stable_inForce
        (fun _ hc' => withstands_done stable_inForce (hc'.congr rfl rfl rfl)) hc'

end Loads

/-!
# Operations
-/

def Keeps {alpha : Type} (p : ManagerProgram alpha) : Prop :=
  forall c, Applied c.manager -> Ends p (fun c' => Applied c'.manager) c

def Applies {alpha : Type} (p : ManagerProgram alpha) : Prop :=
  forall c, Ends p (fun c' => Applied c'.manager) c

theorem Applies.keeps {alpha : Type} {p : ManagerProgram alpha} (h : Applies p) : Keeps p :=
  fun c _ => h c

section Keeps

variable {alpha beta : Type}

theorem keeps_pure (a : alpha) : Keeps (pure a : ManagerProgram alpha) :=
  fun _ hc => withstands_done stable_applied hc

theorem keeps_bind {p : ManagerProgram alpha} {f : alpha -> ManagerProgram beta}
    (hp : Keeps p) (hf : forall a, Keeps (f a)) : Keeps (p >>= f) :=
  fun c hc => withstands_bind (withstands_mono (hp c hc) fun a c' hc' => hf a c' hc')

theorem keeps_read : Keeps ModelManager.read :=
  fun _ hc => ends_read stable_applied (fun _ hc' => withstands_done stable_applied hc') hc

theorem keeps_assign {f : Manager -> Manager} (hf : forall m, Applied m -> Applied (f m)) :
    Keeps (assign f) :=
  fun _ hc => ends_assign stable_applied
    (fun c' hc' => withstands_done stable_applied (hf c'.manager hc')) hc

theorem keeps_setTransfer (transfer : TransferState) :
    Keeps (assign (Manager.setTransfer transfer)) :=
  keeps_assign fun _ hm => hm.congr rfl rfl rfl rfl

theorem keeps_refreshInstalled : Keeps refreshInstalled :=
  keeps_assign fun _ hm => hm.congr rfl rfl rfl rfl

theorem run_applied {block : Block} (hblock : forall request, block ≠ Block.load request)
    (a : Answer) {m : Manager} (hm : Applied m) : Applied (block.run a m).2 := by
  cases block with
  | unload => exact applied_of_idle (unload_threadLocalState _)
  | load request => exact absurd rfl (hblock request)
  | importFrom source name => exact hm.congr rfl rfl rfl rfl
  | finalize temp name => exact hm.congr rfl rfl rfl rfl
  | delete file => exact hm.congr rfl rfl rfl rfl
  | download url expectedSize temp displayName => exact hm.congr rfl rfl rfl rfl

theorem keeps_withContext {block : Block}
    (hblock : forall request, block ≠ Block.load request) :
    Keeps (ModelManager.withContext block) := by
  intro c hc
  refine ends_withContext stable_applied (fun c a c' hc hc' => ?_) (fun c a c' hc hc' => ?_) hc
  · refine withstands_done stable_applied ?_
    show Applied c'.manager
    rcases hc' with hsame | hrun
    · rw [hsame]
      exact hc
    · rw [hrun]
      exact run_applied hblock a hc
  · refine withstands_done stable_applied ?_
    show Applied c'.manager
    rw [hc']
    exact run_applied hblock a hc

theorem keeps_nonCancellable {block : Block}
    (hblock : forall request, block ≠ Block.load request) :
    Keeps (nonCancellable block) := by
  intro c hc
  refine withstands_perform stable_applied (fun _ _ => trivial) (fun c a hc => ?_) hc
  exact withstands_done stable_applied (run_applied hblock a hc)

theorem saveIfReady_inForce (descriptor : ModelDescriptor) {c : Coroutine}
    (hc : InForce c.manager) :
    Ends (saveIfReady descriptor) (fun c' => InForce c'.manager) c := by
  simp only [saveIfReady, ModelManager.read, operation_bind]
  refine ends_read stable_inForce (fun c hc => ?_) hc
  split
  · exact ends_assign stable_inForce
      (fun _ hc' => withstands_done stable_inForce (hc'.congr rfl rfl rfl)) hc
  · exact withstands_done stable_inForce hc

/-- A model is loaded and noted as the active one. -/
theorem saveAndRefresh_applied (descriptor : ModelDescriptor) {c : Coroutine}
    (hc : InForce c.manager) :
    Ends (do
      saveIfReady descriptor
      refreshInstalled) (fun c' => Applied c'.manager) c := by
  refine withstands_bind (withstands_mono (saveIfReady_inForce descriptor hc) ?_)
  exact fun _ c' hc' => keeps_refreshInstalled c' hc'.applied

theorem activate_applies (path displayName fileName : Text) (source : ModelSource)
    (sizeBytes : Nat) : Applies (activate path displayName fileName source sizeBytes) := by
  intro _
  refine withstands_bind (withstands_mono
    (loadIntoContext_inForce path displayName fileName) ?_)
  exact fun _ _ hc' => saveAndRefresh_applied _ hc'

theorem loadActiveModelIfPresent_applies : Applies loadActiveModelIfPresent := by
  intro _
  simp only [loadActiveModelIfPresent, ModelManager.read, operation_bind]
  refine ends_read stable_true (fun c _ => ?_) trivial
  split
  · rename_i hstore
    refine keeps_refreshInstalled c fun hsome => ?_
    rw [hstore] at hsome
    cases hsome
  · split
    · refine withstands_bind (withstands_mono (loadIntoContext_inForce _ _ _) ?_)
      exact fun _ c' hc' => keeps_refreshInstalled c' hc'.applied
    · refine ends_assign stable_true (fun c' _ => ?_) trivial
      exact keeps_refreshInstalled _ fun hsome => by cases hsome

theorem selectInstalled_keeps (fileName : Text) : Keeps (selectInstalled fileName) := by
  refine keeps_bind keeps_read fun m => ?_
  dsimp only
  split
  · exact keeps_refreshInstalled
  · split
    · exact keeps_pure ()
    · intro c _
      refine withstands_bind (withstands_mono (loadIntoContext_inForce _ _ _) ?_)
      intro _ c' hc'
      exact ends_read stable_inForce (fun _ hc' => saveAndRefresh_applied _ hc') hc'

theorem deleteFile_keeps (fileName : Text) : Keeps (deleteFile fileName) := by
  refine keeps_bind (keeps_withContext fun request => by simp) fun result => ?_
  cases result with
  | error e => exact keeps_pure _
  | ok _ => exact keeps_bind keeps_refreshInstalled fun _ => keeps_pure _

theorem forgetActive_keeps : Keeps forgetActive := by
  refine keeps_bind (keeps_assign fun m _ => (inForce_of_none rfl).applied) fun _ => ?_
  refine keeps_bind (keeps_assign fun m _ hsome => by cases hsome) fun _ => ?_
  exact keeps_assign fun m hm => hm.congr rfl rfl rfl rfl

theorem deleteInstalled_keeps (fileName : Text) : Keeps (deleteInstalled fileName) := by
  refine keeps_bind keeps_read fun m => ?_
  split
  · refine keeps_bind (keeps_withContext fun request => by simp) fun result => ?_
    cases result with
    | error e => exact keeps_pure _
    | ok _ => exact keeps_bind forgetActive_keeps fun _ => deleteFile_keeps fileName
  · exact deleteFile_keeps fileName

theorem unload_keeps : Keeps ModelManager.unload := by
  refine keeps_bind (keeps_withContext fun request => by simp) fun result => ?_
  cases result with
  | error e => exact keeps_pure _
  | ok _ =>
      exact keeps_bind forgetActive_keeps fun _ =>
        keeps_bind keeps_refreshInstalled fun _ => keeps_pure _

theorem importModel_keeps (input : Bytes) (fileName displayName : Text) :
    Keeps (importModel input fileName displayName) := by
  refine keeps_bind (keeps_setTransfer _) fun _ => ?_
  refine keeps_bind (keeps_withContext fun request => by simp) fun result => ?_
  cases result with
  | error e => exact keeps_setTransfer _
  | ok file =>
      refine keeps_bind (keeps_setTransfer _) fun _ => keeps_bind keeps_read fun m => ?_
      exact (activate_applies _ _ _ _ _).keeps

theorem mirrorFailed_keeps (temp : Text) (e : Failure) : Keeps (mirrorFailed temp e) := by
  unfold mirrorFailed
  split
  · refine keeps_bind (keeps_nonCancellable fun request => by simp) fun _ => ?_
    exact keeps_bind (keeps_setTransfer _) fun _ => keeps_pure _
  · refine keeps_bind (keeps_withContext fun request => by simp) fun result => ?_
    cases result with
    | error e => exact keeps_pure _
    | ok _ => exact keeps_pure _

theorem tryMirror_keeps (spec : ModelSpec) (temp url : Text) :
    Keeps (tryMirror spec temp url) := by
  refine keeps_bind (keeps_withContext fun request => by simp) fun result => ?_
  cases result with
  | error e => exact mirrorFailed_keeps temp e
  | ok _ =>
      refine keeps_bind keeps_read fun m => ?_
      split
      · exact mirrorFailed_keeps temp _
      · refine keeps_bind (keeps_withContext fun request => by simp) fun result => ?_
        cases result with
        | error e => exact mirrorFailed_keeps temp e
        | ok file =>
            refine keeps_bind (keeps_setTransfer _) fun _ => keeps_bind keeps_read fun m => ?_
            exact keeps_bind (activate_applies _ _ _ _ _).keeps fun _ => keeps_pure _

theorem tryMirrors_keeps (spec : ModelSpec) (temp : Text) (urls : List Text)
    (lastError : Option Text) : Keeps (tryMirrors spec temp urls lastError) := by
  induction urls generalizing lastError with
  | nil => exact keeps_bind (keeps_setTransfer _) fun _ => keeps_pure _
  | cons url rest ih =>
      refine keeps_bind (tryMirror_keeps spec temp url) fun attempt => ?_
      cases attempt with
      | activated => exact keeps_pure _
      | cancelled e => exact keeps_pure _
      | failed message => exact ih message

theorem downloadModel_keeps (spec : ModelSpec) : Keeps (downloadModel spec) :=
  keeps_bind (keeps_setTransfer _) fun _ => tryMirrors_keeps _ _ _ _

theorem program_keeps {o : Operation} (ho : holdsMutex o = true) : Keeps o.program := by
  cases o with
  | loadActiveModelIfPresent => exact loadActiveModelIfPresent_applies.keeps
  | selectInstalled fileName => exact selectInstalled_keeps fileName
  | deleteInstalled fileName =>
      exact keeps_bind (deleteInstalled_keeps fileName) fun _ => keeps_pure _
  | importModel input fileName displayName =>
      exact importModel_keeps input fileName displayName
  | downloadModel spec => exact keeps_bind (downloadModel_keeps spec) fun _ => keeps_pure _
  | unload => exact keeps_bind unload_keeps fun _ => keeps_pure _
  | clearTransfer => cases ho
  | setGpuEnabled enabled => cases ho
  | setContextTokens tokens => cases ho
  | setThreadCount count => cases ho

end Keeps

/-!
# Runs
-/

def Settling (s : Desk) : Prop :=
  0 < s.reloads ∨
    match s.work with
    | none => Applied s.manager
    | some rest => Ends rest (fun c => Applied c.manager) s.coroutine

theorem settling_of_reload (s : Desk) : Settling s.launchReload :=
  Or.inl (Nat.succ_pos _)

theorem clears_clearTransfer (c : Coroutine) :
    Clears c { c with manager :=
      match c.manager.transfer with
      | TransferState.Failed _ _ => c.manager.setTransfer TransferState.Idle
      | _ => c.manager } := by
  cases htransfer : c.manager.transfer with
  | Failed modelName message => exact ⟨TransferState.Idle, rfl⟩
  | Idle => exact ⟨c.manager.transfer, rfl⟩
  | Downloading modelName progress => exact ⟨c.manager.transfer, rfl⟩
  | Importing modelName => exact ⟨c.manager.transfer, rfl⟩

theorem step_settling {s s' : Desk} {e : Event} (h : Settling s) (hs : step s e = some s') :
    Settling s' := by
  cases e with
  | start o =>
      simp only [step] at hs
      split at hs <;> cases hs
      rename_i hfree
      rcases Bool.and_eq_true_iff.mp hfree with ⟨hnone, ho⟩
      rcases h with hwaiting | hsettled
      · exact Or.inl hwaiting
      · rw [Option.isNone_iff_eq_none.mp hnone] at hsettled
        exact Or.inr (program_keeps ho _ hsettled)
  | reload =>
      simp only [step] at hs
      split at hs <;> cases hs
      exact Or.inr (loadActiveModelIfPresent_applies _)
  | proceed a =>
      simp only [step] at hs
      split at hs
      · cases hs
      · rename_i hwork
        cases hs
        rcases h with hwaiting | hsettled
        · exact Or.inl hwaiting
        · rw [hwork] at hsettled
          exact Or.inr hsettled.ends
      · rename_i o next hwork
        cases hs
        rcases h with hwaiting | hsettled
        · exact Or.inl hwaiting
        · rw [hwork] at hsettled
          exact Or.inr (hsettled.next a)
  | setContextTokens tokens =>
      cases hs
      exact settling_of_reload _
  | setThreadCount count =>
      cases hs
      exact settling_of_reload _
  | setGpuEnabled guard =>
      cases hs
      exact settling_of_reload _
  | clearTransfer =>
      cases hs
      rcases h with hwaiting | hsettled
      · exact Or.inl hwaiting
      · refine Or.inr ?_
        have hclears := clears_clearTransfer s.coroutine
        cases hwork : s.work with
        | none =>
            rw [hwork] at hsettled
            simp only [Desk.onManager, hwork]
            exact stable_applied _ _ hclears hsettled
        | some rest =>
            rw [hwork] at hsettled
            simp only [Desk.onManager, hwork]
            exact hsettled.moves (Relation.ReflTransGen.single hclears)

/-- Whenever nothing waits for the mutex or has it, a loaded model runs with the context
length, the threads and the cores that the settings now ask for. -/
theorem settings_in_force (modelStore : Option ModelDescriptor)
    (modelStorage : ModelStorage.Directory) (gpuGuard : GpuGuard) (settings : Settings)
    {es : List Event} {s : Desk}
    (hrun : runEvents step
      { coroutine := { manager := atStart modelStore modelStorage gpuGuard settings } } es =
        some s)
    (hfree : s.work = none) (hreloads : s.reloads = 0)
    (hstored : s.manager.modelStore.isSome = true)
    (hbackend : s.manager.backend.isSome = true) {h : LLamaAndroid.Loaded}
    (hloaded : s.manager.llama.threadLocalState = LLamaAndroid.State.Loaded h) :
    openedWith s.manager.llama.calls h.context = some (chosen s.manager.settings) := by
  have hinitial : Settling
      { coroutine := { manager := atStart modelStore modelStorage gpuGuard settings } } :=
    Or.inr (applied_of_idle rfl)
  rcases runEvents_keeps (fun _ _ _ => step_settling) hinitial hrun with hwaiting | hsettled
  · rw [hreloads] at hwaiting
    exact absurd hwaiting (Nat.lt_irrefl 0)
  · rw [hfree] at hsettled
    exact hsettled hstored hbackend h hloaded

def changeOfMind : List Event :=
  [Event.start Operation.loadActiveModelIfPresent] ++
    List.replicate 9 (Event.proceed {}) ++ [Event.setThreadCount 3] ++
    List.replicate 6 (Event.proceed {}) ++ [Event.reload] ++
    List.replicate 15 (Event.proceed {})

def onePhi : ModelDescriptor where
  fileName := "phi.gguf".toList
  displayName := "Phi".toList
  source := ModelSource.IMPORT
  sizeBytes := 1

def eightCores : Settings where
  coresBySpeed := [7, 6, 5, 4, 3, 2, 1, 0]

def phiAtStart : Manager :=
  atStart (some onePhi) [("phi.gguf".toList, [0])] ({} : GpuGuard) eightCores

theorem settings_in_force_changeOfMind :
    exists s h, runEvents step { coroutine := { manager := phiAtStart } } changeOfMind =
        some s ∧
      s.manager.llama.threadLocalState = LLamaAndroid.State.Loaded h ∧
      openedWith s.manager.llama.calls h.context = some ⟨4096, 3, [7, 6, 5]⟩ :=
  ⟨_, _, rfl, rfl, @settings_in_force (some onePhi) [("phi.gguf".toList, [0])] ({} : GpuGuard)
    eightCores changeOfMind _ rfl rfl rfl rfl rfl _ rfl⟩

end SettingsInForce
end DomainAI
