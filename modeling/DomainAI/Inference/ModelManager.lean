import DomainAI.Data.ModelStorage
import DomainAI.Inference.ModelCatalog
import DomainAI.Library.Program
import DomainAI.Llama.LLamaAndroid
import Mathlib.Data.List.Sort

/-!
# ModelManager

The operations that the mutex serializes, as programs over what they do to the
manager and where they suspend.  A suspension is a block that runs on another
dispatcher; the calling coroutine may be cancelled before the block runs, or
while it runs, and once it is cancelled no later block runs at all.
-/

namespace DomainAI
namespace ModelManager

open Library LLamaAndroid ModelStorage

/-!
# State
-/

inductive State where
  | NotLoaded
  | Loading (modelName : Text) (fileName : Option Text)
  | Ready (modelName : Text) (detail fileName : Option Text)
  | Error (message : Text)
  deriving DecidableEq, Repr

structure Progress where
  bytesRead : Nat
  totalBytes : Int
  deriving DecidableEq, Repr

inductive TransferState where
  | Idle
  | Downloading (modelName : Text) (progress : Option Progress)
  | Importing (modelName : Text)
  | Failed (modelName message : Text)
  deriving DecidableEq, Repr

structure InstalledModel where
  fileName : Text
  displayName : Text
  sizeBytes : Nat
  source : ModelSource
  isActive : Bool
  deriving DecidableEq, Repr

structure GpuGuard where
  userEnabled : Bool := true
  attempting : Bool := false
  disabled : Bool := false
  deriving DecidableEq, Repr

namespace GpuGuard

def layersToOffload (g : GpuGuard) : Int × GpuGuard :=
  if !g.userEnabled then (0, g)
  else
    let g := if g.attempting then { g with disabled := true, attempting := false }
      else g
    (if g.disabled then 0 else 99, g)

def setUserEnabled (enabled : Bool) (g : GpuGuard) : GpuGuard :=
  if enabled then
    { userEnabled := true, disabled := false, attempting := false }
  else { g with userEnabled := false }

def beginAttempt (layers : Int) (g : GpuGuard) : GpuGuard :=
  if 0 < layers then { g with attempting := true } else g

def endAttempt (g : GpuGuard) : GpuGuard :=
  { g with attempting := false }

end GpuGuard

structure Settings where
  deviceRecommendedContext : Int := 4096
  deviceMaxContext : Int := 4096
  deviceAutoThreads : Int := 4
  deviceMaxThreads : Int := 4
  coresBySpeed : List Int := []
  chosenTokens : Int := 0
  chosenThreads : Int := 0
  backendInfo : Text := []
  deriving DecidableEq, Repr

namespace Settings

def effectiveContextTokens (s : Settings) : Int :=
  if 0 < s.chosenTokens then min s.chosenTokens s.deviceMaxContext
  else s.deviceRecommendedContext

/-- `coerceIn(2, deviceMaxThreads)`, for a range that is not empty. -/
def effectiveThreads (s : Settings) : Int :=
  if 0 < s.chosenThreads then max 2 (min s.chosenThreads s.deviceMaxThreads)
  else s.deviceAutoThreads

def affinity (s : Settings) : List Int :=
  s.coresBySpeed.take s.effectiveThreads.toNat

end Settings

structure Manager where
  state : State := State.NotLoaded
  transfer : TransferState := TransferState.Idle
  installed : List InstalledModel := []
  backend : Option Text := none
  modelStore : Option ModelDescriptor := none
  modelStorage : Directory := []
  gpuGuard : GpuGuard := {}
  settings : Settings := {}
  llama : Wrapper := {}
  deriving DecidableEq, Repr

namespace Manager

def setState (state : State) (m : Manager) : Manager :=
  { m with state := state }

def setTransfer (transfer : TransferState) (m : Manager) : Manager :=
  { m with transfer := transfer }

def setBackend (backend : Option Text) (m : Manager) : Manager :=
  { m with backend := backend }

def setModelStore (descriptor : Option ModelDescriptor) (m : Manager) : Manager :=
  { m with modelStore := descriptor }

def setGpuGuard (gpuGuard : GpuGuard) (m : Manager) : Manager :=
  { m with gpuGuard := gpuGuard }

def setSettings (settings : Settings) (m : Manager) : Manager :=
  { m with settings := settings }

def setModelStorage (d : Directory) (m : Manager) : Manager :=
  { m with modelStorage := d }

def setLlama (llama : Wrapper) (m : Manager) : Manager :=
  { m with llama := llama }

/-- File name of the model currently loading or loaded. -/
def activeFileName (m : Manager) : Option Text :=
  match m.state with
  | State.Loading _ fileName => fileName
  | State.Ready _ _ fileName => fileName
  | _ => none

def describe (m : Manager) (activeName : Option Text) (file : Text) :
    InstalledModel where
  fileName := file
  displayName := ((ModelCatalog.find file).map ModelSpec.displayName).getD file
  sizeBytes := m.modelStorage.length file
  source :=
    if (ModelCatalog.find file).isSome then ModelSource.DOWNLOAD
    else ModelSource.IMPORT
  isActive := some file = activeName

/-- `compareByDescending { it.isActive }.thenBy { it.displayName }`. -/
def listedBefore (a b : InstalledModel) : Bool :=
  if a.isActive = b.isActive then Text.notAfter a.displayName b.displayName
  else a.isActive

def refreshInstalled (m : Manager) : Manager :=
  { m with
    installed :=
      (((listModels m.modelStorage).filter
        fun file => !".part".toList.isSuffixOf file).map
          (m.describe m.activeFileName)).insertionSort
            (fun a b => listedBefore a b) }

end Manager

/-!
# Suspensions
-/

/-- What a suspended call throws: its cancellation, or an exception. -/
structure Failure where
  cancellation : Bool
  message : Option Text
  deriving DecidableEq, Repr

/-- How the caller gets on while a block is to run elsewhere. -/
inductive Delivery where
  | returned
  | cancelledBefore
  | cancelledAfter
  deriving DecidableEq, Repr, Inhabited

/-- What the surroundings contribute to one suspension. -/
structure Answer where
  delivery : Delivery := Delivery.returned
  cancellationMessage : Option Text := none
  load : LoadAnswer := {}
  renameRefused : Bool := false
  copyFails : Option (Nat × Option Text) := none
  /-- What a download leaves in its temp file, if it gets to write at all. -/
  downloaded : Option Bytes := none
  progress : List Progress := []
  downloadFails : Option (Option Text) := none
  deriving DecidableEq, Repr, Inhabited

def Answer.cancellation (a : Answer) : Failure where
  cancellation := true
  message := a.cancellationMessage

inductive Block where
  | unload
  | load (request : LoadRequest)
  | importFrom (source : Bytes) (name : Text)
  | finalize (temp name : Text)
  | delete (file : Text)
  /-- Collect the flow of `downloader.download`. -/
  | download (url : Text) (expectedSize : Nat) (temp displayName : Text)
  deriving DecidableEq, Repr

abbrev Block.Result : Block -> Type
  | Block.unload => Unit
  | Block.load _ => Unit
  | Block.importFrom _ _ => Text
  | Block.finalize _ _ => Text
  | Block.delete _ => Unit
  | Block.download _ _ _ _ => Unit

def exception (message : Option Text) : Failure where
  cancellation := false
  message := message

def Block.run (a : Answer) : (b : Block) -> Manager ->
    Except Failure b.Result × Manager
  | Block.unload, m => (Except.ok (), m.setLlama m.llama.unload)
  | Block.load request, m =>
      let (result, llama) := m.llama.load request a.load
      (result.mapError fun message => exception (some message), m.setLlama llama)
  | Block.importFrom source name, m =>
      let (result, d) :=
        ModelStorage.importFrom source a.copyFails name a.renameRefused
          m.modelStorage
      (result.mapError exception, m.setModelStorage d)
  | Block.finalize temp name, m =>
      let (result, d) :=
        ModelStorage.finalize temp name a.renameRefused m.modelStorage
      (result.mapError exception, m.setModelStorage d)
  | Block.delete file, m =>
      (Except.ok (), m.setModelStorage (m.modelStorage.delete file))
  | Block.download _ _ temp displayName, m =>
      let transfer := match a.progress.getLast? with
        | none => m.transfer
        | some p => TransferState.Downloading displayName (some p)
      let d := match a.downloaded with
        | none => m.modelStorage
        | some bytes => m.modelStorage.write temp bytes
      let m := (m.setModelStorage d).setTransfer transfer
      (match a.downloadFails with
        | none => Except.ok ()
        | some message => Except.error (exception message), m)

inductive ManagerOp where
  | read
  | assign (f : Manager -> Manager)
  | withContext (block : Block)
  /-- `withContext(NonCancellable + …)`. -/
  | nonCancellable (block : Block)

abbrev ManagerOp.Result : ManagerOp -> Type
  | ManagerOp.read => Manager
  | ManagerOp.assign _ => Unit
  | ManagerOp.withContext block => Except Failure block.Result
  | ManagerOp.nonCancellable _ => Unit

/-- The calling coroutine: the manager it works on, and whether it is cancelled. -/
structure Coroutine where
  manager : Manager
  cancelled : Bool := false
  deriving DecidableEq, Repr

def exec : (o : ManagerOp) -> Answer -> Coroutine -> o.Result × Coroutine
  | ManagerOp.read, _, c => (c.manager, c)
  | ManagerOp.assign f, _, c => ((), { c with manager := f c.manager })
  | ManagerOp.withContext block, a, c =>
      if c.cancelled then (Except.error a.cancellation, c)
      else
        match a.delivery with
        | Delivery.returned =>
            let (result, m) := block.run a c.manager
            (result, { c with manager := m })
        | Delivery.cancelledBefore =>
            (Except.error a.cancellation, { c with cancelled := true })
        | Delivery.cancelledAfter =>
            (Except.error a.cancellation,
              { manager := (block.run a c.manager).2, cancelled := true })
  | ManagerOp.nonCancellable block, a, c =>
      ((), { c with manager := (block.run a c.manager).2 })

abbrev ManagerProgram := Program ManagerOp ManagerOp.Result

@[simp] def read : ManagerProgram Manager :=
  Program.operation ManagerOp.read

@[simp] def assign (f : Manager -> Manager) : ManagerProgram Unit :=
  Program.operation (ManagerOp.assign f)

@[simp] def withContext (block : Block) :
    ManagerProgram (Except Failure block.Result) :=
  Program.operation (ManagerOp.withContext block)

@[simp] def nonCancellable (block : Block) : ManagerProgram Unit :=
  Program.operation (ManagerOp.nonCancellable block)

@[simp] def refreshInstalled : ManagerProgram Unit :=
  assign Manager.refreshInstalled

/-!
# Loading
-/

def detailOf (gpuLayers : Int) (backendInfo : Text) : Text :=
  if 0 < gpuLayers then
    if Text.Contains backendInfo "[GPU]".toList then
      "GPU · ".toList ++ (toString gpuLayers).toList ++ " layers".toList
    else "CPU (no compatible GPU)".toList
  else "CPU".toList

def attemptFailed (e : Failure) : ManagerProgram (Option Failure) := do
  assign fun m => m.setGpuGuard m.gpuGuard.endAttempt
  assign (Manager.setBackend none)
  pure (some e)

def loadRequest (path : Text) (gpuLayers : Int) (s : Settings) : LoadRequest where
  pathToModel := path
  nCtx := s.effectiveContextTokens
  nGpuLayers := gpuLayers
  nThreads := s.effectiveThreads
  affinityCores := s.affinity

def loadRung (path displayName fileName : Text) (gpuLayers : Int)
    (settings : Settings) : ManagerProgram (Option Failure) := do
  match ← withContext (Block.load (loadRequest path gpuLayers settings)) with
  | Except.error e => attemptFailed e
  | Except.ok () =>
      assign fun m => m.setGpuGuard m.gpuGuard.endAttempt
      assign (Manager.setBackend (some displayName))
      assign (Manager.setState (State.Ready displayName
        (some (detailOf gpuLayers settings.backendInfo)) (some fileName)))
      pure none

/-- None on success, or the failure. -/
def attemptLoad (path displayName fileName : Text) (gpuLayers : Int) :
    ManagerProgram (Option Failure) := do
  match ← withContext Block.unload with
  | Except.error e => attemptFailed e
  | Except.ok () =>
      assign (Manager.setBackend none)
      assign fun m => m.setGpuGuard (m.gpuGuard.beginAttempt gpuLayers)
      let m ← read
      loadRung path displayName fileName gpuLayers m.settings

def gpuLayerLadder : List Int := [99, 32, 24, 16, 12, 8, 4, 0]

/-- Try rung after rung; the result is the last failure, or none on success. -/
def climb (path displayName fileName : Text) :
    List Int -> Option Failure -> ManagerProgram (Option Failure)
  | [], lastFailure => pure lastFailure
  | layers :: rest, _ => do
      match ← attemptLoad path displayName fileName layers with
      | none => pure none
      | some e => climb path displayName fileName rest (some e)

def loadIntoContext (path displayName fileName : Text) : ManagerProgram Unit := do
  assign (Manager.setState (State.Loading displayName (some fileName)))
  refreshInstalled
  let m ← read
  assign (Manager.setGpuGuard m.gpuGuard.layersToOffload.2)
  let ladder := if m.gpuGuard.layersToOffload.1 ≤ 0 then [0] else gpuLayerLadder
  match ← climb path displayName fileName ladder none with
  | none => pure ()
  | some e =>
      assign (Manager.setState (State.Error
        (e.message.getD "Could not load model.".toList)))

def saveIfReady (descriptor : ModelDescriptor) : ManagerProgram Unit := do
  let m ← read
  match m.state with
  | State.Ready _ _ _ => assign (Manager.setModelStore (some descriptor))
  | _ => pure ()

def activate (path displayName fileName : Text) (source : ModelSource)
    (sizeBytes : Nat) : ManagerProgram Unit := do
  loadIntoContext path displayName fileName
  saveIfReady
    { fileName := fileName
      displayName := displayName
      source := source
      sizeBytes := sizeBytes }
  refreshInstalled

/-!
# Operations
-/

def loadActiveModelIfPresent : ManagerProgram Unit := do
  let m ← read
  match m.modelStore with
  | none => refreshInstalled
  | some descriptor =>
      let file := fileFor descriptor.fileName
      if m.modelStorage.present file then
        loadIntoContext file descriptor.displayName descriptor.fileName
        refreshInstalled
      else
        assign (Manager.setModelStore none)
        refreshInstalled

def selectInstalled (fileName : Text) : ManagerProgram Unit := do
  let m ← read
  let file := fileFor fileName
  if !m.modelStorage.present file then
    refreshInstalled
  else if m.modelStore.map ModelDescriptor.fileName = some fileName ∧
      m.backend.isSome then
    pure ()
  else
    let spec := ModelCatalog.find fileName
    let displayName := (spec.map ModelSpec.displayName).getD fileName
    loadIntoContext file displayName fileName
    let m ← read
    saveIfReady
      { fileName := fileName
        displayName := displayName
        source :=
          if spec.isSome then ModelSource.DOWNLOAD else ModelSource.IMPORT
        sizeBytes := m.modelStorage.length file }
    refreshInstalled

def deleteFile (fileName : Text) : ManagerProgram (Option Failure) := do
  match ← withContext (Block.delete (fileFor fileName)) with
  | Except.error e => pure (some e)
  | Except.ok () =>
      refreshInstalled
      pure none

def forgetActive : ManagerProgram Unit := do
  assign (Manager.setBackend none)
  assign (Manager.setModelStore none)
  assign (Manager.setState State.NotLoaded)

/-- The result is what the call throws. -/
def deleteInstalled (fileName : Text) : ManagerProgram (Option Failure) := do
  let m ← read
  if m.modelStore.map ModelDescriptor.fileName = some fileName then
    match ← withContext Block.unload with
    | Except.error e => pure (some e)
    | Except.ok () =>
        forgetActive
        deleteFile fileName
  else
    deleteFile fileName

def unload : ManagerProgram (Option Failure) := do
  match ← withContext Block.unload with
  | Except.error e => pure (some e)
  | Except.ok () =>
      forgetActive
      refreshInstalled
      pure none

/-- Every failure is caught, a cancellation too. -/
def importModel (input : Bytes) (fileName displayName : Text) :
    ManagerProgram Unit := do
  assign (Manager.setTransfer (TransferState.Importing displayName))
  match ← withContext (Block.importFrom input fileName) with
  | Except.error e =>
      assign (Manager.setTransfer (TransferState.Failed displayName
        (e.message.getD "Import failed.".toList)))
  | Except.ok file =>
      assign (Manager.setTransfer TransferState.Idle)
      let m ← read
      activate file displayName file ModelSource.IMPORT
        (m.modelStorage.length file)

inductive Attempt where
  | activated
  | cancelled (e : Failure)
  | failed (message : Option Text)

def downloadCancelled (temp : Text) (e : Failure) : ManagerProgram Attempt := do
  nonCancellable (Block.delete temp)
  assign (Manager.setTransfer TransferState.Idle)
  pure (Attempt.cancelled e)

/-- The handlers of the `try` block: a cancellation is thrown again, and what
the clean-up of a failed mirror throws leaves the function as well. -/
def mirrorFailed (temp : Text) (e : Failure) : ManagerProgram Attempt := do
  if e.cancellation then
    downloadCancelled temp e
  else
    match ← withContext (Block.delete temp) with
    | Except.error cancellation => pure (Attempt.cancelled cancellation)
    | Except.ok () => pure (Attempt.failed e.message)

def tryMirror (spec : ModelSpec) (temp url : Text) : ManagerProgram Attempt := do
  match ← withContext (Block.download url spec.sizeBytes temp
      spec.displayName) with
  | Except.error e => mirrorFailed temp e
  | Except.ok () =>
      let m ← read
      if !isGguf m.modelStorage temp then
        mirrorFailed temp
          (exception (some "downloaded file is not a valid GGUF".toList))
      else
        match ← withContext (Block.finalize temp spec.fileName) with
        | Except.error e => mirrorFailed temp e
        | Except.ok file =>
            assign (Manager.setTransfer TransferState.Idle)
            let m ← read
            activate file spec.displayName file ModelSource.DOWNLOAD
              (m.modelStorage.length file)
            pure Attempt.activated

/-- Walk the mirrors; the result is what the call throws. -/
def tryMirrors (spec : ModelSpec) (temp : Text) :
    List Text -> Option Text -> ManagerProgram (Option Failure)
  | [], lastError => do
      assign (Manager.setTransfer (TransferState.Failed spec.displayName
        (Text.trim ("All ".toList ++ (toString spec.urls.length).toList ++
          " mirrors failed. ".toList ++ lastError.getD []))))
      pure none
  | url :: rest, _ => do
      match ← tryMirror spec temp url with
      | Attempt.activated => pure none
      | Attempt.cancelled e => pure (some e)
      | Attempt.failed message => tryMirrors spec temp rest message

def downloadModel (spec : ModelSpec) : ManagerProgram (Option Failure) := do
  assign (Manager.setTransfer (TransferState.Downloading spec.displayName none))
  tryMirrors spec (tempFor spec.fileName) spec.urls none

/-!
# Operations without the mutex

A setter launches a reload as well, which is an operation of its own.
-/

def clearTransfer : ManagerProgram Unit := do
  let m ← read
  match m.transfer with
  | TransferState.Failed _ _ => assign (Manager.setTransfer TransferState.Idle)
  | _ => pure ()

def setGpuEnabled (enabled : Bool) : ManagerProgram Unit :=
  assign fun m => m.setGpuGuard (m.gpuGuard.setUserEnabled enabled)

def setContextTokens (tokens : Int) : ManagerProgram Unit :=
  assign fun m => m.setSettings { m.settings with chosenTokens := tokens }

def setThreadCount (count : Int) : ManagerProgram Unit :=
  assign fun m => m.setSettings { m.settings with chosenThreads := count }

/-!
# Runs
-/

inductive Operation where
  | loadActiveModelIfPresent
  | selectInstalled (fileName : Text)
  | deleteInstalled (fileName : Text)
  | importModel (input : Bytes) (fileName displayName : Text)
  | downloadModel (spec : ModelSpec)
  | unload
  | clearTransfer
  | setGpuEnabled (enabled : Bool)
  | setContextTokens (tokens : Int)
  | setThreadCount (count : Int)
  deriving DecidableEq, Repr

/-- The program of an operation; what it throws ends with its caller. -/
def Operation.program : Operation -> ManagerProgram Unit
  | Operation.loadActiveModelIfPresent => ModelManager.loadActiveModelIfPresent
  | Operation.selectInstalled fileName => ModelManager.selectInstalled fileName
  | Operation.deleteInstalled fileName => do
      let _ ← ModelManager.deleteInstalled fileName
  | Operation.importModel input fileName displayName =>
      ModelManager.importModel input fileName displayName
  | Operation.downloadModel spec => do
      let _ ← ModelManager.downloadModel spec
  | Operation.unload => do
      let _ ← ModelManager.unload
  | Operation.clearTransfer => ModelManager.clearTransfer
  | Operation.setGpuEnabled enabled => ModelManager.setGpuEnabled enabled
  | Operation.setContextTokens tokens => ModelManager.setContextTokens tokens
  | Operation.setThreadCount count => ModelManager.setThreadCount count

/-- One operation, as a rule from when it gets the mutex to when it gives it
back. -/
structure Event where
  operation : Operation
  answers : List Answer
  deriving DecidableEq, Repr

def step (m : Manager) (e : Event) : Manager :=
  (Program.run exec e.operation.program e.answers
    { manager := m }).2.1.manager

end ModelManager
end DomainAI
