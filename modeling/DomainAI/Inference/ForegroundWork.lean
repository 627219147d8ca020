import DomainAI.Inference.ModelRuns
import DomainAI.Library.Run

/-!
# ForegroundWork

A collector turns what it is shown of a transfer, and of the load that follows
it, into calls of `ForegroundWork`.  It collects two state flows at once.  Either
may skip values, and the two are not read at the same moment.
-/

namespace DomainAI
namespace ForegroundWork

open Library ModelManager

/-!
# Calls
-/

inductive ProgressBar where
  | noProgress
  /-- The percentage that `Progress.fraction` gives, or 0. -/
  | percent (progress : Option Progress)
  deriving DecidableEq, Repr

inductive Call where
  | begin (text : Text)
  | update (text : Text) (progress : ProgressBar)
  | finish
  | complete (text : Text)
  | failed (text : Text)
  deriving DecidableEq, Repr

def Call.isUpdate : Call -> Bool
  | Call.update _ _ => true
  | _ => false

def Call.delta : Call -> Int
  | Call.begin _ => 1
  | Call.finish => -1
  | _ => 0

def net : List Call -> Int
  | [] => 0
  | c :: calls => c.delta + net calls

/-- With `n` begins to be matched, the calls of begin and end alternate: at no
point is there an end too many, or a second begin. -/
def AlternateFrom (n : Int) (calls : List Call) : Prop :=
  forall front, front <+: calls -> n + net front = 0 ∨ n + net front = 1

def Alternate (calls : List Call) : Prop :=
  AlternateFrom 0 calls

/-- `active`, the operations in flight; the service runs while it is positive. -/
def countActive (active : Int) : Call -> Int
  | Call.begin _ => active + 1
  | Call.finish => if active - 1 ≤ 0 then 0 else active - 1
  | _ => active

/-!
# The collector
-/

abbrev Shown := ModelManager.State × TransferState

structure Flags where
  transferring : Bool := false
  loading : Bool := false
  deriving DecidableEq, Repr

def initializing : Text :=
  "Initializing model…".toList

def downloadFailed : Text :=
  "Model download failed".toList

/-- `begin`, unless it has been called. -/
def beginOnce (f : Flags) (text : Text) : List Call :=
  if f.transferring then [] else [Call.begin text]

def collectLoad (f : Flags) : ModelManager.State -> Flags × List Call
  | State.Loading _ _ =>
      ({ f with loading := true }, [Call.update initializing ProgressBar.noProgress])
  | State.Ready modelName _ _ =>
      if f.loading then
        ({}, [Call.finish, Call.complete (modelName ++ " is ready".toList)])
      else (f, [])
  | State.Error _ =>
      if f.loading then ({}, [Call.finish, Call.failed downloadFailed])
      else (f, [])
  | State.NotLoaded => (f, [])

def collect (f : Flags) (shown : Shown) : Flags × List Call :=
  match shown.2 with
  | TransferState.Downloading modelName progress =>
      let text := "Downloading ".toList ++ modelName
      ({ f with transferring := true },
        beginOnce f text ++ [Call.update text (ProgressBar.percent progress)])
  | TransferState.Importing _ =>
      ({ f with transferring := true }, beginOnce f initializing)
  | TransferState.Failed _ _ =>
      ({}, (if f.transferring then [Call.finish] else []) ++
        [Call.failed downloadFailed])
  | TransferState.Idle =>
      if f.transferring then collectLoad f shown.1 else (f, [])

/-!
# Begin and end
-/

@[simp] theorem net_nil : net [] = 0 := rfl

@[simp] theorem net_cons (c : Call) (calls : List Call) :
    net (c :: calls) = c.delta + net calls := rfl

@[simp] theorem net_append (calls more : List Call) :
    net (calls ++ more) = net calls + net more := by
  induction calls with
  | nil => simp
  | cons c calls ih => rw [List.cons_append, net_cons, ih, net_cons, Int.add_assoc]

@[simp] theorem alternateFrom_nil (n : Int) :
    AlternateFrom n [] <-> n = 0 ∨ n = 1 := by
  simp [AlternateFrom]

@[simp] theorem alternateFrom_cons (n : Int) (c : Call) (calls : List Call) :
    AlternateFrom n (c :: calls) <->
      (n = 0 ∨ n = 1) ∧ AlternateFrom (n + c.delta) calls := by
  constructor
  · intro h
    constructor
    · simpa using h [] List.nil_prefix
    · intro front hfront
      have hcons := h (c :: front) (List.cons_prefix_cons.mpr ⟨rfl, hfront⟩)
      rwa [net_cons, <- Int.add_assoc] at hcons
  · intro h front hfront
    rcases h with ⟨hn, hcalls⟩
    cases front with
    | nil => simpa using hn
    | cons c' front =>
        rcases List.cons_prefix_cons.mp hfront with ⟨hc, hrest⟩
        rw [hc, net_cons, <- Int.add_assoc]
        exact hcalls front hrest

theorem alternateFrom_append (n : Int) (calls more : List Call) :
    AlternateFrom n (calls ++ more) <->
      AlternateFrom n calls ∧ AlternateFrom (n + net calls) more := by
  induction calls generalizing n with
  | nil =>
      constructor
      · intro h
        have hn := h [] List.nil_prefix
        simp at hn ⊢
        exact ⟨hn, h⟩
      · intro h
        simpa using h.right
  | cons c calls ih =>
      rw [List.cons_append, alternateFrom_cons, alternateFrom_cons, ih, net_cons,
        and_assoc, Int.add_assoc]

def Flags.open (f : Flags) : Int :=
  if f.transferring then 1 else 0

theorem collect_alternate (f : Flags) (shown : Shown) :
    AlternateFrom f.open (collect f shown).2 ∧
      f.open + net (collect f shown).2 = (collect f shown).1.open := by
  rcases f with ⟨transferring, loading⟩
  rcases shown with ⟨state, transfer⟩
  cases transfer with
  | Downloading modelName progress =>
      cases transferring <;> simp [collect, beginOnce, Flags.open, Call.delta]
  | Importing modelName =>
      cases transferring <;> simp [collect, beginOnce, Flags.open, Call.delta]
  | Failed modelName message =>
      cases transferring <;> simp [collect, Flags.open, Call.delta]
  | Idle =>
      cases transferring with
      | false => simp [collect, Flags.open]
      | true =>
          cases state <;> cases loading <;>
            simp [collect, collectLoad, Flags.open, Call.delta]

/-- The service runs exactly while a begin is to be matched. -/
theorem foldl_countActive (f : Flags) (shown : Shown) :
    (collect f shown).2.foldl countActive f.open = (collect f shown).1.open := by
  rcases f with ⟨transferring, loading⟩
  rcases shown with ⟨state, transfer⟩
  cases transfer with
  | Downloading modelName progress =>
      cases transferring <;> simp [collect, beginOnce, Flags.open, countActive]
  | Importing modelName =>
      cases transferring <;> simp [collect, beginOnce, Flags.open, countActive]
  | Failed modelName message =>
      cases transferring <;> simp [collect, Flags.open, countActive]
  | Idle =>
      cases transferring with
      | false => simp [collect, Flags.open]
      | true =>
          cases state <;> cases loading <;>
            simp [collect, collectLoad, Flags.open, countActive]

/-!
# Transfers as they are shown
-/

namespace Shown

def active (p : Shown) : Bool :=
  match p.2 with
  | TransferState.Downloading _ _ => true
  | TransferState.Importing _ => true
  | _ => false

def failed (p : Shown) : Bool :=
  match p.2 with
  | TransferState.Failed _ _ => true
  | _ => false

def loads (p : Shown) : Bool :=
  match p with
  | (State.Loading _ _, TransferState.Idle) => true
  | _ => false

def ended (p : Shown) : Bool :=
  match p with
  | (State.Ready _ _ _, TransferState.Idle) => true
  | (State.Error _, TransferState.Idle) => true
  | _ => false

end Shown

/--
Every transfer that has been shown has come to an end that was shown too: it
failed, or it was over, a load was seen to be on, and then to have ended.
-/
inductive Finished : List Shown -> Prop where
  | nil : Finished []
  | quiet {front : List Shown} {p : Shown} (h : Finished front)
      (hp : p.active = false) : Finished (front ++ [p])
  | failed {front : List Shown} {p : Shown} (hp : p.failed = true) :
      Finished (front ++ [p])
  | loaded {front transfer load : List Shown} {first loading last : Shown}
      (h : Finished front) (hfirst : first.active = true)
      (htransfer : forall p, p ∈ transfer -> p.failed = false ∧ p.loads = false)
      (hloading : loading.loads = true)
      (hload : forall p, p ∈ load -> p.failed = false ∧ p.ended = false)
      (hlast : last.ended = true) :
      Finished (front ++ first :: (transfer ++ loading :: (load ++ [last])))

def flagsAfter (observed : List Shown) : Flags :=
  observed.foldl (fun f p => (collect f p).1) {}

theorem flagsAfter_append (front back : List Shown) :
    flagsAfter (front ++ back) =
      back.foldl (fun f p => (collect f p).1) (flagsAfter front) := by
  rw [flagsAfter, flagsAfter, List.foldl_append]

theorem flagsAfter_concat (front : List Shown) (p : Shown) :
    flagsAfter (front ++ [p]) = (collect (flagsAfter front) p).1 := by
  rw [flagsAfter_append]
  rfl

def announced : Flags where
  transferring := true

def initialized : Flags where
  transferring := true
  loading := true

theorem collect_active {p : Shown} (hp : p.active = true) (f : Flags) :
    (collect f p).1 = { f with transferring := true } := by
  rcases p with ⟨state, transfer⟩
  cases transfer with
  | Downloading _ _ => rfl
  | Importing _ => rfl
  | Failed _ _ => cases hp
  | Idle => cases hp

theorem collect_failed {p : Shown} (hp : p.failed = true) (f : Flags) :
    (collect f p).1 = {} := by
  rcases p with ⟨state, transfer⟩
  cases transfer with
  | Failed _ _ => rfl
  | Downloading _ _ => cases hp
  | Importing _ => cases hp
  | Idle => cases hp

theorem collect_resting {p : Shown} (hp : p.active = false) :
    (collect {} p).1 = {} := by
  rcases p with ⟨state, transfer⟩
  cases transfer with
  | Failed _ _ => rfl
  | Idle => rfl
  | Downloading _ _ => cases hp
  | Importing _ => cases hp

theorem collect_announced {p : Shown} (hfailed : p.failed = false) :
    (collect announced p).1 = if p.loads then initialized else announced := by
  rcases p with ⟨state, transfer⟩
  cases transfer with
  | Downloading _ _ => cases state <;> rfl
  | Importing _ => cases state <;> rfl
  | Failed _ _ => cases hfailed
  | Idle => cases state <;> rfl

theorem collect_initialized {p : Shown} (hfailed : p.failed = false) :
    (collect initialized p).1 = if p.ended then {} else initialized := by
  rcases p with ⟨state, transfer⟩
  cases transfer with
  | Downloading _ _ => cases state <;> rfl
  | Importing _ => cases state <;> rfl
  | Failed _ _ => cases hfailed
  | Idle => cases state <;> rfl

inductive Phase : Flags -> List Shown -> Prop where
  | finished {observed : List Shown} (h : Finished observed) : Phase {} observed
  | announced {front transfer : List Shown} {first : Shown}
      (h : Finished front) (hfirst : first.active = true)
      (htransfer : forall p, p ∈ transfer -> p.failed = false ∧ p.loads = false) :
      Phase announced (front ++ first :: transfer)
  | initialized {front transfer load : List Shown} {first loading : Shown}
      (h : Finished front) (hfirst : first.active = true)
      (htransfer : forall p, p ∈ transfer -> p.failed = false ∧ p.loads = false)
      (hloading : loading.loads = true)
      (hload : forall p, p ∈ load -> p.failed = false ∧ p.ended = false) :
      Phase initialized (front ++ first :: (transfer ++ loading :: load))

theorem phase_concat {f : Flags} {observed : List Shown} (h : Phase f observed)
    (p : Shown) : Phase (collect f p).1 (observed ++ [p]) := by
  cases hfailed : p.failed with
  | true =>
      rw [collect_failed hfailed]
      exact Phase.finished (Finished.failed hfailed)
  | false =>
      cases h with
      | finished h =>
          cases hactive : p.active with
          | false =>
              rw [collect_resting hactive]
              exact Phase.finished (Finished.quiet h hactive)
          | true =>
              rw [collect_active hactive]
              exact Phase.announced h hactive (by simp)
      | announced h hfirst htransfer =>
          rw [collect_announced hfailed, List.append_assoc, List.cons_append]
          cases hloads : p.loads with
          | false =>
              apply Phase.announced h hfirst
              intro q hq
              rcases List.mem_append.mp hq with hq | hq
              · exact htransfer q hq
              · rw [List.mem_singleton.mp hq]
                exact ⟨hfailed, hloads⟩
          | true => exact Phase.initialized h hfirst htransfer hloads (by simp)
      | initialized h hfirst htransfer hloading hload =>
          rw [collect_initialized hfailed, List.append_assoc, List.cons_append,
            List.append_assoc, List.cons_append]
          cases hended : p.ended with
          | false =>
              apply Phase.initialized h hfirst htransfer hloading
              intro q hq
              rcases List.mem_append.mp hq with hq | hq
              · exact hload q hq
              · rw [List.mem_singleton.mp hq]
                exact ⟨hfailed, hended⟩
          | true =>
              exact Phase.finished
                (Finished.loaded h hfirst htransfer hloading hload hended)

theorem phase_flagsAfter (observed : List Shown) :
    Phase (flagsAfter observed) observed := by
  have hrun : forall (back front : List Shown), Phase (flagsAfter front) front ->
      Phase (flagsAfter (front ++ back)) (front ++ back) := by
    intro back
    induction back with
    | nil =>
        intro front h
        rwa [List.append_nil]
    | cons p back ih =>
        intro front h
        rw [List.append_cons]
        apply ih
        rw [flagsAfter_concat]
        exact phase_concat h p
  exact hrun observed [] (Phase.finished Finished.nil)

theorem foldl_announced {transfer : List Shown}
    (h : forall p, p ∈ transfer -> p.failed = false ∧ p.loads = false) :
    transfer.foldl (fun f p => (collect f p).1) announced = announced := by
  induction transfer with
  | nil => rfl
  | cons p rest ih =>
      rcases h p List.mem_cons_self with ⟨hfailed, hloads⟩
      rw [List.foldl_cons, collect_announced hfailed, hloads]
      exact ih fun q hq => h q (List.mem_cons_of_mem p hq)

theorem foldl_initialized {load : List Shown}
    (h : forall p, p ∈ load -> p.failed = false ∧ p.ended = false) :
    load.foldl (fun f p => (collect f p).1) initialized = initialized := by
  induction load with
  | nil => rfl
  | cons p rest ih =>
      rcases h p List.mem_cons_self with ⟨hfailed, hended⟩
      rw [List.foldl_cons, collect_initialized hfailed, hended]
      exact ih fun q hq => h q (List.mem_cons_of_mem p hq)

theorem not_failed_of_loads {p : Shown} (h : p.loads = true) : p.failed = false := by
  rcases p with ⟨state, transfer⟩
  cases transfer with
  | Failed _ _ => cases state <;> cases h
  | Downloading _ _ => rfl
  | Importing _ => rfl
  | Idle => rfl

theorem not_failed_of_ended {p : Shown} (h : p.ended = true) : p.failed = false := by
  rcases p with ⟨state, transfer⟩
  cases transfer with
  | Failed _ _ => cases state <;> cases h
  | Downloading _ _ => rfl
  | Importing _ => rfl
  | Idle => rfl

theorem Finished.flagsAfter {observed : List Shown} (h : Finished observed) :
    flagsAfter observed = {} := by
  induction h with
  | nil => rfl
  | quiet _ hp ih => rw [flagsAfter_concat, ih, collect_resting hp]
  | failed hp => rw [flagsAfter_concat, collect_failed hp]
  | loaded _ hfirst htransfer hloading hload hlast ih =>
      rw [flagsAfter_append, ih, List.foldl_cons, collect_active hfirst,
        List.foldl_append]
      change List.foldl _ (List.foldl _ announced _) _ = _
      rw [foldl_announced htransfer, List.foldl_cons,
        collect_announced (not_failed_of_loads hloading), if_pos hloading,
        List.foldl_append, foldl_initialized hload, List.foldl_cons, List.foldl_nil,
        collect_initialized (not_failed_of_ended hlast), if_pos hlast]

theorem flagsAfter_open (observed : List Shown) :
    (flagsAfter observed).open = 0 <-> Finished observed := by
  have hphase := phase_flagsAfter observed
  constructor
  · intro hopen
    generalize flagsAfter observed = f at hphase hopen
    cases hphase with
    | finished h => exact h
    | announced => cases hopen
    | initialized => cases hopen
  · intro h
    rw [h.flagsAfter]
    rfl

/-!
# Runs

The operations of the manager go on while the collector is shown values of the
two flows, each at its own pace and never an older one after a newer one.
-/

structure App where
  manager : Manager
  /-- The operation that holds the mutex, and whether its caller is cancelled. -/
  work : Option (ManagerProgram Unit) := none
  cancelled : Bool := false
  /-- `clearTransfer` has found a failed transfer. -/
  dismissing : Bool := false
  values : List Shown
  seenState : Nat := 0
  seenTransfer : Nat := 0
  observed : List Shown := []
  flags : Flags := {}
  calls : List Call := []

inductive Event where
  | start (o : Operation)
  | proceed (a : Answer)
  | clearTransfer
  | dismiss
  | elsewhere (f : Manager -> Manager)
  /-- The collector is shown a value of each flow. -/
  | collect (state transfer : Nat)

def current (m : Manager) : Shown :=
  (m.state, m.transfer)

/-- The values that come while an operation is performed: a download reports its
progress. -/
def between (c : Coroutine) (a : Answer) : ManagerOp -> List Shown
  | ManagerOp.withContext (Block.download _ _ _ displayName) =>
      if c.cancelled ∨ a.delivery = Delivery.cancelledBefore then []
      else a.progress.map fun p =>
        (c.manager.state, TransferState.Downloading displayName (some p))
  | _ => []

namespace App

def launched (m : Manager) : App where
  manager := m
  values := [current m]

def coroutine (s : App) : Coroutine where
  manager := s.manager
  cancelled := s.cancelled

def setManager (m : Manager) (s : App) : App :=
  { s with manager := m, values := s.values ++ [current m] }

def observe (i j : Nat) (shown : Shown) (s : App) : App :=
  { s with
    seenState := i
    seenTransfer := j
    observed := s.observed ++ [shown]
    flags := (ForegroundWork.collect s.flags shown).1
    calls := s.calls ++ (ForegroundWork.collect s.flags shown).2 }

end App

def step (s : App) : Event -> Option App
  | Event.start o =>
      match s.work with
      | some _ => none
      | none => some { s with work := some o.program, cancelled := false }
  | Event.proceed a =>
      match s.work with
      | none => none
      | some (Program.done _) => some { s with work := none }
      | some (Program.perform o next) =>
          let (result, c) := exec o a s.coroutine
          some (App.setManager c.manager
            { s with
              work := some (next result)
              cancelled := c.cancelled
              values := s.values ++ between s.coroutine a o })
  | Event.clearTransfer =>
      match s.manager.transfer with
      | TransferState.Failed _ _ => some { s with dismissing := true }
      | _ => some s
  | Event.dismiss =>
      if s.dismissing then
        some (App.setManager (s.manager.setTransfer TransferState.Idle)
          { s with dismissing := false })
      else none
  | Event.elsewhere f =>
      some { s with
        manager :=
          ((f s.manager).setState s.manager.state).setTransfer s.manager.transfer }
  | Event.collect i j =>
      if s.seenState ≤ i ∧ s.seenTransfer ≤ j then
        match s.values[i]?, s.values[j]? with
        | some p, some q =>
            -- A flow shows no value twice in a row.
            if s.observed.getLast? = some (p.1, q.2) then none
            else some (s.observe i j (p.1, q.2))
        | _, _ => none
      else none

/-!
# Plain operations

Operations that leave the transfer alone: a switch to an installed model, the
load at startup or after a changed setting, an unload, a deletion.
-/

section Plain

open Program

def plain : Operation -> Bool
  | Operation.importModel _ _ _ => false
  | Operation.downloadModel _ => false
  | Operation.clearTransfer => false
  | _ => true

def KeepsTransfer (o : ManagerOp) : Prop :=
  forall a c, (exec o a c).2.manager.transfer = c.manager.transfer ∧
    between c a o = []

def Keeps {alpha : Type} (p : ManagerProgram alpha) : Prop :=
  Obeys KeepsTransfer (fun _ _ => True) (fun _ => True) p

theorem keeps_bind {alpha beta : Type} {p : ManagerProgram alpha}
    {f : alpha -> ManagerProgram beta} (hp : Keeps p) (hf : forall a, Keeps (f a)) :
    Keeps (p >>= f) :=
  obeys_bind hp fun a _ => hf a

theorem keeps_pure {alpha : Type} (a : alpha) :
    Keeps (pure a : ManagerProgram alpha) :=
  trivial

theorem keeps_read : Keeps read :=
  ⟨fun _ _ => ⟨rfl, rfl⟩, fun _ _ => trivial⟩

theorem keeps_assign {f : Manager -> Manager}
    (hf : forall m, (f m).transfer = m.transfer) : Keeps (assign f) :=
  ⟨fun _ c => ⟨hf c.manager, rfl⟩, fun _ _ => trivial⟩

theorem keeps_withContext {block : Block}
    (hrun : forall a m, (block.run a m).2.transfer = m.transfer)
    (hbetween : forall a c, between c a (ManagerOp.withContext block) = []) :
    Keeps (withContext block) := by
  constructor
  · intro a c
    constructor
    · rcases exec_withContext block a c with
        ⟨_, _, hm⟩ | ⟨_, _, hm⟩ | ⟨_, _, _, hm⟩
      · rw [hm]
      · rw [hm, hrun]
      · rw [hm, hrun]
    · exact hbetween a c
  · intro _ _
    trivial

theorem keeps_unloadBlock : Keeps (withContext Block.unload) :=
  keeps_withContext (fun _ _ => rfl) fun _ _ => rfl

theorem keeps_deleteBlock (file : Text) : Keeps (withContext (Block.delete file)) :=
  keeps_withContext (fun _ _ => rfl) fun _ _ => rfl

theorem keeps_loadBlock (request : LLamaAndroid.LoadRequest) :
    Keeps (withContext (Block.load request)) :=
  keeps_withContext (fun _ _ => rfl) fun _ _ => rfl

variable (path displayName fileName : Text)

theorem keeps_loadIntoContext :
    Keeps (loadIntoContext path displayName fileName) := by
  apply obeys_mono _ (loadIntoContext_steps path displayName fileName)
  intro o ho
  cases ho with
  | rung h =>
      cases h with
      | unload => exact keeps_unloadBlock.left
      | load request => exact (keeps_loadBlock request).left
      | _ => exact fun _ _ => ⟨rfl, rfl⟩
  | _ => exact fun _ _ => ⟨rfl, rfl⟩

theorem keeps_saveIfReady (descriptor : ModelDescriptor) :
    Keeps (saveIfReady descriptor) := by
  apply keeps_bind keeps_read
  intro m
  split
  · exact keeps_assign fun _ => rfl
  · exact keeps_pure _

theorem keeps_loadActiveModelIfPresent : Keeps loadActiveModelIfPresent := by
  apply keeps_bind keeps_read
  intro m
  cases m.modelStore with
  | none => exact keeps_assign fun _ => rfl
  | some descriptor =>
      apply obeys_ite
      · intro _
        apply keeps_bind (keeps_loadIntoContext _ _ _)
        intro _
        exact keeps_assign fun _ => rfl
      · intro _
        apply keeps_bind (keeps_assign fun _ => rfl)
        intro _
        exact keeps_assign fun _ => rfl

theorem keeps_selectInstalled : Keeps (selectInstalled fileName) := by
  apply keeps_bind keeps_read
  intro m
  apply obeys_ite
  · intro _
    exact keeps_assign fun _ => rfl
  · intro _
    apply obeys_ite
    · intro _
      exact keeps_pure _
    · intro _
      apply keeps_bind (keeps_loadIntoContext _ _ _)
      intro _
      apply keeps_bind keeps_read
      intro m
      apply keeps_bind (keeps_saveIfReady _)
      intro _
      exact keeps_assign fun _ => rfl

theorem keeps_deleteFile : Keeps (deleteFile fileName) := by
  apply keeps_bind (keeps_deleteBlock _)
  intro r
  cases r with
  | error e => exact keeps_pure _
  | ok _ =>
      apply keeps_bind (keeps_assign fun _ => rfl)
      intro _
      exact keeps_pure _

theorem keeps_forgetActive : Keeps forgetActive := by
  apply keeps_bind (keeps_assign fun _ => rfl)
  intro _
  apply keeps_bind (keeps_assign fun _ => rfl)
  intro _
  exact keeps_assign fun _ => rfl

theorem keeps_deleteInstalled : Keeps (deleteInstalled fileName) := by
  apply keeps_bind keeps_read
  intro m
  apply obeys_ite
  · intro _
    apply keeps_bind keeps_unloadBlock
    intro r
    cases r with
    | error e => exact keeps_pure _
    | ok _ => exact keeps_bind keeps_forgetActive fun _ => keeps_deleteFile fileName
  · intro _
    exact keeps_deleteFile fileName

theorem keeps_unload : Keeps unload := by
  apply keeps_bind keeps_unloadBlock
  intro r
  cases r with
  | error e => exact keeps_pure _
  | ok _ =>
      apply keeps_bind keeps_forgetActive
      intro _
      apply keeps_bind (keeps_assign fun _ => rfl)
      intro _
      exact keeps_pure _

theorem keeps_program {o : Operation} (ho : plain o = true) : Keeps o.program := by
  cases o with
  | loadActiveModelIfPresent => exact keeps_loadActiveModelIfPresent
  | selectInstalled fileName => exact keeps_selectInstalled fileName
  | deleteInstalled fileName =>
      exact keeps_bind (keeps_deleteInstalled fileName) fun _ => keeps_pure _
  | unload => exact keeps_bind keeps_unload fun _ => keeps_pure _
  | setGpuEnabled enabled => exact keeps_assign fun _ => rfl
  | setContextTokens tokens => exact keeps_assign fun _ => rfl
  | setThreadCount count => exact keeps_assign fun _ => rfl
  | importModel _ _ _ => cases ho
  | downloadModel _ => cases ho
  | clearTransfer => cases ho

end Plain

/-!
# What a step shows
-/

theorem step_shows {s s' : App} {e : Event} (h : step s e = some s') :
    (s'.observed = s.observed ∧ s'.flags = s.flags ∧ s'.calls = s.calls) ∨
      exists i j p q, s.seenTransfer ≤ j ∧ s.values[j]? = some q ∧
        s' = s.observe i j (p, q.2) := by
  cases e with
  | start o =>
      simp only [step] at h
      split at h
      · cases h
      · cases h
        exact Or.inl ⟨rfl, rfl, rfl⟩
  | proceed a =>
      simp only [step] at h
      split at h
      · cases h
      · cases h
        exact Or.inl ⟨rfl, rfl, rfl⟩
      · cases h
        exact Or.inl ⟨rfl, rfl, rfl⟩
  | clearTransfer =>
      simp only [step] at h
      split at h
      · cases h
        exact Or.inl ⟨rfl, rfl, rfl⟩
      · cases h
        exact Or.inl ⟨rfl, rfl, rfl⟩
  | dismiss =>
      simp only [step, Option.ite_none_right_eq_some, Option.some.injEq] at h
      rw [<- h.right]
      exact Or.inl ⟨rfl, rfl, rfl⟩
  | elsewhere f =>
      cases h
      exact Or.inl ⟨rfl, rfl, rfl⟩
  | collect i j =>
      simp only [step] at h
      split at h
      case isFalse => cases h
      case isTrue hle =>
        split at h
        case h_2 => cases h
        case h_1 p q hp hq =>
          split at h
          · cases h
          · cases h
            exact Or.inr ⟨i, j, p.1, q, hle.right, hq, rfl⟩

structure Consistent (s : App) : Prop where
  flags : s.flags = flagsAfter s.observed
  alternate : Alternate s.calls
  net : net s.calls = s.flags.open
  active : s.calls.foldl countActive 0 = s.flags.open

theorem consistent_launched (m : Manager) : Consistent (App.launched m) where
  flags := rfl
  alternate := (alternateFrom_nil 0).mpr (Or.inl rfl)
  net := rfl
  active := rfl

theorem Consistent.observe {s : App} (hs : Consistent s) (i j : Nat) (p : Shown) :
    Consistent (s.observe i j p) where
  flags := by
    change (collect s.flags p).1 = flagsAfter (s.observed ++ [p])
    rw [flagsAfter_concat, hs.flags]
  alternate := by
    apply (alternateFrom_append 0 s.calls _).mpr
    rw [Int.zero_add, hs.net]
    exact ⟨hs.alternate, (collect_alternate s.flags p).left⟩
  net := by
    change ForegroundWork.net (s.calls ++ (collect s.flags p).2) = _
    rw [net_append, hs.net]
    exact (collect_alternate s.flags p).right
  active := by
    change (s.calls ++ (collect s.flags p).2).foldl countActive 0 = _
    rw [List.foldl_append, hs.active]
    exact foldl_countActive s.flags p

theorem step_consistent {s s' : App} {e : Event} (hs : Consistent s)
    (h : step s e = some s') : Consistent s' := by
  rcases step_shows h with ⟨hobserved, hflags, hcalls⟩ | ⟨i, j, p, q, _, _, hs'⟩
  · constructor
    · rw [hflags, hobserved]
      exact hs.flags
    · rw [hcalls]
      exact hs.alternate
    · rw [hcalls, hflags]
      exact hs.net
    · rw [hcalls, hflags]
      exact hs.active
  · rw [hs']
    exact hs.observe i j (p, q.2)

theorem run_consistent {m : Manager} {es : List Event} {s : App}
    (hrun : runEvents step (App.launched m) es = some s) : Consistent s := by
  have hsteps : AllSteps step (fun _ _ => True) (App.launched m) es :=
    AllSteps.of_forall (fun _ _ => trivial) _ es
  exact runEvents_invariant (fun _ _ _ hs _ h => step_consistent hs h)
    (consistent_launched m) hsteps hrun

/-!
# Nothing but plain operations
-/

def Event.plain : Event -> Bool
  | Event.start o => ForegroundWork.plain o
  | Event.clearTransfer => false
  | Event.dismiss => false
  | _ => true

structure Untouched (transfer : TransferState) (s : App) : Prop where
  manager : s.manager.transfer = transfer
  values : forall k q, s.seenTransfer ≤ k -> s.values[k]? = some q -> q.2 = transfer
  work : forall p, s.work = some p -> Keeps p

theorem getElem?_concat {alpha : Type} {l : List alpha} {x y : alpha} {k : Nat}
    (h : (l ++ [x])[k]? = some y) : l[k]? = some y ∨ y = x := by
  rw [List.getElem?_append] at h
  split at h
  · exact Or.inl h
  · have hmem := List.mem_of_getElem? h
    exact Or.inr (List.mem_singleton.mp hmem)

theorem step_untouched {transfer : TransferState} {s s' : App} {e : Event}
    (hs : Untouched transfer s) (he : e.plain = true) (h : step s e = some s') :
    Untouched transfer s' := by
  cases e with
  | start o =>
      simp only [step] at h
      split at h
      · cases h
      · cases h
        refine ⟨hs.manager, hs.values, ?_⟩
        intro p hp
        cases hp
        exact keeps_program he
  | proceed a =>
      simp only [step] at h
      split at h
      · cases h
      · cases h
        refine ⟨hs.manager, hs.values, ?_⟩
        intro p hp
        cases hp
      case h_3 o next hwork =>
        cases h
        rcases hs.work _ hwork with ⟨hkeeps, hnext⟩
        rcases hkeeps a s.coroutine with ⟨htransfer, hbetween⟩
        have hnew : (exec o a s.coroutine).2.manager.transfer = transfer :=
          htransfer.trans hs.manager
        constructor
        · exact hnew
        · intro k q hk hq
          change ((s.values ++ between s.coroutine a o) ++
            [current (exec o a s.coroutine).2.manager])[k]? = some q at hq
          rw [hbetween, List.append_nil] at hq
          rcases getElem?_concat hq with hq | hq
          · exact hs.values k q hk hq
          · rw [hq]
            exact hnew
        · intro p hp
          cases hp
          exact hnext _ trivial
  | clearTransfer => cases he
  | dismiss => cases he
  | elsewhere f =>
      cases h
      exact ⟨hs.manager, hs.values, hs.work⟩
  | collect i j =>
      simp only [step] at h
      split at h
      case isFalse => cases h
      case isTrue hle =>
        split at h
        case h_2 => cases h
        case h_1 =>
          split at h
          · cases h
          · cases h
            refine ⟨hs.manager, ?_, hs.work⟩
            intro k q hk hq
            exact hs.values k q (hle.right.trans hk) hq

def notices : TransferState -> List Shown -> List Call
  | TransferState.Idle, _ => []
  | _, more => more.map fun _ => Call.failed downloadFailed

theorem notices_concat (transfer : TransferState) (more : List Shown)
    {p : ModelManager.State} (h : Shown.active (p, transfer) = false) :
    notices transfer (more ++ [(p, transfer)]) =
      notices transfer more ++ (collect {} (p, transfer)).2 := by
  cases transfer with
  | Idle => rfl
  | Failed _ _ =>
      simp only [notices, List.map_append]
      rfl
  | Downloading _ _ => cases h
  | Importing _ => cases h

structure Passed (s : App) (more : List Shown) (s' : App) : Prop where
  untouched : Untouched s.manager.transfer s'
  flags : s'.flags = {}
  observed : s'.observed = s.observed ++ more
  calls : s'.calls = s.calls ++ notices s.manager.transfer more

theorem step_passed {s s' s'' : App} {more : List Shown} {e : Event}
    (hidle : (current s.manager).active = false) (hs : Passed s more s')
    (he : e.plain = true) (h : step s' e = some s'') :
    exists more', Passed s more' s'' := by
  have huntouched := step_untouched hs.untouched he h
  rcases step_shows h with ⟨hobserved, hflags, hcalls⟩ | ⟨i, j, p, q, hj, hq, hs''⟩
  · exists more
    constructor
    · exact huntouched
    · exact hflags.trans hs.flags
    · exact hobserved.trans hs.observed
    · exact hcalls.trans hs.calls
  · have htransfer := hs.untouched.values j q hj hq
    rw [htransfer] at hs''
    have hactive : Shown.active (p, s.manager.transfer) = false := hidle
    exists more ++ [(p, s.manager.transfer)]
    constructor
    · exact huntouched
    · rw [hs'']
      change (collect s'.flags (p, s.manager.transfer)).1 = {}
      rw [hs.flags]
      exact collect_resting hidle
    · rw [hs'']
      change s'.observed ++ _ = _
      rw [hs.observed, List.append_assoc]
    · rw [hs'', notices_concat _ _ hactive]
      change s'.calls ++ (collect s'.flags (p, s.manager.transfer)).2 = _
      rw [hs.calls, hs.flags, List.append_assoc]

def Quiet (s s' : App) : Prop :=
  forall c, c ∈ s'.calls.drop s.calls.length -> c.isUpdate = true

instance (s s' : App) : Decidable (Quiet s s') :=
  inferInstanceAs (Decidable (forall c, c ∈ s'.calls.drop s.calls.length ->
    c.isUpdate = true))

theorem Passed.quiet_iff {s s' : App} {more : List Shown}
    (h : Passed s more s') :
    Quiet s s' <->
      s.manager.transfer = TransferState.Idle ∨ s'.observed = s.observed := by
  have hobserved : s'.observed = s.observed <-> more = [] := by
    rw [h.observed]
    exact List.append_right_eq_self
  rw [Quiet, h.calls, List.drop_left, hobserved]
  cases htransfer : s.manager.transfer with
  | Idle => simp [notices]
  | Failed _ _ =>
      cases more <;> simp [notices, Call.isUpdate]
  | Downloading _ _ => cases more <;> simp [notices, Call.isUpdate]
  | Importing _ => cases more <;> simp [notices, Call.isUpdate]

/-!
# Balance
-/

/-- The transfer has settled, no load is in progress, and the collector has been
shown both. -/
structure AtRest (s : App) : Prop where
  work : s.work.isNone = true
  transfer : (current s.manager).active = false
  state : s.manager.isLoading = false
  shown : s.observed.getLast? = some (current s.manager)

instance (s : App) : Decidable (AtRest s) :=
  decidable_of_iff
    (s.work.isNone = true ∧ (current s.manager).active = false ∧
      s.manager.isLoading = false ∧ s.observed.getLast? = some (current s.manager))
    ⟨fun h => ⟨h.1, h.2.1, h.2.2.1, h.2.2.2⟩, fun h => ⟨h.1, h.2, h.3, h.4⟩⟩

structure BetweenTransfers (s : App) : Prop where
  work : s.work.isNone = true
  transfer : (current s.manager).active = false
  values : forall q, q ∈ s.values.drop s.seenTransfer -> q.2 = s.manager.transfer

instance (s : App) : Decidable (BetweenTransfers s) :=
  decidable_of_iff
    (s.work.isNone = true ∧ (current s.manager).active = false ∧
      forall q, q ∈ s.values.drop s.seenTransfer -> q.2 = s.manager.transfer)
    ⟨fun h => ⟨h.1, h.2.1, h.2.2⟩, fun h => ⟨h.1, h.2, h.3⟩⟩

theorem BetweenTransfers.untouched {s : App} (h : BetweenTransfers s) :
    Untouched s.manager.transfer s where
  manager := rfl
  values := by
    intro k q hk hq
    apply h.values
    apply List.mem_of_getElem? (i := k - s.seenTransfer)
    rw [List.getElem?_drop, Nat.add_sub_cancel' hk]
    exact hq
  work := by
    intro p hp
    rw [Option.isNone_iff_eq_none.mp h.work] at hp
    cases hp

/--
Begin and end alternate.  Every begin is matched, at rest as anywhere, exactly if
every transfer that was shown has been finished.  From there on plain operations
are quiet exactly if the transfer is idle, or nothing of them is shown: a failed
transfer that has not been dismissed makes them post its notice again.
-/
theorem foreground_balanced {m : Manager} {es : List Event} {s : App}
    (hrun : runEvents step (App.launched m) es = some s) :
    Alternate s.calls ∧ (net s.calls = 0 <-> Finished s.observed) ∧
      (BetweenTransfers s -> Finished s.observed ->
        forall es' s', (forall e, e ∈ es' -> e.plain = true) ->
          runEvents step s es' = some s' ->
          (Quiet s s' <-> s.manager.transfer = TransferState.Idle ∨
            s'.observed = s.observed)) := by
  have hs := run_consistent hrun
  constructor
  · exact hs.alternate
  constructor
  · rw [hs.net, hs.flags]
    exact flagsAfter_open s.observed
  · intro hbetween hfinished es' s' hplain hrun'
    have hstart : Passed s [] s := by
      constructor
      · exact hbetween.untouched
      · rw [hs.flags, hfinished.flagsAfter]
      · rw [List.append_nil]
      · cases s.manager.transfer <;> simp [notices]
    have hsteps : AllSteps step (fun _ e => e.plain = true) s es' := by
      apply AllSteps.mono _ (AllSteps.of_forall (fun _ _ => trivial) s es')
      intro _ e he _
      exact hplain e he
    have hend : exists more, Passed s more s' := by
      refine runEvents_invariant (I := fun s' => exists more, Passed s more s') ?_
        ⟨[], hstart⟩ hsteps hrun'
      intro s₁ e s₂ hpassed he h
      rcases hpassed with ⟨more, hpassed⟩
      exact step_passed hbetween.transfer hpassed he h
    rcases hend with ⟨more, hpassed⟩
    exact hpassed.quiet_iff

def importShown : List Event :=
  Event.start (Operation.importModel gguf "m.gguf".toList "M".toList) ::
    List.replicate 20 (Event.proceed {}) ++
    [Event.collect 1 1, Event.collect 3 3, Event.collect 5 5, Event.collect 16 16]

def reloadShown : List Event :=
  Event.start Operation.loadActiveModelIfPresent ::
    List.replicate 2 (Event.proceed {}) ++ [Event.collect 21 21]

theorem foreground_balanced_importShown :
    exists s, runEvents step (App.launched {}) importShown = some s ∧
      Alternate s.calls ∧ net s.calls = 0 ∧
      exists s', runEvents step s reloadShown = some s' ∧ Quiet s s' := by
  have hcheck : ((runEvents step (App.launched {}) importShown).any fun s =>
      decide (BetweenTransfers s) && decide ((flagsAfter s.observed).open = 0) &&
        decide (s.manager.transfer = TransferState.Idle) &&
        (runEvents step s reloadShown).isSome) = true := by
    decide +kernel
  simp only [Option.any_eq_true, Bool.and_eq_true, decide_eq_true_eq,
    Option.isSome_iff_exists] at hcheck
  rcases hcheck with ⟨s, hrun, ⟨⟨hbetween, hopen⟩, hidle⟩, s', hrun'⟩
  rcases foreground_balanced hrun with ⟨halternate, hbalanced, hquiet⟩
  have hfinished := (flagsAfter_open s.observed).mp hopen
  refine ⟨s, hrun, halternate, hbalanced.mpr hfinished, s', hrun', ?_⟩
  exact (hquiet hbetween hfinished reloadShown s' (by decide) hrun').mpr
    (Or.inl hidle)

def spec : ModelSpec where
  displayName := "M".toList
  fileName := "m.gguf".toList
  sizeBytes := 5
  urls := ["https://m".toList]

def downloadCancelled : List Event :=
  [Event.start (Operation.downloadModel spec), Event.proceed {}, Event.collect 1 1,
    Event.proceed { delivery := Delivery.cancelledBefore }] ++
    List.replicate 3 (Event.proceed {}) ++ [Event.collect 4 4]

def importSkipped : List Event :=
  [Event.start (Operation.importModel gguf "m.gguf".toList "M".toList),
    Event.proceed {}, Event.collect 1 1] ++
    List.replicate 19 (Event.proceed {}) ++ [Event.collect 19 19]

def importFailed : List Event :=
  importShown ++
    [Event.start (Operation.importModel gguf "n.gguf".toList "N".toList),
      Event.proceed {}, Event.collect 20 20,
      Event.proceed { copyFails := some (0, none) }, Event.proceed {},
      Event.collect 22 22, Event.proceed {}]

def reloadAfter : List Event :=
  Event.start Operation.loadActiveModelIfPresent ::
    List.replicate 2 (Event.proceed {}) ++ [Event.collect 24 24]

theorem foreground_balanced_fails :
    (exists s, runEvents step (App.launched {}) downloadCancelled = some s ∧
      AtRest s ∧ net s.calls = 1) ∧
    (exists s, runEvents step (App.launched {}) importSkipped = some s ∧
      AtRest s ∧ net s.calls = 1) ∧
    (exists s, runEvents step (App.launched {}) importFailed = some s ∧
      AtRest s ∧ net s.calls = 0 ∧ (forall e, e ∈ reloadAfter -> e.plain = true) ∧
      exists s', runEvents step s reloadAfter = some s' ∧ ¬ Quiet s s') := by
  have hcancelled : ((runEvents step (App.launched {}) downloadCancelled).any
      fun s => decide (AtRest s ∧ net s.calls = 1)) = true := by
    decide +kernel
  have hskipped : ((runEvents step (App.launched {}) importSkipped).any
      fun s => decide (AtRest s ∧ net s.calls = 1)) = true := by
    decide +kernel
  have hfailed : ((runEvents step (App.launched {}) importFailed).any fun s =>
      decide (AtRest s ∧ net s.calls = 0) &&
        (runEvents step s reloadAfter).any fun s' => decide (¬ Quiet s s')) =
      true := by
    decide +kernel
  simp only [Option.any_eq_true, Bool.and_eq_true, decide_eq_true_eq]
    at hcancelled hskipped hfailed
  rcases hfailed with ⟨s, hrun, ⟨hrest, hnet⟩, hquiet⟩
  exact ⟨hcancelled, hskipped, s, hrun, hrest, hnet, by decide, hquiet⟩

end ForegroundWork
end DomainAI
