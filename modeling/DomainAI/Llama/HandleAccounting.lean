import DomainAI.Llama.NativeObjects

/-!
# Handle accounting

The wrapper owns the native objects its state refers to.  Nothing is ever freed
twice, but a load that gives up after `load_model` has returned a model leaves
behind what it has created.
-/

namespace DomainAI
namespace LLamaAndroid

open Library

namespace State

def pointers : State -> List Pointer
  | Idle => []
  | Loaded h => h.pointers

end State

inductive Call where
  | load (request : LoadRequest) (answer : LoadAnswer)
  | unload
  deriving DecidableEq, Repr

namespace Wrapper

def perform (w : Wrapper) : Call -> Wrapper
  | Call.load request answer => (w.load request answer).2
  | Call.unload => w.unload

def Throws (w : Wrapper) : Call -> Prop
  | Call.load request answer =>
      exists error, (w.load request answer).1 = Except.error error
  | Call.unload => False

def Accounted (w : Wrapper) : Prop :=
  live w.calls = w.threadLocalState.pointers

structure Accounts (w : Wrapper) (call : Call) : Prop where
  accounted : (w.perform call).Accounted
  throws : w.Throws call -> live (w.perform call).calls = live w.calls

/-- A load into an idle wrapper that gets a model gets everything else too. -/
def Complete (w : Wrapper) : Call -> Prop
  | Call.load _ answer =>
      w.threadLocalState = State.Idle -> answer.modelLoads = true ->
        answer.opens = true
  | Call.unload => True

end Wrapper

def freed (calls : List NativeCall) : List Pointer :=
  calls.flatMap NativeCall.frees

/-!
# Live objects
-/

theorem live_concat (calls : List NativeCall) (c : NativeCall) :
    live (calls ++ [c]) =
      (live calls).filter (fun p => p ∉ c.frees) ++ c.returns := by
  simp [live, List.foldl_append]

theorem live_unload {calls : List NativeCall} {h : Loaded}
    (hlive : live calls = h.pointers) :
    live (calls ++ [NativeCall.free_context h.context,
      NativeCall.free_model h.model, NativeCall.free_batch h.batch,
      NativeCall.free_sampler h.sampler]) = [] := by
  rw [List.append_cons, List.append_cons, List.append_cons, live_concat,
    live_concat, live_concat, live_concat, hlive]
  simp [Loaded.pointers, NativeCall.frees, NativeCall.returns]

theorem live_append_of_frees_nil {calls more : List NativeCall}
    (h : forall c, c ∈ more -> c.frees = []) :
    live (calls ++ more) = live calls ++ more.flatMap NativeCall.returns := by
  induction more generalizing calls with
  | nil => simp
  | cons c more ih =>
      have hc : c.frees = [] := h c List.mem_cons_self
      rw [List.append_cons, ih fun d hd => h d (List.mem_cons_of_mem _ hd)]
      simp [live, List.foldl_append, hc]

/-- What a load creates is everything or, when it fails, what came before the
failure. -/
theorem loadCalls_flatMap_returns (request : LoadRequest) (answer : LoadAnswer)
    (w : Wrapper) :
    (answer.opens = true ->
      (loadCalls request answer w).flatMap NativeCall.returns =
        (nextLoaded request.pathToModel w).pointers) ∧
    (answer.opens = false ->
      ((loadCalls request answer w).flatMap NativeCall.returns = [] <->
        answer.modelLoads = false)) := by
  rcases answer with ⟨_ | _, lastError, _ | _, _ | _, _ | _⟩ <;>
    simp [loadCalls, LoadAnswer.opens, NativeCall.returns, nonNull,
      Loaded.pointers, nextLoaded]

namespace Wrapper

theorem accounted_initial : Accounted {} := rfl

theorem unload_accounted {w : Wrapper} (hw : w.Accounted) :
    w.unload.Accounted := by
  cases hstate : w.threadLocalState with
  | Idle =>
      rw [unload, hstate]
      exact hw
  | Loaded h =>
      have hlive : live w.calls = h.pointers := by
        rw [hw, hstate]
        rfl
      rw [Accounted, unload, hstate]
      exact live_unload hlive

theorem load_accounts {w : Wrapper} (hw : w.Accounted) (request : LoadRequest)
    (answer : LoadAnswer) :
    w.Accounts (Call.load request answer) <->
      w.Complete (Call.load request answer) := by
  cases hstate : w.threadLocalState with
  | Loaded h =>
      have hload := load_of_loaded hstate request answer
      constructor
      · intro _ hidle
        rw [hstate] at hidle
        cases hidle
      · intro _
        constructor
        · rw [perform, hload]
          exact hw
        · intro _
          rw [perform, hload]
  | Idle =>
      have hnone : live w.calls = [] := by
        rw [hw, hstate]
        rfl
      rcases load_spec hstate request answer with ⟨hcalls, _, hresult⟩
      have hlive : live (w.load request answer).2.calls =
          (loadCalls request answer w).flatMap NativeCall.returns := by
        rw [hcalls, live_append_of_frees_nil (loadCalls_frees request answer w),
          hnone, List.nil_append]
      rcases loadCalls_flatMap_returns request answer w with ⟨hall, hpart⟩
      cases hopens : answer.opens with
      | true =>
          rw [hopens, if_pos rfl] at hresult
          rcases hresult with ⟨hok, hloaded, _⟩
          constructor
          · intro _ _ _
            exact hopens
          · intro _
            constructor
            · rw [Accounted, perform, hlive, hall hopens, hloaded]
              rfl
            · intro hthrows
              rcases hthrows with ⟨error, herror⟩
              rw [hok] at herror
              cases herror
      | false =>
          rw [hopens] at hresult
          rcases hresult with ⟨_, hidle⟩
          constructor
          · intro h _ hmodel
            have hempty : live (w.load request answer).2.calls = [] := by
              have haccounted := h.accounted
              rw [Accounted, perform, hidle] at haccounted
              exact haccounted
            rw [hlive, hpart hopens, hmodel] at hempty
            cases hempty
          · intro h
            have hmodel : answer.modelLoads = false := by
              cases hloads : answer.modelLoads with
              | false => rfl
              | true => exact absurd (h hstate hloads) (by simp [hopens])
            have hempty : live (w.load request answer).2.calls = [] := by
              rw [hlive]
              exact (hpart hopens).mpr hmodel
            constructor
            · rw [Accounted, perform, hempty, hidle]
              rfl
            · intro _
              rw [perform, hempty, hnone]

theorem accounts_iff {w : Wrapper} (hw : w.Accounted) (call : Call) :
    w.Accounts call <-> w.Complete call := by
  cases call with
  | load request answer => exact load_accounts hw request answer
  | unload =>
      constructor
      · intro _
        trivial
      · intro _
        constructor
        · exact unload_accounted hw
        · intro hthrows
          cases hthrows

/-!
# Freeing
-/

structure Owned (w : Wrapper) : Prop where
  once : (freed w.calls).Nodup
  created : forall p, p ∈ freed w.calls -> p.2 ≤ w.created
  bounded : forall p, p ∈ w.threadLocalState.pointers -> p.2 ≤ w.created
  kept : forall p, p ∈ w.threadLocalState.pointers -> p ∉ freed w.calls

theorem owned_initial : Owned {} where
  once := List.nodup_nil
  created := by intro p hp; cases hp
  bounded := by intro p hp; cases hp
  kept := by intro p hp; cases hp

theorem freed_load (w : Wrapper) (hw : w.threadLocalState = State.Idle)
    (request : LoadRequest) (answer : LoadAnswer) :
    freed (w.load request answer).2.calls = freed w.calls := by
  have hnone : (loadCalls request answer w).flatMap NativeCall.frees = [] :=
    List.flatMap_eq_nil_iff.mpr (loadCalls_frees request answer w)
  rw [(load_spec hw request answer).left, freed, List.flatMap_append, hnone,
    List.append_nil, freed]

namespace Owned

variable {w : Wrapper}

theorem unload (hw : w.Owned) : w.unload.Owned := by
  cases hstate : w.threadLocalState with
  | Idle =>
      rw [Wrapper.unload, hstate]
      exact hw
  | Loaded h =>
      have hkept := hw.kept
      have hbounded := hw.bounded
      rw [hstate] at hkept hbounded
      let more := [(Resource.context, h.context), (Resource.model, h.model),
        (Resource.batch, h.batch), (Resource.sampler, h.sampler)]
      have hmore : forall p, p ∈ more -> p ∈ h.pointers := by
        intro p hp
        simp only [more, Loaded.pointers, List.mem_cons, List.not_mem_nil,
          or_false] at hp ⊢
        rcases hp with hp | hp | hp | hp <;> simp [hp]
      have hfreed : freed w.unload.calls = freed w.calls ++ more := by
        rw [Wrapper.unload, hstate]
        simp [Wrapper.record, Wrapper.setState, freed, NativeCall.frees, more]
      have hcreated : w.unload.created = w.created := by
        rw [Wrapper.unload, hstate]
        rfl
      have hidle : w.unload.threadLocalState = State.Idle := by
        rw [Wrapper.unload, hstate]
        rfl
      constructor
      · rw [hfreed, List.nodup_append]
        constructor
        · exact hw.once
        · constructor
          · simp [more]
          · intro p hold p' hp heq
            rw [heq] at hold
            exact hkept p' (hmore p' hp) hold
      · intro p hp
        rw [hfreed] at hp
        rw [hcreated]
        rcases List.mem_append.mp hp with hold | hnew
        · exact hw.created p hold
        · exact hbounded p (hmore p hnew)
      · intro p hp
        rw [hidle] at hp
        cases hp
      · intro p hp
        rw [hidle] at hp
        cases hp

theorem load (hw : w.Owned) (request : LoadRequest) (answer : LoadAnswer) :
    (w.load request answer).2.Owned := by
  cases hstate : w.threadLocalState with
  | Loaded h =>
      rw [load_of_loaded hstate]
      exact hw
  | Idle =>
      have hfreed := freed_load w hstate request answer
      rcases load_spec hstate request answer with ⟨_, hcreated, hresult⟩
      -- the objects of a successful load are numbered beyond all freed ones
      have hnew : forall p,
          p ∈ (w.load request answer).2.threadLocalState.pointers ->
            w.created < p.2 ∧ p.2 ≤ (w.load request answer).2.created := by
        intro p hp
        split at hresult
        · rcases hresult with ⟨_, hloaded, hcount⟩
          rw [hloaded] at hp
          simp only [State.pointers, Loaded.pointers, nextLoaded, List.mem_cons,
            List.not_mem_nil, or_false] at hp
          rcases hp with hp | hp | hp | hp <;> simp [hp, hcount]
        · rw [hresult.right] at hp
          cases hp
      constructor
      · rw [hfreed]
        exact hw.once
      · intro p hp
        rw [hfreed] at hp
        exact Nat.le_trans (hw.created p hp) hcreated
      · intro p hp
        exact (hnew p hp).right
      · intro p hp hold
        rw [hfreed] at hold
        exact Nat.not_le_of_gt (hnew p hp).left (hw.created p hold)

theorem perform (hw : w.Owned) (call : Call) : (w.perform call).Owned := by
  cases call with
  | load request answer => exact hw.load request answer
  | unload => exact hw.unload

end Owned
end Wrapper

/-!
# Runs
-/

/-- In every run nothing is freed twice; and every call leaves exactly the
objects of the state alive, a load that throws leaving none behind, exactly when
no load stops halfway. -/
theorem handles_accounted (calls : List Call) :
    (forall w, runEvents (always Wrapper.perform) {} calls = some w ->
      (freed w.calls).Nodup) ∧
    (AllSteps (always Wrapper.perform) Wrapper.Accounts {} calls <->
      AllSteps (always Wrapper.perform) Wrapper.Complete {} calls) := by
  constructor
  · intro w hrun
    have hall : AllSteps (always Wrapper.perform) (fun _ _ => True) {} calls :=
      AllSteps.of_forall (fun _ _ => trivial) _ _
    have howned : w.Owned := by
      apply runEvents_invariant _ Wrapper.owned_initial hall hrun
      intro s call s' hs _ hstep
      cases hstep
      exact hs.perform call
    exact howned.once
  · apply allSteps_iff_of_invariant (I := Wrapper.Accounted)
    · intro w call w' hw hcomplete hstep
      cases hstep
      exact ((Wrapper.accounts_iff hw call).mpr hcomplete).accounted
    · intro w call hw
      exact Wrapper.accounts_iff hw call
    · exact Wrapper.accounted_initial

/-- A load whose context does not open leaves its model behind. -/
theorem handles_accounted_fails :
    ¬ forall calls : List Call,
      AllSteps (always Wrapper.perform) Wrapper.Accounts {} calls := by
  intro h
  have hload := h [Call.load { pathToModel := [], nCtx := 2048 }
    { contextOpens := false }]
  have hlive := hload.left.accounted
  cases hlive

end LLamaAndroid
end DomainAI
