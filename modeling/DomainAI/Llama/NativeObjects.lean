import DomainAI.Llama.LLamaAndroid

/-!
# Native objects

Which native objects exist is read off the calls made so far, and so is which
generation has the context to itself.
-/

namespace DomainAI
namespace LLamaAndroid

open Library

inductive Resource where
  | model
  | context
  | batch
  | sampler
  deriving DecidableEq, Repr

abbrev Pointer := Resource × Handle

def nonNull (r : Resource) (h : Handle) : List Pointer :=
  if h = 0 then [] else [(r, h)]

namespace NativeCall

def receives : NativeCall -> List Pointer
  | load_model _ _ _ => []
  | new_context m _ _ _ _ => [(Resource.model, m)]
  | new_batch _ => []
  | new_sampler _ => []
  | free_context c => [(Resource.context, c)]
  | free_model m => [(Resource.model, m)]
  | free_batch b => [(Resource.batch, b)]
  | free_sampler p => [(Resource.sampler, p)]
  | format_chat m _ => [(Resource.model, m)]
  | context_size c => [(Resource.context, c)]
  | completion_init _ c b _ _ => [(Resource.context, c), (Resource.batch, b)]
  | completion_loop _ c b p _ _ =>
      [(Resource.context, c), (Resource.batch, b), (Resource.sampler, p)]
  | kv_cache_clear c => [(Resource.context, c)]

def returns : NativeCall -> List Pointer
  | load_model _ _ m => nonNull Resource.model m
  | new_context _ _ _ _ c => nonNull Resource.context c
  | new_batch b => nonNull Resource.batch b
  | new_sampler p => nonNull Resource.sampler p
  | _ => []

def frees : NativeCall -> List Pointer
  | free_context c => [(Resource.context, c)]
  | free_model m => [(Resource.model, m)]
  | free_batch b => [(Resource.batch, b)]
  | free_sampler p => [(Resource.sampler, p)]
  | _ => []

/-- The generation whose prompt the context holds after the call. -/
def passesOn : NativeCall -> Option GenerationId -> Option GenerationId
  | completion_init id _ _ _ _, _ => some id
  | new_context _ _ _ _ c, holder => if c = 0 then holder else none
  | free_context _, _ => none
  | _, holder => holder

def loopsFor : NativeCall -> Option GenerationId
  | completion_loop id _ _ _ _ _ => some id
  | _ => none

end NativeCall

def live (calls : List NativeCall) : List Pointer :=
  calls.foldl (fun ps c => ps.filter (fun p => p ∉ c.frees) ++ c.returns) []

/-- The last generation to prefill the context, unless it was freed or made
since. -/
def holder (calls : List NativeCall) : Option GenerationId :=
  calls.foldl (fun holder c => c.passesOn holder) none

/-- A call uses live objects, and a loop goes on from its own prompt. -/
def Exclusive (calls : List NativeCall) (c : NativeCall) : Prop :=
  (forall p, p ∈ c.receives -> p ∈ live calls) ∧
    forall id, c.loopsFor = some id -> holder calls = some id

theorem mem_live_concat {calls : List NativeCall} {c : NativeCall} {p : Pointer} :
    p ∈ live (calls ++ [c]) <-> (p ∈ live calls ∧ p ∉ c.frees) ∨ p ∈ c.returns := by
  simp [live, List.foldl_append]

@[simp] theorem holder_concat (calls : List NativeCall) (c : NativeCall) :
    holder (calls ++ [c]) = c.passesOn (holder calls) := by
  simp [holder, List.foldl_append]

theorem mem_live_append {calls more : List NativeCall}
    (h : forall c, c ∈ more -> c.frees = []) {p : Pointer} :
    p ∈ live (calls ++ more) <->
      p ∈ live calls ∨ exists c, c ∈ more ∧ p ∈ c.returns := by
  induction more generalizing calls with
  | nil => simp
  | cons c more ih =>
      rw [List.append_cons, ih fun d hd => h d (List.mem_cons_of_mem _ hd),
        mem_live_concat, h c List.mem_cons_self]
      simp [or_assoc]

theorem live_append {calls more : List NativeCall}
    (h : forall c, c ∈ more -> c.frees = [] ∧ c.returns = []) :
    live (calls ++ more) = live calls := by
  induction more generalizing calls with
  | nil => simp
  | cons c more ih =>
      rw [List.append_cons, ih fun d hd => h d (List.mem_cons_of_mem _ hd)]
      simp [live, List.foldl_append, h c List.mem_cons_self]

def Loaded.pointers (h : Loaded) : List Pointer :=
  [(Resource.model, h.model), (Resource.context, h.context),
   (Resource.batch, h.batch), (Resource.sampler, h.sampler)]

/-!
# Loading
-/

namespace LoadAnswer

def opens (answer : LoadAnswer) : Bool :=
  answer.modelLoads && answer.contextOpens && answer.batchOpens &&
    answer.samplerOpens

/-- The load fails after its context was created. -/
def leaksContext (answer : LoadAnswer) : Bool :=
  answer.modelLoads && answer.contextOpens && !answer.opens

end LoadAnswer

def nextLoaded (path : Text) (s : Wrapper) : Loaded where
  path := path
  model := s.created + 1
  context := s.created + 2
  batch := s.created + 3
  sampler := s.created + 4

def loadCalls (request : LoadRequest) (answer : LoadAnswer) (s : Wrapper) :
    List NativeCall :=
  if answer.modelLoads then
    NativeCall.load_model request.pathToModel request.nGpuLayers (s.created + 1) ::
    if answer.contextOpens then
      NativeCall.new_context (s.created + 1) request.nCtx request.nThreads
        request.affinityCores (s.created + 2) ::
      if answer.batchOpens then
        NativeCall.new_batch (s.created + 3) ::
        if answer.samplerOpens then [NativeCall.new_sampler (s.created + 4)]
        else [NativeCall.new_sampler 0]
      else [NativeCall.new_batch 0]
    else
      [NativeCall.new_context (s.created + 1) request.nCtx request.nThreads
        request.affinityCores 0]
  else [NativeCall.load_model request.pathToModel request.nGpuLayers 0]

namespace Wrapper

variable {s : Wrapper} {h : Loaded}

theorem load_of_loaded (hs : s.threadLocalState = State.Loaded h)
    (request : LoadRequest) (answer : LoadAnswer) :
    s.load request answer =
      (Except.error "Model already loaded".toList, s) := by
  simp [load, hs]

theorem load_spec (hs : s.threadLocalState = State.Idle) (request : LoadRequest)
    (answer : LoadAnswer) :
    (s.load request answer).2.calls = s.calls ++ loadCalls request answer s ∧
    s.created ≤ (s.load request answer).2.created ∧
    (if answer.opens then
      (s.load request answer).1 = Except.ok () ∧
        (s.load request answer).2.threadLocalState =
          State.Loaded (nextLoaded request.pathToModel s) ∧
        (s.load request answer).2.created = s.created + 4
    else
      (exists error, (s.load request answer).1 = Except.error error) ∧
        (s.load request answer).2.threadLocalState = State.Idle) := by
  rcases answer with ⟨_ | _, lastError, _ | _, _ | _, _ | _⟩ <;>
    simp [load, hs, load_model, new_context, new_batch, new_sampler, create,
      record, setState, nextLoaded, loadCalls, LoadAnswer.opens]
  all_goals omega

end Wrapper

theorem loadCalls_frees (request : LoadRequest) (answer : LoadAnswer)
    (s : Wrapper) : forall c, c ∈ loadCalls request answer s -> c.frees = [] := by
  rcases answer with ⟨_ | _, lastError, _ | _, _ | _, _ | _⟩ <;>
    simp [loadCalls, NativeCall.frees]

theorem loadCalls_returns {request : LoadRequest} {answer : LoadAnswer}
    {s : Wrapper} {c : NativeCall} (hc : c ∈ loadCalls request answer s)
    {p : Pointer} (hp : p ∈ c.returns) : s.created < p.2 := by
  rcases answer with ⟨_ | _, lastError, _ | _, _ | _, _ | _⟩ <;>
    simp only [loadCalls, if_true, Bool.false_eq_true, if_false, List.mem_cons,
      List.not_mem_nil, or_false] at hc <;>
    rcases hc with rfl | rfl | rfl | rfl <;>
    simp [NativeCall.returns, nonNull] at hp <;> simp [hp]

theorem loadCalls_opens {request : LoadRequest} {answer : LoadAnswer}
    (hopens : answer.opens = true) (s : Wrapper) {p : Pointer} :
    (exists c, c ∈ loadCalls request answer s ∧ p ∈ c.returns) <->
      p ∈ (nextLoaded request.pathToModel s).pointers := by
  simp only [LoadAnswer.opens, Bool.and_eq_true] at hopens
  simp [loadCalls, hopens, NativeCall.returns, nonNull, Loaded.pointers,
    nextLoaded]

/-!
# What the wrapper keeps
-/

structure Wrapper.Intact (s : Wrapper) : Prop where
  live : forall h, s.threadLocalState = State.Loaded h ->
    forall p, p ∈ h.pointers -> p ∈ live s.calls
  created : forall h, s.threadLocalState = State.Loaded h ->
    h.context ≤ s.created

theorem intact_initial : Wrapper.Intact {} where
  live := by intro h hh; cases hh
  created := by intro h hh; cases hh

namespace Wrapper.Intact

variable {s : Wrapper}

theorem record (hs : s.Intact) {calls : List NativeCall}
    (hcalls : forall c, c ∈ calls -> c.frees = [] ∧ c.returns = []) :
    (s.record calls).Intact where
  live h hh := by
    rw [Wrapper.record, live_append hcalls]
    exact hs.live h hh
  created := hs.created

theorem unload (hs : s.Intact) : s.unload.Intact := by
  unfold Wrapper.unload
  split
  · constructor
    · intro h hh
      cases hh
    · intro h hh
      cases hh
  · exact hs

theorem load (hs : s.Intact) (request : LoadRequest) (answer : LoadAnswer) :
    (s.load request answer).2.Intact := by
  rcases hstate : s.threadLocalState with _ | h
  · rcases Wrapper.load_spec hstate request answer with ⟨hcalls, _, hresult⟩
    split at hresult
    · rename_i hopens
      rcases hresult with ⟨_, hloaded, hcreated⟩
      constructor
      · intro h hh p hp
        rw [hloaded] at hh
        cases hh
        rw [hcalls, mem_live_append (loadCalls_frees request answer s)]
        exact Or.inr ((loadCalls_opens hopens s).mpr hp)
      · intro h hh
        rw [hloaded] at hh
        cases hh
        rw [hcreated]
        exact Nat.add_le_add_left (by decide) _
    · rcases hresult with ⟨_, hidle⟩
      constructor
      · intro h hh
        exact absurd (hidle.symm.trans hh) (by simp)
      · intro h hh
        exact absurd (hidle.symm.trans hh) (by simp)
  · rw [Wrapper.load_of_loaded hstate]
    exact hs

end Wrapper.Intact

def Wrapper.NoLeak (s : Wrapper) : Prop :=
  forall c, (Resource.context, c) ∈ live s.calls ->
    exists h, s.threadLocalState = State.Loaded h ∧ h.context = c

theorem noLeak_initial : Wrapper.NoLeak {} := by
  intro c hc
  cases hc

namespace Wrapper.NoLeak

variable {s : Wrapper}

theorem unload (hs : s.NoLeak) : s.unload.NoLeak := by
  unfold Wrapper.unload
  split
  · rename_i h hh
    intro c hc
    have hold : (Resource.context, c) ∈ live s.calls ∧ c ≠ h.context := by
      simpa [Wrapper.record, Wrapper.setState, live, List.foldl_append,
        NativeCall.frees, NativeCall.returns] using hc
    rcases hs c hold.left with ⟨h', hh', hc'⟩
    rw [hh] at hh'
    cases hh'
    exact absurd hc'.symm hold.right
  · exact hs

theorem load (hs : s.NoLeak) (request : LoadRequest) {answer : LoadAnswer}
    (hanswer : answer.leaksContext = false) :
    (s.load request answer).2.NoLeak := by
  rcases hstate : s.threadLocalState with _ | h
  · have hnone : forall c, (Resource.context, c) ∉ live s.calls := by
      intro c hc
      rcases hs c hc with ⟨h, hh, _⟩
      rw [hstate] at hh
      cases hh
    rcases Wrapper.load_spec hstate request answer with ⟨hcalls, _, hresult⟩
    intro c hc
    rw [hcalls, mem_live_append (loadCalls_frees request answer s)] at hc
    rcases hc with hold | ⟨call, hcall, hreturns⟩
    · exact absurd hold (hnone c)
    · rcases answer with ⟨_ | _, lastError, _ | _, _ | _, _ | _⟩ <;>
        simp [LoadAnswer.leaksContext, LoadAnswer.opens] at hanswer <;>
        simp only [loadCalls, if_true, Bool.false_eq_true, if_false,
          List.mem_cons, List.not_mem_nil, or_false] at hcall <;>
        rcases hcall with rfl | rfl | rfl | rfl <;>
        simp [NativeCall.returns, nonNull] at hreturns
      refine ⟨_, hresult.right.left, ?_⟩
      exact hreturns.symm
  · rw [Wrapper.load_of_loaded hstate]
    exact hs

end Wrapper.NoLeak

end LLamaAndroid
end DomainAI
