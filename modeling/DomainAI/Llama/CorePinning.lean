import DomainAI.Llama.ExclusiveContext

/-!
# Core pinning

The native side keeps one thread pool besides the context: made with it where there are
cores to pin to, attached to it, and freed with it.  What becomes of the pools is read off
the native calls, for any answers of `ggml_threadpool_new`.
-/

namespace DomainAI
namespace LLamaAndroid

open Library RunLoop

/-- A pool is known by the attempt that made it. -/
abbrev Pool := Nat

structure Pools where
  g_threadpool : Option Pool := none
  attached : Handle -> Option Pool := fun _ => none
  freed : List Pool := []
  attempts : Nat := 0

namespace Pools

def freeKept (p : Pools) : Pools :=
  match p.g_threadpool with
  | none => p
  | some pool => { p with g_threadpool := none, freed := p.freed ++ [pool] }

def pin (opens : Pool -> Bool) (cores : List Int) (context : Handle) (p : Pools) : Pools :=
  if cores = [] then p
  else if opens p.attempts then
    { p with
      g_threadpool := some p.attempts
      attached := Function.update p.attached context (some p.attempts)
      attempts := p.attempts + 1 }
  else { p with attempts := p.attempts + 1 }

def detach (context : Handle) (p : Pools) : Pools :=
  { p with attached := Function.update p.attached context none }

def call (opens : Pool -> Bool) (p : Pools) : NativeCall -> Pools
  | NativeCall.new_context _ _ _ cores context =>
      if context = 0 then p else p.freeKept.pin opens cores context
  | NativeCall.free_context context =>
      if p.g_threadpool.isSome then (p.detach context).freeKept else p
  | _ => p

end Pools

def pools (opens : Pool -> Bool) (calls : List NativeCall) : Pools :=
  calls.foldl (Pools.call opens) {}

def NativeCall.decodes : NativeCall -> Option Handle
  | NativeCall.completion_init _ context _ _ _ => some context
  | NativeCall.completion_loop _ context _ _ _ _ => some context
  | _ => none

/-- A decode runs on no pool that has been freed. -/
def DecodesPinned (opens : Pool -> Bool) (earlier : List NativeCall) (c : NativeCall) :
    Prop :=
  forall context pool, c.decodes = some context ->
    (pools opens earlier).attached context = some pool ->
    pool ∉ (pools opens earlier).freed

/-!
# One call
-/

/-- What every call keeps: each pool is freed at most once, the one kept is not freed, and
no other one is still there. -/
structure Pools.Sound (opens : Pool -> Bool) (p : Pools) : Prop where
  freed : p.freed.Nodup
  made : forall pool, pool ∈ p.freed -> pool < p.attempts
  kept : forall pool, p.g_threadpool = some pool ->
    pool ∉ p.freed ∧ pool < p.attempts
  accounted : forall pool, pool < p.attempts -> opens pool = true ->
    pool ∈ p.freed ∨ p.g_threadpool = some pool

namespace Pools

variable {opens : Pool -> Bool} {p : Pools}

theorem sound_initial : Sound opens {} where
  freed := List.nodup_nil
  made pool hpool := by cases hpool
  kept pool hpool := by cases hpool
  accounted pool hpool := by cases hpool

theorem Sound.freeKept (h : p.Sound opens) : p.freeKept.Sound opens := by
  unfold Pools.freeKept
  split
  · exact h
  · rename_i pool hkept
    rcases h.kept pool hkept with ⟨hlive, hmade⟩
    refine ⟨?_, ?_, ?_, ?_⟩
    · refine List.nodup_append.mpr ⟨h.freed, by simp, ?_⟩
      intro a ha b hb hab
      rw [hab, List.mem_singleton.mp hb] at ha
      exact hlive ha
    · intro other hother
      rcases List.mem_append.mp hother with hbefore | hnow
      · exact h.made other hbefore
      · rw [List.mem_singleton.mp hnow]
        exact hmade
    · intro other hother
      cases hother
    · intro other hlt hopens
      left
      rcases h.accounted other hlt hopens with hfreed | hsame
      · exact List.mem_append_left _ hfreed
      · rw [hkept] at hsame
        cases hsame
        exact List.mem_append_right _ List.mem_cons_self

@[simp] theorem freeKept_g_threadpool : p.freeKept.g_threadpool = none := by
  unfold Pools.freeKept
  split
  · assumption
  · rfl

@[simp] theorem freeKept_attached : p.freeKept.attached = p.attached := by
  unfold Pools.freeKept
  split <;> rfl

theorem Sound.pin (h : p.Sound opens) (hnone : p.g_threadpool = none) (cores : List Int)
    (context : Handle) : (p.pin opens cores context).Sound opens := by
  have hbefore : forall pool, pool < p.attempts -> opens pool = true -> pool ∈ p.freed := by
    intro pool hlt hopens
    refine (h.accounted pool hlt hopens).resolve_right ?_
    rw [hnone]
    exact Option.some_ne_none pool ∘ Eq.symm
  have hfresh : p.attempts ∉ p.freed := fun hmem => Nat.lt_irrefl _ (h.made _ hmem)
  unfold Pools.pin
  split
  · exact h
  · split
    · refine ⟨h.freed, fun pool hpool => Nat.lt_succ_of_lt (h.made pool hpool), ?_, ?_⟩
      · intro pool hpool
        cases hpool
        exact ⟨hfresh, Nat.lt_succ_self _⟩
      · intro pool hlt hopens
        rcases Nat.lt_succ_iff_lt_or_eq.mp hlt with hold | hnew
        · exact Or.inl (hbefore pool hold hopens)
        · exact Or.inr (congrArg some hnew.symm)
    · rename_i hfails
      refine ⟨h.freed, fun pool hpool => Nat.lt_succ_of_lt (h.made pool hpool), ?_, ?_⟩
      · intro pool hpool
        rw [hnone] at hpool
        cases hpool
      · intro pool hlt hopens
        rcases Nat.lt_succ_iff_lt_or_eq.mp hlt with hold | hnew
        · exact Or.inl (hbefore pool hold hopens)
        · rw [hnew] at hopens
          exact absurd hopens hfails

theorem Sound.call (h : p.Sound opens) (c : NativeCall) : (p.call opens c).Sound opens := by
  cases c with
  | new_context model nCtx nThreads cores context =>
      simp only [Pools.call]
      split
      · exact h
      · exact h.freeKept.pin freeKept_g_threadpool cores context
  | free_context context =>
      simp only [Pools.call]
      split
      · exact Sound.freeKept ⟨h.freed, h.made, h.kept, h.accounted⟩
      · exact h
  | _ => exact h

end Pools

theorem pools_sound (opens : Pool -> Bool) (calls : List NativeCall) :
    (pools opens calls).Sound opens := by
  unfold pools
  generalize hp : ({} : Pools) = p
  have h : p.Sound opens := by
    rw [<- hp]
    exact Pools.sound_initial
  clear hp
  induction calls generalizing p with
  | nil => exact h
  | cons c calls ih => exact ih (p.call opens c) (h.call c)

theorem pools_append (opens : Pool -> Bool) (calls more : List NativeCall) :
    pools opens (calls ++ more) = more.foldl (Pools.call opens) (pools opens calls) :=
  List.foldl_append

theorem pools_neutral (opens : Pool -> Bool) {calls more : List NativeCall}
    (h : forall c, c ∈ more -> c.frees = [] ∧ c.returns = []) :
    pools opens (calls ++ more) = pools opens calls := by
  rw [pools_append]
  induction more with
  | nil => rfl
  | cons c more ih =>
      have hc := h c List.mem_cons_self
      have hsame : (pools opens calls).call opens c = pools opens calls := by
        cases c with
        | new_context model nCtx nThreads cores context =>
            rcases hc with ⟨_, hreturns⟩
            simp only [NativeCall.returns, nonNull] at hreturns
            split at hreturns
            · rename_i hnull
              exact if_pos hnull
            · cases hreturns
        | free_context context => cases hc.left
        | _ => rfl
      rw [List.foldl_cons, hsame]
      exact ih fun c hc => h c (List.mem_cons_of_mem _ hc)

/-!
# What the wrapper keeps
-/

/-- Contexts to come are attached to nothing, and the loaded one to the pool that is kept. -/
structure Pinned (opens : Pool -> Bool) (w : Wrapper) : Prop where
  known : forall context pool, (pools opens w.calls).attached context = some pool ->
    context ≤ w.created
  loaded : forall h, w.threadLocalState = State.Loaded h ->
    h.context ≤ w.created ∧
      (pools opens w.calls).attached h.context = (pools opens w.calls).g_threadpool

/-- A generation that goes by these pointers meets no pool that has been freed: its context
has been detached, or is the loaded one. -/
structure Usable (opens : Pool -> Bool) (w : Wrapper) (h : Loaded) : Prop where
  created : h.context ≤ w.created
  detached : (pools opens w.calls).attached h.context = none ∨
    w.threadLocalState = State.Loaded h

section Wrapper

variable {opens : Pool -> Bool} {w : Wrapper} {h : Loaded}

theorem Pinned.usable (hw : Pinned opens w) (hh : w.threadLocalState = State.Loaded h) :
    Usable opens w h :=
  ⟨(hw.loaded h hh).left, Or.inr hh⟩

theorem Usable.not_freed (hw : Pinned opens w) (hh : Usable opens w h) {pool : Pool}
    (hpool : (pools opens w.calls).attached h.context = some pool) :
    pool ∉ (pools opens w.calls).freed := by
  rcases hh.detached with hnone | hloaded
  · rw [hnone] at hpool
    cases hpool
  · rw [(hw.loaded h hloaded).right] at hpool
    exact ((pools_sound opens w.calls).kept pool hpool).left

theorem Pinned.record (hw : Pinned opens w) {calls : List NativeCall}
    (hcalls : forall c, c ∈ calls -> c.frees = [] ∧ c.returns = []) :
    Pinned opens (w.record calls) := by
  have hsame : pools opens (w.calls ++ calls) = pools opens w.calls :=
    pools_neutral opens hcalls
  constructor
  · show forall context pool, (pools opens (w.calls ++ calls)).attached context = some pool ->
      context ≤ w.created
    rw [hsame]
    exact hw.known
  · show forall h, w.threadLocalState = State.Loaded h -> h.context ≤ w.created ∧
      (pools opens (w.calls ++ calls)).attached h.context =
        (pools opens (w.calls ++ calls)).g_threadpool
    rw [hsame]
    exact hw.loaded

theorem Usable.record (hh : Usable opens w h) {calls : List NativeCall}
    (hcalls : forall c, c ∈ calls -> c.frees = [] ∧ c.returns = []) :
    Usable opens (w.record calls) h := by
  refine ⟨hh.created, ?_⟩
  show (pools opens (w.calls ++ calls)).attached h.context = none ∨ _
  rw [pools_neutral opens hcalls]
  exact hh.detached

theorem pools_load (hidle : w.threadLocalState = State.Idle) (request : LoadRequest)
    (answer : LoadAnswer) :
    pools opens (w.load request answer).2.calls =
      (if answer.modelLoads && answer.contextOpens then
        (pools opens w.calls).freeKept.pin opens request.affinityCores (w.created + 2)
      else pools opens w.calls) ∧
    (answer.modelLoads && answer.contextOpens ->
      w.created + 2 ≤ (w.load request answer).2.created) := by
  have hcalls := (Wrapper.load_spec hidle request answer).left
  constructor
  · rw [hcalls, pools_append]
    rcases answer with ⟨_ | _, lastError, _ | _, _ | _, _ | _⟩ <;>
      simp [loadCalls, Pools.call]
  · rcases answer with ⟨_ | _, lastError, _ | _, _ | _, _ | _⟩ <;>
      simp [Wrapper.load, hidle, Wrapper.load_model, Wrapper.new_context,
        Wrapper.new_batch, Wrapper.new_sampler, Wrapper.create, Wrapper.record,
        Wrapper.setState]

theorem Pools.pin_attached_of_ne {p : Pools} {context other : Handle}
    (hother : other ≠ context) (cores : List Int) :
    (p.pin opens cores context).attached other = p.attached other := by
  unfold Pools.pin
  split
  · rfl
  · split
    · exact Function.update_of_ne hother _ _
    · rfl

theorem Pools.pin_attached {p : Pools} {context : Handle} (cores : List Int)
    (hkept : p.g_threadpool = none) (hfresh : p.attached context = none) :
    (p.pin opens cores context).attached context =
      (p.pin opens cores context).g_threadpool := by
  unfold Pools.pin
  split
  · rw [hfresh, hkept]
  · split
    · exact Function.update_self _ _ _
    · exact hfresh.trans hkept.symm

theorem Pinned.load (hw : Pinned opens w) (request : LoadRequest) (answer : LoadAnswer) :
    Pinned opens (w.load request answer).2 ∧
      forall h, Usable opens w h -> Usable opens (w.load request answer).2 h := by
  rcases hstate : w.threadLocalState with _ | loaded
  · rcases pools_load hstate request answer with ⟨hpools, hmade⟩
    rcases Wrapper.load_spec hstate request answer with ⟨_, hgrows, hresult⟩
    have hfresh : (pools opens w.calls).attached (w.created + 2) = none := by
      cases hattached : (pools opens w.calls).attached (w.created + 2) with
      | none => rfl
      | some pool =>
          have hle : w.created + 2 ≤ w.created := hw.known _ pool hattached
          omega
    have hdetached : forall h, Usable opens w h ->
        (pools opens w.calls).attached h.context = none := by
      intro h hh
      refine hh.detached.resolve_right ?_
      rw [hstate]
      exact fun hloaded => by cases hloaded
    split at hpools
    · rename_i hcontext
      have hcreated := hmade hcontext
      refine ⟨⟨?_, ?_⟩, ?_⟩
      · rw [hpools]
        intro context pool hpool
        by_cases hsame : context = w.created + 2
        · rw [hsame]
          exact hcreated
        · rw [Pools.pin_attached_of_ne hsame, Pools.freeKept_attached] at hpool
          exact Nat.le_trans (hw.known context pool hpool) hgrows
      · rw [hpools]
        intro h hh
        split at hresult
        · rw [hresult.right.left] at hh
          cases hh
          refine ⟨hcreated, Pools.pin_attached _ Pools.freeKept_g_threadpool ?_⟩
          rw [Pools.freeKept_attached]
          exact hfresh
        · rw [hresult.right] at hh
          cases hh
      · intro h hh
        refine ⟨Nat.le_trans hh.created hgrows, Or.inl ?_⟩
        have hlt : h.context < w.created + 2 :=
          Nat.lt_of_le_of_lt hh.created (Nat.lt_add_of_pos_right (by decide))
        rw [hpools, Pools.pin_attached_of_ne (Nat.ne_of_lt hlt), Pools.freeKept_attached]
        exact hdetached h hh
    · rename_i hcontext
      refine ⟨⟨?_, ?_⟩, ?_⟩
      · rw [hpools]
        intro context pool hpool
        exact Nat.le_trans (hw.known context pool hpool) hgrows
      · intro h hh
        split at hresult
        · rename_i hopens
          simp only [LoadAnswer.opens, Bool.and_eq_true] at hopens hcontext
          exact absurd hopens.left.left hcontext
        · rw [hresult.right] at hh
          cases hh
      · intro h hh
        refine ⟨Nat.le_trans hh.created hgrows, Or.inl ?_⟩
        rw [hpools]
        exact hdetached h hh
  · rw [Wrapper.load_of_loaded hstate]
    exact ⟨hw, fun _ hh => hh⟩

theorem Pinned.unload (hw : Pinned opens w) :
    Pinned opens w.unload ∧ forall h, Usable opens w h -> Usable opens w.unload h := by
  unfold Wrapper.unload
  split
  · rename_i loaded hstate
    have hpools : pools opens ((w.record
        [NativeCall.free_context loaded.context, NativeCall.free_model loaded.model,
         NativeCall.free_batch loaded.batch,
         NativeCall.free_sampler loaded.sampler]).setState State.Idle).calls =
        (pools opens w.calls).call opens (NativeCall.free_context loaded.context) := by
      show pools opens (w.calls ++ _) = _
      rw [pools_append]
      rfl
    -- freeing a context detaches it, and nothing else is attached or detached
    have hattached : forall context pool,
        ((pools opens w.calls).call opens
          (NativeCall.free_context loaded.context)).attached context = some pool ->
        context ≠ loaded.context ∧
          (pools opens w.calls).attached context = some pool := by
      intro context pool hpool
      simp only [Pools.call] at hpool
      split at hpool
      · rw [Pools.freeKept_attached] at hpool
        by_cases hsame : context = loaded.context
        · rw [hsame] at hpool
          cases (Function.update_self _ _ _).symm.trans hpool
        · exact ⟨hsame, (Function.update_of_ne hsame _ _).symm.trans hpool⟩
      · rename_i hnone
        refine ⟨?_, hpool⟩
        rintro rfl
        rw [(hw.loaded loaded hstate).right] at hpool
        rw [hpool] at hnone
        exact hnone rfl
    refine ⟨⟨?_, ?_⟩, ?_⟩
    · intro context pool hpool
      rw [hpools] at hpool
      exact hw.known context pool (hattached context pool hpool).right
    · intro h hh
      cases hh
    · intro h hh
      refine ⟨hh.created, Or.inl ?_⟩
      rw [hpools]
      cases hpool : ((pools opens w.calls).call opens
          (NativeCall.free_context loaded.context)).attached h.context with
      | none => rfl
      | some pool =>
          rcases hattached h.context pool hpool with ⟨hother, hbefore⟩
          rcases hh.detached with hnone | hloaded
          · rw [hnone] at hbefore
            cases hbefore
          · rw [hstate] at hloaded
            cases hloaded
            exact absurd rfl hother
  · exact ⟨hw, fun _ hh => hh⟩

end Wrapper

/-!
# Calls that decode
-/

section Decodes

variable {opens : Pool -> Bool} {w : Wrapper} {h : Loaded}

structure WorksOn (h : Loaded) (calls : List NativeCall) : Prop where
  neutral : forall c, c ∈ calls -> c.frees = [] ∧ c.returns = []
  decodes : forall c, c ∈ calls -> forall context, c.decodes = some context ->
    context = h.context

theorem prefill_worksOn (id : GenerationId) (prompt : Prompt) (formatted : Text)
    (nCtx : Int) (h : Loaded) : WorksOn h (prefill id prompt formatted nCtx h) where
  neutral := prefill_neutral id prompt formatted nCtx h
  decodes := by
    cases prompt <;> simp [prefill, NativeCall.decodes]

theorem iterationCalls_worksOn (id : GenerationId) (g : Generation) (str : Option Text) :
    WorksOn g.state (iterationCalls id g str) := by
  unfold iterationCalls
  split
  · cases str <;>
      exact ⟨by simp [NativeCall.frees, NativeCall.returns], by simp [NativeCall.decodes]⟩
  · exact ⟨by simp [NativeCall.frees, NativeCall.returns], by simp [NativeCall.decodes]⟩

/-- They run on no pool that has been freed, while the generation is usable. -/
theorem followsFrom_worksOn (hw : Pinned opens w) (hh : Usable opens w h)
    {calls : List NativeCall} (hcalls : WorksOn h calls) :
    FollowsFrom (DecodesPinned opens) w.calls calls := by
  have hlive : forall pool, (pools opens w.calls).attached h.context = some pool ->
      pool ∉ (pools opens w.calls).freed := fun pool => hh.not_freed hw
  generalize w.calls = earlier at hlive
  rcases hcalls with ⟨hneutral, hdecodes⟩
  induction calls generalizing earlier with
  | nil => trivial
  | cons c calls ih =>
      constructor
      · intro context pool hcontext hpool
        rw [hdecodes c List.mem_cons_self context hcontext] at hpool
        exact hlive pool hpool
      · have hsame : pools opens (earlier ++ [c]) = pools opens earlier := by
          refine pools_neutral opens fun c' hc' => ?_
          rw [List.mem_singleton.mp hc']
          exact hneutral c List.mem_cons_self
        refine ih (earlier ++ [c]) ?_ (fun c' hc' => hneutral c' (List.mem_cons_of_mem _ hc'))
          fun c' hc' => hdecodes c' (List.mem_cons_of_mem _ hc')
        rw [hsame]
        exact hlive

theorem followsFrom_silent (earlier : List NativeCall) {calls : List NativeCall}
    (h : forall c, c ∈ calls -> c.decodes = none) :
    FollowsFrom (DecodesPinned opens) earlier calls := by
  induction calls generalizing earlier with
  | nil => trivial
  | cons c calls ih =>
      refine ⟨?_, ih _ fun c' hc' => h c' (List.mem_cons_of_mem _ hc')⟩
      intro context pool hcontext
      rw [h c List.mem_cons_self] at hcontext
      cases hcontext

end Decodes

/-!
# Every schedule
-/

structure PinnedRun (opens : Pool -> Bool) (s : RunLoop) : Prop where
  wrapper : Pinned opens s.wrapper
  log : Follows (DecodesPinned opens) s.wrapper.calls
  usable : forall id p g, s.producers id = some p -> p.point.generation = some g ->
    Usable opens s.wrapper g.state

section PinnedRun

variable {opens : Pool -> Bool} {s s' : RunLoop}

theorem PinnedRun.put (hs : PinnedRun opens s) {h : Loaded} (hh : Usable opens s.wrapper h)
    {calls : List NativeCall} (hcalls : WorksOn h calls) (id : GenerationId)
    {p : Option Producer}
    (hp : forall q g, p = some q -> q.point.generation = some g -> g.state = h)
    (current : Option GenerationId) :
    PinnedRun opens { s with
      wrapper := s.wrapper.record calls
      producers := Function.update s.producers id p
      current := current } where
  wrapper := hs.wrapper.record hcalls.neutral
  log := follows_append.mpr ⟨hs.log, followsFrom_worksOn hs.wrapper hh hcalls⟩
  usable other q g hq hg := by
    dsimp only at hq
    by_cases hsame : other = id
    · rw [hsame, Function.update_self] at hq
      rw [hp q g hq hg]
      exact hh.record hcalls.neutral
    · rw [Function.update_of_ne hsame] at hq
      exact (hs.usable other q g hq hg).record hcalls.neutral

theorem PinnedRun.setProducer (hs : PinnedRun opens s) (id : GenerationId)
    {p : Option Producer}
    (hp : forall q g, p = some q -> q.point.generation = some g ->
      Usable opens s.wrapper g.state) : PinnedRun opens (s.setProducer id p) where
  wrapper := hs.wrapper
  log := hs.log
  usable other q g hq hg := by
    unfold RunLoop.setProducer at hq
    dsimp only at hq
    by_cases hsame : other = id
    · rw [hsame, Function.update_self] at hq
      exact hp q g hq hg
    · rw [Function.update_of_ne hsame] at hq
      exact hs.usable other q g hq hg

theorem PinnedRun.finish (hs : PinnedRun opens s) (id : GenerationId) :
    PinnedRun opens (s.finish id) := by
  have hput := hs.setProducer id (p := none) fun q g hq => by cases hq
  exact ⟨hput.wrapper, hput.log, hput.usable⟩

theorem PinnedRun.runIteration (hs : PinnedRun opens s) {id : GenerationId}
    {g : Generation} (hg : Usable opens s.wrapper g.state) (cancelled : Bool)
    (str : Option Text) : PinnedRun opens (s.runIteration id g cancelled str) := by
  have hcalls := iterationCalls_worksOn id g str
  have hput := fun p hp current => hs.put (p := p) hg hcalls id hp current
  unfold iterationCalls at hput
  unfold RunLoop.runIteration
  split
  · rename_i hgoes
    rw [if_pos hgoes] at hput
    cases str with
    | none =>
        have hended := hput none (fun _ _ hq => by cases hq) none
        simpa [conclude, RunLoop.finish, RunLoop.setProducer, onWrapper, Wrapper.record]
          using hended
    | some str =>
        simp only [emit]
        split
        · exact hput none (fun _ _ hq => by cases hq) none
        · split
          · refine hput (some _) ?_ (some id)
            intro q g' hq hg'
            cases hq
            cases hg'
            rfl
          · refine hput (some _) ?_ none
            intro q g' hq hg'
            cases hq
            cases hg'
            rfl
  · rename_i hends
    rw [if_neg hends] at hput
    exact hput none (fun _ _ hq => by cases hq) none

theorem afterTake_state {point point' : Point} (h : afterTake point = some point')
    {g' : Generation} (hg' : point'.generation = some g') :
    exists g, point.generation = some g ∧ g'.state = g.state := by
  cases point with
  | queued prompt => cases h
  | running g =>
      simp only [afterTake] at h
      split at h <;> cases h
      cases hg'
      exact ⟨g, rfl, rfl⟩
  | parked g str =>
      cases h
      cases hg'
      exact ⟨g, rfl, rfl⟩
  | dispatched g =>
      simp only [afterTake] at h
      split at h <;> cases h
      cases hg'
      exact ⟨g, rfl, rfl⟩

theorem step_pinned {e : Event} (hs : PinnedRun opens s) (hstep : step s e = some s') :
    PinnedRun opens s' := by
  cases e with
  | collect prompt =>
      cases hstep
      have hput := hs.setProducer s.nextGeneration
        (p := some { point := Point.queued prompt }) fun q g hq hg => by
          cases hq
          cases hg
      exact ⟨hput.wrapper, hput.log, hput.usable⟩
  | start id formatted nCtx start =>
      simp only [step] at hstep
      split at hstep <;> cases hstep
      unfold RunLoop.begin
      split
      · exact hs.finish id
      · rename_i h hh
        refine hs.put (hs.wrapper.usable hh) (prefill_worksOn id _ formatted nCtx h) id
          ?_ (some id)
        intro q g hq hg
        cases hq
        cases hg
        rfl
  | iterate str =>
      simp only [step] at hstep
      split at hstep
      · cases hstep
      · split at hstep <;> cases hstep
        rename_i hp
        exact hs.runIteration (hs.usable _ _ _ hp rfl) _ str
  | resume id str =>
      simp only [step] at hstep
      split at hstep
      · rename_i hp
        split at hstep <;> cases hstep
        · exact hs.finish id
        · exact hs.runIteration (hs.usable _ _ _ hp rfl) _ str
      · cases hstep
  | take id =>
      simp only [step] at hstep
      split at hstep
      · cases hstep
      · rename_i p hp
        rcases Option.map_eq_some_iff.mp hstep with ⟨point, hpoint, rfl⟩
        refine hs.setProducer id fun q g hq hg => ?_
        cases hq
        rcases afterTake_state hpoint hg with ⟨g0, hg0, hsame⟩
        rw [hsame]
        exact hs.usable id p g0 hp hg0
  | cancel id =>
      simp only [step] at hstep
      split at hstep <;> cases hstep
      rename_i p hp
      refine hs.setProducer id fun q g hq hg => ?_
      cases hq
      rw [afterCancel_generation] at hg
      exact hs.usable id p g hp hg
  | load request answer =>
      simp only [step] at hstep
      split at hstep <;> cases hstep
      rcases hs.wrapper.load request answer with ⟨hw, husable⟩
      refine ⟨hw, ?_, fun id p g hp hg => husable _ (hs.usable id p g hp hg)⟩
      show Follows _ (s.wrapper.load request answer).2.calls
      rcases hstate : s.wrapper.threadLocalState with _ | loaded
      · rw [(Wrapper.load_spec hstate request answer).left]
        refine follows_append.mpr ⟨hs.log, followsFrom_silent _ ?_⟩
        rcases answer with ⟨_ | _, lastError, _ | _, _ | _, _ | _⟩ <;>
          simp [loadCalls, NativeCall.decodes]
      · rw [Wrapper.load_of_loaded hstate]
        exact hs.log
  | unload =>
      simp only [step] at hstep
      split at hstep <;> cases hstep
      rcases hs.wrapper.unload with ⟨hw, husable⟩
      refine ⟨hw, ?_, fun id p g hp hg => husable _ (hs.usable id p g hp hg)⟩
      show Follows _ s.wrapper.unload.calls
      unfold Wrapper.unload
      split
      · refine follows_append.mpr ⟨hs.log, followsFrom_silent _ ?_⟩
        simp [NativeCall.decodes]
      · exact hs.log

theorem pinnedRun_initial : PinnedRun opens {} where
  wrapper := ⟨fun _ _ hpool => (by cases hpool), fun _ hh => (by cases hh)⟩
  log := follows_nil
  usable id p g hp := by cases hp

theorem run_pinned {es : List Event} (hrun : runEvents step {} es = some s) :
    PinnedRun opens s :=
  runEvents_keeps (fun _ _ _ h hs => step_pinned h hs) pinnedRun_initial hrun

end PinnedRun

/-- Under every schedule, even one that takes up a generation whose context is gone, no
decode runs on a freed pool, no pool is freed twice, at most the one that is kept is still
there, and the loaded context is attached to it. -/
theorem core_pinning (opens : Pool -> Bool) {es : List Event} {s : RunLoop}
    (hrun : runEvents step {} es = some s) :
    Follows (DecodesPinned opens) s.wrapper.calls ∧
    (pools opens s.wrapper.calls).freed.Nodup ∧
    (forall pool, pool < (pools opens s.wrapper.calls).attempts -> opens pool = true ->
      (pool ∈ (pools opens s.wrapper.calls).freed <->
        (pools opens s.wrapper.calls).g_threadpool ≠ some pool)) ∧
    (forall h, s.wrapper.threadLocalState = State.Loaded h ->
      (pools opens s.wrapper.calls).attached h.context =
        (pools opens s.wrapper.calls).g_threadpool) := by
  have hpinned : PinnedRun opens s := run_pinned hrun
  have hsound := pools_sound opens s.wrapper.calls
  refine ⟨hpinned.log, hsound.freed, ?_, fun h hh => (hpinned.wrapper.loaded h hh).right⟩
  intro pool hlt hopens
  constructor
  · intro hfreed hkept
    exact (hsound.kept pool hkept).left hfreed
  · exact (hsound.accounted pool hlt hopens).resolve_right

def pinnedTurn : List Event :=
  [Event.load { request with affinityCores := [4, 5] } { batchOpens := false },
   Event.load { request with affinityCores := [4, 5] } {},
   Event.collect (Prompt.formatted "hi".toList), Event.start 0 [] 4096 3,
   Event.iterate (some "hello".toList)]

theorem pinnedTurn_safe :
    exists s, runEvents step {} pinnedTurn = some s ∧
      (pools (fun _ => true) s.wrapper.calls).freed = [0] ∧
      (pools (fun _ => true) s.wrapper.calls).g_threadpool = some 1 ∧
      Follows (DecodesPinned fun _ => true) s.wrapper.calls :=
  ⟨_, rfl, rfl, rfl, (@core_pinning (fun _ => true) pinnedTurn _ rfl).left⟩

end LLamaAndroid
end DomainAI
