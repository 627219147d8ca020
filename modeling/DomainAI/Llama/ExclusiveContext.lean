import DomainAI.Llama.NativeObjects

/-!
# One generation at a time

A generation keeps the pointers it found when it started.  While it occupies the
run loop nothing else happens to the context; when it is taken up again after it
was parked in a full channel, anything may have happened.
-/

namespace DomainAI
namespace LLamaAndroid

open Library RunLoop

def Point.generation : Point -> Option Generation
  | Point.queued _ => none
  | Point.running g => some g
  | Point.parked g _ => some g
  | Point.dispatched g => some g

theorem afterCancel_generation (p : Point) : (afterCancel p).generation = p.generation := by
  cases p <;> rfl

/-- The generation's context is the loaded one, or it is gone for good. -/
structure Captured (w : Wrapper) (g : Generation) : Prop where
  created : g.state.context ≤ w.created
  loaded : (Resource.context, g.state.context) ∈ live w.calls ->
    w.threadLocalState = State.Loaded g.state

theorem Captured.congr {w w' : Wrapper} {g g' : Generation}
    (h : Captured w g) (hlive : live w'.calls = live w.calls)
    (hstate : w'.threadLocalState = w.threadLocalState)
    (hcreated : w'.created = w.created) (hg : g'.state = g.state) :
    Captured w' g' where
  created := by
    rw [hcreated, hg]
    exact h.created
  loaded := by
    rw [hlive, hstate, hg]
    exact h.loaded

structure Orderly (s : RunLoop) : Prop where
  wrapper : s.wrapper.Intact
  numbered : forall id p, s.producers id = some p -> id < s.nextGeneration
  captured : forall id p g, s.producers id = some p ->
    p.point.generation = some g -> Captured s.wrapper g
  current : forall id, s.current = some id ->
    exists g cancelled,
      s.producers id = some { point := Point.running g, cancelled := cancelled } ∧
      s.wrapper.threadLocalState = State.Loaded g.state ∧
      holder s.wrapper.calls = some id

theorem orderly_initial : Orderly {} where
  wrapper := intact_initial
  numbered := by intro id p hp; cases hp
  captured := by intro id p g hg; cases hg
  current := by intro id hid; cases hid

/-!
# What an iteration calls
-/

def iterationCalls (id : GenerationId) (g : Generation) (str : Option Text) :
    List NativeCall :=
  if g.ncur < g.stop then
    NativeCall.completion_loop id g.state.context g.state.batch g.state.sampler
        g.stop g.ncur ::
      if str.isSome then [] else [NativeCall.kv_cache_clear g.state.context]
  else [NativeCall.kv_cache_clear g.state.context]

/-- An iteration is exclusive exactly when its context is still the loaded one
and, where it loops, still holds its own prompt. -/
theorem iterationCalls_exclusive {w : Wrapper} (hw : w.Intact) {g : Generation}
    (hg : Captured w g) (id : GenerationId) (str : Option Text) :
    FollowsFrom Exclusive w.calls (iterationCalls id g str) <->
      w.threadLocalState = State.Loaded g.state ∧
        (g.ncur < g.stop -> holder w.calls = some id) := by
  have hpointers : w.threadLocalState = State.Loaded g.state ->
      forall p, p ∈ g.state.pointers -> p ∈ live w.calls :=
    fun h => hw.live g.state h
  unfold iterationCalls
  split
  · rename_i hgoes
    constructor
    · intro h
      rcases h with ⟨⟨hreceives, hloops⟩, _⟩
      exact ⟨hg.loaded (hreceives _ (by simp [NativeCall.receives])),
        fun _ => hloops id rfl⟩
    · intro h
      rcases h with ⟨hloaded, hholder⟩
      have hp := hpointers hloaded
      refine ⟨⟨?_, ?_⟩, ?_⟩
      · intro p hmem
        apply hp p
        simp only [NativeCall.receives, List.mem_cons, List.not_mem_nil,
          or_false] at hmem
        rcases hmem with rfl | rfl | rfl <;> simp [Loaded.pointers]
      · intro _ hid
        cases hid
        exact hholder hgoes
      · cases str with
        | none =>
            refine ⟨⟨?_, by intro _ hid; cases hid⟩, trivial⟩
            intro p hmem
            rw [List.mem_singleton.mp hmem, live_append (by
              simp [NativeCall.frees, NativeCall.returns])]
            exact hp _ (by simp [Loaded.pointers])
        | some str => trivial
  · rename_i hends
    constructor
    · intro h
      rcases h with ⟨⟨hreceives, _⟩, _⟩
      exact ⟨hg.loaded (hreceives _ (by simp [NativeCall.receives])),
        fun hgoes => absurd hgoes hends⟩
    · intro h
      rcases h with ⟨hloaded, _⟩
      refine ⟨⟨?_, by intro _ hid; cases hid⟩, trivial⟩
      intro p hmem
      rw [List.mem_singleton.mp hmem]
      exact hpointers hloaded _ (by simp [Loaded.pointers])

/-!
# What the other events call
-/

theorem prefill_neutral (id : GenerationId) (prompt : Prompt) (formatted : Text)
    (nCtx : Int) (h : Loaded) :
    forall c, c ∈ prefill id prompt formatted nCtx h ->
      c.frees = [] ∧ c.returns = [] := by
  cases prompt <;> simp [prefill, NativeCall.frees, NativeCall.returns]

theorem holder_prefill (calls : List NativeCall) (id : GenerationId)
    (prompt : Prompt) (formatted : Text) (nCtx : Int) (h : Loaded) :
    holder (calls ++ prefill id prompt formatted nCtx h) = some id := by
  cases prompt <;>
    simp [prefill, holder, List.foldl_append, NativeCall.passesOn]

theorem prefill_exclusive {w : Wrapper} (hw : w.Intact) {h : Loaded}
    (hh : w.threadLocalState = State.Loaded h) (id : GenerationId)
    (prompt : Prompt) (formatted : Text) (nCtx : Int) :
    FollowsFrom Exclusive w.calls (prefill id prompt formatted nCtx h) := by
  have hp := hw.live h hh
  simp only [Loaded.pointers, List.mem_cons, List.not_mem_nil, or_false,
    forall_eq_or_imp, forall_eq] at hp
  cases prompt <;>
    simp [prefill, FollowsFrom, Exclusive, NativeCall.receives,
      NativeCall.loopsFor, mem_live_concat, NativeCall.frees, hp,
      -List.append_assoc]

theorem load_exclusive (w : Wrapper) (request : LoadRequest)
    (answer : LoadAnswer) :
    exists more, (w.load request answer).2.calls = w.calls ++ more ∧
      FollowsFrom Exclusive w.calls more := by
  rcases hstate : w.threadLocalState with _ | h
  · refine ⟨_, (Wrapper.load_spec hstate request answer).left, ?_⟩
    rcases answer with ⟨_ | _, lastError, _ | _, _ | _, _ | _⟩ <;>
      simp [loadCalls, FollowsFrom, Exclusive, NativeCall.receives,
        NativeCall.loopsFor, mem_live_concat, NativeCall.returns, nonNull]
  · rw [Wrapper.load_of_loaded hstate]
    exact ⟨[], (List.append_nil _).symm, trivial⟩

theorem unload_exclusive {w : Wrapper} (hw : w.Intact) :
    exists more, w.unload.calls = w.calls ++ more ∧
      FollowsFrom Exclusive w.calls more := by
  unfold Wrapper.unload
  split
  · rename_i h hh
    refine ⟨_, rfl, ?_⟩
    have hp := hw.live h hh
    simp only [Loaded.pointers, List.mem_cons, List.not_mem_nil, or_false,
      forall_eq_or_imp, forall_eq] at hp
    simp [FollowsFrom, Exclusive, NativeCall.receives, NativeCall.loopsFor,
      mem_live_concat, NativeCall.frees, hp, -List.append_assoc]
  · exact ⟨[], (List.append_nil _).symm, trivial⟩

/-!
# What every step keeps
-/

section Orderly

variable {s : RunLoop}

theorem Orderly.put (hs : Orderly s) {w : Wrapper} (hw : w.Intact)
    (hlive : live w.calls = live s.wrapper.calls)
    (hstate : w.threadLocalState = s.wrapper.threadLocalState)
    (hcreated : w.created = s.wrapper.created) {id : GenerationId}
    (hid : id < s.nextGeneration) {p : Option Producer}
    (hp : forall q g, p = some q -> q.point.generation = some g ->
      Captured s.wrapper g) {current : Option GenerationId}
    (hcurrent : forall other, current = some other -> exists g cancelled,
      Function.update s.producers id p other =
        some { point := Point.running g, cancelled := cancelled } ∧
      w.threadLocalState = State.Loaded g.state ∧
      holder w.calls = some other) :
    Orderly { s with
      wrapper := w
      producers := Function.update s.producers id p
      current := current } where
  wrapper := hw
  numbered other q hq := by
    replace hq : Function.update s.producers id p other = some q := hq
    by_cases hsame : other = id
    · rw [hsame]
      exact hid
    · rw [Function.update_of_ne hsame] at hq
      exact hs.numbered other q hq
  captured other q g hq hg := by
    replace hq : Function.update s.producers id p other = some q := hq
    have hcaptured : Captured s.wrapper g := by
      by_cases hsame : other = id
      · rw [hsame, Function.update_self] at hq
        exact hp q g hq hg
      · rw [Function.update_of_ne hsame] at hq
        exact hs.captured other q g hq hg
    exact hcaptured.congr hlive hstate hcreated rfl
  current := hcurrent

theorem Orderly.finish (hs : Orderly s) {w : Wrapper} (hw : w.Intact)
    (hlive : live w.calls = live s.wrapper.calls)
    (hstate : w.threadLocalState = s.wrapper.threadLocalState)
    (hcreated : w.created = s.wrapper.created) {id : GenerationId}
    (hid : id < s.nextGeneration) :
    Orderly (RunLoop.finish id { s with wrapper := w }) :=
  hs.put hw hlive hstate hcreated hid (by rintro q g ⟨⟩) (by rintro other ⟨⟩)

theorem Orderly.occupy (hs : Orderly s) {w : Wrapper} (hw : w.Intact)
    (hlive : live w.calls = live s.wrapper.calls)
    (hstate : w.threadLocalState = s.wrapper.threadLocalState)
    (hcreated : w.created = s.wrapper.created) {id : GenerationId}
    (hid : id < s.nextGeneration) {g : Generation}
    (hg : w.threadLocalState = State.Loaded g.state)
    (hcaptured : Captured s.wrapper g) (hholder : holder w.calls = some id)
    (cancelled : Bool) :
    Orderly (RunLoop.occupy id g cancelled { s with wrapper := w }) := by
  refine hs.put hw hlive hstate hcreated hid ?_ ?_
  · intro q g' hq hg
    cases hq
    cases hg
    exact hcaptured
  · intro other hother
    cases hother
    exact ⟨g, cancelled, Function.update_self _ _ _, hg, hholder⟩

theorem Orderly.runIteration (hs : Orderly s) {id : GenerationId}
    (hid : id < s.nextGeneration) {g : Generation}
    (hcaptured : Captured s.wrapper g) (cancelled : Bool) (str : Option Text)
    (hg : s.wrapper.threadLocalState = State.Loaded g.state)
    (hholder : g.ncur < g.stop -> holder s.wrapper.calls = some id) :
    Orderly (s.runIteration id g cancelled str) := by
  have hneutral : forall {calls : List NativeCall} {c : NativeCall},
      c.frees = [] ∧ c.returns = [] -> live (calls ++ [c]) = live calls :=
    fun hc => live_append (by simpa using hc)
  have hrecord : forall {w : Wrapper} {c : NativeCall},
      w.Intact -> c.frees = [] ∧ c.returns = [] -> (w.record [c]).Intact :=
    fun hw hc => hw.record (by simpa using hc)
  have hloop : NativeCall.frees (NativeCall.completion_loop id g.state.context
      g.state.batch g.state.sampler g.stop g.ncur) = [] ∧
      NativeCall.returns (NativeCall.completion_loop id g.state.context
      g.state.batch g.state.sampler g.stop g.ncur) = [] := ⟨rfl, rfl⟩
  have hclear : NativeCall.frees
        (NativeCall.kv_cache_clear g.state.context) = [] ∧
      NativeCall.returns (NativeCall.kv_cache_clear g.state.context) = [] :=
    ⟨rfl, rfl⟩
  unfold RunLoop.runIteration
  split
  · rename_i hgoes
    cases str with
    | none =>
        exact hs.finish (hrecord (hrecord hs.wrapper hloop) hclear)
          ((hneutral hclear).trans (hneutral hloop)) rfl rfl hid
    | some str =>
        simp only [emit]
        split
        · exact hs.finish (hrecord hs.wrapper hloop) (hneutral hloop) rfl rfl hid
        · split
          · refine hs.occupy (g := { g with
              ncur := g.ncur + 1, buffered := g.buffered ++ [str] })
              (hrecord hs.wrapper hloop) (hneutral hloop) rfl rfl hid hg
              (hcaptured.congr rfl rfl rfl rfl) ?_ cancelled
            simp [Wrapper.record, NativeCall.passesOn, hholder hgoes]
          · refine hs.put (hrecord hs.wrapper hloop) (hneutral hloop) rfl rfl hid
              ?_ (by intro other hother; cases hother)
            intro q g' hq hg
            cases hq
            cases hg
            exact hcaptured.congr rfl rfl rfl rfl
  · exact hs.finish (hrecord hs.wrapper hclear) (hneutral hclear) rfl rfl hid

theorem Orderly.begin (hs : Orderly s) {id : GenerationId}
    (hid : id < s.nextGeneration) (prompt : Prompt) (cancelled : Bool)
    (formatted : Text) (nCtx start : Int) :
    Orderly (s.begin id prompt cancelled formatted nCtx start) := by
  unfold RunLoop.begin
  split
  · exact hs.finish hs.wrapper rfl rfl rfl hid
  · rename_i h hh
    have hneutral := prefill_neutral id prompt formatted nCtx h
    exact hs.occupy (g := { state := h, ncur := start, stop := nCtx - 1 })
      (hs.wrapper.record hneutral) (live_append hneutral) rfl rfl hid hh
      ⟨hs.wrapper.created h hh, fun _ => hh⟩ (holder_prefill _ _ _ _ _ _)
      cancelled

theorem Orderly.adjust (hs : Orderly s) {id : GenerationId} {p : Producer}
    (hp : s.producers id = some p) {point : Point} (cancelled : Bool)
    (hkept : forall g, point.generation = some g ->
      exists g0, p.point.generation = some g0 ∧ g.state = g0.state)
    (hrunning : forall g, p.point = Point.running g ->
      exists g', point = Point.running g' ∧ g'.state = g.state) :
    Orderly (s.setProducer id
      (some { point := point, cancelled := cancelled })) := by
  refine hs.put hs.wrapper rfl rfl rfl (hs.numbered id p hp) ?_ ?_
  · intro q g hq hg
    cases hq
    rcases hkept g hg with ⟨g0, hg0, hstate⟩
    exact (hs.captured id p g0 hp hg0).congr rfl rfl rfl hstate
  · intro other hother
    rcases hs.current other hother with ⟨g, c, hq, hloaded, hholder⟩
    by_cases hsame : other = id
    · rw [hsame, hp] at hq
      cases hq
      rcases hrunning g rfl with ⟨g', hpoint, hstate⟩
      refine ⟨g', cancelled, ?_, ?_, hholder⟩
      · rw [hsame, Function.update_self, hpoint]
      · rw [hstate]
        exact hloaded
    · exact ⟨g, c, by rw [Function.update_of_ne hsame]; exact hq, hloaded,
        hholder⟩

theorem Orderly.take (hs : Orderly s) {id : GenerationId} {p : Producer}
    (hp : s.producers id = some p) {point : Point}
    (hpoint : afterTake p.point = some point) :
    Orderly (s.setProducer id (some { p with point := point })) := by
  rcases p with ⟨prompt | g | ⟨g, str⟩ | g, cancelled⟩ <;>
    simp only [afterTake] at hpoint
  · cases hpoint
  · split at hpoint <;> cases hpoint
    refine hs.adjust hp cancelled ?_ ?_
    · intro g' hg'
      cases hg'
      exact ⟨g, rfl, rfl⟩
    · intro g' hg'
      cases hg'
      exact ⟨_, rfl, rfl⟩
  · cases hpoint
    refine hs.adjust hp cancelled ?_ (by intro g' hg'; cases hg')
    intro g' hg'
    cases hg'
    exact ⟨g, rfl, rfl⟩
  · split at hpoint <;> cases hpoint
    refine hs.adjust hp cancelled ?_ (by intro g' hg'; cases hg')
    intro g' hg'
    cases hg'
    exact ⟨g, rfl, rfl⟩

theorem Orderly.cancel (hs : Orderly s) {id : GenerationId} {p : Producer}
    (hp : s.producers id = some p) :
    Orderly (s.setProducer id
      (some { point := afterCancel p.point, cancelled := true })) := by
  refine hs.adjust hp true ?_ ?_
  · intro g hg
    refine ⟨g, ?_, rfl⟩
    rcases p with ⟨prompt | g' | ⟨g', str⟩ | g', cancelled⟩ <;> exact hg
  · intro g hg
    exact ⟨g, by rw [hg]; rfl, rfl⟩

/-- A load creates nothing that a generation could have captured before. -/
theorem Captured.load {w : Wrapper} {g : Generation} (hg : Captured w g)
    (request : LoadRequest) (answer : LoadAnswer) :
    Captured (w.load request answer).2 g := by
  rcases hstate : w.threadLocalState with _ | h
  · rcases Wrapper.load_spec hstate request answer with ⟨hcalls, hcreated, _⟩
    refine ⟨Nat.le_trans hg.created hcreated, ?_⟩
    intro hlive
    rw [hcalls, mem_live_append (loadCalls_frees request answer w)] at hlive
    rcases hlive with hold | ⟨c, hc, hnew⟩
    · exact absurd (hstate.symm.trans (hg.loaded hold)) (by simp)
    · exact absurd (loadCalls_returns hc hnew) (Nat.not_lt.mpr hg.created)
  · rw [Wrapper.load_of_loaded hstate]
    exact hg

theorem Captured.unload {w : Wrapper} {g : Generation} (hg : Captured w g) :
    Captured w.unload g := by
  unfold Wrapper.unload
  split
  · rename_i h hh
    refine ⟨hg.created, ?_⟩
    intro hlive
    have hold : (Resource.context, g.state.context) ∈ live w.calls ∧
        g.state.context ≠ h.context := by
      simpa [Wrapper.record, Wrapper.setState, live, List.foldl_append,
        NativeCall.frees, NativeCall.returns] using hlive
    have hsame := hh.symm.trans (hg.loaded hold.left)
    cases hsame
    exact absurd rfl hold.right
  · exact hg

theorem Orderly.load (hs : Orderly s) (hfree : s.current = none)
    (request : LoadRequest) (answer : LoadAnswer) :
    Orderly (s.onWrapper fun w => (w.load request answer).2) where
  wrapper := hs.wrapper.load request answer
  numbered := hs.numbered
  captured id p g hp hg := (hs.captured id p g hp hg).load request answer
  current id hid := by
    rw [onWrapper, hfree] at hid
    cases hid

theorem Orderly.unload (hs : Orderly s) (hfree : s.current = none) :
    Orderly (s.onWrapper Wrapper.unload) where
  wrapper := hs.wrapper.unload
  numbered := hs.numbered
  captured id p g hp hg := (hs.captured id p g hp hg).unload
  current id hid := by
    rw [onWrapper, hfree] at hid
    cases hid

/-!
# Steps
-/

/-- A generation taken up again finds its context still loaded and, if it goes
on looping, not prefilled for another one since. -/
def Undisturbed (s : RunLoop) : Event -> Prop
  | Event.resume id _ =>
      forall g, s.producers id = some { point := Point.dispatched g } ->
        s.wrapper.threadLocalState = State.Loaded g.state ∧
          (g.ncur < g.stop -> holder s.wrapper.calls = some id)
  | _ => True

theorem runIteration_calls (s : RunLoop) (id : GenerationId) (g : Generation)
    (cancelled : Bool) (str : Option Text) :
    (s.runIteration id g cancelled str).wrapper.calls =
      s.wrapper.calls ++ iterationCalls id g str := by
  unfold RunLoop.runIteration iterationCalls
  split
  · cases str with
    | none =>
        simp [conclude, RunLoop.finish, RunLoop.setProducer, onWrapper,
          Wrapper.record]
    | some str =>
        simp only [emit]
        split
        · rfl
        · split <;> rfl
  · rfl

theorem Orderly.running (hs : Orderly s) {id : GenerationId}
    (hid : s.current = some id) {g : Generation} {cancelled : Bool}
    (hp : s.producers id =
      some { point := Point.running g, cancelled := cancelled }) :
    s.wrapper.threadLocalState = State.Loaded g.state ∧
      holder s.wrapper.calls = some id := by
  rcases hs.current id hid with ⟨g', c, hp', hloaded, hholder⟩
  rw [hp] at hp'
  cases hp'
  exact ⟨hloaded, hholder⟩

theorem step_calls {s' : RunLoop} {e : Event} (hs : Orderly s)
    (hstep : step s e = some s') :
    exists more, s'.wrapper.calls = s.wrapper.calls ++ more ∧
      (FollowsFrom Exclusive s.wrapper.calls more <-> Undisturbed s e) := by
  have hquiet : exists more : List NativeCall,
      s.wrapper.calls = s.wrapper.calls ++ more ∧
      (FollowsFrom Exclusive s.wrapper.calls more <-> True) :=
    ⟨[], (List.append_nil _).symm, Iff.rfl⟩
  cases e with
  | collect prompt =>
      cases hstep
      exact hquiet
  | start id formatted nCtx start =>
      simp only [step] at hstep
      split at hstep <;> cases hstep
      rename_i prompt cancelled _ _
      unfold RunLoop.begin
      split
      · exact hquiet
      · rename_i h hh
        exact ⟨prefill id prompt formatted nCtx h, rfl,
          iff_of_true (prefill_exclusive hs.wrapper hh id prompt formatted nCtx)
            trivial⟩
  | iterate str =>
      simp only [step] at hstep
      split at hstep
      · cases hstep
      · rename_i id hid
        split at hstep <;> cases hstep
        rename_i g cancelled hp
        have hrunning := hs.running hid hp
        refine ⟨_, runIteration_calls s id g cancelled str,
          iff_of_true ?_ trivial⟩
        exact (iterationCalls_exclusive hs.wrapper (hs.captured id _ g hp rfl) id
          str).mpr ⟨hrunning.left, fun _ => hrunning.right⟩
  | resume id str =>
      simp only [step] at hstep
      split at hstep
      · rename_i g cancelled hfree hp
        cases cancelled with
        | true =>
            cases hstep
            refine ⟨[], (List.append_nil _).symm, iff_of_true trivial ?_⟩
            intro g' hp'
            rw [hp] at hp'
            cases hp'
        | false =>
            cases hstep
            refine ⟨_, runIteration_calls s id g false str, ?_⟩
            rw [iterationCalls_exclusive hs.wrapper (hs.captured id _ g hp rfl) id
              str]
            constructor
            · intro h g' hp'
              rw [hp] at hp'
              cases hp'
              exact h
            · intro h
              exact h g hp
      · cases hstep
  | take id =>
      simp only [step] at hstep
      split at hstep
      · cases hstep
      · rcases Option.map_eq_some_iff.mp hstep with ⟨point, _, rfl⟩
        exact hquiet
  | cancel id =>
      simp only [step] at hstep
      split at hstep <;> cases hstep
      exact hquiet
  | load request answer =>
      simp only [step] at hstep
      split at hstep <;> cases hstep
      rcases load_exclusive s.wrapper request answer with ⟨more, hcalls, hmore⟩
      exact ⟨more, hcalls, iff_of_true hmore trivial⟩
  | unload =>
      simp only [step] at hstep
      split at hstep <;> cases hstep
      rcases unload_exclusive hs.wrapper with ⟨more, hcalls, hmore⟩
      exact ⟨more, hcalls, iff_of_true hmore trivial⟩

theorem step_orderly {s' : RunLoop} {e : Event} (hs : Orderly s)
    (hok : Undisturbed s e) (hstep : step s e = some s') : Orderly s' := by
  cases e with
  | collect prompt =>
      cases hstep
      have hnew : s.producers s.nextGeneration = none := by
        cases hp : s.producers s.nextGeneration with
        | none => rfl
        | some p => exact absurd (hs.numbered _ p hp) (Nat.lt_irrefl _)
      have hlater : Orderly { s with nextGeneration := s.nextGeneration + 1 } :=
        ⟨hs.wrapper, fun id p hp => Nat.lt_succ_of_lt (hs.numbered id p hp),
          hs.captured, hs.current⟩
      refine hlater.put hs.wrapper rfl rfl rfl (Nat.lt_succ_self _) ?_ ?_
      · intro q g hq hg
        cases hq
        cases hg
      · intro other hother
        rcases hs.current other hother with ⟨g, c, hp, hrest⟩
        refine ⟨g, c, ?_, hrest⟩
        rw [Function.update_of_ne ?_]
        · exact hp
        · intro heq
          subst heq
          rw [hnew] at hp
          cases hp
  | start id formatted nCtx start =>
      simp only [step] at hstep
      split at hstep <;> cases hstep
      rename_i hp
      exact hs.begin (hs.numbered id _ hp) _ _ _ _ _
  | iterate str =>
      simp only [step] at hstep
      split at hstep
      · cases hstep
      · rename_i id hid
        split at hstep <;> cases hstep
        rename_i g cancelled hp
        have hrunning := hs.running hid hp
        exact hs.runIteration (hs.numbered id _ hp) (hs.captured id _ g hp rfl)
          cancelled str hrunning.left fun _ => hrunning.right
  | resume id str =>
      simp only [step] at hstep
      split at hstep
      · rename_i g cancelled hfree hp
        have hid := hs.numbered id _ hp
        cases cancelled with
        | true =>
            cases hstep
            exact hs.finish hs.wrapper rfl rfl rfl hid
        | false =>
            cases hstep
            rcases hok g hp with ⟨hloaded, hholder⟩
            exact hs.runIteration hid (hs.captured id _ g hp rfl) false str
              hloaded hholder
      · cases hstep
  | take id =>
      simp only [step] at hstep
      split at hstep
      · cases hstep
      · rename_i p hp
        rcases Option.map_eq_some_iff.mp hstep with ⟨point, hpoint, rfl⟩
        exact hs.take hp hpoint
  | cancel id =>
      simp only [step] at hstep
      split at hstep <;> cases hstep
      rename_i p hp
      exact hs.cancel hp
  | load request answer =>
      simp only [step] at hstep
      split at hstep <;> cases hstep
      rename_i hfree
      exact hs.load (by simpa using hfree) request answer
  | unload =>
      simp only [step] at hstep
      split at hstep <;> cases hstep
      rename_i hfree
      exact hs.unload (by simpa using hfree)

end Orderly

/-!
# Runs
-/

theorem step_grows {s s' : RunLoop} {e : Event} (hstep : step s e = some s') :
    s.wrapper.calls <+: s'.wrapper.calls := by
  have hiteration : forall id g cancelled str,
      s.wrapper.calls <+: (s.runIteration id g cancelled str).wrapper.calls := by
    intro id g cancelled str
    rw [runIteration_calls]
    exact List.prefix_append _ _
  cases e with
  | collect prompt =>
      cases hstep
      exact List.prefix_rfl
  | start id formatted nCtx start =>
      simp only [step] at hstep
      split at hstep <;> cases hstep
      unfold RunLoop.begin
      split
      · exact List.prefix_rfl
      · exact List.prefix_append _ _
  | iterate str =>
      simp only [step] at hstep
      split at hstep
      · cases hstep
      · split at hstep <;> cases hstep
        exact hiteration _ _ _ _
  | resume id str =>
      simp only [step] at hstep
      split at hstep
      · split at hstep <;> cases hstep
        · exact List.prefix_rfl
        · exact hiteration _ _ _ _
      · cases hstep
  | take id =>
      simp only [step] at hstep
      split at hstep
      · cases hstep
      · rcases Option.map_eq_some_iff.mp hstep with ⟨point, _, rfl⟩
        exact List.prefix_rfl
  | cancel id =>
      simp only [step] at hstep
      split at hstep <;> cases hstep
      exact List.prefix_rfl
  | load request answer =>
      simp only [step] at hstep
      split at hstep <;> cases hstep
      rcases load_exclusive s.wrapper request answer with ⟨more, hcalls, _⟩
      exact ⟨more, hcalls.symm⟩
  | unload =>
      simp only [step] at hstep
      split at hstep <;> cases hstep
      simp only [onWrapper, Wrapper.unload]
      split
      · exact List.prefix_append _ _
      · exact List.prefix_rfl

theorem run_grows {s s' : RunLoop} {es : List Event}
    (hrun : runEvents step s es = some s') :
    s.wrapper.calls <+: s'.wrapper.calls := by
  induction es generalizing s with
  | nil =>
      cases hrun
      exact List.prefix_rfl
  | cons e es ih =>
      rcases runEvents_cons.mp hrun with ⟨mid, hmid, hrest⟩
      exact (step_grows hmid).trans (ih hrest)

theorem run_exclusive {s s' : RunLoop} {es : List Event} (hs : Orderly s)
    (hrun : runEvents step s es = some s') :
    Follows Exclusive s'.wrapper.calls <->
      Follows Exclusive s.wrapper.calls ∧ AllSteps step Undisturbed s es := by
  induction es generalizing s with
  | nil =>
      cases hrun
      exact (and_iff_left trivial).symm
  | cons e es ih =>
      rcases runEvents_cons.mp hrun with ⟨mid, hmid, hrest⟩
      rcases step_calls hs hmid with ⟨more, hcalls, hmore⟩
      have hmidCalls : Follows Exclusive mid.wrapper.calls <->
          Follows Exclusive s.wrapper.calls ∧ Undisturbed s e := by
        rw [hcalls, follows_append, hmore]
      constructor
      · intro h
        rcases run_grows hrest with ⟨later, hlater⟩
        rw [← hlater, follows_append] at h
        rcases hmidCalls.mp h.left with ⟨hbefore, hok⟩
        have hall := (ih (step_orderly hs hok hmid) hrest).mp
          (by rw [← hlater, follows_append]; exact h)
        exact ⟨hbefore, AllSteps.cons hok hmid hall.right⟩
      · intro h
        rcases h with ⟨hbefore, hok, hlater⟩
        refine (ih (step_orderly hs hok hmid) hrest).mpr ⟨?_, hlater mid hmid⟩
        exact hmidCalls.mpr ⟨hbefore, hok⟩

/-- The calls of a run use live objects, and nothing comes between a prompt and
its loop, exactly when no generation is taken up again after it was disturbed. -/
theorem exclusive_context {es : List Event} {s : RunLoop}
    (hrun : runEvents step {} es = some s) :
    Follows Exclusive s.wrapper.calls <-> AllSteps step Undisturbed {} es := by
  rw [run_exclusive orderly_initial hrun]
  exact and_iff_right follows_nil

def request : LoadRequest where
  pathToModel := "model.gguf".toList
  nCtx := 4096

def oneTurn : List Event :=
  [Event.load request {}, Event.collect (Prompt.formatted "hi".toList),
   Event.start 0 [] 4096 3, Event.iterate (some "hello".toList), Event.take 0,
   Event.iterate none, Event.unload]

theorem exclusive_context_oneTurn :
    exists s, runEvents step {} oneTurn = some s ∧
      Follows Exclusive s.wrapper.calls := by
  refine ⟨_, rfl, (@exclusive_context oneTurn _ rfl).mpr ?_⟩
  apply AllSteps.cons trivial rfl
  apply AllSteps.cons trivial rfl
  apply AllSteps.cons trivial rfl
  apply AllSteps.cons trivial rfl
  apply AllSteps.cons trivial rfl
  apply AllSteps.cons trivial rfl
  exact AllSteps.cons trivial rfl trivial

def loopCalls (id : GenerationId) (h : Loaded) (stop : Int) :
    Int -> Nat -> List NativeCall
  | _, 0 => []
  | ncur, n + 1 =>
      NativeCall.completion_loop id h.context h.batch h.sampler stop ncur ::
        loopCalls id h stop (ncur + 1) n

theorem run_iterate {id : GenerationId} {g : Generation} {s : RunLoop}
    (str : Text) (n : Nat) (hid : s.current = some id)
    (hp : s.producers id = some { point := Point.running g })
    (hstop : g.ncur + n ≤ g.stop) (hroom : g.buffered.length + n ≤ capacity) :
    runEvents step s (List.replicate n (Event.iterate (some str))) =
      some ((s.onWrapper (Wrapper.record
        (loopCalls id g.state g.stop g.ncur n))).occupy id
        { g with
          ncur := g.ncur + n
          buffered := g.buffered ++ List.replicate n str } false) := by
  induction n generalizing s g with
  | zero =>
      have hsame : Function.update s.producers id
          (some { point := Point.running g }) = s.producers := by
        rw [← hp, Function.update_eq_self]
      rcases s with ⟨wrapper, current, next, producers⟩
      simp only at hid hsame
      simp [RunLoop.occupy, RunLoop.setProducer, onWrapper, Wrapper.record,
        loopCalls, hid, hsame]
  | succ n ih =>
      have hgoes : g.ncur < g.stop := by omega
      have hbuffer : g.buffered.length < capacity := by omega
      have hncur : g.ncur + 1 + n = g.ncur + (n + 1) := by omega
      have hstep : step s (Event.iterate (some str)) =
          some ((s.onWrapper (Wrapper.record
            [NativeCall.completion_loop id g.state.context g.state.batch
              g.state.sampler g.stop g.ncur])).occupy id
                { g with ncur := g.ncur + 1, buffered := g.buffered ++ [str] }
                false) := by
        simp [step, hid, hp, RunLoop.runIteration, hgoes, emit, hbuffer]
      rw [List.replicate_succ, runEvents_cons]
      refine ⟨_, hstep, ?_⟩
      rw [ih rfl (Function.update_self _ _ _) (by simp only; omega)
        (by simp only [List.length_append, List.length_singleton]; omega)]
      simp [RunLoop.occupy, RunLoop.setProducer, onWrapper, Wrapper.record,
        loopCalls, List.replicate_succ, Function.update_idem, hncur]

def filledUp : List Event :=
  [Event.load request {}, Event.collect (Prompt.formatted "hi".toList),
   Event.start 0 [] 4096 3] ++
    List.replicate 64 (Event.iterate (some "a".toList))

/-- An unload frees the objects of a parked generation, and a second prompt
replaces the first one. -/
theorem exclusive_context_fails :
    (exists s, runEvents step {} (filledUp ++
        [Event.iterate (some []), Event.unload, Event.take 0,
         Event.resume 0 (some [])]) = some s ∧
      ¬ Follows Exclusive s.wrapper.calls) ∧
    (exists s, runEvents step {} (filledUp ++
        [Event.iterate (some []), Event.collect (Prompt.formatted "ho".toList),
         Event.start 1 [] 4096 3, Event.iterate none, Event.take 0,
         Event.resume 0 (some [])]) = some s ∧
      ¬ Follows Exclusive s.wrapper.calls) := by
  constructor
  · refine ⟨_, runEvents_append.mpr ⟨_, runEvents_append.mpr
      ⟨_, rfl, run_iterate _ 64 rfl rfl (by decide) (by decide)⟩, rfl⟩, ?_⟩
    refine not_follows_of_last (o := NativeCall.completion_loop 0 2 3 4 4095 68)
      (by decide +kernel) fun h => ?_
    have hlive := h.left (Resource.context, 2) (by decide)
    revert hlive
    decide +kernel
  · refine ⟨_, runEvents_append.mpr ⟨_, runEvents_append.mpr
      ⟨_, rfl, run_iterate _ 64 rfl rfl (by decide) (by decide)⟩, rfl⟩, ?_⟩
    refine not_follows_of_last (o := NativeCall.completion_loop 0 2 3 4 4095 68)
      (by decide +kernel) fun h => ?_
    have hholder := h.right 0 rfl
    revert hholder
    decide +kernel

end LLamaAndroid
end DomainAI
