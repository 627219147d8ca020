import DomainAI.Llama.Completion
import DomainAI.Llama.Delivery
import DomainAI.Llama.ModifiedUtf8

/-!
# The run loop on the native bridge

The run loop with the native side that answers it.  A generation that has the thread to
itself, however often it is suspended, does what the loop of `runCompletion` does in one go.
-/

namespace DomainAI

/-!
# The loop in parts
-/

namespace Completion

variable {llama : Llama} {stop : Int} {collects : Nat -> Bool} {first g : Generation}

inductive Reaches (llama : Llama) (stop : Int) (first : Generation) : Generation -> Prop where
  | refl : Reaches llama stop first first
  | next {g : Generation} {str : List UInt8} {bridge : Bridge} (h : Reaches llama stop first g)
      (hlt : g.ncur < stop)
      (hloop : completionLoop llama stop g.ncur g.bridge = (some str, bridge)) :
      Reaches llama stop first
        { bridge := bridge, ncur := g.ncur + 1, emitted := g.emitted ++ [str] }

theorem Reaches.generate (h : Reaches llama stop first g)
    (hcollects : forall k, k < g.tokens -> collects k = true) :
    generate llama collects stop first = generate llama collects stop g := by
  induction h with
  | refl => rfl
  | next h hlt hloop ih =>
      rename_i g str bridge
      have hlength : g.tokens < (g.emitted ++ [str]).length := by
        rw [List.length_append]
        exact Nat.lt_succ_self _
      rw [ih fun k hk => hcollects k (Nat.lt_trans hk hlength)]
      rw [Completion.generate, if_pos hlt, hloop]
      exact if_pos (hcollects g.tokens hlength)

theorem Reaches.thrown (h : Reaches llama stop first g) (hfirst : first.emitted = [])
    (hne : g.emitted ≠ []) :
    Completion.generate llama (fun k => decide (k + 1 < g.tokens)) stop first =
      { g with thrown := true } := by
  cases h with
  | refl => exact absurd hfirst hne
  | next h hlt hloop =>
      rename_i g str bridge
      have hlength : (g.emitted ++ [str]).length = g.tokens + 1 := List.length_append
      rw [h.generate fun k hk => decide_eq_true (by rw [Generation.tokens, hlength]; omega)]
      rw [Completion.generate, if_pos hlt, hloop]
      apply if_neg
      rw [decide_eq_true_eq]
      show ¬ g.tokens + 1 < (g.emitted ++ [str]).length
      rw [hlength]
      exact Nat.lt_irrefl _

theorem Reaches.thrown_eq (h : Reaches llama stop first g) (hfirst : first.thrown = false) :
    g.thrown = false := by
  cases h with
  | refl => exact hfirst
  | next h hlt hloop => rfl

theorem generate_extends (llama : Llama) (collects : Nat -> Bool) (stop : Int)
    (g : Generation) : g.emitted <+: (generate llama collects stop g).emitted := by
  fun_induction Completion.generate llama collects stop g with
  | case1 g hlt bridge hloop => exact List.prefix_refl _
  | case2 g hlt str bridge hloop hcollects ih => exact (List.prefix_append _ _).trans ih
  | case3 g hlt str bridge hloop hcollects => exact List.prefix_append _ _
  | case4 g hlt => exact List.prefix_refl _

theorem Reaches.part (h : Reaches llama stop first g) :
    g.emitted <+: (Completion.generate llama (fun _ => true) stop first).emitted := by
  rw [h.generate fun _ _ => rfl]
  exact generate_extends _ _ _ _

def opening (llama : Llama) (nCtx : Int) (prompt : Text) (s : Bridge) : Generation where
  bridge := (completionInit llama nCtx prompt s).2
  ncur := (completionInit llama nCtx prompt s).1

theorem runCompletion_opening (llama : Llama) (collects : Nat -> Bool) (nCtx : Int)
    (prompt : Text) (s : Bridge) :
    runCompletion llama collects nCtx prompt s =
      if (generate llama collects (nCtx - 1) (opening llama nCtx prompt s)).thrown then
        generate llama collects (nCtx - 1) (opening llama nCtx prompt s)
      else
        { generate llama collects (nCtx - 1) (opening llama nCtx prompt s) with
          bridge := (generate llama collects (nCtx - 1)
            (opening llama nCtx prompt s)).bridge.memoryClear } := rfl

theorem runCompletion_emitted (llama : Llama) (collects : Nat -> Bool) (nCtx : Int)
    (prompt : Text) (s : Bridge) :
    (runCompletion llama collects nCtx prompt s).emitted =
      (generate llama collects (nCtx - 1) (opening llama nCtx prompt s)).emitted := by
  rw [runCompletion_opening]
  split <;> rfl

end Completion

namespace LLamaAndroid

open Library RunLoop
open Completion (Llama Bridge Reaches completionInit completionLoop runCompletion opening)

/-!
# The native side answers
-/

structure Bridged where
  delivery : Delivery := {}
  bridge : Bridge := {}

namespace Bridged

inductive Event where
  | start (id : GenerationId) (formatted : Text) (nCtx : Int)
  | iterate
  | resume (id : GenerationId)
  /-- An event that the native bridge has no part in. -/
  | other (e : Delivery.Event)

def bridges : Delivery.Event -> Bool
  | Delivery.Event.loop (LLamaAndroid.Event.start _ _ _ _) => true
  | Delivery.Event.loop (LLamaAndroid.Event.iterate _) => true
  | Delivery.Event.loop (LLamaAndroid.Event.resume _ _) => true
  | _ => false

def answer (llama : Llama) (g : Generation) (s : Bridge) : Option (List UInt8) × Bridge :=
  if g.ncur < g.stop then
    match completionLoop llama g.stop g.ncur s with
    | (some str, s) => (some str, s)
    | (none, s) => (none, s.memoryClear)
  else (none, s.memoryClear)

def prefilled (llama : Llama) (formatted : Text) (nCtx : Int) (prompt : Prompt)
    (state : State) (s : Bridge) : Int × Bridge :=
  match state with
  | State.Idle => (0, s)
  | State.Loaded _ => completionInit llama nCtx (promptText formatted prompt) s

def deliver (e : LLamaAndroid.Event) (bridge : Bridge) (s : Bridged) : Option Bridged :=
  (Delivery.step s.delivery (Delivery.Event.loop e)).map fun delivery =>
    { delivery := delivery, bridge := bridge }

/-- The bridge's byte strings are handed on as strings of the host. -/
def step (llama : Llama) (newString : List UInt8 -> Text) (s : Bridged) :
    Event -> Option Bridged
  | Event.start id formatted nCtx =>
      match s.delivery.loop.producers id with
      | some { point := Point.queued prompt, cancelled := _ } =>
          let (start, bridge) := prefilled llama formatted nCtx prompt
            s.delivery.loop.wrapper.threadLocalState s.bridge
          s.deliver (LLamaAndroid.Event.start id formatted nCtx start) bridge
      | _ => none
  | Event.iterate =>
      match s.delivery.loop.current.bind s.delivery.loop.producers with
      | some { point := Point.running g, cancelled := _ } =>
          let (str, bridge) := answer llama g s.bridge
          s.deliver (LLamaAndroid.Event.iterate (str.map newString)) bridge
      | _ => none
  | Event.resume id =>
      match s.delivery.loop.producers id with
      | some { point := Point.dispatched g, cancelled := cancelled } =>
          let (str, bridge) := if cancelled then (none, s.bridge) else answer llama g s.bridge
          s.deliver (LLamaAndroid.Event.resume id (str.map newString)) bridge
      | _ => none
  | Event.other e =>
      if bridges e then none
      else (Delivery.step s.delivery e).map fun delivery => { s with delivery := delivery }

/-- The event leaves the thread, and the model, to the generation. -/
def yields (id : GenerationId) : Event -> Bool
  | Event.start _ _ _ => false
  | Event.iterate => true
  | Event.resume other => other == id
  | Event.other (Delivery.Event.loop (LLamaAndroid.Event.load _ _)) => false
  | Event.other (Delivery.Event.loop LLamaAndroid.Event.unload) => false
  | Event.other _ => true

theorem step_delivery {llama : Llama} {newString : List UInt8 -> Text} {s s' : Bridged}
    {e : Event} (h : step llama newString s e = some s') :
    exists e', Delivery.step s.delivery e' = some s'.delivery := by
  have hdeliver {e : LLamaAndroid.Event} {bridge : Bridge}
      (h : s.deliver e bridge = some s') :
      exists e', Delivery.step s.delivery e' = some s'.delivery := by
    rcases Option.map_eq_some_iff.mp h with ⟨delivery, hstep, rfl⟩
    exact ⟨_, hstep⟩
  cases e with
  | start id formatted nCtx =>
      simp only [step] at h
      split at h
      · exact hdeliver h
      · cases h
  | iterate =>
      simp only [step] at h
      split at h
      · exact hdeliver h
      · cases h
  | resume id =>
      simp only [step] at h
      split at h
      · exact hdeliver h
      · cases h
  | other e =>
      simp only [step] at h
      split at h
      · cases h
      · rcases Option.map_eq_some_iff.mp h with ⟨delivery, hstep, rfl⟩
        exact ⟨_, hstep⟩

/-!
# One generation
-/

structure Does (llama : Llama) (newString : List UInt8 -> Text)
    (first : Completion.Generation) (id : GenerationId) (g : Generation)
    (s : Bridged) (done : Completion.Generation) : Prop where
  reaches : Reaches llama g.stop first done
  ncur : done.ncur = g.ncur
  bridge : done.bridge = s.bridge
  produced : s.delivery.produced id = done.emitted.map newString

structure Ends (llama : Llama) (newString : List UInt8 -> Text) (nCtx : Int) (prompt : Text)
    (opened : Bridge) (id : GenerationId) (s : Bridged) (collects : Nat -> Bool) : Prop where
  bridge : (runCompletion llama collects nCtx prompt opened).bridge = s.bridge
  produced : s.delivery.produced id =
    (runCompletion llama collects nCtx prompt opened).emitted.map newString
  whole : s.delivery.stopped id = false -> collects = fun _ => true
  part : (runCompletion llama collects nCtx prompt opened).emitted <+:
    (runCompletion llama (fun _ => true) nCtx prompt opened).emitted

/-- Where a generation that has the thread to itself can be. -/
inductive Progress (llama : Llama) (newString : List UInt8 -> Text) (nCtx : Int)
    (prompt : Text) (opened : Bridge) (id : GenerationId)
    (s : Bridged) : Prop where
  | goes (p : Producer) (g : Generation) (done : Completion.Generation)
      (hcurrent : s.delivery.loop.current = if p.point.runs then some id else none)
      (hp : s.delivery.loop.producers id = some p)
      (hg : p.point.generation = some g) (hstop : g.stop = nCtx - 1)
      (hsome : p.point.runs = false -> done.emitted ≠ [])
      (hdoes : Does llama newString (opening llama nCtx prompt opened) id g s done)
  | ended (collects : Nat -> Bool)
      (hcurrent : s.delivery.loop.current = none)
      (hp : s.delivery.loop.producers id = none)
      (hends : Ends llama newString nCtx prompt opened id s collects)

section Generations

variable {llama : Llama} {newString : List UInt8 -> Text} {nCtx : Int} {prompt : Text}
  {opened : Bridge} {id : GenerationId} {s s' : Bridged}

theorem Does.thrown {g : Generation} {done : Completion.Generation}
    (hdoes : Does llama newString (opening llama nCtx prompt opened) id g s done)
    (hstop : g.stop = nCtx - 1) (hsome : done.emitted ≠ [])
    (hstopped : s.delivery.stopped id = true) :
    Ends llama newString nCtx prompt opened id s
      (fun k => decide (k + 1 < done.tokens)) := by
  have hreaches := hdoes.reaches
  rw [hstop] at hreaches
  have hthrown := hreaches.thrown rfl hsome
  have hrun : runCompletion llama (fun k => decide (k + 1 < done.tokens)) nCtx prompt opened =
      { done with thrown := true } := by
    rw [Completion.runCompletion_opening, hthrown]
    rfl
  constructor
  · rw [hrun]
    exact hdoes.bridge
  · rw [hrun]
    exact hdoes.produced
  · intro hgoes
    rw [hstopped] at hgoes
    cases hgoes
  · rw [hrun, Completion.runCompletion_emitted]
    exact hreaches.part

theorem Does.concluded {g : Generation} {done : Completion.Generation} {bridge : Bridge}
    (hdoes : Does llama newString (opening llama nCtx prompt opened) id g s done)
    (hstop : g.stop = nCtx - 1)
    (hanswer : answer llama g s.bridge = (none, bridge))
    (hdelivery : s'.delivery.produced id = s.delivery.produced id)
    (hbridge : s'.bridge = bridge) :
    Ends llama newString nCtx prompt opened id s' (fun _ => true) := by
  have hreaches := hdoes.reaches
  rw [hstop] at hreaches
  rw [answer, hstop, <- hdoes.ncur, <- hdoes.bridge] at hanswer
  have hgenerate : exists last, last.memoryClear = bridge ∧
      Completion.generate llama (fun _ => true) (nCtx - 1) (opening llama nCtx prompt opened) =
        { done with bridge := last } := by
    rw [hreaches.generate fun _ _ => rfl, Completion.generate]
    split at hanswer
    · rename_i hlt
      rw [if_pos hlt]
      split at hanswer
      · cases hanswer
      · rename_i last hloop
        rw [hloop]
        cases hanswer
        exact ⟨last, rfl, rfl⟩
    · rename_i hge
      rw [if_neg hge]
      cases hanswer
      exact ⟨done.bridge, rfl, rfl⟩
  rcases hgenerate with ⟨last, hlast, hgenerate⟩
  have hrun : runCompletion llama (fun _ => true) nCtx prompt opened =
      { done with bridge := last.memoryClear } := by
    rw [Completion.runCompletion_opening, hgenerate]
    simp only [hreaches.thrown_eq rfl, Bool.false_eq_true, if_false]
  constructor
  · rw [hrun, hbridge]
    exact hlast
  · rw [hrun, hdelivery]
    exact hdoes.produced
  · exact fun _ => rfl
  · exact List.prefix_refl _

theorem answer_some {g : Generation} {s bridge : Bridge} {str : List UInt8}
    (h : answer llama g s = (some str, bridge)) :
    g.ncur < g.stop ∧ completionLoop llama g.stop g.ncur s = (some str, bridge) := by
  unfold answer at h
  split at h
  · rename_i hlt
    split at h
    · rename_i hloop
      cases h
      exact ⟨hlt, hloop⟩
    · cases h
  · cases h

theorem Does.iterates {g : Generation} {done : Completion.Generation} {cancelled : Bool}
    (hdoes : Does llama newString (opening llama nCtx prompt opened) id g s done)
    (hstop : g.stop = nCtx - 1) (hcancelled : cancelled = s'.delivery.stopped id)
    (hloop : s'.delivery.loop = s.delivery.loop.runIteration id g cancelled
      ((answer llama g s.bridge).1.map newString))
    (hproduced : s'.delivery.produced id = s.delivery.produced id ++
      iterated g ((answer llama g s.bridge).1.map newString))
    (hbridge : s'.bridge = (answer llama g s.bridge).2) :
    Progress llama newString nCtx prompt opened id s' := by
  cases hanswer : answer llama g s.bridge with
  | mk str bridge =>
      rw [hanswer] at hloop hproduced hbridge
      cases str with
      | none =>
          have hconcluded : s'.delivery.loop.current = none ∧
              s'.delivery.loop.producers id = none := by
            rw [hloop, RunLoop.runIteration]
            split <;> exact ⟨rfl, Function.update_self _ _ _⟩
          have hnothing : s'.delivery.produced id = s.delivery.produced id := by
            rw [hproduced, iterated]
            split <;> exact List.append_nil _
          exact Progress.ended _ hconcluded.left hconcluded.right
            (hdoes.concluded hstop hanswer hnothing hbridge)
      | some str =>
          rcases answer_some hanswer with ⟨hlt, hnext⟩
          have hreaches : Reaches llama g.stop (opening llama nCtx prompt opened)
              { bridge := bridge, ncur := done.ncur + 1, emitted := done.emitted ++ [str] } := by
            apply hdoes.reaches.next
            · rwa [hdoes.ncur]
            · rwa [hdoes.ncur, hdoes.bridge]
          have hmore (buffered : List Text) : Does llama newString
              (opening llama nCtx prompt opened) id
              { g with ncur := g.ncur + 1, buffered := buffered } s'
              { bridge := bridge, ncur := done.ncur + 1, emitted := done.emitted ++ [str] } := by
            refine ⟨hreaches, congrArg (· + 1) hdoes.ncur, hbridge.symm, ?_⟩
            rw [hproduced, hdoes.produced, iterated, if_pos hlt, List.map_append]
            rfl
          have hsome : done.emitted ++ [str] ≠ [] := by simp
          rw [RunLoop.runIteration, if_pos hlt] at hloop
          simp only [Option.map_some, RunLoop.emit] at hloop
          cases cancelled with
          | true =>
              rw [if_pos rfl] at hloop
              have hends := (hmore g.buffered).thrown hstop hsome hcancelled.symm
              exact Progress.ended _ (by rw [hloop]; rfl)
                (by rw [hloop]; exact Function.update_self _ _ _) hends
          | false =>
              rw [if_neg Bool.false_ne_true] at hloop
              split at hloop
              · have hp : s'.delivery.loop.producers id = some
                    { point := Point.running
                        { g with
                          ncur := g.ncur + 1
                          buffered := g.buffered ++ [newString str] } } := by
                  rw [hloop]
                  exact Function.update_self _ _ _
                refine Progress.goes _ _ _ ?_ hp rfl hstop (fun hruns => by cases hruns) (hmore _)
                rw [hloop]
                rfl
              · have hp : s'.delivery.loop.producers id = some
                    { point := Point.parked { g with ncur := g.ncur + 1 } (newString str) } := by
                  rw [hloop]
                  exact Function.update_self _ _ _
                refine Progress.goes _ _ _ ?_ hp rfl hstop (fun _ => hsome) (hmore g.buffered)
                rw [hloop]
                rfl

/-!
# Steps beside the generation
-/

theorem afterCancel_runs (p : Point) : (afterCancel p).runs = p.runs := by
  cases p <;> rfl

structure Aside (id : GenerationId) (d d' : Delivery) : Prop where
  current : d'.loop.current = d.loop.current
  produced : d'.produced id = d.produced id
  stopped : d'.stopped id = false -> d.stopped id = false
  ended : d.loop.producers id = none -> d'.loop.producers id = none
  goes : forall p g, d.loop.producers id = some p -> p.point.generation = some g ->
    exists p' g', d'.loop.producers id = some p' ∧ p'.point.generation = some g' ∧
      p'.point.runs = p.point.runs ∧ g'.ncur = g.ncur ∧ g'.stop = g.stop

theorem goes_of_update {id other : GenerationId} {producers : GenerationId -> Option Producer}
    {q q' : Producer} (hq : producers other = some q)
    (hq' : forall g, q.point.generation = some g ->
      exists g', q'.point.generation = some g' ∧ q'.point.runs = q.point.runs ∧
        g'.ncur = g.ncur ∧ g'.stop = g.stop) :
    (producers id = none -> Function.update producers other (some q') id = none) ∧
    forall p g, producers id = some p -> p.point.generation = some g ->
      exists p' g', Function.update producers other (some q') id = some p' ∧
        p'.point.generation = some g' ∧ p'.point.runs = p.point.runs ∧
        g'.ncur = g.ncur ∧ g'.stop = g.stop := by
  by_cases hsame : id = other
  · subst hsame
    rw [Function.update_self]
    constructor
    · intro hnone
      rw [hq] at hnone
      cases hnone
    · intro p g hp hg
      rw [hq] at hp
      cases hp
      rcases hq' g hg with ⟨g', hafter⟩
      exact ⟨q', g', rfl, hafter⟩
  · rw [Function.update_of_ne hsame]
    exact ⟨fun hnone => hnone, fun p g hp hg => ⟨p, g, hp, hg, rfl, rfl, rfl⟩⟩

theorem step_aside {d d' : Delivery} {e : Delivery.Event}
    (hlt : id < d.loop.nextGeneration) (hbridges : bridges e = false)
    (hyields : yields id (Event.other e) = true) (hs : Delivery.step d e = some d') :
    Aside id d d' := by
  cases e with
  | drain other =>
      simp only [Delivery.step] at hs
      split at hs <;> cases hs
      exact ⟨rfl, rfl, fun hgoes => hgoes, fun hnone => hnone,
        fun p g hp hg => ⟨p, g, hp, hg, rfl, rfl, rfl⟩⟩
  | loop e =>
      rcases Option.map_eq_some_iff.mp hs with ⟨loop, hstep, rfl⟩
      have hstopped {b c : Bool} (h : (b || c) = false) : b = false :=
        (Bool.or_eq_false_iff.mp h).left
      cases e with
      | start other formatted nCtx start => cases hbridges
      | iterate str => cases hbridges
      | resume other str => cases hbridges
      | load request answer => cases hyields
      | unload => cases hyields
      | collect prompt =>
          cases hstep
          have hother : Function.update d.loop.producers d.loop.nextGeneration
              (some { point := Point.queued prompt }) id = d.loop.producers id :=
            Function.update_of_ne (Nat.ne_of_lt hlt) _ _
          exact ⟨rfl, rfl, hstopped, hother.trans,
            fun p g hp hg => ⟨p, g, hother.trans hp, hg, rfl, rfl, rfl⟩⟩
      | take other =>
          simp only [LLamaAndroid.step] at hstep
          split at hstep
          · cases hstep
          · rename_i q hq
            rcases Option.map_eq_some_iff.mp hstep with ⟨point, hpoint, rfl⟩
            have hafter := @goes_of_update id other _ q { q with point := point } hq
              fun g hg => by
                rcases afterTake_generation hg hpoint with ⟨g', hg', hsame⟩
                exact ⟨g', hg', afterTake_runs hpoint, hsame⟩
            exact ⟨rfl, rfl, hstopped, hafter.left, hafter.right⟩
      | cancel other =>
          simp only [LLamaAndroid.step] at hstep
          split at hstep <;> cases hstep
          rename_i q hq
          have hafter := @goes_of_update id other _ q
            { point := afterCancel q.point, cancelled := true } hq fun g hg =>
              ⟨g, (afterCancel_generation _).trans hg, afterCancel_runs _, rfl, rfl⟩
          exact ⟨rfl, rfl, hstopped, hafter.left, hafter.right⟩

theorem Progress.aside (h : Progress llama newString nCtx prompt opened id s)
    (haside : Aside id s.delivery s'.delivery) (hbridge : s'.bridge = s.bridge) :
    Progress llama newString nCtx prompt opened id s' := by
  cases h with
  | goes p g done hcurrent hp hg hstop hsome hdoes =>
      rcases haside.goes p g hp hg with ⟨p', g', hp', hg', hruns, hncur, hstop'⟩
      refine Progress.goes p' g' done ?_ hp' hg' (hstop'.trans hstop) ?_ ?_
      · rw [haside.current, hcurrent, hruns]
      · rwa [hruns]
      · refine ⟨?_, hdoes.ncur.trans hncur.symm, hdoes.bridge.trans hbridge.symm, ?_⟩
        · rw [hstop']
          exact hdoes.reaches
        · rw [haside.produced]
          exact hdoes.produced
  | ended collects hcurrent hp hends =>
      refine Progress.ended collects (haside.current.trans hcurrent) (haside.ended hp) ?_
      refine ⟨hends.bridge.trans hbridge.symm, ?_, ?_, hends.part⟩
      · rw [haside.produced]
        exact hends.produced
      · exact fun hgoes => hends.whole (haside.stopped hgoes)

/-!
# Steps of the generation
-/

theorem deliver_eq_some {e : LLamaAndroid.Event} {bridge : Bridge}
    (h : s.deliver e bridge = some s') :
    s'.bridge = bridge ∧ LLamaAndroid.step s.delivery.loop e = some s'.delivery.loop ∧
      s'.delivery.produced = Delivery.record (returned s.delivery.loop e) s.delivery.produced ∧
      forall id, s'.delivery.stopped id =
        (s.delivery.stopped id || decide (stops e = some id)) := by
  rcases Option.map_eq_some_iff.mp h with ⟨delivery, hdelivery, rfl⟩
  rcases Option.map_eq_some_iff.mp hdelivery with ⟨loop, hloop, rfl⟩
  exact ⟨rfl, hloop, rfl, fun _ => rfl⟩

theorem Progress.iterate (h : Progress llama newString nCtx prompt opened id s)
    (hinv : Delivery.Inv s.delivery) (hs : step llama newString s Event.iterate = some s') :
    Progress llama newString nCtx prompt opened id s' := by
  cases h with
  | ended collects hcurrent hp hends =>
      simp only [step, hcurrent] at hs
      cases hs
  | goes p g done hcurrent hp hg hstop hsome hdoes =>
      rcases p with ⟨point, cancelled⟩
      cases point with
      | queued prompt => cases hg
      | parked g str =>
          replace hcurrent : s.delivery.loop.current = none := hcurrent
          simp only [step, hcurrent] at hs
          cases hs
      | dispatched g =>
          replace hcurrent : s.delivery.loop.current = none := hcurrent
          simp only [step, hcurrent] at hs
          cases hs
      | running g =>
          cases hg
          replace hcurrent : s.delivery.loop.current = some id := hcurrent
          simp only [step, hcurrent, Option.bind_some, hp] at hs
          rcases deliver_eq_some hs with ⟨hbridge, hloop, hproduced, hstopped⟩
          simp only [LLamaAndroid.step, hcurrent, hp, Option.some.injEq] at hloop
          refine hdoes.iterates hstop ?_ hloop.symm ?_ hbridge
          · rw [hstopped]
            exact ((hinv.flows id).cancelled _ hp).trans (Bool.or_false _).symm
          · rw [hproduced, returned_iterate hcurrent hp, Delivery.record_self, iterated_eq]

theorem Progress.resume (h : Progress llama newString nCtx prompt opened id s)
    (hinv : Delivery.Inv s.delivery)
    (hs : step llama newString s (Event.resume id) = some s') :
    Progress llama newString nCtx prompt opened id s' := by
  cases h with
  | ended collects hcurrent hp hends =>
      simp only [step, hp] at hs
      cases hs
  | goes p g done hcurrent hp hg hstop hsome hdoes =>
      have hcancelled := (hinv.flows id).cancelled p hp
      rcases p with ⟨point, cancelled⟩
      cases point with
      | queued prompt => cases hg
      | parked g str =>
          simp only [step, hp] at hs
          cases hs
      | running g =>
          simp only [step, hp] at hs
          cases hs
      | dispatched g =>
          cases hg
          replace hcurrent : s.delivery.loop.current = none := hcurrent
          simp only [step, hp] at hs
          rcases deliver_eq_some hs with ⟨hbridge, hloop, hproduced, hstopped⟩
          replace hstopped := (hstopped id).trans (Bool.or_false _)
          cases cancelled with
          | true =>
              simp only [LLamaAndroid.step, hcurrent, hp, if_true, Option.some.injEq] at hloop
              have hsame : s'.delivery.produced id = s.delivery.produced id := by
                rw [hproduced, returned_cancelled hp]
                rfl
              have hdone : Does llama newString (opening llama nCtx prompt opened) id g
                  s' done := by
                refine ⟨hdoes.reaches, hdoes.ncur, ?_, hsame.trans hdoes.produced⟩
                rw [hbridge, if_pos rfl]
                exact hdoes.bridge
              refine Progress.ended _ ?_ ?_
                (hdone.thrown hstop (hsome rfl) (hstopped.trans hcancelled.symm))
              · rw [<- hloop]
                rfl
              · rw [<- hloop]
                exact Function.update_self _ _ _
          | false =>
              simp only [LLamaAndroid.step, hcurrent, hp, Bool.false_eq_true, if_false,
                Option.some.injEq] at hloop hbridge hproduced
              refine hdoes.iterates hstop (hcancelled.trans hstopped.symm) hloop.symm ?_ hbridge
              rw [hproduced, returned_resume hp, Delivery.record_self, iterated_eq]

theorem Progress.step {e : Event} (h : Progress llama newString nCtx prompt opened id s)
    (hinv : Delivery.Inv s.delivery) (hlt : id < s.delivery.loop.nextGeneration)
    (hyields : yields id e = true) (hs : step llama newString s e = some s') :
    Progress llama newString nCtx prompt opened id s' := by
  cases e with
  | start other formatted nCtx => cases hyields
  | iterate => exact h.iterate hinv hs
  | resume other =>
      have hsame : other = id := of_decide_eq_true hyields
      subst hsame
      exact h.resume hinv hs
  | other e =>
      simp only [Bridged.step] at hs
      split at hs
      · cases hs
      · rename_i hbridges
        rcases Option.map_eq_some_iff.mp hs with ⟨delivery, hdelivery, rfl⟩
        exact h.aside (step_aside hlt (Bool.eq_false_iff.mpr hbridges) hyields hdelivery) rfl

/-!
# Runs
-/

theorem step_known {e : Event} (hinv : Delivery.Inv s.delivery)
    (hlt : id < s.delivery.loop.nextGeneration) (hs : step llama newString s e = some s') :
    Delivery.Inv s'.delivery ∧ id < s'.delivery.loop.nextGeneration := by
  rcases step_delivery hs with ⟨e', he'⟩
  refine ⟨Delivery.step_inv hinv he', ?_⟩
  cases e' with
  | drain other =>
      simp only [Delivery.step] at he'
      split at he'
      · rw [<- Option.some.inj he']
        exact hlt
      · cases he'
  | loop e =>
      rcases Option.map_eq_some_iff.mp he' with ⟨loop, hloop, hdelivery⟩
      rw [<- hdelivery]
      exact Nat.lt_of_lt_of_le hlt (nextGeneration_le hloop)

theorem run_delivery {es : List Event}
    (hrun : runEvents (step llama newString) {} es = some s) :
    exists es', runEvents Delivery.step {} es' = some s.delivery := by
  refine @runEvents_keeps _ _ _
    (fun s => exists es', runEvents Delivery.step {} es' = some s.delivery)
    (fun s e s' h hs => ?_) _ _ _ ⟨[], rfl⟩ hrun
  rcases step_delivery hs with ⟨e', he'⟩
  exact Delivery.reached_step h he'

theorem progress_start {p : Prompt} {cancelled : Bool} {handles : Loaded} {formatted : Text}
    (hp : s.delivery.loop.producers id =
      some { point := Point.queued p, cancelled := cancelled })
    (hloaded : s.delivery.loop.wrapper.threadLocalState = State.Loaded handles)
    (hnothing : s.delivery.produced id = [])
    (hs : step llama newString s (Event.start id formatted nCtx) = some s') :
    Progress llama newString nCtx (promptText formatted p) s.bridge id s' := by
  simp only [step, hp, prefilled, hloaded] at hs
  rcases deliver_eq_some hs with ⟨hbridge, hloop, hproduced, _⟩
  simp only [LLamaAndroid.step, hp] at hloop
  split at hloop
  · rename_i hcurrent hq
    cases hq
    simp only [RunLoop.begin, hloaded, Option.some.injEq] at hloop
    refine Progress.goes
      { point := Point.running
          { state := handles
            ncur := (completionInit llama nCtx (promptText formatted p) s.bridge).1
            stop := nCtx - 1 }
        cancelled := cancelled }
      _ (opening llama nCtx (promptText formatted p) s.bridge) ?_ ?_ rfl rfl
      (fun hruns => by cases hruns) ?_
    · rw [<- hloop]
      rfl
    · rw [<- hloop]
      exact Function.update_self _ _ _
    · refine ⟨Reaches.refl, rfl, hbridge.symm, ?_⟩
      rw [hproduced]
      exact hnothing
  · cases hloop

/-- A generation that has the thread to itself goes on, or has ended as `runCompletion`
would have. -/
theorem run_progress {es : List Event} (hinv : Delivery.Inv s.delivery)
    (hlt : id < s.delivery.loop.nextGeneration)
    (h : Progress llama newString nCtx prompt opened id s)
    (hyields : forall e, e ∈ es -> yields id e = true)
    (hrun : runEvents (step llama newString) s es = some s') :
    Delivery.Inv s'.delivery ∧ Progress llama newString nCtx prompt opened id s' := by
  have hall : AllSteps (step llama newString) (fun _ _ => True) s es :=
    AllSteps.of_forall (fun _ _ => trivial) s es
  have hok : AllSteps (step llama newString) (fun _ e => yields id e = true) s es :=
    hall.mono fun _ e he _ => hyields e he
  have hafter := @runEvents_invariant _ _ _ _
    (fun s => Delivery.Inv s.delivery ∧ id < s.delivery.loop.nextGeneration ∧
      Progress llama newString nCtx prompt opened id s)
    (fun s e s' hall hyields hs => by
      rcases hall with ⟨hinv, hlt, hprogress⟩
      rcases step_known hinv hlt hs with ⟨hinv', hlt'⟩
      exact ⟨hinv', hlt', hprogress.step hinv hlt hyields hs⟩)
    _ _ _ ⟨hinv, hlt, h⟩ hok hrun
  exact ⟨hafter.left, hafter.right.right⟩

theorem Progress.returned (h : Progress llama newString nCtx prompt opened id s) :
    exists emitted, s.delivery.produced id = emitted.map newString ∧
      emitted <+: (runCompletion llama (fun _ => true) nCtx prompt opened).emitted := by
  cases h with
  | goes p g done hcurrent hp hg hstop hsome hdoes =>
      refine ⟨done.emitted, hdoes.produced, ?_⟩
      have hreaches := hdoes.reaches
      rw [hstop] at hreaches
      rw [Completion.runCompletion_emitted]
      exact hreaches.part
  | ended collects hcurrent hp hends => exact ⟨_, hends.produced, hends.part⟩

theorem Progress.ends (h : Progress llama newString nCtx prompt opened id s)
    (hp : s.delivery.loop.producers id = none) :
    exists collects, Ends llama newString nCtx prompt opened id s collects := by
  cases h with
  | goes p g done hcurrent hp' hg hstop hsome hdoes =>
      rw [hp] at hp'
      cases hp'
  | ended collects hcurrent hp' hends => exact ⟨collects, hends⟩

theorem start_progress {es : List Event} {p : Prompt} {cancelled : Bool} {handles : Loaded}
    {formatted : Text}
    (hreached : exists earlier, runEvents Delivery.step {} earlier = some s.delivery)
    (hp : s.delivery.loop.producers id =
      some { point := Point.queued p, cancelled := cancelled })
    (hloaded : s.delivery.loop.wrapper.threadLocalState = State.Loaded handles)
    (hyields : forall e, e ∈ es -> yields id e = true)
    (hrun : runEvents (step llama newString) s (Event.start id formatted nCtx :: es) =
      some s') :
    Delivery.Inv s'.delivery ∧
      Progress llama newString nCtx (promptText formatted p) s.bridge id s' := by
  rcases runEvents_cons.mp hrun with ⟨started, hstart, hrest⟩
  rcases hreached with ⟨events, hevents⟩
  have hinv := (Delivery.run_inv hevents).left
  have hnothing := Delivery.run_unheard hevents id _ hp rfl
  rcases step_known hinv (hinv.lt hp) hstart with ⟨hinv', hlt⟩
  exact run_progress hinv' hlt (progress_start hp hloaded hnothing hstart) hyields hrest

end Generations

/-- A generation that has the thread to itself, suspended as often as it may be, makes the
bridge do what one call of `runCompletion` does; if its collector never stops, it returns all
of the strings of that call, and the collector has or will get them. -/
theorem undisturbed_generation {llama : Llama} {newString : List UInt8 -> Text}
    {s s' : Bridged} {earlier es : List Event} {id : GenerationId} {p : Prompt}
    {cancelled : Bool} {handles : Loaded} {formatted : Text} {nCtx : Int}
    (hreached : runEvents (step llama newString) {} earlier = some s)
    (hp : s.delivery.loop.producers id =
      some { point := Point.queued p, cancelled := cancelled })
    (hloaded : s.delivery.loop.wrapper.threadLocalState = State.Loaded handles)
    (hyields : forall e, e ∈ es -> yields id e = true)
    (hrun : runEvents (step llama newString) s (Event.start id formatted nCtx :: es) =
      some s') :
    let completion := fun collects =>
      runCompletion llama collects nCtx (promptText formatted p) s.bridge
    (exists emitted, s'.delivery.produced id = emitted.map newString ∧
      emitted <+: (completion fun _ => true).emitted) ∧
    (s'.delivery.loop.producers id = none -> exists collects,
      s'.bridge = (completion collects).bridge ∧
      s'.delivery.produced id = (completion collects).emitted.map newString ∧
      (s'.delivery.stopped id = false -> collects = (fun _ => true) ∧
        s'.delivery.received id ++ s'.delivery.onTheWay id = s'.delivery.produced id)) := by
  intro completion
  rcases start_progress (run_delivery hreached) hp hloaded hyields hrun with ⟨hinv, hprogress⟩
  refine ⟨hprogress.returned, fun hnone => ?_⟩
  rcases hprogress.ends hnone with ⟨collects, hends⟩
  exact ⟨collects, hends.bridge.symm, hends.produced, fun hgoes =>
    ⟨hends.whole hgoes, ((hinv.delivered id).right.left hgoes).symm⟩⟩

def tokens (count : Completion.Token) : Llama where
  tokenize := fun _ => [0]
  isEog := fun token => decide (token = count)
  tokenToPiece := fun _ => some [104, 105]
  decodes := fun _ => true
  samples := fun k => k

def collected : List Event :=
  [Event.other (Delivery.Event.loop (LLamaAndroid.Event.load request {})),
   Event.other (Delivery.Event.loop (LLamaAndroid.Event.collect
    (Prompt.formatted "hi".toList)))]

def fills : List Event :=
  List.replicate 65 Event.iterate

def goesOn : List Event :=
  [Event.other (Delivery.Event.loop (LLamaAndroid.Event.collect
    (Prompt.formatted "you".toList))),
   Event.other (Delivery.Event.loop (LLamaAndroid.Event.take 0)),
   Event.other (Delivery.Event.loop (LLamaAndroid.Event.take 0)), Event.resume 0,
   Event.iterate]

theorem undisturbed_generation_suspended :
    exists s mid s',
      runEvents (step (tokens 66) ModifiedUtf8.newStringUTF) {} collected = some s ∧
      runEvents (step (tokens 66) ModifiedUtf8.newStringUTF) s
        (Event.start 0 [] 4096 :: fills) = some mid ∧
      mid.delivery.loop.current = none ∧ (mid.delivery.loop.producers 0).isSome = true ∧
      runEvents (step (tokens 66) ModifiedUtf8.newStringUTF) s
        (Event.start 0 [] 4096 :: (fills ++ goesOn)) = some s' ∧
      s'.delivery.received 0 = List.replicate 2 "hi".toList ∧
      s'.delivery.onTheWay 0 = List.replicate 64 "hi".toList ∧
      s'.delivery.received 0 ++ s'.delivery.onTheWay 0 =
        (runCompletion (tokens 66) (fun _ => true) 4096 "hi".toList s.bridge).emitted.map
          ModifiedUtf8.newStringUTF ∧
      s'.bridge =
        (runCompletion (tokens 66) (fun _ => true) 4096 "hi".toList s.bridge).bridge := by
  have hcollected : (runEvents (step (tokens 66) ModifiedUtf8.newStringUTF) {} collected).map
      (fun s => (s.delivery.loop.producers 0, s.delivery.loop.wrapper.threadLocalState)) =
        some (some { point := Point.queued (Prompt.formatted "hi".toList) },
          State.Loaded
            { path := request.pathToModel
              model := 1
              context := 2
              batch := 3
              sampler := 4 }) := by decide +kernel
  have hfilled : (runEvents (step (tokens 66) ModifiedUtf8.newStringUTF) {}
      (collected ++ Event.start 0 [] 4096 :: fills)).map
        (fun s => (s.delivery.loop.current, (s.delivery.loop.producers 0).isSome)) =
        some (none, true) := by decide +kernel
  have hended : (runEvents (step (tokens 66) ModifiedUtf8.newStringUTF) {}
      (collected ++ Event.start 0 [] 4096 :: (fills ++ goesOn))).map
        (fun s => (s.delivery.loop.producers 0, s.delivery.stopped 0, s.delivery.received 0,
          s.delivery.onTheWay 0)) =
        some (none, false, List.replicate 2 "hi".toList, List.replicate 64 "hi".toList) := by
    decide +kernel
  rcases Option.map_eq_some_iff.mp hcollected with ⟨s, hs, hqueued⟩
  rcases Option.map_eq_some_iff.mp hfilled with ⟨mid, hthere, hwaits⟩
  rcases Option.map_eq_some_iff.mp hended with ⟨s', hall, hfacts⟩
  have hfrom : forall {es : List Event} {t : Bridged},
      runEvents (step (tokens 66) ModifiedUtf8.newStringUTF) {} (collected ++ es) = some t ->
        runEvents (step (tokens 66) ModifiedUtf8.newStringUTF) s es = some t := by
    intro es t hrun
    rcases runEvents_append.mp hrun with ⟨first, hfirst, hrest⟩
    rw [hs] at hfirst
    cases hfirst
    exact hrest
  simp only [Prod.mk.injEq] at hqueued hwaits hfacts
  rcases hfacts with ⟨hnone, hgoes, hreceived, hway⟩
  have hyields : forall e, e ∈ fills ++ goesOn -> yields 0 e = true :=
    List.all_eq_true.mp (by decide : (fills ++ goesOn).all (yields 0) = true)
  rcases (undisturbed_generation hs hqueued.left hqueued.right hyields (hfrom hall)).right
    hnone with ⟨collects, hbridge, hproduced, hwhole⟩
  rcases hwhole hgoes with ⟨rfl, hdelivered⟩
  exact ⟨s, mid, s', hs, hfrom hthere, hwaits.left, hwaits.right, hfrom hall, hreceived, hway,
    hdelivered.trans hproduced, hbridge⟩

end Bridged
end LLamaAndroid
end DomainAI
