import DomainAI.Library.Channel
import DomainAI.Llama.ExclusiveContext

/-!
# Delivery of a generation's strings

The strings that `completion_loop` returns reach the collector through the channel of
`flowOn`, which outlives the coroutine that fills it.
-/

namespace DomainAI
namespace LLamaAndroid

open Library RunLoop

/-- The run loop, with what becomes of the strings of each generation. -/
structure Delivery where
  loop : RunLoop := {}
  left : GenerationId -> List Text := fun _ => []
  /-- The strings that `completion_loop` has returned. -/
  produced : GenerationId -> List Text := fun _ => []
  received : GenerationId -> List Text := fun _ => []
  stopped : GenerationId -> Bool := fun _ => false

namespace Delivery

inductive Event where
  | loop (e : LLamaAndroid.Event)
  /-- A collector takes an element of a generation that has ended. -/
  | drain (id : GenerationId)

end Delivery

def Point.buffered (p : Point) : List Text :=
  (p.generation.map Generation.buffered).getD []

def Point.waiting : Point -> Option Text
  | Point.parked _ str => some str
  | _ => none

def returned (s : RunLoop) : Event -> Option (GenerationId × Text)
  | Event.iterate (some str) =>
      match s.current with
      | none => none
      | some id =>
          match s.producers id with
          | some { point := Point.running g, cancelled := _ } =>
              if g.ncur < g.stop then some (id, str) else none
          | _ => none
  | Event.resume id (some str) =>
      match s.producers id with
      | some { point := Point.dispatched g, cancelled := false } =>
          if g.ncur < g.stop then some (id, str) else none
      | _ => none
  | _ => none

def taken (s : RunLoop) : Event -> Option (GenerationId × Text)
  | Event.take id =>
      (s.producers id).bind fun p => p.point.buffered.head?.map (Prod.mk id)
  | _ => none

def stops : Event -> Option GenerationId
  | Event.cancel id => some id
  | _ => none

namespace Delivery

def record (element : Option (GenerationId × Text)) (lists : GenerationId -> List Text) :
    GenerationId -> List Text :=
  match element with
  | none => lists
  | some (id, str) => Function.update lists id (lists id ++ [str])

def leave (s loop : RunLoop) (left : GenerationId -> List Text) (id : GenerationId) :
    List Text :=
  match s.producers id, loop.producers id with
  | some p, none => if p.cancelled then [] else p.point.buffered
  | _, _ => left id

def step (s : Delivery) : Event -> Option Delivery
  | Event.loop e =>
      (LLamaAndroid.step s.loop e).map fun loop =>
        { loop := loop
          left := leave s.loop loop s.left
          produced := record (returned s.loop e) s.produced
          received := record (taken s.loop e) s.received
          stopped := fun id => s.stopped id || decide (stops e = some id) }
  | Event.drain id =>
      match s.loop.producers id, s.left id with
      | none, str :: rest =>
          some { s with
            left := Function.update s.left id rest
            received := record (some (id, str)) s.received }
      | _, _ => none

end Delivery

/-!
# The channel of a coroutine
-/

def Carries (c : Channel Text capacity) (left : List Text) : Option Producer -> Prop
  | some p => c.buffered = p.point.buffered ∧ c.waiting = p.point.waiting
  | none => c.buffered = left ∧ c.waiting = none

/-- The strings of one generation are received or on their way, each once and in order; all
of them, unless it is stopped. -/
structure Flows (p : Option Producer) (left produced received : List Text)
    (stopped : Bool) : Prop where
  cancelled : forall q, p = some q -> q.cancelled = stopped
  channel : exists c, Carries c left p ∧ received ++ c.contents <+: produced ∧
    (stopped = false -> produced = received ++ c.contents)

section Flows

variable {p : Option Producer} {left produced received : List Text} {stopped : Bool}

theorem Flows.prefixed (h : Flows p left produced received stopped) :
    received <+: produced := by
  rcases h.channel with ⟨c, _, hcontents, _⟩
  exact (List.prefix_append _ _).trans hcontents

theorem flows_new {prompt : Prompt} :
    Flows (some { point := Point.queued prompt }) left [] [] false where
  cancelled q hq := by
    cases hq
    rfl
  channel := ⟨Channel.empty Text capacity, ⟨rfl, rfl⟩, List.nil_prefix, fun _ => rfl⟩

theorem Flows.moves {q q' : Producer} (h : Flows (some q) left produced received stopped)
    (hcancelled : q'.cancelled = q.cancelled)
    (hbuffered : q'.point.buffered = q.point.buffered)
    (hwaiting : q'.point.waiting = q.point.waiting) :
    Flows (some q') left produced received stopped where
  cancelled q'' hq'' := by
    cases hq''
    exact hcancelled.trans (h.cancelled q rfl)
  channel := by
    rcases h.channel with ⟨c, hcarries, hcontents⟩
    refine ⟨c, ?_, hcontents⟩
    exact ⟨hcarries.left.trans hbuffered.symm, hcarries.right.trans hwaiting.symm⟩

theorem Flows.ends {q : Producer} (h : Flows (some q) left produced received stopped)
    (hwaiting : q.point.waiting = none) :
    Flows none (if q.cancelled then [] else q.point.buffered) produced received stopped where
  cancelled q' hq' := by cases hq'
  channel := by
    rcases h.channel with ⟨c, hcarries, hcontents⟩
    rw [h.cancelled q rfl]
    cases stopped with
    | true =>
        refine ⟨Channel.empty Text capacity, ⟨rfl, rfl⟩, ?_, fun hfalse => by cases hfalse⟩
        rw [Channel.contents_empty, List.append_nil]
        exact h.prefixed
    | false => exact ⟨c, ⟨hcarries.left, hcarries.right.trans hwaiting⟩, hcontents⟩

theorem Flows.emits {q q' : Producer} (h : Flows (some q) left produced received stopped)
    (hgoes : q.cancelled = false) (hwaiting : q.point.waiting = none)
    (hcancelled : q'.cancelled = q.cancelled) {str : Text}
    (hsent : forall c : Channel Text capacity, c.buffered = q.point.buffered ->
      (c.send str).buffered = q'.point.buffered ∧
        (c.send str).waiting = q'.point.waiting) :
    Flows (some q') left (produced ++ [str]) received stopped where
  cancelled q'' hq'' := by
    cases hq''
    exact hcancelled.trans (h.cancelled q rfl)
  channel := by
    rcases h.channel with ⟨c, hcarries, _, hcontents⟩
    have hall : produced ++ [str] = received ++ (c.send str).contents := by
      rw [Channel.contents_send (hcarries.right.trans hwaiting), <- List.append_assoc,
        <- hcontents ((h.cancelled q rfl).symm.trans hgoes)]
    exact ⟨c.send str, hsent c hcarries.left, hall ▸ List.prefix_rfl, fun _ => hall⟩

theorem Flows.drops {q : Producer} (h : Flows (some q) left produced received stopped)
    (hcancelled : q.cancelled = true) (str : Text) :
    Flows none (if q.cancelled then [] else q.point.buffered) (produced ++ [str]) received
      stopped where
  cancelled q' hq' := by cases hq'
  channel := by
    refine ⟨Channel.empty Text capacity, ?_, ?_, ?_⟩
    · rw [if_pos hcancelled]
      exact ⟨rfl, rfl⟩
    · rw [Channel.contents_empty, List.append_nil]
      exact h.prefixed.trans (List.prefix_append _ _)
    · intro hgoes
      have hstopped := h.cancelled q rfl
      rw [hcancelled, hgoes] at hstopped
      cases hstopped

theorem Flows.takes {p' : Option Producer} {left' : List Text}
    (h : Flows p left produced received stopped)
    (hcancelled : forall q, p' = some q -> q.cancelled = stopped) {str : Text}
    (hreceives : forall c : Channel Text capacity, Carries c left p ->
      exists c', c.receive = some (str, c') ∧ Carries c' left' p') :
    Flows p' left' produced (received ++ [str]) stopped where
  cancelled := hcancelled
  channel := by
    rcases h.channel with ⟨c, hcarries, hfirst, hcontents⟩
    rcases hreceives c hcarries with ⟨c', hreceive, hcarries'⟩
    have hsame : received ++ c.contents = (received ++ [str]) ++ c'.contents := by
      rw [Channel.contents_receive hreceive, List.append_assoc]
      rfl
    rw [hsame] at hfirst hcontents
    exact ⟨c', hcarries', hfirst, hcontents⟩

theorem Flows.stops {q q' : Producer} (h : Flows (some q) left produced received stopped)
    (hcancelled : q'.cancelled = true) (hbuffered : q'.point.buffered = q.point.buffered)
    (hnone : q'.point.waiting = none) : Flows (some q') left produced received true where
  cancelled q'' hq'' := by
    cases hq''
    exact hcancelled
  channel := by
    rcases h.channel with ⟨c, hcarries, hfirst, _⟩
    refine ⟨c.giveUp, ⟨hcarries.left.trans hbuffered.symm, hnone.symm⟩, ?_,
      fun hfalse => by cases hfalse⟩
    refine List.IsPrefix.trans ?_ hfirst
    rw [List.prefix_append_right_inj, Channel.contents_giveUp]
    exact List.prefix_append _ _

def leaveOf (q : Producer) (left : List Text) : Option Producer -> List Text
  | none => if q.cancelled then [] else q.point.buffered
  | some _ => left

def iterated (g : Generation) (str : Option Text) : List Text :=
  if g.ncur < g.stop then str.toList else []

theorem iterated_eq (g : Generation) (str : Option Text) :
    (if g.ncur < g.stop then str else none).toList = iterated g str := by
  unfold iterated
  split <;> rfl

theorem returned_iterate {s : RunLoop} {id : GenerationId} {g : Generation} {cancelled : Bool}
    (hcurrent : s.current = some id)
    (hp : s.producers id = some { point := Point.running g, cancelled := cancelled })
    (str : Option Text) : returned s (Event.iterate str) =
      (if g.ncur < g.stop then str else none).map (Prod.mk id) := by
  cases str with
  | none => split <;> rfl
  | some str =>
      simp only [returned, hcurrent, hp]
      split <;> rfl

theorem returned_resume {s : RunLoop} {id : GenerationId} {g : Generation}
    (hp : s.producers id = some { point := Point.dispatched g, cancelled := false })
    (str : Option Text) : returned s (Event.resume id str) =
      (if g.ncur < g.stop then str else none).map (Prod.mk id) := by
  cases str with
  | none => split <;> rfl
  | some str =>
      simp only [returned, hp]
      split <;> rfl

theorem returned_cancelled {s : RunLoop} {id : GenerationId} {g : Generation}
    (hp : s.producers id = some { point := Point.dispatched g, cancelled := true })
    (str : Option Text) : returned s (Event.resume id str) = none := by
  cases str with
  | none => rfl
  | some str => simp only [returned, hp]

theorem runIteration_flows (s : RunLoop) (id : GenerationId) {q : Producer} {g : Generation}
    (hg : q.point.generation = some g) (hwaiting : q.point.waiting = none)
    (str : Option Text) (h : Flows (some q) left produced received stopped) :
    (s.runIteration id g q.cancelled str).nextGeneration = s.nextGeneration ∧
    exists p', (s.runIteration id g q.cancelled str).producers =
        Function.update s.producers id p' ∧
      Flows p' (leaveOf q left p') (produced ++ iterated g str) received stopped := by
  have hbuffered : q.point.buffered = g.buffered := by
    rw [Point.buffered, hg]
    rfl
  unfold RunLoop.runIteration iterated
  split
  · cases str with
    | none =>
        refine ⟨rfl, none, rfl, ?_⟩
        rw [Option.toList_none, List.append_nil]
        exact h.ends hwaiting
    | some str =>
        simp only [emit]
        split
        · rename_i hcancelled
          exact ⟨rfl, none, rfl, h.drops hcancelled str⟩
        · rename_i hgoes
          have hgoes := Bool.eq_false_iff.mpr hgoes
          split
          · rename_i hroom
            have hsent : forall c : Channel Text capacity, c.buffered = q.point.buffered ->
                (c.send str).buffered = g.buffered ++ [str] ∧ (c.send str).waiting = none := by
              intro c hc
              rw [hbuffered] at hc
              rw [<- hc] at hroom ⊢
              exact Channel.send_of_room hroom str
            have hafter := @Flows.emits left produced received stopped q
              { point := Point.running
                  { g with ncur := g.ncur + 1, buffered := g.buffered ++ [str] }
                cancelled := q.cancelled } h hgoes hwaiting rfl str hsent
            exact ⟨rfl, _, rfl, hafter⟩
          · rename_i hfull
            have hsent : forall c : Channel Text capacity, c.buffered = q.point.buffered ->
                (c.send str).buffered = g.buffered ∧ (c.send str).waiting = some str := by
              intro c hc
              rw [hbuffered] at hc
              rw [<- hc] at hfull ⊢
              exact Channel.send_of_full hfull str
            have hafter := @Flows.emits left produced received stopped q
              { point := Point.parked { g with ncur := g.ncur + 1 } str } h hgoes hwaiting
              hgoes.symm str hsent
            exact ⟨rfl, _, rfl, hafter⟩
  · refine ⟨rfl, none, rfl, ?_⟩
    rw [List.append_nil]
    exact h.ends hwaiting

end Flows

/-!
# Every schedule
-/

namespace Delivery

structure Inv (s : Delivery) : Prop where
  flows : forall id, Flows (s.loop.producers id) (s.left id) (s.produced id) (s.received id)
    (s.stopped id)
  fresh : forall id, s.loop.nextGeneration ≤ id ->
    s.loop.producers id = none ∧ s.left id = [] ∧ s.produced id = [] ∧
      s.received id = [] ∧ s.stopped id = false

section Inv

variable {s s' : Delivery}

theorem record_of_ne {element : Option (GenerationId × Text)} {id other : GenerationId}
    (h : forall x, element = some x -> x.1 = id) (hother : other ≠ id)
    (lists : GenerationId -> List Text) : record element lists other = lists other := by
  cases element with
  | none => rfl
  | some x =>
      have hx := h x rfl
      rw [record, hx]
      exact Function.update_of_ne hother _ _

theorem record_self (str : Option Text) (id : GenerationId)
    (lists : GenerationId -> List Text) :
    record (str.map (Prod.mk id)) lists id = lists id ++ str.toList := by
  cases str with
  | none => exact (List.append_nil _).symm
  | some str => exact Function.update_self _ _ _

theorem leave_of_none {loop : RunLoop} {id : GenerationId} {p : Producer}
    (hp : s.loop.producers id = some p) (hloop : loop.producers id = none) :
    leave s.loop loop s.left id = if p.cancelled then [] else p.point.buffered := by
  rw [leave, hp, hloop]

theorem leave_of_some {loop : RunLoop} {id : GenerationId} {p' : Producer}
    (hloop : loop.producers id = some p') : leave s.loop loop s.left id = s.left id := by
  unfold leave
  rw [hloop]
  cases s.loop.producers id <;> rfl

theorem forth_none {element : Option (GenerationId × Text)} {id : GenerationId}
    (h : element = none) : element = (none : Option Text).map (Prod.mk id) := h

theorem Inv.touch (h : Inv s) {e : LLamaAndroid.Event} {loop : RunLoop} {id : GenerationId}
    {p' : Option Producer} {back forth : Option Text}
    (hproducers : loop.producers = Function.update s.loop.producers id p')
    (hnext : s.loop.nextGeneration ≤ loop.nextGeneration) (hid : id < loop.nextGeneration)
    (hreturned : returned s.loop e = forth.map (Prod.mk id))
    (htaken : taken s.loop e = back.map (Prod.mk id))
    (hstops : forall other, stops e = some other -> other = id)
    (hflows : Flows p' (leave s.loop loop s.left id) (s.produced id ++ forth.toList)
      (s.received id ++ back.toList) (s.stopped id || decide (stops e = some id))) :
    Inv
      { loop := loop
        left := leave s.loop loop s.left
        produced := record (returned s.loop e) s.produced
        received := record (taken s.loop e) s.received
        stopped := fun id => s.stopped id || decide (stops e = some id) } := by
  have hothers : forall other, other ≠ id ->
      loop.producers other = s.loop.producers other ∧
      leave s.loop loop s.left other = s.left other ∧
      record (returned s.loop e) s.produced other = s.produced other ∧
      record (taken s.loop e) s.received other = s.received other ∧
      (s.stopped other || decide (stops e = some other)) = s.stopped other := by
    intro other hother
    have hsame : loop.producers other = s.loop.producers other := by
      rw [hproducers]
      exact Function.update_of_ne hother _ _
    refine ⟨hsame, ?_, ?_, ?_, ?_⟩
    · unfold leave
      rw [hsame]
      cases s.loop.producers other <;> rfl
    · refine record_of_ne (fun x hx => ?_) hother _
      rw [hreturned] at hx
      rcases Option.map_eq_some_iff.mp hx with ⟨str, _, rfl⟩
      rfl
    · refine record_of_ne (fun x hx => ?_) hother _
      rw [htaken] at hx
      rcases Option.map_eq_some_iff.mp hx with ⟨str, _, rfl⟩
      rfl
    · rw [decide_eq_false fun hstop => hother (hstops other hstop), Bool.or_false]
  constructor
  · intro other
    by_cases hsame : other = id
    · subst hsame
      dsimp only
      rw [hproducers, Function.update_self, hreturned, htaken, record_self, record_self]
      exact hflows
    · rcases hothers other hsame with ⟨hp, hleft, hforth, hback, hstopped⟩
      dsimp only
      rw [hp, hleft, hforth, hback, hstopped]
      exact h.flows other
  · intro other hother
    have hne : other ≠ id := fun hsame => Nat.not_le.mpr hid (hsame ▸ hother)
    rcases hothers other hne with ⟨hp, hleft, hforth, hback, hstopped⟩
    dsimp only
    rw [hp, hleft, hforth, hback, hstopped]
    exact h.fresh other (Nat.le_trans hnext hother)

theorem Inv.lt (h : Inv s) {id : GenerationId} {p : Producer}
    (hp : s.loop.producers id = some p) : id < s.loop.nextGeneration := by
  by_contra hge
  rw [(h.fresh id (Nat.not_lt.mp hge)).left] at hp
  cases hp

theorem Inv.iterate (h : Inv s) {e : LLamaAndroid.Event} {id : GenerationId} {q : Producer}
    {g : Generation} {str : Option Text} (hp : s.loop.producers id = some q)
    (hg : q.point.generation = some g) (hwaiting : q.point.waiting = none)
    (hreturned : returned s.loop e =
      (if g.ncur < g.stop then str else none).map (Prod.mk id))
    (htaken : taken s.loop e = none) (hstops : stops e = none) :
    Inv
      { loop := s.loop.runIteration id g q.cancelled str
        left := leave s.loop (s.loop.runIteration id g q.cancelled str) s.left
        produced := record (returned s.loop e) s.produced
        received := record (taken s.loop e) s.received
        stopped := fun id => s.stopped id || decide (stops e = some id) } := by
  have hflows := h.flows id
  rw [hp] at hflows
  rcases runIteration_flows s.loop id hg hwaiting str hflows with
    ⟨hnext, p', hproducers, hafter⟩
  have htakes : taken s.loop e = (none : Option Text).map (Prod.mk id) := htaken
  refine h.touch hproducers (Nat.le_of_eq hnext.symm) ?_ hreturned htakes ?_ ?_
  · rw [hnext]
    exact h.lt hp
  · intro other hother
    rw [hstops] at hother
    cases hother
  · have hleave : leave s.loop (s.loop.runIteration id g q.cancelled str) s.left id =
        leaveOf q (s.left id) p' := by
      unfold leave
      rw [hproducers, Function.update_self, hp]
      cases p' <;> rfl
    rw [hleave, iterated_eq, hstops]
    simpa using hafter

theorem Inv.quiet (h : Inv s) {e : LLamaAndroid.Event} {loop : RunLoop} {id : GenerationId}
    {p' : Option Producer}
    (hproducers : loop.producers = Function.update s.loop.producers id p')
    (hnext : s.loop.nextGeneration ≤ loop.nextGeneration) (hid : id < loop.nextGeneration)
    (hreturned : returned s.loop e = none) (htaken : taken s.loop e = none)
    (hstops : forall other, stops e = some other -> other = id)
    (hflows : Flows p' (leave s.loop loop s.left id) (s.produced id) (s.received id)
      (s.stopped id || decide (stops e = some id))) :
    Inv
      { loop := loop
        left := leave s.loop loop s.left
        produced := record (returned s.loop e) s.produced
        received := record (taken s.loop e) s.received
        stopped := fun id => s.stopped id || decide (stops e = some id) } := by
  have hreturns : returned s.loop e = (none : Option Text).map (Prod.mk id) := hreturned
  have htakes : taken s.loop e = (none : Option Text).map (Prod.mk id) := htaken
  refine h.touch hproducers hnext hid hreturns htakes hstops ?_
  rwa [Option.toList_none, List.append_nil, List.append_nil]

theorem Inv.onWrapper (h : Inv s) (f : Wrapper -> Wrapper) {e : LLamaAndroid.Event}
    (hreturned : returned s.loop e = none) (htaken : taken s.loop e = none)
    (hstops : stops e = none) :
    Inv
      { loop := s.loop.onWrapper f
        left := leave s.loop (s.loop.onWrapper f) s.left
        produced := record (returned s.loop e) s.produced
        received := record (taken s.loop e) s.received
        stopped := fun id => s.stopped id || decide (stops e = some id) } := by
  have hleave : leave s.loop (s.loop.onWrapper f) s.left = s.left := by
    funext id
    unfold leave RunLoop.onWrapper
    dsimp only
    cases s.loop.producers id <;> rfl
  rw [hreturned, htaken, hstops, hleave]
  constructor
  · intro id
    simpa [record, RunLoop.onWrapper] using h.flows id
  · intro id hid
    simpa [record, RunLoop.onWrapper] using h.fresh id hid

theorem afterTake_receives {q : Producer} {point : Point}
    (hpoint : afterTake q.point = some point) (left : List Text)
    {c : Channel Text capacity} (hc : Carries c left (some q)) :
    exists str c', q.point.buffered.head? = some str ∧ c.receive = some (str, c') ∧
      Carries c' left (some { q with point := point }) := by
  rcases hc with ⟨hbuffered, hwaiting⟩
  have hcons : forall str rest, q.point.buffered = str :: rest ->
      point.buffered = rest ++ q.point.waiting.toList -> point.waiting = none ->
      exists str c', q.point.buffered.head? = some str ∧ c.receive = some (str, c') ∧
        Carries c' left (some { q with point := point }) := by
    intro str rest hstr hrest hnone
    rcases Channel.receive_of_cons (hbuffered.trans hstr) with ⟨c', hreceive, hc', hw'⟩
    refine ⟨str, c', ?_, hreceive, ?_, hw'.trans hnone.symm⟩
    · rw [hstr]
      rfl
    · rw [hc', hwaiting]
      exact hrest.symm
  rcases q with ⟨_ | g | ⟨g, str⟩ | g, cancelled⟩
  · cases hpoint
  · simp only [afterTake] at hpoint
    split at hpoint <;> cases hpoint
    rename_i hg
    exact hcons _ _ hg (List.append_nil _).symm rfl
  · cases hpoint
    -- a coroutine that waits has filled its channel
    have hfull := c.full (by rw [hwaiting]; rfl)
    rw [hbuffered] at hfull
    have hnil : g.buffered ≠ [] := by
      intro hnil
      have hlength : g.buffered.length = capacity := hfull
      rw [hnil] at hlength
      cases hlength
    rcases List.exists_cons_of_ne_nil hnil with ⟨first, rest, hg⟩
    have htail : g.buffered.tail ++ [str] = rest ++ [str] := by rw [hg, List.tail_cons]
    exact hcons first rest hg htail rfl
  · simp only [afterTake] at hpoint
    split at hpoint <;> cases hpoint
    rename_i hg
    exact hcons _ _ hg (List.append_nil _).symm rfl

theorem Inv.take (h : Inv s) {id : GenerationId} {q : Producer} {point : Point}
    (hp : s.loop.producers id = some q) (hpoint : afterTake q.point = some point) :
    Inv
      { loop := s.loop.setProducer id (some { q with point := point })
        left := leave s.loop (s.loop.setProducer id (some { q with point := point })) s.left
        produced := record (returned s.loop (LLamaAndroid.Event.take id)) s.produced
        received := record (taken s.loop (LLamaAndroid.Event.take id)) s.received
        stopped := fun other =>
          s.stopped other || decide (stops (LLamaAndroid.Event.take id) = some other) } := by
  have hflows := h.flows id
  rw [hp] at hflows
  rcases hflows.channel with ⟨c, hc, _⟩
  rcases afterTake_receives hpoint (s.left id) hc with ⟨str, _, hhead, _, _⟩
  have htaken : taken s.loop (LLamaAndroid.Event.take id) =
      (some str).map (Prod.mk id) := by
    rw [taken, hp, Option.bind_some, hhead, Option.map_some]
  have hafter : Flows (some { q with point := point }) (s.left id) (s.produced id)
      (s.received id ++ [str]) (s.stopped id) := by
    refine hflows.takes ?_ fun c hc => ?_
    · intro q' hq'
      cases hq'
      exact hflows.cancelled q rfl
    · rcases afterTake_receives hpoint (s.left id) hc with ⟨str', c', hhead', hreceive, hc'⟩
      rw [hhead] at hhead'
      cases hhead'
      exact ⟨c', hreceive, hc'⟩
  refine h.touch rfl (Nat.le_refl _) (h.lt hp) (forth_none rfl) htaken
    (fun _ hnone => by cases hnone) ?_
  rw [leave_of_some (Function.update_self _ _ _)]
  simpa [stops] using hafter

theorem Inv.drain (h : Inv s) {id : GenerationId} {str : Text} {rest : List Text}
    (hp : s.loop.producers id = none) (hleft : s.left id = str :: rest) :
    Inv { s with
      left := Function.update s.left id rest
      received := record (some (id, str)) s.received } := by
  have hflows := h.flows id
  rw [hp, hleft] at hflows
  have hafter : Flows none rest (s.produced id) (s.received id ++ [str])
      (s.stopped id) := by
    refine hflows.takes (fun _ hnone => by cases hnone) fun c hc => ?_
    rcases Channel.receive_of_cons hc.left with ⟨c', hreceive, hrest, hnone⟩
    rw [hc.right, Option.toList_none, List.append_nil] at hrest
    exact ⟨c', hreceive, hrest, hnone⟩
  constructor
  · intro other
    by_cases hsame : other = id
    · subst hsame
      simpa [record, hp] using hafter
    · simpa [record, hsame] using h.flows other
  · intro other hother
    have hne : other ≠ id := by
      rintro rfl
      rw [(h.fresh other hother).right.left] at hleft
      cases hleft
    simpa [record, hne] using h.fresh other hother

theorem step_inv {e : Delivery.Event} (h : Inv s) (hs : step s e = some s') : Inv s' := by
  cases e with
  | drain id =>
      simp only [step] at hs
      split at hs <;> cases hs
      rename_i str rest hp hleft
      exact h.drain hp hleft
  | loop e =>
      rcases Option.map_eq_some_iff.mp hs with ⟨loop, hstep, rfl⟩
      cases e with
      | collect prompt =>
          cases hstep
          rcases h.fresh s.loop.nextGeneration (Nat.le_refl _) with
            ⟨_, _, hproduced, hreceived, hstopped⟩
          refine h.quiet rfl (Nat.le_succ _) (Nat.lt_succ_self _) rfl rfl
            (fun _ hnone => by cases hnone) ?_
          rw [hproduced, hreceived, hstopped]
          exact flows_new
      | start id formatted nCtx start =>
          simp only [LLamaAndroid.step] at hstep
          split at hstep <;> cases hstep
          rename_i prompt cancelled _ hp
          have hflows := h.flows id
          rw [hp] at hflows
          have hid := h.lt hp
          unfold RunLoop.begin
          split
          · refine h.quiet rfl (Nat.le_refl _) hid rfl rfl (fun _ hnone => by cases hnone) ?_
            rw [leave_of_none hp (Function.update_self _ _ _)]
            simpa [stops] using hflows.ends rfl
          · refine h.quiet rfl (Nat.le_refl _) hid rfl rfl (fun _ hnone => by cases hnone) ?_
            rw [leave_of_some (Function.update_self _ _ _)]
            rename_i handles _
            have hafter := @Flows.moves (s.left id) (s.produced id) (s.received id)
              (s.stopped id) _
              { point := Point.running { state := handles, ncur := start, stop := nCtx - 1 }
                cancelled := cancelled } hflows rfl rfl rfl
            simpa [stops] using hafter
      | iterate str =>
          simp only [LLamaAndroid.step] at hstep
          split at hstep
          · cases hstep
          · rename_i id hid
            split at hstep <;> cases hstep
            rename_i g cancelled hp
            exact h.iterate hp rfl rfl (returned_iterate hid hp str) rfl rfl
      | resume id str =>
          simp only [LLamaAndroid.step] at hstep
          split at hstep
          · rename_i g cancelled hfree hp
            split at hstep <;> cases hstep
            · rename_i hcancelled
              subst hcancelled
              have hflows := h.flows id
              rw [hp] at hflows
              refine h.quiet rfl (Nat.le_refl _) (h.lt hp) (returned_cancelled hp str) rfl
                (fun _ hnone => by cases hnone) ?_
              rw [leave_of_none hp (Function.update_self _ _ _)]
              simpa [stops] using hflows.ends rfl
            · rename_i hgoes
              have hgoes := Bool.eq_false_iff.mpr hgoes
              subst hgoes
              exact h.iterate hp rfl rfl (returned_resume hp str) rfl rfl
          · cases hstep
      | take id =>
          simp only [LLamaAndroid.step] at hstep
          split at hstep
          · cases hstep
          · rename_i p hp
            rcases Option.map_eq_some_iff.mp hstep with ⟨point, hpoint, rfl⟩
            exact h.take hp hpoint
      | cancel id =>
          simp only [LLamaAndroid.step] at hstep
          split at hstep <;> cases hstep
          rename_i p hp
          have hflows := h.flows id
          rw [hp] at hflows
          have hkept : Flows (some { point := afterCancel p.point, cancelled := true })
              (s.left id) (s.produced id) (s.received id) true := by
            refine hflows.stops rfl ?_ ?_
            · cases p.point <;> rfl
            · cases p.point <;> rfl
          refine h.quiet rfl (Nat.le_refl _) (h.lt hp) rfl rfl ?_ ?_
          · intro other hother
            cases hother
            rfl
          · rw [leave_of_some (Function.update_self _ _ _)]
            simpa [stops] using hkept
      | load request answer =>
          simp only [LLamaAndroid.step] at hstep
          split at hstep <;> cases hstep
          exact h.onWrapper _ rfl rfl rfl
      | unload =>
          simp only [LLamaAndroid.step] at hstep
          split at hstep <;> cases hstep
          exact h.onWrapper _ rfl rfl rfl

theorem inv_initial : Inv {} where
  flows _ :=
    { cancelled := fun _ hnone => by cases hnone
      channel := ⟨Channel.empty Text capacity, ⟨rfl, rfl⟩, List.nil_prefix, fun _ => rfl⟩ }
  fresh _ _ := ⟨rfl, rfl, rfl, rfl, rfl⟩

end Inv
end Delivery

/-!
# The thread
-/

def Point.runs : Point -> Bool
  | Point.running _ => true
  | _ => false

/-- The coroutine whose iterations run is the one that occupies the thread. -/
def Occupied (s : RunLoop) : Prop :=
  forall id, s.current = some id <-> exists p, s.producers id = some p ∧ p.point.runs = true

section Occupied

variable {s loop : RunLoop} {id : GenerationId}

theorem Occupied.pass (h : Occupied s) (hfree : s.current = none ∨ s.current = some id)
    {p' : Option Producer} (hproducers : loop.producers = Function.update s.producers id p')
    (hcurrent : loop.current =
      p'.bind fun p => if p.point.runs = true then some id else none) :
    Occupied loop := by
  intro other
  rw [hproducers, hcurrent]
  by_cases hsame : other = id
  · subst hsame
    rw [Function.update_self]
    cases p' with
    | none => simp
    | some p => cases hruns : p.point.runs <;> simp [hruns]
  · rw [Function.update_of_ne hsame, <- h other]
    have hnot : s.current ≠ some other := by
      intro hother
      rcases hfree with hnone | hsome
      · rw [hnone] at hother
        cases hother
      · rw [hsome] at hother
        cases hother
        exact hsame rfl
    cases p' with
    | none => simp [hnot]
    | some p => cases hruns : p.point.runs <;> simp [hruns, hnot, Ne.symm hsame]

theorem Occupied.stay (h : Occupied s) {p' : Producer}
    (hproducers : loop.producers = Function.update s.producers id (some p'))
    (hruns : p'.point.runs = true <->
      exists p, s.producers id = some p ∧ p.point.runs = true)
    (hcurrent : loop.current = s.current) : Occupied loop := by
  intro other
  rw [hproducers, hcurrent]
  by_cases hsame : other = id
  · subst hsame
    rw [Function.update_self, h other, <- hruns]
    constructor
    · exact fun hp' => ⟨p', rfl, hp'⟩
    · rintro ⟨p, hp, hp'⟩
      cases hp
      exact hp'
  · rw [Function.update_of_ne hsame]
    exact h other

theorem Occupied.runIteration (h : Occupied s) (g : Generation) (cancelled : Bool)
    (str : Option Text) (hfree : s.current = none ∨ s.current = some id) :
    Occupied (s.runIteration id g cancelled str) := by
  unfold RunLoop.runIteration
  split
  · cases str with
    | none => exact @Occupied.pass _ _ _ h hfree none rfl rfl
    | some str =>
        simp only [emit]
        split
        · exact @Occupied.pass _ _ _ h hfree none rfl rfl
        · split
          · exact @Occupied.pass _ _ _ h hfree (some _) rfl rfl
          · exact @Occupied.pass _ _ _ h hfree (some _) rfl rfl
  · exact @Occupied.pass _ _ _ h hfree none rfl rfl

theorem afterTake_runs {p point : Point} (h : afterTake p = some point) :
    point.runs = p.runs := by
  cases p with
  | queued prompt => cases h
  | running g =>
      simp only [afterTake] at h
      split at h <;> cases h
      rfl
  | parked g str =>
      cases h
      rfl
  | dispatched g =>
      simp only [afterTake] at h
      split at h <;> cases h
      rfl

theorem step_occupied {e : Event} (h : Occupied s)
    (hfresh : s.producers s.nextGeneration = none) (hs : LLamaAndroid.step s e = some loop) :
    Occupied loop := by
  cases e with
  | collect prompt =>
      cases hs
      refine h.stay rfl ?_ rfl
      rw [hfresh]
      simp [Point.runs]
  | start id formatted nCtx start =>
      simp only [LLamaAndroid.step] at hs
      split at hs <;> cases hs
      rename_i hfree hp
      unfold RunLoop.begin
      split
      · exact @Occupied.pass _ _ _ h (Or.inl hfree) none rfl rfl
      · exact @Occupied.pass _ _ _ h (Or.inl hfree) (some _) rfl rfl
  | iterate str =>
      simp only [LLamaAndroid.step] at hs
      split at hs
      · cases hs
      · rename_i id hid
        split at hs <;> cases hs
        exact h.runIteration _ _ str (Or.inr hid)
  | resume id str =>
      simp only [LLamaAndroid.step] at hs
      split at hs
      · rename_i hfree hp
        split at hs <;> cases hs
        · exact @Occupied.pass _ _ _ h (Or.inl hfree) none rfl rfl
        · exact h.runIteration _ _ str (Or.inl hfree)
      · cases hs
  | take id =>
      simp only [LLamaAndroid.step] at hs
      split at hs
      · cases hs
      · rename_i p hp
        rcases Option.map_eq_some_iff.mp hs with ⟨point, hpoint, rfl⟩
        refine h.stay rfl ?_ rfl
        rw [hp]
        simp [afterTake_runs hpoint]
  | cancel id =>
      simp only [LLamaAndroid.step] at hs
      split at hs <;> cases hs
      rename_i p hp
      refine h.stay rfl ?_ rfl
      rw [hp]
      cases p with
      | mk point cancelled => cases point <;> simp [afterCancel, Point.runs]
  | load request answer =>
      simp only [LLamaAndroid.step] at hs
      split at hs <;> cases hs
      exact h
  | unload =>
      simp only [LLamaAndroid.step] at hs
      split at hs <;> cases hs
      exact h

/-- Where a generation has not ended, it goes on, its collector takes an element, or the
generation that occupies the thread goes on; whatever the native side answers. -/
theorem Occupied.enabled (h : Occupied s) {p : Producer} (hp : s.producers id = some p)
    (formatted : Text) (nCtx start : Int) (str : Option Text) :
    exists e, e ∈ [Event.start id formatted nCtx start, Event.iterate str,
      Event.resume id str, Event.take id] ∧ (LLamaAndroid.step s e).isSome = true := by
  have hbusy : forall other, s.current = some other ->
      (LLamaAndroid.step s (Event.iterate str)).isSome = true := by
    intro other hother
    rcases (h other).mp hother with ⟨⟨point, cancelled⟩, hp, hruns⟩
    cases point with
    | running g => simp [LLamaAndroid.step, hother, hp]
    | queued _ => cases hruns
    | parked _ _ => cases hruns
    | dispatched _ => cases hruns
  rcases p with ⟨point, cancelled⟩
  cases point with
  | running g =>
      have hid : s.current = some id := (h id).mpr ⟨_, hp, rfl⟩
      exact ⟨_, by simp, hbusy id hid⟩
  | parked g waiting =>
      refine ⟨Event.take id, by simp, ?_⟩
      simp [LLamaAndroid.step, hp, afterTake]
  | queued prompt =>
      cases hcurrent : s.current with
      | some other => exact ⟨_, by simp, hbusy other hcurrent⟩
      | none =>
          refine ⟨Event.start id formatted nCtx start, by simp, ?_⟩
          simp [LLamaAndroid.step, hp, hcurrent]
  | dispatched g =>
      cases hcurrent : s.current with
      | some other => exact ⟨_, by simp, hbusy other hcurrent⟩
      | none =>
          refine ⟨Event.resume id str, by simp, ?_⟩
          cases cancelled <;> simp [LLamaAndroid.step, hp, hcurrent]

end Occupied

/-!
# The numbers of the generations
-/

theorem runIteration_nextGeneration (s : RunLoop) (id : GenerationId) (g : Generation)
    (cancelled : Bool) (str : Option Text) :
    (s.runIteration id g cancelled str).nextGeneration = s.nextGeneration := by
  unfold RunLoop.runIteration RunLoop.emit
  split
  · cases str with
    | none => rfl
    | some str =>
        simp only
        split
        · rfl
        · split <;> rfl
  · rfl

theorem nextGeneration_le {s s' : RunLoop} {e : Event}
    (h : LLamaAndroid.step s e = some s') : s.nextGeneration ≤ s'.nextGeneration := by
  cases e with
  | collect prompt =>
      cases h
      exact Nat.le_succ _
  | start id formatted nCtx start =>
      simp only [LLamaAndroid.step] at h
      split at h <;> cases h
      unfold RunLoop.begin
      split <;> exact Nat.le_refl _
  | iterate str =>
      simp only [LLamaAndroid.step] at h
      split at h
      · cases h
      · split at h <;> cases h
        rw [runIteration_nextGeneration]
  | resume id str =>
      simp only [LLamaAndroid.step] at h
      split at h
      · split at h <;> cases h
        · exact Nat.le_refl _
        · rw [runIteration_nextGeneration]
      · cases h
  | take id =>
      simp only [LLamaAndroid.step] at h
      split at h
      · cases h
      · rcases Option.map_eq_some_iff.mp h with ⟨point, _, rfl⟩
        exact Nat.le_refl _
  | cancel id =>
      simp only [LLamaAndroid.step] at h
      split at h <;> cases h
      exact Nat.le_refl _
  | load request answer =>
      simp only [LLamaAndroid.step] at h
      split at h <;> cases h
      exact Nat.le_refl _
  | unload =>
      simp only [LLamaAndroid.step] at h
      split at h <;> cases h
      exact Nat.le_refl _

/-!
# Before the first iteration
-/

def Unheard (s : Delivery) : Prop :=
  forall id p, s.loop.producers id = some p -> p.point.generation = none ->
    s.produced id = []

theorem afterTake_generation {p point : Point} {g : Generation} (hg : p.generation = some g)
    (h : afterTake p = some point) :
    exists g', point.generation = some g' ∧ g'.ncur = g.ncur ∧ g'.stop = g.stop := by
  cases p with
  | queued prompt => cases h
  | parked g str =>
      cases h
      cases hg
      exact ⟨_, rfl, rfl, rfl⟩
  | running g =>
      simp only [afterTake] at h
      split at h <;> cases h
      cases hg
      exact ⟨_, rfl, rfl, rfl⟩
  | dispatched g =>
      simp only [afterTake] at h
      split at h <;> cases h
      cases hg
      exact ⟨_, rfl, rfl, rfl⟩

theorem runIteration_begun (s : RunLoop) (id : GenerationId) (g : Generation)
    (cancelled : Bool) (str : Option Text) :
    exists p', (s.runIteration id g cancelled str).producers =
        Function.update s.producers id p' ∧
      forall p, p' = some p -> p.point.generation ≠ none := by
  unfold RunLoop.runIteration
  split
  · cases str with
    | none => exact ⟨none, rfl, fun _ hnone => by cases hnone⟩
    | some str =>
        simp only [emit]
        split
        · exact ⟨none, rfl, fun _ hnone => by cases hnone⟩
        · split
          · refine ⟨some _, rfl, ?_⟩
            rintro _ ⟨⟩ ⟨⟩
          · refine ⟨some _, rfl, ?_⟩
            rintro _ ⟨⟩ ⟨⟩
  · exact ⟨none, rfl, fun _ hnone => by cases hnone⟩

section Unheard

variable {s : Delivery} {loop : RunLoop} {id : GenerationId} {p' : Option Producer}

theorem Unheard.touch (h : Unheard s) {e : LLamaAndroid.Event} {str : Option Text}
    {left received : GenerationId -> List Text} {stopped : GenerationId -> Bool}
    (hproducers : loop.producers = Function.update s.loop.producers id p')
    (hreturned : returned s.loop e = str.map (Prod.mk id))
    (hnew : forall p, p' = some p -> p.point.generation = none ->
      str = none ∧ s.produced id = []) :
    Unheard
      { loop := loop
        left := left
        produced := Delivery.record (returned s.loop e) s.produced
        received := received
        stopped := stopped } := by
  intro other p hp hnone
  dsimp only at hp ⊢
  rw [hproducers] at hp
  rw [hreturned]
  by_cases hsame : other = id
  · subst hsame
    rw [Function.update_self] at hp
    rcases hnew p hp hnone with ⟨rfl, hnothing⟩
    exact hnothing
  · rw [Function.update_of_ne hsame] at hp
    rw [Delivery.record_of_ne ?_ hsame]
    · exact h other p hp hnone
    · intro x hx
      rcases Option.map_eq_some_iff.mp hx with ⟨_, _, rfl⟩
      rfl

end Unheard

theorem step_unheard {s s' : Delivery} {e : Delivery.Event} (hinv : Delivery.Inv s)
    (h : Unheard s) (hs : Delivery.step s e = some s') : Unheard s' := by
  have hnothing {id : GenerationId} {e : Event} (h : returned s.loop e = none) :
      returned s.loop e = (none : Option Text).map (Prod.mk id) := h
  cases e with
  | drain id =>
      simp only [Delivery.step] at hs
      split at hs <;> cases hs
      exact h
  | loop e =>
      rcases Option.map_eq_some_iff.mp hs with ⟨loop, hstep, rfl⟩
      cases e with
      | collect prompt =>
          cases hstep
          refine h.touch rfl (hnothing rfl) fun p hp _ => ⟨rfl, ?_⟩
          exact (hinv.fresh s.loop.nextGeneration (Nat.le_refl _)).right.right.left
      | start id formatted nCtx start =>
          simp only [LLamaAndroid.step] at hstep
          split at hstep <;> cases hstep
          unfold RunLoop.begin
          split
          · exact @Unheard.touch _ _ id none h _ none _ _ _ rfl rfl fun _ hnone => by cases hnone
          · refine @Unheard.touch _ _ id (some _) h _ none _ _ _ rfl rfl ?_
            rintro _ ⟨⟩ ⟨⟩
      | iterate str =>
          simp only [LLamaAndroid.step] at hstep
          split at hstep
          · cases hstep
          · rename_i id hid
            split at hstep <;> cases hstep
            rename_i g cancelled hp
            rcases runIteration_begun s.loop id g cancelled str with ⟨p', hproducers, hbegun⟩
            exact h.touch hproducers (returned_iterate hid hp str) fun p hp hnone =>
              absurd hnone (hbegun p hp)
      | resume id str =>
          simp only [LLamaAndroid.step] at hstep
          split at hstep
          · rename_i g cancelled hfree hp
            split at hstep <;> cases hstep
            · rename_i hcancelled
              subst hcancelled
              exact @Unheard.touch _ _ id none h _ none _ _ _ rfl (returned_cancelled hp str)
                fun _ hnone => by cases hnone
            · rename_i hgoes
              have hgoes := Bool.eq_false_iff.mpr hgoes
              subst hgoes
              rcases runIteration_begun s.loop id g false str with ⟨p', hproducers, hbegun⟩
              exact h.touch hproducers (returned_resume hp str) fun p hp hnone =>
                absurd hnone (hbegun p hp)
          · cases hstep
      | take id =>
          simp only [LLamaAndroid.step] at hstep
          split at hstep
          · cases hstep
          · rename_i q hq
            rcases Option.map_eq_some_iff.mp hstep with ⟨point, hpoint, rfl⟩
            refine h.touch rfl (hnothing rfl) fun p hp hnone => ⟨rfl, ?_⟩
            cases hp
            apply h id q hq
            rw [Option.eq_none_iff_forall_ne_some]
            intro g hg
            rcases afterTake_generation hg hpoint with ⟨g', hg', _⟩
            rw [hg'] at hnone
            cases hnone
      | cancel id =>
          simp only [LLamaAndroid.step] at hstep
          split at hstep <;> cases hstep
          rename_i q hq
          refine h.touch rfl (hnothing rfl) fun p hp hnone => ⟨rfl, ?_⟩
          cases hp
          exact h id q hq ((afterCancel_generation q.point).symm.trans hnone)
      | load request answer =>
          simp only [LLamaAndroid.step] at hstep
          split at hstep <;> cases hstep
          exact h
      | unload =>
          simp only [LLamaAndroid.step] at hstep
          split at hstep <;> cases hstep
          exact h

/-!
# Runs
-/

namespace Delivery

def onTheWay (s : Delivery) (id : GenerationId) : List Text :=
  match s.loop.producers id with
  | some p => p.point.buffered ++ p.point.waiting.toList
  | none => s.left id

theorem run_inv {s : Delivery} {es : List Delivery.Event}
    (hrun : runEvents step {} es = some s) : Inv s ∧ Occupied s.loop := by
  have hinitial : Inv ({} : Delivery) ∧ Occupied ({} : Delivery).loop := by
    refine ⟨inv_initial, fun id => ?_⟩
    constructor
    · intro hnone
      cases hnone
    · rintro ⟨_, hnone, _⟩
      cases hnone
  refine runEvents_keeps (I := fun s => Inv s ∧ Occupied s.loop) (fun s e s' h hs => ?_)
    hinitial hrun
  refine ⟨step_inv h.left hs, ?_⟩
  cases e with
  | loop e =>
      rcases Option.map_eq_some_iff.mp hs with ⟨loop, hstep, rfl⟩
      exact step_occupied h.right (h.left.fresh _ (Nat.le_refl _)).left hstep
  | drain id =>
      simp only [step] at hs
      split at hs <;> cases hs
      exact h.right

theorem run_unheard {s : Delivery} {es : List Delivery.Event}
    (hrun : runEvents step {} es = some s) : Unheard s := by
  have hinitial : Inv ({} : Delivery) ∧ Unheard {} :=
    ⟨inv_initial, fun _ _ hnone => by cases hnone⟩
  exact (runEvents_keeps (I := fun s => Inv s ∧ Unheard s)
    (fun s e s' h hs => ⟨step_inv h.left hs, step_unheard h.left h.right hs⟩) hinitial
    hrun).right

theorem reached_step {s s' : Delivery} {e : Delivery.Event}
    (h : exists es, runEvents step {} es = some s) (hstep : step s e = some s') :
    exists es, runEvents step {} es = some s' := by
  rcases h with ⟨es, hrun⟩
  exact ⟨es ++ [e], runEvents_append.mpr ⟨s, hrun, runEvents_cons.mpr ⟨s', hstep, rfl⟩⟩⟩

theorem Inv.delivered {s : Delivery} (h : Inv s) (id : GenerationId) :
    s.received id ++ s.onTheWay id <+: s.produced id ∧
      (s.stopped id = false -> s.produced id = s.received id ++ s.onTheWay id) ∧
      (s.onTheWay id).length ≤ capacity + 1 := by
  rcases (h.flows id).channel with ⟨c, hcarries, hfirst, hall⟩
  have hcontents : c.contents = s.onTheWay id := by
    unfold onTheWay Channel.contents
    unfold Carries at hcarries
    split at hcarries
    · rw [hcarries.left, hcarries.right]
    · rw [hcarries.left, hcarries.right, Option.toList_none, List.append_nil]
  rw [hcontents] at hfirst hall
  exact ⟨hfirst, hall, hcontents ▸ c.contents_length_le⟩

end Delivery

open Delivery

/-- Under every schedule the collector of a generation receives its strings in order, each
once; as long as it does not stop, none is lost; and no generation is stuck. -/
theorem strings_delivered {s : Delivery} {es : List Delivery.Event}
    (hrun : runEvents Delivery.step {} es = some s) (id : GenerationId) :
    s.received id ++ s.onTheWay id <+: s.produced id ∧
      (s.stopped id = false -> s.produced id = s.received id ++ s.onTheWay id) ∧
      (s.onTheWay id).length ≤ capacity + 1 ∧
      forall p, s.loop.producers id = some p ->
        forall (formatted : Text) (nCtx start : Int) (str : Option Text),
          exists e, e ∈ [Event.start id formatted nCtx start, Event.iterate str,
            Event.resume id str, Event.take id] ∧
            (Delivery.step s (Delivery.Event.loop e)).isSome = true := by
  rcases run_inv hrun with ⟨hinv, hthread⟩
  rcases hinv.delivered id with ⟨hfirst, hall, hlength⟩
  refine ⟨hfirst, hall, hlength, fun p hp formatted nCtx start str => ?_⟩
  rcases hthread.enabled hp formatted nCtx start str with ⟨e, he, hsome⟩
  refine ⟨e, he, ?_⟩
  rw [Delivery.step, Option.isSome_map]
  exact hsome

def slowCollector : List Delivery.Event :=
  [Delivery.Event.loop (Event.load request {}),
   Delivery.Event.loop (Event.collect (Prompt.formatted "hi".toList)),
   Delivery.Event.loop (Event.start 0 [] 4096 3),
   Delivery.Event.loop (Event.iterate (some "hel".toList)),
   Delivery.Event.loop (Event.iterate (some "lo".toList)),
   Delivery.Event.loop (Event.take 0),
   Delivery.Event.loop (Event.iterate none)]

theorem slowCollector_delivered :
    exists s, runEvents Delivery.step {} slowCollector = some s ∧
      s.received 0 = ["hel".toList] ∧ s.onTheWay 0 = ["lo".toList] ∧
      s.produced 0 = s.received 0 ++ s.onTheWay 0 :=
  ⟨_, rfl, rfl, rfl, (@strings_delivered _ slowCollector rfl 0).right.left rfl⟩

end LLamaAndroid
end DomainAI
