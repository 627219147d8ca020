import Mathlib.Data.List.Basic

/-!
# Runs of event-driven systems

A system is a partial step function: an event that is not enabled has no
successor state.  The rules below carry what one step does to whole runs.
-/

namespace DomainAI
namespace Library

variable {sigma event : Type}

/-- The state after a run of events, if every event was enabled. -/
def runEvents (step : sigma -> event -> Option sigma) :
    sigma -> List event -> Option sigma
  | s, [] => some s
  | s, e :: es =>
      match step s e with
      | none => none
      | some s' => runEvents step s' es

/-- Every step of the run satisfies a condition on its state and event. -/
def AllSteps (step : sigma -> event -> Option sigma)
    (ok : sigma -> event -> Prop) : sigma -> List event -> Prop
  | _, [] => True
  | s, e :: es =>
      ok s e ∧ forall s', step s e = some s' -> AllSteps step ok s' es

theorem AllSteps.cons {step : sigma -> event -> Option sigma}
    {ok : sigma -> event -> Prop} {s s' : sigma} {e : event} {es : List event}
    (hnow : ok s e) (hstep : step s e = some s')
    (hlater : AllSteps step ok s' es) : AllSteps step ok s (e :: es) := by
  refine ⟨hnow, fun s'' hs'' => ?_⟩
  rw [hstep] at hs''
  cases hs''
  exact hlater

@[simp] theorem runEvents_nil (step : sigma -> event -> Option sigma)
    (s : sigma) : runEvents step s [] = some s := rfl

theorem runEvents_cons {step : sigma -> event -> Option sigma} {s s'' : sigma}
    {e : event} {es : List event} :
    runEvents step s (e :: es) = some s'' <->
      exists s', step s e = some s' ∧ runEvents step s' es = some s'' := by
  cases hstep : step s e with
  | none => simp [runEvents, hstep]
  | some s' => simp [runEvents, hstep]

theorem runEvents_append {step : sigma -> event -> Option sigma}
    {s s'' : sigma} {es es' : List event} :
    runEvents step s (es ++ es') = some s'' <->
      exists s', runEvents step s es = some s' ∧
        runEvents step s' es' = some s'' := by
  induction es generalizing s with
  | nil => simp
  | cons e es ih =>
      rw [List.cons_append, runEvents_cons]
      constructor
      · intro h
        rcases h with ⟨mid, hmid, hrest⟩
        rcases ih.mp hrest with ⟨s', hs', hend⟩
        exact ⟨s', runEvents_cons.mpr ⟨mid, hmid, hs'⟩, hend⟩
      · intro h
        rcases h with ⟨s', hs', hend⟩
        rcases runEvents_cons.mp hs' with ⟨mid, hmid, hrest⟩
        exact ⟨mid, hmid, ih.mpr ⟨s', hrest, hend⟩⟩

/-- An invariant of the steps that satisfy a condition holds along the run. -/
theorem runEvents_invariant {step : sigma -> event -> Option sigma}
    {ok : sigma -> event -> Prop} {I : sigma -> Prop}
    (hstep : forall s e s', I s -> ok s e -> step s e = some s' -> I s')
    {s s' : sigma} {es : List event} (hs : I s)
    (hok : AllSteps step ok s es) (hrun : runEvents step s es = some s') :
    I s' := by
  induction es generalizing s with
  | nil =>
      cases hrun
      exact hs
  | cons e es ih =>
      rcases runEvents_cons.mp hrun with ⟨mid, hmid, hrest⟩
      exact ih (hstep s e mid hs hok.left hmid) (hok.right mid hmid) hrest

theorem runEvents_keeps {step : sigma -> event -> Option sigma} {I : sigma -> Prop}
    (hstep : forall s e s', I s -> step s e = some s' -> I s')
    {s s' : sigma} {es : List event} (hs : I s) (hrun : runEvents step s es = some s') :
    I s' := by
  induction es generalizing s with
  | nil =>
      cases hrun
      exact hs
  | cons e es ih =>
      rcases runEvents_cons.mp hrun with ⟨mid, hmid, hrest⟩
      exact ih (hstep s e mid hs hmid) hrest

/-- A run seen through a projection: every step is a step of the other system, or is not
seen. -/
theorem runEvents_project {tau event' : Type} {step : sigma -> event -> Option sigma}
    {step' : tau -> event' -> Option tau} {proj : sigma -> tau} {ok : event -> Prop}
    {ok' : event' -> Prop}
    (hstep : forall s e s', ok e -> step s e = some s' ->
      proj s' = proj s ∨ exists e', ok' e' ∧ step' (proj s) e' = some (proj s'))
    {s s' : sigma} {es : List event} (hok : forall e, e ∈ es -> ok e)
    (hrun : runEvents step s es = some s') :
    exists es', (forall e, e ∈ es' -> ok' e) ∧
      runEvents step' (proj s) es' = some (proj s') := by
  induction es generalizing s with
  | nil =>
      cases hrun
      exact ⟨[], (fun _ hnone => by cases hnone), rfl⟩
  | cons e es ih =>
      rcases runEvents_cons.mp hrun with ⟨mid, hmid, hrest⟩
      rcases ih (fun e he => hok e (List.mem_cons_of_mem _ he)) hrest with ⟨es', hok', hrun'⟩
      rcases hstep s e mid (hok e List.mem_cons_self) hmid with hsame | ⟨e', he', hseen⟩
      · rw [hsame] at hrun'
        exact ⟨es', hok', hrun'⟩
      · exact ⟨e' :: es', List.forall_mem_cons.mpr ⟨he', hok'⟩,
          runEvents_cons.mpr ⟨_, hseen, hrun'⟩⟩

/-- An invariant that also speaks of the events so far. -/
theorem runEvents_history {step : sigma -> event -> Option sigma}
    {I : List event -> sigma -> Prop}
    (hstep : forall past s e s', I past s -> step s e = some s' ->
      I (past ++ [e]) s')
    {past es : List event} {s s' : sigma} (hs : I past s)
    (hrun : runEvents step s es = some s') : I (past ++ es) s' := by
  induction es generalizing past s with
  | nil =>
      cases hrun
      rwa [List.append_nil]
  | cons e es ih =>
      rcases runEvents_cons.mp hrun with ⟨mid, hmid, hrest⟩
      rw [List.append_cons]
      exact ih (hstep past s e mid hs hmid) hrest

theorem allSteps_of_invariant {step : sigma -> event -> Option sigma}
    {ok good : sigma -> event -> Prop} {I : sigma -> Prop}
    (hstep : forall s e s', I s -> ok s e -> step s e = some s' -> I s')
    (hgood : forall s e, I s -> ok s e -> good s e)
    {s : sigma} {es : List event} (hs : I s) (hok : AllSteps step ok s es) :
    AllSteps step good s es := by
  induction es generalizing s with
  | nil => trivial
  | cons e es ih =>
      refine ⟨hgood s e hs hok.left, ?_⟩
      intro s' hs'
      exact ih (hstep s e s' hs hok.left hs') (hok.right s' hs')

theorem AllSteps.of_forall {step : sigma -> event -> Option sigma}
    {ok : sigma -> event -> Prop} (h : forall s e, ok s e) (s : sigma)
    (es : List event) : AllSteps step ok s es := by
  induction es generalizing s with
  | nil => trivial
  | cons e es ih => exact ⟨h s e, fun s' _ => ih s'⟩

theorem AllSteps.mono {step : sigma -> event -> Option sigma}
    {ok good : sigma -> event -> Prop} {s : sigma} {es : List event}
    (h : forall s e, e ∈ es -> ok s e -> good s e)
    (hok : AllSteps step ok s es) : AllSteps step good s es := by
  induction es generalizing s with
  | nil => trivial
  | cons e es ih =>
      refine ⟨h s e List.mem_cons_self hok.left, fun s' hs' => ?_⟩
      exact ih (fun s e he => h s e (List.mem_cons_of_mem _ he))
        (hok.right s' hs')

theorem AllSteps.concat {step : sigma -> event -> Option sigma}
    {ok : sigma -> event -> Prop} {s s' : sigma} {es : List event} {e : event}
    (hok : AllSteps step ok s es) (hrun : runEvents step s es = some s')
    (hlast : ok s' e) : AllSteps step ok s (es ++ [e]) := by
  induction es generalizing s with
  | nil =>
      cases hrun
      exact ⟨hlast, fun _ _ => trivial⟩
  | cons first es ih =>
      rcases runEvents_cons.mp hrun with ⟨mid, hmid, hrest⟩
      exact AllSteps.cons hok.left hmid (ih (hok.right mid hmid) hrest)

/-- A system that records more takes the steps of the one it extends. -/
theorem AllSteps.lift {tau : Type} {step : sigma -> event -> Option sigma}
    {step' : tau -> event -> Option tau} {f : tau -> sigma}
    {ok : sigma -> event -> Prop}
    (hstep : forall s e s', step' s e = some s' -> step (f s) e = some (f s'))
    {s : tau} {es : List event} (hok : AllSteps step ok (f s) es) :
    AllSteps step' (fun s e => ok (f s) e) s es := by
  induction es generalizing s with
  | nil => trivial
  | cons e es ih =>
      exact ⟨hok.left, fun s' hs' => ih (hok.right _ (hstep s e s' hs'))⟩

theorem AllSteps.and {step : sigma -> event -> Option sigma}
    {ok good : sigma -> event -> Prop} {s : sigma} {es : List event}
    (hok : AllSteps step ok s es) (hgood : AllSteps step good s es) :
    AllSteps step (fun s e => ok s e ∧ good s e) s es := by
  induction es generalizing s with
  | nil => trivial
  | cons e es ih =>
      constructor
      · exact ⟨hok.left, hgood.left⟩
      · intro s' hs'
        exact ih (hok.right s' hs') (hgood.right s' hs')

theorem allSteps_congr {step : sigma -> event -> Option sigma}
    {ok good : sigma -> event -> Prop} {s : sigma} {es : List event}
    (h : forall s e, e ∈ es -> (ok s e <-> good s e)) :
    AllSteps step ok s es <-> AllSteps step good s es :=
  ⟨AllSteps.mono fun s e he => (h s e he).mp,
    AllSteps.mono fun s e he => (h s e he).mpr⟩

theorem allSteps_iff_of_invariant {step : sigma -> event -> Option sigma}
    {ok good : sigma -> event -> Prop} {I : sigma -> Prop}
    (hstep : forall s e s', I s -> ok s e -> step s e = some s' -> I s')
    (hiff : forall s e, I s -> (good s e <-> ok s e))
    {s : sigma} {es : List event} (hs : I s) :
    AllSteps step good s es <-> AllSteps step ok s es := by
  induction es generalizing s with
  | nil => exact Iff.rfl
  | cons e es ih =>
      constructor
      · intro h
        rcases h with ⟨hnow, hlater⟩
        have hok := (hiff s e hs).mp hnow
        exact ⟨hok, fun s' hs' => (ih (hstep s e s' hs hok hs')).mp (hlater s' hs')⟩
      · intro h
        rcases h with ⟨hok, hlater⟩
        constructor
        · exact (hiff s e hs).mpr hok
        · intro s' hs'
          exact (ih (hstep s e s' hs hok hs')).mpr (hlater s' hs')

def always (step : sigma -> event -> sigma) (s : sigma) (e : event) :
    Option sigma :=
  some (step s e)

theorem allSteps_always_cons {step : sigma -> event -> sigma}
    {ok : sigma -> event -> Prop} {s : sigma} {e : event} {es : List event} :
    AllSteps (always step) ok s (e :: es) <->
      ok s e ∧ AllSteps (always step) ok (step s e) es := by
  constructor
  · intro h
    exact ⟨h.left, h.right _ rfl⟩
  · intro h
    exact AllSteps.cons h.left rfl h.right

instance decidableAllSteps {step : sigma -> event -> sigma}
    {ok : sigma -> event -> Prop} [forall s e, Decidable (ok s e)] :
    (s : sigma) -> (es : List event) -> Decidable (AllSteps (always step) ok s es)
  | _, [] => isTrue trivial
  | s, e :: es =>
      have : Decidable (AllSteps (always step) ok (step s e) es) :=
        decidableAllSteps _ _
      decidable_of_iff (ok s e ∧ AllSteps (always step) ok (step s e) es)
        allSteps_always_cons.symm

/-!
# Logs

A rule about a log judges every entry by the entries before it.
-/

section Log

variable {entry : Type} {rule : List entry -> entry -> Prop}

def Follows (rule : List entry -> entry -> Prop) (log : List entry) : Prop :=
  forall earlier o later, log = earlier ++ o :: later -> rule earlier o

theorem follows_nil : Follows rule [] := by
  intro earlier o later h
  simp at h

theorem follows_concat {log : List entry} {o : entry} :
    Follows rule (log ++ [o]) <-> Follows rule log ∧ rule log o := by
  constructor
  · intro h
    refine ⟨?_, h log o [] rfl⟩
    intro earlier o' later hlog
    exact h earlier o' (later ++ [o]) (by rw [hlog]; simp)
  · intro h earlier o' later heq
    rcases h with ⟨hlog, ho⟩
    rcases List.eq_nil_or_concat later with hnil | ⟨front, last, hlast⟩
    · rw [hnil] at heq
      have hsplit := List.append_inj' heq rfl
      rw [← hsplit.left, ← List.singleton_inj.mp hsplit.right]
      exact ho
    · rw [hlast, List.concat_eq_append, ← List.cons_append,
        ← List.append_assoc] at heq
      exact hlog earlier o' front (List.append_inj' heq rfl).left

theorem not_follows_of_last {log : List entry} {o : entry}
    (hlast : log.getLast? = some o) (ho : ¬ rule log.dropLast o) :
    ¬ Follows rule log := by
  intro h
  rw [← List.dropLast_append_getLast? o hlast, follows_concat] at h
  exact ho h.right

/-- More entries, each judged by all that come before it. -/
def FollowsFrom (rule : List entry -> entry -> Prop) :
    List entry -> List entry -> Prop
  | _, [] => True
  | log, o :: more => rule log o ∧ FollowsFrom rule (log ++ [o]) more

theorem follows_append {log more : List entry} :
    Follows rule (log ++ more) <-> Follows rule log ∧ FollowsFrom rule log more := by
  induction more generalizing log with
  | nil => simp [FollowsFrom]
  | cons o more ih =>
      rw [List.append_cons, ih, follows_concat, FollowsFrom, and_assoc]

theorem follows_iff {log : List entry} : Follows rule log <-> FollowsFrom rule [] log := by
  have h : Follows rule ([] ++ log) <-> Follows rule [] ∧ FollowsFrom rule [] log :=
    follows_append
  rwa [List.nil_append, and_iff_right follows_nil] at h

instance decidableFollowsFrom [forall log o, Decidable (rule log o)] :
    (log more : List entry) -> Decidable (FollowsFrom rule log more)
  | _, [] => isTrue trivial
  | log, o :: more =>
      have : Decidable (FollowsFrom rule (log ++ [o]) more) :=
        decidableFollowsFrom _ _
      inferInstanceAs (Decidable (_ ∧ _))

instance [forall log o, Decidable (rule log o)] (log : List entry) :
    Decidable (Follows rule log) :=
  decidable_of_iff _ follows_iff.symm

end Log

end Library
end DomainAI
