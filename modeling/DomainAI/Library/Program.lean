import Mathlib.Data.List.Basic

/-!
# Programs made of primitive operations

A program is a tree: it performs a primitive operation and continues with the
result.  One tree serves three readings of the same code: running it to the end,
stopping it before any of its operations, and listing the points where it can be
stopped.

Primitive operations are executed by a handler that also receives a fault, so
one run fixes which operations misbehave; missing faults are the default one.
What a program ensures, it ensures under every choice of faults.
-/

namespace DomainAI
namespace Library

inductive Program (op : Type) (result : op -> Type) (alpha : Type) : Type where
  | done (a : alpha)
  | perform (o : op) (next : result o -> Program op result alpha)

namespace Program

variable {op : Type} {result : op -> Type} {fault sigma : Type}

def bind {alpha beta : Type} :
    Program op result alpha -> (alpha -> Program op result beta) ->
      Program op result beta
  | done a, f => f a
  | perform o next, f => perform o fun r => bind (next r) f

instance : Monad (Program op result) where
  pure := done
  bind := bind

def operation (o : op) : Program op result (result o) :=
  perform o done

@[simp] theorem pure_eq {alpha : Type} (a : alpha) :
    (pure a : Program op result alpha) = done a := rfl

@[simp] theorem done_bind {alpha beta : Type} (a : alpha)
    (f : alpha -> Program op result beta) :
    (done a : Program op result alpha) >>= f = f a := rfl

@[simp] theorem perform_bind {alpha beta : Type} (o : op)
    (next : result o -> Program op result alpha)
    (f : alpha -> Program op result beta) :
    (perform o next : Program op result alpha) >>= f =
      perform o fun r => next r >>= f := rfl

@[simp] theorem operation_bind {beta : Type} (o : op)
    (f : result o -> Program op result beta) :
    operation o >>= f = perform o f := rfl

section Execution

variable [Inhabited fault]
  (exec : (o : op) -> fault -> sigma -> result o × sigma)

/-- Run to the end; the faults that were not used up are returned as well. -/
def run {alpha : Type} :
    Program op result alpha -> List fault -> sigma ->
      alpha × sigma × List fault
  | done a, faults, s => (a, s, faults)
  | perform o next, faults, s =>
      run (next (exec o (faults.headD default) s).1) faults.tail
        (exec o (faults.headD default) s).2

/-- The state left behind when the program is stopped after `k` operations. -/
def stopAfter {alpha : Type} :
    Program op result alpha -> Nat -> List fault -> sigma -> sigma
  | done _, _, _, s => s
  | perform _ _, 0, _, s => s
  | perform o next, k + 1, faults, s =>
      stopAfter (next (exec o (faults.headD default) s).1) k faults.tail
        (exec o (faults.headD default) s).2

def pendingAfter {alpha : Type} :
    Program op result alpha -> Nat -> List fault -> sigma -> Option op
  | done _, _, _, _ => none
  | perform o _, 0, _, _ => some o
  | perform o next, k + 1, faults, s =>
      pendingAfter (next (exec o (faults.headD default) s).1) k faults.tail
        (exec o (faults.headD default) s).2

/-- The points at which the program can be stopped, each with what was to come. -/
def points {alpha : Type} :
    Program op result alpha -> List fault -> sigma -> List (Option op × sigma)
  | done _, _, s => [(none, s)]
  | perform o next, faults, s =>
      (some o, s) ::
        points (next (exec o (faults.headD default) s).1) faults.tail
          (exec o (faults.headD default) s).2

theorem stopAfter_mem_points {alpha : Type} (p : Program op result alpha)
    (k : Nat) (faults : List fault) (s : sigma) :
    (pendingAfter exec p k faults s, stopAfter exec p k faults s) ∈
      points exec p faults s := by
  induction p generalizing k faults s with
  | done a => exact List.mem_singleton.mpr rfl
  | perform o next ih =>
      cases k with
      | zero => exact List.mem_cons_self
      | succ k => exact List.mem_cons_of_mem _ (ih _ _ _ _)

/-- What holds at the last of these points holds when the program has run. -/
theorem run_mem_points {alpha : Type} (p : Program op result alpha)
    (faults : List fault) (s : sigma) :
    (none, (run exec p faults s).2.1) ∈ points exec p faults s := by
  induction p generalizing faults s with
  | done a => exact List.mem_singleton.mpr rfl
  | perform o next ih => exact List.mem_cons_of_mem _ (ih _ _ _)

theorem run_bind {alpha beta : Type} (p : Program op result alpha)
    (f : alpha -> Program op result beta) (faults : List fault) (s : sigma) :
    run exec (p >>= f) faults s =
      run exec (f (run exec p faults s).1) (run exec p faults s).2.2
        (run exec p faults s).2.1 := by
  induction p generalizing faults s with
  | done a => rfl
  | perform o next ih => exact ih _ _ _

/-- Whatever the faults, the program ends with such a result and state. -/
def Ensures {alpha : Type} (p : Program op result alpha)
    (Q : alpha -> sigma -> Prop) (s : sigma) : Prop :=
  forall faults : List fault,
    Q (run exec p faults s).1 (run exec p faults s).2.1

variable {exec}

@[simp] theorem ensures_done {alpha : Type} (a : alpha)
    (Q : alpha -> sigma -> Prop) (s : sigma) :
    Ensures exec (done a : Program op result alpha) Q s <-> Q a s :=
  ⟨fun h => h [], fun h _ => h⟩

@[simp] theorem ensures_perform {alpha : Type} (o : op)
    (next : result o -> Program op result alpha) (Q : alpha -> sigma -> Prop)
    (s : sigma) :
    Ensures exec (perform o next) Q s <->
      forall f : fault, Ensures exec (next (exec o f s).1) Q (exec o f s).2 := by
  constructor
  · intro h f faults
    exact h (f :: faults)
  · intro h faults
    exact h (faults.headD default) faults.tail

theorem ensures_bind {alpha beta : Type} {p : Program op result alpha}
    {f : alpha -> Program op result beta} {Q : beta -> sigma -> Prop} {s : sigma}
    (h : Ensures exec p (fun a s' => Ensures exec (f a) Q s') s) :
    Ensures exec (p >>= f) Q s := by
  intro faults
  rw [run_bind]
  exact h faults (run exec p faults s).2.2

theorem ensures_bind_iff {alpha beta : Type} {p : Program op result alpha}
    {f : alpha -> Program op result beta} {Q : beta -> sigma -> Prop} {s : sigma} :
    Ensures exec (p >>= f) Q s <->
      Ensures exec p (fun a s' => Ensures exec (f a) Q s') s := by
  induction p generalizing s with
  | done a => simp
  | perform o next ih => simp only [perform_bind, ensures_perform, ih]

theorem ensures_mono {alpha : Type} {p : Program op result alpha}
    {Q R : alpha -> sigma -> Prop} {s : sigma} (h : Ensures exec p Q s)
    (hQR : forall a s', Q a s' -> R a s') : Ensures exec p R s :=
  fun faults => hQR _ _ (h faults)

theorem ensures_congr {alpha : Type} {p : Program op result alpha}
    {Q R : alpha -> sigma -> Prop} {s : sigma} (h : forall a s', Q a s' <-> R a s') :
    Ensures exec p Q s <-> Ensures exec p R s :=
  ⟨fun hQ => ensures_mono hQ fun a s' => (h a s').mp,
    fun hR => ensures_mono hR fun a s' => (h a s').mpr⟩

/-- Every operation of the run meets a condition on its fault and state. -/
def Along (exec : (o : op) -> fault -> sigma -> result o × sigma)
    (ok : op -> fault -> sigma -> Prop) {alpha : Type} :
    Program op result alpha -> List fault -> sigma -> Prop
  | done _, _, _ => True
  | perform o next, faults, s =>
      ok o (faults.headD default) s ∧
        Along exec ok (next (exec o (faults.headD default) s).1) faults.tail
          (exec o (faults.headD default) s).2

instance decidableAlong {exec : (o : op) -> fault -> sigma -> result o × sigma}
    {ok : op -> fault -> sigma -> Prop} [forall o f s, Decidable (ok o f s)]
    {alpha : Type} : (p : Program op result alpha) -> (faults : List fault) ->
      (s : sigma) -> Decidable (Along exec ok p faults s)
  | done _, _, _ => isTrue trivial
  | perform o next, faults, s =>
      have : Decidable (Along exec ok (next (exec o (faults.headD default) s).1)
          faults.tail (exec o (faults.headD default) s).2) :=
        decidableAlong _ _ _
      inferInstanceAs (Decidable (_ ∧ _))

theorem along_bind {ok : op -> fault -> sigma -> Prop} {alpha beta : Type}
    {p : Program op result alpha} {f : alpha -> Program op result beta}
    {faults : List fault} {s : sigma} :
    Along exec ok (p >>= f) faults s <->
      Along exec ok p faults s ∧
        Along exec ok (f (run exec p faults s).1) (run exec p faults s).2.2
          (run exec p faults s).2.1 := by
  induction p generalizing faults s with
  | done a => exact (and_iff_right trivial).symm
  | perform o next ih =>
      simp only [perform_bind, Along, run]
      rw [ih, and_assoc]

/-- Where no fault makes a difference, the program runs as it does without any. -/
theorem run_of_harmless {alpha : Type} {p : Program op result alpha}
    {faults : List fault} {s : sigma}
    (h : Along exec (fun o f s => exec o f s = exec o default s) p faults s) :
    (run exec p faults s).1 = (run exec p [] s).1 ∧
      (run exec p faults s).2.1 = (run exec p [] s).2.1 := by
  induction p generalizing faults s with
  | done a => exact ⟨rfl, rfl⟩
  | perform o next ih =>
      rcases h with ⟨hsame, hlater⟩
      simp only [run, List.headD_nil, List.tail_nil]
      rw [<- hsame]
      exact ih _ hlater

def EnsuresWhen (exec : (o : op) -> fault -> sigma -> result o × sigma)
    (ok : op -> fault -> sigma -> Prop) {alpha : Type}
    (p : Program op result alpha) (Q : alpha -> sigma -> Prop) (s : sigma) : Prop :=
  forall faults : List fault, Along exec ok p faults s ->
    Q (run exec p faults s).1 (run exec p faults s).2.1

section When

variable {ok : op -> fault -> sigma -> Prop} {alpha beta : Type}
  {Q : alpha -> sigma -> Prop} {s : sigma}

@[simp] theorem ensuresWhen_done (a : alpha) :
    EnsuresWhen exec ok (done a : Program op result alpha) Q s <-> Q a s :=
  ⟨fun h => h [] trivial, fun h _ _ => h⟩

@[simp] theorem ensuresWhen_perform (o : op)
    (next : result o -> Program op result alpha) :
    EnsuresWhen exec ok (perform o next) Q s <->
      forall f : fault, ok o f s ->
        EnsuresWhen exec ok (next (exec o f s).1) Q (exec o f s).2 := by
  constructor
  · intro h f hf faults hfaults
    exact h (f :: faults) ⟨hf, hfaults⟩
  · intro h faults hall
    rcases hall with ⟨hf, hfaults⟩
    exact h (faults.headD default) hf faults.tail hfaults

theorem ensuresWhen_bind {p : Program op result alpha}
    {f : alpha -> Program op result beta} {R : beta -> sigma -> Prop}
    (h : EnsuresWhen exec ok p (fun a s' => EnsuresWhen exec ok (f a) R s') s) :
    EnsuresWhen exec ok (p >>= f) R s := by
  intro faults hfaults
  rcases along_bind.mp hfaults with ⟨hfirst, hthen⟩
  rw [run_bind]
  exact h faults hfirst _ hthen

theorem ensuresWhen_mono {p : Program op result alpha}
    {R : alpha -> sigma -> Prop} (h : EnsuresWhen exec ok p Q s)
    (hQR : forall a s', Q a s' -> R a s') : EnsuresWhen exec ok p R s :=
  fun faults hfaults => hQR _ _ (h faults hfaults)

theorem ensuresWhen_ite {c : Prop} [Decidable c]
    {p q : Program op result alpha} (hp : c -> EnsuresWhen exec ok p Q s)
    (hq : ¬ c -> EnsuresWhen exec ok q Q s) :
    EnsuresWhen exec ok (if c then p else q) Q s := by
  split
  · exact hp ‹c›
  · exact hq ‹¬ c›

end When

/-!
Where a result depends on what happened on the way, the claim is about the run's
operations as well.
-/

/-- The operations of a run, each with its fault and the state it met. -/
def trace (exec : (o : op) -> fault -> sigma -> result o × sigma) {alpha : Type} :
    Program op result alpha -> List fault -> sigma -> List (op × fault × sigma)
  | done _, _, _ => []
  | perform o next, faults, s =>
      (o, faults.headD default, s) ::
        trace exec (next (exec o (faults.headD default) s).1) faults.tail
          (exec o (faults.headD default) s).2

theorem along_iff_trace {ok : op -> fault -> sigma -> Prop} {alpha : Type}
    {p : Program op result alpha} {faults : List fault} {s : sigma} :
    Along exec ok p faults s <->
      forall e, e ∈ trace exec p faults s -> ok e.1 e.2.1 e.2.2 := by
  induction p generalizing faults s with
  | done a => simp [Along, trace]
  | perform o next ih => simp only [Along, trace, List.forall_mem_cons, ih]

theorem trace_bind {alpha beta : Type} (p : Program op result alpha)
    (f : alpha -> Program op result beta) (faults : List fault) (s : sigma) :
    trace exec (p >>= f) faults s =
      trace exec p faults s ++
        trace exec (f (run exec p faults s).1) (run exec p faults s).2.2
          (run exec p faults s).2.1 := by
  induction p generalizing faults s with
  | done a => rfl
  | perform o next ih =>
      simp only [perform_bind, trace, run, List.cons_append, ih]

/-- Whatever the faults, the program ends with such a result and state after
such operations. -/
def Leads (exec : (o : op) -> fault -> sigma -> result o × sigma) {alpha : Type}
    (p : Program op result alpha)
    (Q : alpha -> sigma -> List (op × fault × sigma) -> Prop) (s : sigma) : Prop :=
  forall faults : List fault,
    Q (run exec p faults s).1 (run exec p faults s).2.1 (trace exec p faults s)

section Leads

variable {alpha beta : Type}
  {Q : alpha -> sigma -> List (op × fault × sigma) -> Prop} {s : sigma}

theorem leads_done {a : alpha} (h : Q a s []) :
    Leads exec (done a : Program op result alpha) Q s :=
  fun _ => h

theorem leads_perform {o : op} {next : result o -> Program op result alpha}
    (h : forall f : fault, Leads exec (next (exec o f s).1)
      (fun a s' log => Q a s' ((o, f, s) :: log)) (exec o f s).2) :
    Leads exec (perform o next) Q s :=
  fun faults => h (faults.headD default) faults.tail

theorem leads_bind {p : Program op result alpha}
    {f : alpha -> Program op result beta}
    {R : beta -> sigma -> List (op × fault × sigma) -> Prop}
    (h : Leads exec p (fun a s' log =>
      Leads exec (f a) (fun b s'' log' => R b s'' (log ++ log')) s') s) :
    Leads exec (p >>= f) R s := by
  intro faults
  rw [run_bind, trace_bind]
  exact h faults _

theorem leads_mono {p : Program op result alpha}
    {R : alpha -> sigma -> List (op × fault × sigma) -> Prop}
    (h : Leads exec p Q s) (hQR : forall a s' log, Q a s' log -> R a s' log) :
    Leads exec p R s :=
  fun faults => hQR _ _ _ (h faults)

theorem leads_ite {c : Prop} [Decidable c] {p q : Program op result alpha}
    (hp : c -> Leads exec p Q s) (hq : ¬ c -> Leads exec q Q s) :
    Leads exec (if c then p else q) Q s := by
  split
  · exact hp ‹c›
  · exact hq ‹¬ c›

end Leads

theorem ensures_true {alpha : Type} (p : Program op result alpha) (s : sigma) :
    Ensures exec p (fun _ _ => True) s :=
  fun _ => trivial

end Execution

/-!
# Guarantees

An operation may rely on how the ones before it were answered, and on how it is
answered itself.
-/

/-- Every operation that is performed is good, as long as all of them are answered
as expected, and so is the end. -/
def Guarantees (exec : (o : op) -> fault -> sigma -> result o × sigma)
    (ok good : op -> fault -> sigma -> Prop) {alpha : Type} :
    Program op result alpha -> (alpha -> sigma -> Prop) -> sigma -> Prop
  | done a, Q, s => Q a s
  | perform o next, Q, s =>
      forall f, ok o f s -> good o f s ∧
        Guarantees exec ok good (next (exec o f s).1) Q (exec o f s).2

section Guarantees

variable {exec : (o : op) -> fault -> sigma -> result o × sigma}
  {ok good : op -> fault -> sigma -> Prop} {alpha beta : Type}
  {Q : alpha -> sigma -> Prop} {s : sigma}

theorem guarantees_done {a : alpha} (h : Q a s) :
    Guarantees exec ok good (done a : Program op result alpha) Q s :=
  h

theorem guarantees_perform {o : op} {next : result o -> Program op result alpha}
    (h : forall f, ok o f s -> good o f s ∧
      Guarantees exec ok good (next (exec o f s).1) Q (exec o f s).2) :
    Guarantees exec ok good (perform o next) Q s :=
  h

theorem guarantees_bind {p : Program op result alpha}
    {f : alpha -> Program op result beta} {R : beta -> sigma -> Prop}
    (h : Guarantees exec ok good p (fun a s' => Guarantees exec ok good (f a) R s') s) :
    Guarantees exec ok good (p >>= f) R s := by
  induction p generalizing s with
  | done a => exact h
  | perform o next ih =>
      intro f hf
      exact ⟨(h f hf).left, ih _ (h f hf).right⟩

theorem guarantees_mono {p : Program op result alpha} {R : alpha -> sigma -> Prop}
    (h : Guarantees exec ok good p Q s) (hQR : forall a s', Q a s' -> R a s') :
    Guarantees exec ok good p R s := by
  induction p generalizing s with
  | done a => exact hQR a s h
  | perform o next ih =>
      intro f hf
      exact ⟨(h f hf).left, ih _ (h f hf).right⟩

theorem guarantees_ite {c : Prop} [Decidable c] {p q : Program op result alpha}
    (hp : c -> Guarantees exec ok good p Q s)
    (hq : ¬ c -> Guarantees exec ok good q Q s) :
    Guarantees exec ok good (if c then p else q) Q s := by
  split
  · exact hp ‹c›
  · exact hq ‹¬ c›

theorem guarantees_trace [Inhabited fault] {p : Program op result alpha}
    (h : Guarantees exec ok good p Q s) {faults : List fault}
    (hok : forall e, e ∈ trace exec p faults s -> ok e.1 e.2.1 e.2.2) :
    forall e, e ∈ trace exec p faults s -> good e.1 e.2.1 e.2.2 := by
  induction p generalizing faults s with
  | done a =>
      intro e he
      cases he
  | perform o next ih =>
      have hnow := h _ (hok _ List.mem_cons_self)
      intro e he
      rcases List.mem_cons.mp he with rfl | hlater
      · exact hnow.left
      · exact ih _ hnow.right (fun e he => hok e (List.mem_cons_of_mem _ he)) e hlater

theorem guarantees_run [Inhabited fault] {p : Program op result alpha}
    (h : Guarantees exec ok good p Q s) {faults : List fault}
    (hok : Along exec ok p faults s) :
    Along exec good p faults s ∧
      Q (run exec p faults s).1 (run exec p faults s).2.1 := by
  induction p generalizing faults s with
  | done a => exact ⟨trivial, h⟩
  | perform o next ih =>
      have hnow := h _ hok.left
      rcases ih _ hnow.right hok.right with ⟨hlater, hend⟩
      exact ⟨⟨hnow.left, hlater⟩, hend⟩

theorem trace_fault [Inhabited fault] {p : Program op result alpha}
    {good : fault -> Prop} {faults : List fault} {s : sigma}
    (hdefault : good default) (hfaults : forall f, f ∈ faults -> good f) :
    forall e, e ∈ trace exec p faults s -> good e.2.1 := by
  induction p generalizing faults s with
  | done a =>
      intro e he
      cases he
  | perform o next ih =>
      intro e he
      rcases List.mem_cons.mp he with rfl | hlater
      · cases faults with
        | nil => exact hdefault
        | cons f rest => exact hfaults f List.mem_cons_self
      · exact ih _ (fun f hf => hfaults f (List.mem_of_mem_tail hf)) e hlater

end Guarantees

/-!
# Interfaces

What a program asks for and what it is answered with, apart from any state.
-/

section Interface

variable (pre : op -> Prop) (post : (o : op) -> result o -> Prop)

/--
Every operation performed satisfies its precondition and the result is as
claimed, provided that every operation is answered as promised.
-/
def Obeys {alpha : Type} (Q : alpha -> Prop) : Program op result alpha -> Prop
  | done a => Q a
  | perform o next => pre o ∧ forall r, post o r -> Obeys Q (next r)

variable {pre post}

@[simp] theorem obeys_done {alpha : Type} (Q : alpha -> Prop) (a : alpha) :
    Obeys pre post Q (done a : Program op result alpha) <-> Q a :=
  Iff.rfl

theorem obeys_bind {alpha beta : Type} {Q : alpha -> Prop} {R : beta -> Prop}
    {p : Program op result alpha} {f : alpha -> Program op result beta}
    (hp : Obeys pre post Q p) (hf : forall a, Q a -> Obeys pre post R (f a)) :
    Obeys pre post R (p >>= f) := by
  induction p with
  | done a => exact hf a hp
  | perform o next ih => exact ⟨hp.left, fun r hr => ih r (hp.right r hr)⟩

theorem obeys_operation (o : op) (h : pre o) :
    Obeys pre post (post o) (operation o) :=
  ⟨h, fun _ hr => hr⟩

theorem obeys_ite {alpha : Type} {Q : alpha -> Prop} {c : Prop} [Decidable c]
    {p q : Program op result alpha} (hp : c -> Obeys pre post Q p)
    (hq : ¬ c -> Obeys pre post Q q) :
    Obeys pre post Q (if c then p else q) := by
  split
  · exact hp ‹c›
  · exact hq ‹¬ c›

theorem obeys_mono {pre' : op -> Prop} (hpre : forall o, pre o -> pre' o)
    {alpha : Type} {Q : alpha -> Prop} {p : Program op result alpha}
    (hp : Obeys pre post Q p) : Obeys pre' post Q p := by
  induction p with
  | done a => exact hp
  | perform o next ih => exact ⟨hpre o hp.left, fun r hr => ih r (hp.right r hr)⟩

/-- A handler that keeps its promises keeps its invariant too. -/
theorem ensures_of_obeys [Inhabited fault]
    {exec : (o : op) -> fault -> sigma -> result o × sigma} {I : sigma -> Prop}
    (hexec : forall o f s, I s -> pre o ->
      post o (exec o f s).1 ∧ I (exec o f s).2)
    {alpha : Type} {Q : alpha -> Prop} {p : Program op result alpha}
    (hp : Obeys pre post Q p) {s : sigma} (hs : I s) :
    Ensures exec p (fun a s' => Q a ∧ I s') s := by
  induction p generalizing s with
  | done a => exact fun _ => ⟨hp, hs⟩
  | perform o next ih =>
      rw [ensures_perform]
      intro f
      have hstep := hexec o f s hs hp.left
      exact ih _ (hp.right _ hstep.left) hstep.right

/-- The invariant also holds wherever the program is stopped. -/
theorem stopAfter_of_obeys [Inhabited fault]
    {exec : (o : op) -> fault -> sigma -> result o × sigma} {I : sigma -> Prop}
    (hexec : forall o f s, I s -> pre o ->
      post o (exec o f s).1 ∧ I (exec o f s).2)
    {alpha : Type} {Q : alpha -> Prop} {p : Program op result alpha}
    (hp : Obeys pre post Q p) (k : Nat) (faults : List fault) {s : sigma}
    (hs : I s) : I (stopAfter exec p k faults s) := by
  induction p generalizing k faults s with
  | done a => exact hs
  | perform o next ih =>
      cases k with
      | zero => exact hs
      | succ k =>
          have hstep := hexec o (faults.headD default) s hs hp.left
          exact ih _ (hp.right _ hstep.left) k faults.tail hstep.right

/-- Operations that are good where an invariant holds, and keep it, make a good
program. -/
theorem guarantees_of_obeys {exec : (o : op) -> fault -> sigma -> result o × sigma}
    {ok good : op -> fault -> sigma -> Prop} {I : sigma -> Prop}
    (hexec : forall o f s, I s -> pre o -> ok o f s ->
      good o f s ∧ post o (exec o f s).1 ∧ I (exec o f s).2)
    {alpha : Type} {Q : alpha -> Prop} {p : Program op result alpha}
    (hp : Obeys pre post Q p) {s : sigma} (hs : I s) :
    Guarantees exec ok good p (fun a s' => Q a ∧ I s') s := by
  induction p generalizing s with
  | done a => exact ⟨hp, hs⟩
  | perform o next ih =>
      intro f hf
      rcases hexec o f s hs hp.left hf with ⟨hgood, hpost, hkept⟩
      exact ⟨hgood, ih _ (hp.right _ hpost) hkept⟩

theorem ensuresWhen_of_obeys [Inhabited fault]
    {exec : (o : op) -> fault -> sigma -> result o × sigma}
    {ok : op -> fault -> sigma -> Prop} {I : sigma -> Prop}
    (hexec : forall o f s, I s -> pre o -> ok o f s ->
      post o (exec o f s).1 ∧ I (exec o f s).2)
    {alpha : Type} {Q : alpha -> Prop} {p : Program op result alpha}
    (hp : Obeys pre post Q p) {s : sigma} (hs : I s) :
    EnsuresWhen exec ok p (fun a s' => Q a ∧ I s') s := by
  induction p generalizing s with
  | done a => exact fun _ _ => ⟨hp, hs⟩
  | perform o next ih =>
      rw [ensuresWhen_perform]
      intro f hf
      have hstep := hexec o f s hs hp.left hf
      exact ih _ (hp.right _ hstep.left) hstep.right

end Interface

end Program

end Library
end DomainAI
