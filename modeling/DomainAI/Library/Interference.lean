import DomainAI.Library.Program
import Mathlib.Logic.Relation

/-!
# Programs under interference

Between two operations of a program its surroundings may move the state.  What
is known about the state while the program waits must be stable under these
moves; the rules below carry such assertions from one operation to the next.
-/

namespace DomainAI
namespace Library
namespace Program

open Relation

variable {op : Type} {result : op -> Type} {fault sigma alpha beta : Type}

/-- An assertion that no move of the surroundings can falsify. -/
def Stable (move : sigma -> sigma -> Prop) (A : sigma -> Prop) : Prop :=
  forall s s', move s s' -> A s -> A s'

theorem Stable.moves {move : sigma -> sigma -> Prop} {A : sigma -> Prop}
    (hA : Stable move A) {s s' : sigma} (hmoves : ReflTransGen move s s')
    (hs : A s) : A s' := by
  induction hmoves with
  | refl => exact hs
  | tail _ hmove ih => exact hA _ _ hmove ih

section Withstands

variable (exec : (o : op) -> fault -> sigma -> result o × sigma)
  (move : sigma -> sigma -> Prop) (ok : op -> sigma -> Prop)

/--
Whatever the surroundings do before each operation, and whatever the faults, the
operation is performed in a state that admits it, and the program ends as claimed.
-/
def Withstands :
    Program op result alpha -> (alpha -> sigma -> Prop) -> sigma -> Prop
  | done a, Q, s => forall s', ReflTransGen move s s' -> Q a s'
  | perform o next, Q, s =>
      forall s', ReflTransGen move s s' ->
        ok o s' ∧
          forall f : fault,
            Withstands (next (exec o f s').1) Q (exec o f s').2

variable {exec move ok}

theorem Withstands.moves {p : Program op result alpha}
    {Q : alpha -> sigma -> Prop} {s s' : sigma}
    (h : Withstands exec move ok p Q s) (hmoves : ReflTransGen move s s') :
    Withstands exec move ok p Q s' := by
  cases p with
  | done a =>
      intro s'' hmore
      exact h s'' (hmoves.trans hmore)
  | perform o next =>
      intro s'' hmore
      exact h s'' (hmoves.trans hmore)

theorem Withstands.ends {a : alpha} {Q : alpha -> sigma -> Prop} {s : sigma}
    (h : Withstands exec move ok (done a : Program op result alpha) Q s) : Q a s :=
  h s ReflTransGen.refl

theorem Withstands.admits {o : op} {next : result o -> Program op result alpha}
    {Q : alpha -> sigma -> Prop} {s : sigma}
    (h : Withstands exec move ok (perform o next) Q s) : ok o s :=
  (h s ReflTransGen.refl).left

theorem Withstands.next {o : op} {next : result o -> Program op result alpha}
    {Q : alpha -> sigma -> Prop} {s : sigma}
    (h : Withstands exec move ok (perform o next) Q s) (f : fault) :
    Withstands exec move ok (next (exec o f s).1) Q (exec o f s).2 :=
  (h s ReflTransGen.refl).right f

theorem withstands_done {a : alpha} {Q : alpha -> sigma -> Prop}
    (hQ : Stable move (Q a)) {s : sigma} (hs : Q a s) :
    Withstands exec move ok (done a : Program op result alpha) Q s := by
  intro s' hmoves
  exact hQ.moves hmoves hs

/-- The assertion that holds while the program waits admits the operation, and
the rest of the program withstands the surroundings after it. -/
theorem withstands_perform {A : sigma -> Prop} (hA : Stable move A) {o : op}
    {next : result o -> Program op result alpha} {Q : alpha -> sigma -> Prop}
    (hok : forall s, A s -> ok o s)
    (hnext : forall s f, A s ->
      Withstands exec move ok (next (exec o f s).1) Q (exec o f s).2)
    {s : sigma} (hs : A s) : Withstands exec move ok (perform o next) Q s := by
  intro s' hmoves
  have hs' := hA.moves hmoves hs
  exact ⟨hok s' hs', fun f => hnext s' f hs'⟩

theorem withstands_bind {p : Program op result alpha}
    {f : alpha -> Program op result beta} {R : beta -> sigma -> Prop} {s : sigma}
    (h : Withstands exec move ok p
      (fun a s' => Withstands exec move ok (f a) R s') s) :
    Withstands exec move ok (p >>= f) R s := by
  induction p generalizing s with
  | done a => exact h s ReflTransGen.refl
  | perform o next ih =>
      intro s' hmoves
      rcases h s' hmoves with ⟨hok, hnext⟩
      constructor
      · exact hok
      · intro fault
        exact ih _ (hnext fault)

theorem withstands_mono {p : Program op result alpha}
    {Q R : alpha -> sigma -> Prop} {s : sigma}
    (h : Withstands exec move ok p Q s) (hQR : forall a s', Q a s' -> R a s') :
    Withstands exec move ok p R s := by
  induction p generalizing s with
  | done a =>
      intro s' hmoves
      exact hQR a s' (h s' hmoves)
  | perform o next ih =>
      intro s' hmoves
      rcases h s' hmoves with ⟨hok, hnext⟩
      constructor
      · exact hok
      · intro fault
        exact ih _ (hnext fault)

/-- A stable assertion that every operation of the program keeps. -/
theorem withstands_of_obeys {A : sigma -> Prop} (hA : Stable move A)
    {pre : op -> Prop} {post : (o : op) -> result o -> Prop}
    (hexec : forall o f s, A s -> pre o ->
      ok o s ∧ post o (exec o f s).1 ∧ A (exec o f s).2)
    [Inhabited fault] {Q : alpha -> Prop} {p : Program op result alpha}
    (hp : Obeys pre post Q p) {s : sigma} (hs : A s) :
    Withstands exec move ok p (fun a s' => Q a ∧ A s') s := by
  induction p generalizing s with
  | done a =>
      intro s' hmoves
      exact ⟨hp, hA.moves hmoves hs⟩
  | perform o next ih =>
      intro s' hmoves
      have hs' := hA.moves hmoves hs
      constructor
      · exact (hexec o default s' hs' hp.left).left
      · intro f
        rcases hexec o f s' hs' hp.left with ⟨_, hpost, hkept⟩
        exact ih _ (hp.right _ hpost) hkept

end Withstands

end Program
end Library
end DomainAI
