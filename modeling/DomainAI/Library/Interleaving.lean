import DomainAI.Library.Program
import DomainAI.Library.Run

/-!
# Interleavings

Two programs take turns over one state.  A schedule says who performs the next
operation, and a log keeps the order in which the operations were performed.
-/

namespace DomainAI
namespace Library

inductive Side where
  | left
  | right
  deriving DecidableEq, Repr

namespace Side

def other : Side -> Side
  | left => right
  | right => left

@[simp] theorem other_other (side : Side) : side.other.other = side := by
  cases side <;> rfl

@[simp] theorem other_ne (side : Side) : side.other ≠ side := by
  cases side <;> simp [other]

@[simp] theorem ne_other (side : Side) : side ≠ side.other :=
  Ne.symm (other_ne side)

theorem eq_or_eq_other (side s : Side) : s = side ∨ s = side.other := by
  cases side <;> cases s <;> simp [other]

end Side

/-- Two programs, each with what it still has to do. -/
structure Interleaved (op : Type) (result : op -> Type) (alpha sigma : Type) where
  program : Side -> Program op result alpha
  state : sigma
  log : List (Side × op) := []

namespace Interleaved

open Program

variable {op : Type} {result : op -> Type} {alpha sigma : Type}
  (exec : Side -> (o : op) -> sigma -> result o × sigma)

def after (p : Interleaved op result alpha sigma) (side : Side) (o : op)
    (next : result o -> Program op result alpha) :
    Interleaved op result alpha sigma where
  program := fun s => if s = side then next (exec side o p.state).1 else p.program s
  state := (exec side o p.state).2
  log := p.log ++ [(side, o)]

def step (p : Interleaved op result alpha sigma) (side : Side) :
    Option (Interleaved op result alpha sigma) :=
  match p.program side with
  | done _ => none
  | perform o next => some (p.after exec side o next)

def returned (p : Interleaved op result alpha sigma) (side : Side) : Option alpha :=
  match p.program side with
  | done a => some a
  | perform _ _ => none

def ended (p : Interleaved op result alpha sigma) : Bool :=
  (p.returned Side.left).isSome && (p.returned Side.right).isSome

theorem exists_returned {p : Interleaved op result alpha sigma} (h : p.ended = true)
    (side : Side) : exists a, p.returned side = some a := by
  rw [ended, Bool.and_eq_true, Option.isSome_iff_exists, Option.isSome_iff_exists] at h
  cases side with
  | left => exact h.left
  | right => exact h.right

variable {exec}

@[simp] theorem after_program_self (p : Interleaved op result alpha sigma) (side : Side)
    (o : op) (next : result o -> Program op result alpha) :
    (p.after exec side o next).program side = next (exec side o p.state).1 :=
  if_pos rfl

@[simp] theorem after_program_other (p : Interleaved op result alpha sigma) (side : Side)
    (o : op) (next : result o -> Program op result alpha) :
    (p.after exec side o next).program side.other = p.program side.other :=
  if_neg (Side.other_ne side)

/-- What every operation of either side preserves holds after every schedule. -/
theorem invariant {I : Interleaved op result alpha sigma -> Prop}
    (hstep : forall p side o next, I p -> p.program side = perform o next ->
      I (p.after exec side o next))
    {p p' : Interleaved op result alpha sigma} {schedule : List Side} (hp : I p)
    (hrun : runEvents (step exec) p schedule = some p') : I p' := by
  have hall : AllSteps (step exec) (fun _ _ => True) p schedule :=
    AllSteps.of_forall (fun _ _ => trivial) p schedule
  refine runEvents_invariant ?_ hp hall hrun
  intro q side q' hq _ hstep'
  unfold step at hstep'
  split at hstep'
  · cases hstep'
  · rename_i o next hprogram
    cases hstep'
    exact hstep q side o next hq hprogram

end Interleaved

end Library
end DomainAI
