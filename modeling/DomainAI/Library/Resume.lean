import Mathlib.Data.List.Basic

/-!
# Resuming by length

A receiver that has some elements of a sequence asks for the ones from that
length on, whatever it has.
-/

namespace DomainAI
namespace Library

variable {alpha : Type} {whole received : List alpha}

/-- What was received before, and then the rest of the whole. -/
def resumed (whole received : List alpha) : List alpha :=
  received ++ whole.drop received.length

@[simp] theorem resumed_nil (whole : List alpha) : resumed whole [] = whole := rfl

/-- The whole comes out exactly if what was received are its first elements. -/
theorem resumed_eq_iff : resumed whole received = whole <-> received <+: whole := by
  constructor
  · intro h
    rw [<- h]
    exact List.prefix_append received _
  · intro h
    rcases h with ⟨rest, rfl⟩
    rw [resumed, List.drop_left]

theorem resumed_append_take (n : Nat) :
    resumed whole (received ++ (whole.drop received.length).take n) =
      resumed whole received := by
  rw [resumed, resumed, List.append_assoc, List.append_cancel_left_eq,
    List.length_append, <- List.drop_drop, List.length_take]
  rcases Nat.le_total n (whole.drop received.length).length with h | h
  · rw [Nat.min_eq_left h, List.take_append_drop]
  · rw [Nat.min_eq_right h, List.take_of_length_le h, List.drop_length,
      List.append_nil]

theorem resumed_take (n : Nat) : resumed whole (whole.take n) = whole :=
  resumed_eq_iff.mpr (List.take_prefix n whole)

theorem resumed_of_length_le (h : whole.length ≤ received.length) :
    resumed whole received = received := by
  rw [resumed, List.drop_eq_nil_of_le h, List.append_nil]

end Library
end DomainAI
