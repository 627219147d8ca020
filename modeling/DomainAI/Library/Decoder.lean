import Mathlib.Data.List.Basic

/-!
# Decoders

A decoder takes one symbol after the other off the beginning of a list.  Words that it takes
off whatever comes after them are read back from their concatenation.
-/

namespace DomainAI
namespace Library

variable {alpha beta : Type}

/-- The symbol at the beginning and what comes after it. -/
structure Decoder (alpha beta : Type) where
  next : List beta -> Option (alpha × List beta)
  shorter : forall {xs a rest}, next xs = some (a, rest) -> rest.length < xs.length

namespace Decoder

def decode (d : Decoder alpha beta) (xs : List beta) : List alpha × List beta :=
  match _h : d.next xs with
  | none => ([], xs)
  | some (a, rest) => (a :: (d.decode rest).1, (d.decode rest).2)
termination_by xs.length
decreasing_by exact d.shorter _h

variable {d : Decoder alpha beta} {xs rest : List beta} {a : alpha}

theorem decode_none (h : d.next xs = none) : d.decode xs = ([], xs) := by
  rw [decode]
  split
  · rfl
  · rename_i hsome
    rw [h] at hsome
    cases hsome

theorem decode_some (h : d.next xs = some (a, rest)) :
    d.decode xs = (a :: (d.decode rest).1, (d.decode rest).2) := by
  rw [decode]
  split
  · rename_i hnone
    rw [h] at hnone
    cases hnone
  · rename_i hsome
    rw [h] at hsome
    cases hsome
    rfl

/-- The decoder takes the word of a symbol off whatever comes after it. -/
def Reads (d : Decoder alpha beta) (word : alpha -> List beta) (a : alpha) : Prop :=
  forall rest, d.next (word a ++ rest) = some (a, rest)

theorem decode_words {word : alpha -> List beta} {symbols : List alpha}
    (h : forall a, a ∈ symbols -> d.Reads word a) (hrest : d.next rest = none) :
    d.decode (symbols.flatMap word ++ rest) = (symbols, rest) := by
  induction symbols with
  | nil => exact decode_none hrest
  | cons a symbols ih =>
      rcases List.forall_mem_cons.mp h with ⟨ha, hsymbols⟩
      rw [List.flatMap_cons, List.append_assoc, decode_some (ha _), ih hsymbols]

end Decoder
end Library
end DomainAI
