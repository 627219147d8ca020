import DomainAI.Data.Text

/-!
# Numerals

How the host language reads integers in decimal.  Which characters are digits is its
table of Unicode, and is left open.
-/

namespace DomainAI
namespace Text

abbrev Digits := Char -> Option Nat

def asciiDigit (c : Char) : Option Nat :=
  if '0' ≤ c ∧ c ≤ '9' then some (c.toNat - '0'.toNat) else none

def magnitude (digit : Digits) (t : Text) : Option Int :=
  t.foldlM (fun n c => (digit c).map fun d => 10 * n + d) 0

/-- The number, before it is known to fit. -/
def number (digit : Digits) : Text -> Option Int
  | [] => none
  | c :: rest =>
      if c < '0' then
        if rest = [] then none
        else if c = '-' then (magnitude digit rest).map fun n => -n
        else if c = '+' then magnitude digit rest
        else none
      else magnitude digit (c :: rest)

def toIntOrNull (digit : Digits) (t : Text) : Option Int :=
  (number digit t).filter fun n => -2147483648 ≤ n ∧ n ≤ 2147483647

/-- `toLong`, or none where it throws. -/
def toLong (digit : Digits) (t : Text) : Option Int :=
  (number digit t).filter fun n =>
    -9223372036854775808 ≤ n ∧ n ≤ 9223372036854775807

example : (toLong asciiDigit "-2803200".toList, toIntOrNull asciiDigit "2147483648".toList) =
    (some (-2803200), none) := by
  decide

end Text
end DomainAI
