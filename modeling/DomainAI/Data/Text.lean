import Mathlib.Algebra.GroupWithZero.Nat
import Mathlib.Data.List.Lex

/-!
# Texts

A text is a list of Unicode scalar values.  The host language counts and cuts
strings in UTF-16 units, so lengths and prefixes are measured in those units.
-/

namespace DomainAI

abbrev Text := List Char

namespace Text

/-- How many UTF-16 units a character takes. -/
def units (c : Char) : Nat :=
  if c.toNat < 0x10000 then 1 else 2

/-- `String.length`. -/
def utf16Length (t : Text) : Nat :=
  (t.map units).sum

def utf16 (c : Char) : List Nat :=
  let n := c.toNat
  if n < 0x10000 then [n]
  else [0xD800 + (n - 0x10000) / 0x400, 0xDC00 + (n - 0x10000) % 0x400]

/-- `a <= b` for strings: unit by unit. -/
def notAfter (a b : Text) : Bool :=
  (a.flatMap utf16) ≤ (b.flatMap utf16)

/-- `String.take`; a surrogate pair cut in half is left out altogether. -/
def takeUnits : Nat -> Text -> Text
  | _, [] => []
  | n, c :: rest =>
      if units c ≤ n then c :: takeUnits (n - units c) rest else []

/-- `Char.isWhitespace`: the space separators and the separating controls. -/
def isWhitespace (c : Char) : Bool :=
  let n := c.toNat
  (0x09 ≤ n && n ≤ 0x0D) || (0x1C ≤ n && n ≤ 0x20) || n == 0xA0 ||
    n == 0x1680 || (0x2000 ≤ n && n ≤ 0x200A) || n == 0x2028 || n == 0x2029 ||
    n == 0x202F || n == 0x205F || n == 0x3000

def isBlank (t : Text) : Bool :=
  t.all isWhitespace

def isNullOrBlank : Option Text -> Bool
  | none => true
  | some t => isBlank t

def trim (t : Text) : Text :=
  ((t.dropWhile isWhitespace).reverse.dropWhile isWhitespace).reverse

def joinToString (separator : Text) (ts : List Text) : Text :=
  (ts.intersperse separator).flatten

def Contains (whole part : Text) : Prop :=
  part <:+: whole

instance (whole part : Text) : Decidable (Contains whole part) :=
  inferInstanceAs (Decidable (part <:+: whole))

end Text

end DomainAI
