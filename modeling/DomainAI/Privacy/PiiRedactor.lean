import DomainAI.Data.Text
import DomainAI.Library.Replace

/-!
# PiiRedactor

Five patterns are replaced one after the other.  The word class is the ASCII
one, as in the patterns' `\w` and `\b` on ASCII input.
-/

namespace DomainAI
namespace PiiRedactor

open Library

/-!
# Character classes
-/

def isDigit (c : Char) : Bool :=
  '0' ≤ c && c ≤ '9'

def isLetter (c : Char) : Bool :=
  ('A' ≤ c && c ≤ 'Z') || ('a' ≤ c && c ≤ 'z')

/-- `\w`. -/
def isWord (c : Char) : Bool :=
  isLetter c || isDigit c || c == '_'

def isWordAt : Option Char -> Bool
  | none => false
  | some c => isWord c

/-- `\b`. -/
def wordBoundary (previous next : Option Char) : Bool :=
  isWordAt previous != isWordAt next

/-- `(?<!\w)`. -/
def notAfterWord (previous _next : Option Char) : Bool :=
  !isWordAt previous

/-- `(?!\w)`. -/
def notBeforeWord (_previous next : Option Char) : Bool :=
  !isWordAt next

def isChar (d : Char) (c : Char) : Bool :=
  c == d

def oneOf (cs : List Char) (c : Char) : Bool :=
  cs.contains c

def digits (least extra : Nat) : Regex Char :=
  Regex.rep (Regex.chars isDigit) least extra

/-!
# The five patterns
-/

/-- `[A-Za-z0-9._%+-]`. -/
def isLocalPart (c : Char) : Bool :=
  isLetter c || isDigit c || oneOf ['.', '_', '%', '+', '-'] c

/-- `[A-Za-z0-9.-]`. -/
def isDomainPart (c : Char) : Bool :=
  isLetter c || isDigit c || oneOf ['.', '-'] c

/-- `[A-Za-z0-9._%+-]+@[A-Za-z0-9.-]+\.[A-Za-z]{2,}`. -/
def emailRegex : Regex Char :=
  Regex.seq (Regex.many isLocalPart 1)
    (Regex.seq (Regex.chars (isChar '@'))
      (Regex.seq (Regex.many isDomainPart 1)
        (Regex.seq (Regex.chars (isChar '.')) (Regex.many isLetter 2))))

/-- `\d{3}-\d{2}-\d{4}`. -/
def ssnCore : Regex Char :=
  Regex.seq (digits 3 0)
    (Regex.seq (Regex.chars (isChar '-'))
      (Regex.seq (digits 2 0)
        (Regex.seq (Regex.chars (isChar '-')) (digits 4 0))))

/-- `(?:\d[ -]?){13,16}`. -/
def cardCore : Regex Char :=
  Regex.rep
    (Regex.seq (Regex.chars isDigit)
      (Regex.opt (Regex.chars (oneOf [' ', '-'])))) 13 3

/-- `(?:\d{1,3}\.){3}\d{1,3}`. -/
def ipCore : Regex Char :=
  Regex.seq
    (Regex.rep (Regex.seq (digits 1 2) (Regex.chars (isChar '.'))) 3 0)
    (digits 1 2)

/-- `[ .-]?`. -/
def phoneSeparator : Regex Char :=
  Regex.opt (Regex.chars (oneOf [' ', '.', '-']))

/-- `(?:\+?\d{1,3}[ .-]?)?`. -/
def phoneCountry : Regex Char :=
  Regex.opt
    (Regex.seq (Regex.opt (Regex.chars (isChar '+')))
      (Regex.seq (digits 1 2) phoneSeparator))

/-- `\(?\d{2,4}\)?[ .-]?`. -/
def phoneGroup : Regex Char :=
  Regex.seq (Regex.opt (Regex.chars (isChar '(')))
    (Regex.seq (digits 2 2)
      (Regex.seq (Regex.opt (Regex.chars (isChar ')'))) phoneSeparator))

/-- `(?:\+?\d{1,3}[ .-]?)?(?:\(?\d{2,4}\)?[ .-]?){2,4}\d{2,4}`. -/
def phoneCore : Regex Char :=
  Regex.seq phoneCountry
    (Regex.seq (Regex.rep phoneGroup 2 2) (digits 2 2))

/-!
# Rules and redaction
-/

structure Finding where
  kind : Text
  original : Text
  deriving DecidableEq, Repr

structure Result where
  redactedText : Text
  findings : List Finding
  deriving DecidableEq, Repr

structure Rule where
  kind : Text
  regex : Regex Char
  placeholder : Text

def emailRule : Rule where
  kind := "email".toList
  regex := emailRegex
  placeholder := "[EMAIL]".toList

def ssnRule : Rule where
  kind := "ssn".toList
  regex := Regex.framed wordBoundary wordBoundary ssnCore
  placeholder := "[SSN]".toList

def cardRule : Rule where
  kind := "credit-card".toList
  regex := Regex.framed wordBoundary wordBoundary cardCore
  placeholder := "[CARD]".toList

def ipRule : Rule where
  kind := "ip-address".toList
  regex := Regex.framed wordBoundary wordBoundary ipCore
  placeholder := "[IP]".toList

def phoneRule : Rule where
  kind := "phone".toList
  regex := Regex.framed notAfterWord notBeforeWord phoneCore
  placeholder := "[PHONE]".toList

/-- Order matters: the structured patterns run before the greedy phone rule. -/
def rules : List Rule :=
  [emailRule, ssnRule, cardRule, ipRule, phoneRule]

def applyRule (working : Result) (rule : Rule) : Result where
  redactedText := rule.regex.replaceAll rule.placeholder working.redactedText
  findings := working.findings ++
    (hits (rule.regex.pieces working.redactedText)).map fun w =>
      { kind := rule.kind, original := w }

def redact (input : Text) : Result :=
  rules.foldl applyRule { redactedText := input, findings := [] }

example :
    (redact "ssn 123-45-6789, call +1 (415) 555-2671".toList).redactedText =
      "ssn [SSN], call [PHONE]".toList := by
  decide

end PiiRedactor
end DomainAI
