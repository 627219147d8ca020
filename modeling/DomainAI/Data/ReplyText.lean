import DomainAI.Data.Text
import DomainAI.Library.Replace

/-!
# The text of a reply

What is kept of a streamed reply while it grows, and what it ends as.
-/

namespace DomainAI
namespace ReplyText

open Library

/-- `\s`. -/
def isSpace (c : Char) : Bool :=
  c == ' ' || (0x09 ≤ c.toNat && c.toNat ≤ 0x0D)

def sameLetter (expected c : Char) : Bool :=
  expected.toLower == c.toLower

/-- A word in any case. -/
def caseless (first : Char) : List Char -> Regex Char
  | [] => Regex.chars (sameLetter first)
  | second :: rest =>
      Regex.seq (Regex.chars (sameLetter first)) (caseless second rest)

/-- `^\s*(?:Domain AI|Domain|Oracle)\s*:\s*`, ignoring case. -/
def nameLabel : Regex Char :=
  Regex.seq (Regex.assert Regex.start)
    (Regex.seq (Regex.many isSpace 0)
      (Regex.seq
        (Regex.alt (caseless 'D' "omain AI".toList)
          (Regex.alt (caseless 'D' "omain".toList)
            (caseless 'O' "racle".toList)))
        (Regex.seq (Regex.many isSpace 0)
          (Regex.seq (Regex.chars (fun c => c == ':'))
            (Regex.many isSpace 0)))))

def stripLeadingNameLabel (text : Text) : Text :=
  nameLabel.replaceFirst [] text

/-- `R.string.reply_stopped`. -/
def replyStopped : Text :=
  "Stopped.".toList

/-- `R.string.reply_request_failed`. -/
def replyRequestFailed (message : Text) : Text :=
  "Request failed (".toList ++ message ++ "). Partial reply shown.".toList

/-- The final text: the body plus any note. -/
def finalText (body : Text) (note : Option Text) : Text :=
  match note with
  | none => body
  | some note =>
      if Text.isBlank body then "_".toList ++ note ++ "_".toList
      else body ++ "\n\n_".toList ++ note ++ "_".toList

example :
    stripLeadingNameLabel "domain ai : hello".toList = "hello".toList := by
  decide

end ReplyText
end DomainAI
