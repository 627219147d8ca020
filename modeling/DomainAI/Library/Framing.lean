import DomainAI.Library.Decoder
import DomainAI.Library.Lines
import DomainAI.Library.Occurrences

/-!
# Framed records

A record is written as a tag and a content between marks.  What is written is read back as
long as no tag contains the separator and no content the closing mark.
-/

namespace DomainAI
namespace Library

variable {alpha : Type} [DecidableEq alpha]

/-- The marks before a tag, after it, and after the content. -/
structure Marks (alpha : Type) where
  opening : List alpha
  separator : alpha
  closing : List alpha

abbrev Framed (alpha : Type) :=
  List alpha × List alpha

namespace Marks

variable (m : Marks alpha)

def written (r : Framed alpha) : List alpha :=
  m.opening ++ (r.1 ++ m.separator :: (r.2 ++ m.closing))

structure Plain (r : Framed alpha) : Prop where
  tag : m.separator ∉ r.1
  content : ¬ m.closing <:+: r.2

/-- The first element of the closing mark does not recur in it. -/
def Closes : Prop :=
  exists first rest, m.closing = first :: rest ∧ first ∉ rest

def nextRecord (xs : List alpha) : Option (Framed alpha × List alpha) :=
  if m.opening <+: xs then
    match (xs.drop m.opening.length).dropWhile (· ≠ m.separator) with
    | [] => none
    | _ :: body =>
        (indexOf m.closing 0 body).map fun i =>
          (((xs.drop m.opening.length).takeWhile (· ≠ m.separator), body.take i),
            body.drop (i + m.closing.length))
  else none

variable {m} {xs rest : List alpha} {r : Framed alpha}

theorem nextRecord_shorter (h : m.nextRecord xs = some (r, rest)) :
    rest.length < xs.length := by
  unfold nextRecord at h
  split at h
  · split at h
    · cases h
    · rename_i separator body hdrop
      rcases Option.map_eq_some_iff.mp h with ⟨i, _, hpair⟩
      cases hpair
      have hsuffix : separator :: body <:+ xs :=
        (hdrop ▸ List.dropWhile_suffix _).trans (List.drop_suffix _ xs)
      exact Nat.lt_of_le_of_lt (List.drop_suffix _ body).length_le hsuffix.length_le
  · cases h

def decoder (m : Marks alpha) : Decoder (Framed alpha) alpha where
  next := m.nextRecord
  shorter := nextRecord_shorter

theorem nextRecord_written (hcloses : m.Closes) (h : m.Plain r) (rest : List alpha) :
    m.nextRecord (m.written r ++ rest) = some (r, rest) := by
  rcases hcloses with ⟨first, later, hclosing, hfirst⟩
  have hopening : m.opening <+: m.written r ++ rest := by
    rw [written, List.append_assoc]
    exact List.prefix_append _ _
  have hbody : (m.written r ++ rest).drop m.opening.length =
      r.1 ++ m.separator :: (r.2 ++ m.closing ++ rest) := by
    rw [written, List.append_assoc, List.drop_left]
    simp only [List.append_assoc, List.cons_append]
  have hindex : indexOf m.closing 0 (r.2 ++ m.closing ++ rest) = some r.2.length := by
    have hcontent := h.content
    rw [hclosing] at hcontent ⊢
    have hfound := @indexOf_first _ first _ [] r.2 rest later hfirst hcontent
    rwa [List.length_nil, List.nil_append, Nat.zero_add] at hfound
  rw [nextRecord, if_pos hopening, hbody, dropWhile_ne h.tag, takeWhile_ne h.tag]
  simp only [hindex, Option.map_some]
  rw [<- List.length_append, List.drop_left, List.append_assoc, List.take_left]

theorem records_written (hcloses : m.Closes) {rs : List (Framed alpha)}
    (h : forall r, r ∈ rs -> m.Plain r) (hrest : m.nextRecord rest = none) :
    m.decoder.decode (rs.flatMap m.written ++ rest) = (rs, rest) := by
  apply Decoder.decode_words _ hrest
  intro r hr
  exact nextRecord_written hcloses (h r hr)

end Marks
end Library
end DomainAI
