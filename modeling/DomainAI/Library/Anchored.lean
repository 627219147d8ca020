import DomainAI.Library.Lines
import DomainAI.Library.Replace

/-!
# Anchored patterns

A pattern that can only match at the start of a text, and that takes whatever follows of a
class once it has read a mark.
-/

namespace DomainAI
namespace Library

namespace Regex

variable {alpha : Type} {r s t : Regex alpha} {cur : Cursor alpha} {text : List alpha}

theorem ends_start (text : List alpha) :
    (assert start).ends (Cursor.atStart text) = [Cursor.atStart text] := rfl

theorem ends_seq_start (text : List alpha) :
    (seq (assert start) r).ends (Cursor.atStart text) = r.ends (Cursor.atStart text) := by
  rw [ends, ends_start, List.flatMap_singleton]

theorem matchLength_later (c : alpha) (before after : List alpha) :
    (seq (assert start) r).matchLength { before := c :: before, after := after } = none :=
  rfl

theorem replaceFirstFrom_later (placeholder : List alpha) (c : alpha)
    (before after : List alpha) :
    (seq (assert start) r).replaceFirstFrom placeholder (c :: before) after = after := by
  induction after generalizing c before with
  | nil => rw [replaceFirstFrom, matchLength_later]
  | cons d after ih =>
      rw [replaceFirstFrom, matchLength_later]
      exact congrArg (List.cons d) (ih d (c :: before))

theorem matchLength_start (text : List alpha) :
    (seq (assert start) r).matchLength { before := [], after := text } =
      (r.ends (Cursor.atStart text)).head?.map fun stop =>
        text.length - stop.after.length := by
  have hends := congrArg List.head? (@ends_seq_start _ r text)
  exact congrArg (Option.map fun stop => text.length - stop.after.length) hends

theorem drop_to_stop {stop : Cursor alpha}
    (h : (r.ends (Cursor.atStart text)).head? = some stop) :
    text.drop (text.length - stop.after.length) = stop.after := by
  rcases ends_moves r _ stop (List.mem_of_head? h) with ⟨w, hafter, _⟩
  have htext : text = w ++ stop.after := hafter
  have hlength : (w ++ stop.after).length - stop.after.length = w.length := by
    rw [List.length_append, Nat.add_sub_cancel]
  rw [htext, hlength, List.drop_left]

/-- Only the beginning of the text can be replaced. -/
theorem replaceFirst_start (placeholder text : List alpha) :
    (seq (assert start) r).replaceFirst placeholder text =
      match (r.ends (Cursor.atStart text)).head? with
      | some stop => placeholder ++ stop.after
      | none => text := by
  have hmatch := @matchLength_start _ r text
  rw [replaceFirst]
  cases hends : (r.ends (Cursor.atStart text)).head? with
  | none =>
      rw [hends] at hmatch
      cases text with
      | nil => rw [replaceFirstFrom, hmatch, Option.map_none]
      | cons c text =>
          rw [replaceFirstFrom, hmatch, Option.map_none]
          exact congrArg (List.cons c) (replaceFirstFrom_later placeholder c [] text)
  | some stop =>
      rw [hends] at hmatch
      have hdrop := drop_to_stop hends
      cases text with
      | nil =>
          rw [List.drop_nil] at hdrop
          rw [replaceFirstFrom, hmatch, Option.map_some]
          show placeholder = placeholder ++ stop.after
          rw [<- hdrop, List.append_nil]
      | cons c text =>
          rw [replaceFirstFrom, hmatch, Option.map_some]
          exact congrArg (placeholder ++ ·) hdrop

theorem head?_manyEnds (p : alpha -> Bool) (before after : List alpha) :
    exists before', (manyEnds p 0 before after).head? =
      some { before := before', after := after.dropWhile p } := by
  induction after generalizing before with
  | nil => exact ⟨before, rfl⟩
  | cons c after ih =>
      rw [manyEnds, List.dropWhile_cons, if_pos rfl]
      cases p c with
      | true =>
          rcases ih (c :: before) with ⟨before', hhead⟩
          refine ⟨before', ?_⟩
          rw [if_pos rfl, if_pos rfl, List.head?_append, hhead, Option.some_or]
      | false => exact ⟨before, rfl⟩

def EndsAt (r : Regex alpha) (cur : Cursor alpha) (rest : List alpha) : Prop :=
  (exists stop, stop ∈ r.ends cur) ∧ forall stop, stop ∈ r.ends cur -> stop.after = rest

theorem EndsAt.many {rest : List alpha} (h : EndsAt r cur rest) (p : alpha -> Bool) :
    exists before, ((seq r (many p 0)).ends cur).head? =
      some { before := before, after := rest.dropWhile p } := by
  rcases h with ⟨⟨stop, hstop⟩, hall⟩
  cases hends : r.ends cur with
  | nil =>
      rw [hends] at hstop
      cases hstop
  | cons first others =>
      have hfirst : first.after = rest := hall first (hends ▸ List.mem_cons_self)
      rcases head?_manyEnds p first.before first.after with ⟨before, hhead⟩
      refine ⟨before, ?_⟩
      rw [ends, hends, List.flatMap_cons, List.head?_append, ends, hhead, Option.some_or,
        hfirst]

theorem ends_eq_nil (hplain : r.Plain = true)
    (h : forall w rest, text = w ++ rest -> ¬ r.Words w) :
    r.ends (Cursor.atStart text) = [] := by
  rw [List.eq_nil_iff_forall_not_mem]
  intro stop hstop
  rcases (ends_consumes hplain _ stop).mp hstop with ⟨w, hw, hafter, _⟩
  exact h w stop.after hafter hw

theorem replaceFirst_unmarked (hplain : r.Plain = true) (p : alpha -> Bool)
    (h : forall w rest, text = w ++ rest -> ¬ r.Words w) :
    (seq (assert start) (seq r (many p 0))).replaceFirst [] text = text := by
  rw [replaceFirst_start, ends, ends_eq_nil hplain h]
  rfl

/-- Words of the pattern have one mark, at their end. -/
def Marked (r : Regex alpha) (mark : alpha) : Prop :=
  forall w, r.Words w -> exists u, w = u ++ [mark] ∧ mark ∉ u

variable [DecidableEq alpha] {mark : alpha}

theorem Marked.endsAt (hmarked : Marked r mark) (hplain : r.Plain = true)
    {w rest : List alpha} (hw : r.Words w) :
    EndsAt r (Cursor.atStart (w ++ rest)) rest := by
  have hcut {v later : List alpha} (hv : r.Words v) :
      (v ++ later).dropWhile (· ≠ mark) = mark :: later := by
    rcases hmarked v hv with ⟨u, rfl, hu⟩
    rw [List.append_assoc, List.singleton_append, dropWhile_ne hu]
  constructor
  · exact ⟨_, (ends_consumes hplain (Cursor.atStart (w ++ rest))
      ((Cursor.atStart (w ++ rest)).advance w rest)).mpr ⟨w, hw, rfl, rfl⟩⟩
  · intro stop hstop
    rcases (ends_consumes hplain _ stop).mp hstop with ⟨v, hv, hafter, _⟩
    have hsame : w ++ rest = v ++ stop.after := hafter
    have htails := @hcut w rest hw
    rw [hsame, hcut hv] at htails
    exact (List.cons.inj htails).right

theorem replaceFirst_marked (hmarked : Marked r mark) (hplain : r.Plain = true)
    (p : alpha -> Bool) {w : List alpha} (hw : r.Words w) (rest : List alpha) :
    (seq (assert start) (seq r (many p 0))).replaceFirst [] (w ++ rest) =
      rest.dropWhile p := by
  rcases (hmarked.endsAt hplain hw).many p with ⟨before, hhead⟩
  rw [replaceFirst_start, hhead]
  rfl

end Regex
end Library
end DomainAI
