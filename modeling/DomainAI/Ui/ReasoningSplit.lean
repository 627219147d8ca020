import DomainAI.Data.ReplyText
import DomainAI.Library.Occurrences

/-!
# Reasoning and answer

A reply is shown in two parts: the reasoning of its first think block, collapsed, and
the answer around it.  A note is appended to a reply before it is split.
-/

namespace DomainAI
namespace ReasoningSplit

open Library

def OPEN : Text := "<think>".toList

def CLOSE : Text := "</think>".toList

/-- The reasoning, if there is any, and the answer. -/
def parse (text : Text) : Option Text × Text :=
  match indexOf OPEN 0 text with
  | none => (none, text)
  | some opening =>
      let pre := text.take opening
      let afterOpen := opening + OPEN.length
      match indexOf CLOSE afterOpen text with
      | none => (some (Text.trim (text.drop afterOpen)), Text.trim pre)
      | some closing =>
          (some (Text.trim ((text.take closing).drop afterOpen)),
            Text.trim (pre ++ text.drop (closing + CLOSE.length)))

/-!
# What the split gives
-/

theorem parse_plain {text : Text} (h : ¬ OPEN <:+: text) : parse text = (none, text) := by
  have hopen : indexOf OPEN 0 text = none := indexOf_eq_none (by rwa [List.drop_zero])
  rw [parse, hopen]

theorem indexOf_open {pre rest : Text} (hpre : ¬ OPEN <:+: pre) :
    indexOf OPEN 0 (pre ++ OPEN ++ rest) = some pre.length := by
  have h : indexOf OPEN ([] : Text).length ([] ++ (pre ++ OPEN ++ rest)) =
      some (([] : Text).length + pre.length) :=
    indexOf_first (by decide) hpre
  rwa [List.nil_append, List.length_nil, Nat.zero_add] at h

theorem parse_unclosed {pre rest : Text} (hpre : ¬ OPEN <:+: pre)
    (hrest : ¬ CLOSE <:+: rest) :
    parse (pre ++ OPEN ++ rest) = (some (Text.trim rest), Text.trim pre) := by
  have hdrop : (pre ++ OPEN ++ rest).drop (pre.length + OPEN.length) = rest := by
    rw [<- List.length_append, List.drop_left]
  have hclose : indexOf CLOSE (pre.length + OPEN.length) (pre ++ OPEN ++ rest) = none :=
    indexOf_eq_none (by rwa [hdrop])
  simp only [parse, indexOf_open hpre, hclose, hdrop]
  rw [List.append_assoc, List.take_left]

theorem parse_closed {pre thinking rest : Text} (hpre : ¬ OPEN <:+: pre)
    (hthinking : ¬ CLOSE <:+: thinking) :
    parse (pre ++ OPEN ++ (thinking ++ CLOSE ++ rest)) =
      (some (Text.trim thinking), Text.trim (pre ++ rest)) := by
  have hclose : indexOf CLOSE (pre.length + OPEN.length)
      (pre ++ OPEN ++ (thinking ++ CLOSE ++ rest)) =
        some (pre ++ OPEN ++ thinking).length := by
    rw [<- List.length_append, @List.length_append _ _ thinking]
    exact indexOf_first (by decide) hthinking
  have hsame : pre ++ OPEN ++ (thinking ++ CLOSE ++ rest) =
      pre ++ OPEN ++ thinking ++ CLOSE ++ rest := by
    simp only [List.append_assoc]
  have htake : (pre ++ OPEN ++ (thinking ++ CLOSE ++ rest)).take
      (pre ++ OPEN ++ thinking).length = pre ++ OPEN ++ thinking := by
    rw [hsame, List.append_assoc _ CLOSE, List.take_left]
  have hdrop : (pre ++ OPEN ++ (thinking ++ CLOSE ++ rest)).drop
      ((pre ++ OPEN ++ thinking).length + CLOSE.length) = rest := by
    rw [hsame, <- List.length_append, List.drop_left]
  simp only [parse, indexOf_open hpre, hclose, htake, hdrop]
  rw [<- List.length_append, List.drop_left, List.append_assoc, List.take_left]

/-!
# Notes
-/

def attached (note : Text) : Text :=
  "_".toList ++ note ++ "_".toList

structure Unmarked (note : Text) : Prop where
  opens : ¬ OPEN <:+: note
  closes : ¬ CLOSE <:+: note

/-- The answer, as it is shown, ends with the note. -/
def Shows (text note : Text) : Prop :=
  attached note <:+ (parse text).2

def EndsLike (note text : Text) : Prop :=
  exists before spaces, text = before ++ attached note ++ spaces ∧
    Text.isBlank spaces = true

/-- The reply is cut off inside its think block, and what stands before the block does
not happen to end like the note. -/
def CutOff (body note : Text) : Prop :=
  exists pre rest, body = pre ++ OPEN ++ rest ∧ ¬ OPEN <:+: pre ∧ ¬ CLOSE <:+: rest ∧
    ¬ EndsLike note pre

theorem trim_split (t : Text) :
    exists front back, t = front ++ Text.trim t ++ back ∧ Text.isBlank back = true := by
  let rest := t.dropWhile Text.isWhitespace
  refine ⟨t.takeWhile Text.isWhitespace,
    (rest.reverse.takeWhile Text.isWhitespace).reverse, ?_, ?_⟩
  · rw [List.append_assoc, Text.trim, <- List.reverse_append,
      List.takeWhile_append_dropWhile, List.reverse_reverse,
      List.takeWhile_append_dropWhile]
  · rw [Text.isBlank, List.all_reverse, List.all_takeWhile]

theorem trim_attached (x note : Text) {spaces : Text} (h : Text.isBlank spaces = true) :
    Text.trim (x ++ attached note ++ spaces) =
      x.dropWhile Text.isWhitespace ++ attached note := by
  have hfront (y : Text) : (attached note ++ y).dropWhile Text.isWhitespace =
      attached note ++ y := rfl
  have hdrop : (x ++ attached note ++ spaces).dropWhile Text.isWhitespace =
      x.dropWhile Text.isWhitespace ++ attached note ++ spaces := by
    rw [List.append_assoc, List.dropWhile_append]
    split
    · rename_i hempty
      rw [hfront, List.isEmpty_iff.mp hempty, List.nil_append]
    · rw [List.append_assoc]
  have hspaces (c : Char) (hc : c ∈ spaces.reverse) : Text.isWhitespace c = true :=
    List.all_eq_true.mp h c (List.mem_reverse.mp hc)
  have hback (y : Text) :
      (y ++ attached note).reverse.dropWhile Text.isWhitespace =
        (y ++ attached note).reverse := by
    rw [attached, <- List.append_assoc, List.reverse_append]
    rfl
  rw [Text.trim, hdrop, List.reverse_append, List.dropWhile_append_of_pos hspaces, hback,
    List.reverse_reverse]

theorem suffix_trim_iff {note t : Text} :
    attached note <:+ Text.trim t <-> EndsLike note t := by
  constructor
  · intro h
    rcases h with ⟨before, h⟩
    rcases trim_split t with ⟨front, back, ht, hback⟩
    refine ⟨front ++ before, back, ?_, hback⟩
    rw [List.append_assoc front, h]
    exact ht
  · intro h
    rcases h with ⟨before, spaces, rfl, hspaces⟩
    rw [trim_attached before note hspaces]
    exact List.suffix_append _ _

theorem not_infix_attached {part note : Text} (hunderscore : '_' ∉ part) (hne : part ≠ [])
    (h : ¬ part <:+: note) : ¬ part <:+: attached note := by
  intro hattached
  have hnil : ¬ part <:+: [] := fun hnil => hne (List.infix_nil.mp hnil)
  have hsplit : attached note = [] ++ '_' :: (note ++ '_' :: []) := rfl
  rw [hsplit, infix_append_cons_iff hunderscore, infix_append_cons_iff hunderscore]
    at hattached
  rcases hattached with hattached | hattached | hattached
  · exact hnil hattached
  · exact h hattached
  · exact hnil hattached

theorem not_infix_append_note {part x note : Text} (hunderscore : '_' ∉ part)
    (hnewline : '\n' ∉ part) (hne : part ≠ []) (hx : ¬ part <:+: x)
    (h : ¬ part <:+: note) : ¬ part <:+: x ++ ("\n\n".toList ++ attached note) := by
  intro happended
  have hsplit : x ++ ("\n\n".toList ++ attached note) =
      x ++ '\n' :: ([] ++ '\n' :: attached note) := rfl
  rw [hsplit, infix_append_cons_iff hnewline, infix_append_cons_iff hnewline] at happended
  rcases happended with happended | happended | happended
  · exact hx happended
  · exact hne (List.infix_nil.mp happended)
  · exact not_infix_attached hunderscore hne h happended

theorem finalText_of_blank {body : Text} (h : Text.isBlank body = true) (note : Text) :
    ReplyText.finalText body (some note) = attached note := by
  rw [ReplyText.finalText, if_pos h]
  rfl

theorem finalText_of_not_blank {body : Text} (h : Text.isBlank body = false) (note : Text) :
    ReplyText.finalText body (some note) = body ++ ("\n\n".toList ++ attached note) := by
  rw [ReplyText.finalText, if_neg (Bool.eq_false_iff.mp h), attached]
  simp only [List.append_assoc]
  rfl

theorem not_cutOff_of_blank {body note : Text} (h : Text.isBlank body = true) :
    ¬ CutOff body note := by
  intro hcut
  rcases hcut with ⟨pre, rest, rfl, _⟩
  have hmem : '<' ∈ pre ++ OPEN ++ rest :=
    List.mem_append_left _ (List.mem_append_right _ List.mem_cons_self)
  exact absurd (List.all_eq_true.mp h '<' hmem) (by decide)

/-- The note is shown at the end of the answer, unless the reply was cut off inside
its think block. -/
theorem shows_finalText_iff {body note : Text} (hnote : Unmarked note) :
    Shows (ReplyText.finalText body (some note)) note <-> ¬ CutOff body note := by
  have hopen {x : Text} (hx : ¬ OPEN <:+: x) :
      ¬ OPEN <:+: x ++ ("\n\n".toList ++ attached note) :=
    not_infix_append_note (by decide) (by decide) (by decide) hx hnote.opens
  have hclose {x : Text} (hx : ¬ CLOSE <:+: x) :
      ¬ CLOSE <:+: x ++ ("\n\n".toList ++ attached note) :=
    not_infix_append_note (by decide) (by decide) (by decide) hx hnote.closes
  by_cases hblank : Text.isBlank body = true
  · rw [finalText_of_blank hblank, Shows, parse_plain
      (not_infix_attached (by decide) (by decide) hnote.opens)]
    exact iff_of_true (List.suffix_refl _) (not_cutOff_of_blank hblank)
  · rw [finalText_of_not_blank (Bool.eq_false_iff.mpr hblank)]
    constructor
    · intro h hcut
      rcases hcut with ⟨pre, rest, rfl, hpre, hrest, hends⟩
      rw [Shows, List.append_assoc, parse_unclosed hpre (hclose hrest)] at h
      exact hends (suffix_trim_iff.mp h)
    · intro h
      by_cases hbody : OPEN <:+: body
      · rcases exists_first (by decide) hbody with ⟨pre, rest, rfl, hpre⟩
        by_cases hrest : CLOSE <:+: rest
        · rcases exists_first (by decide) hrest with ⟨thinking, later, rfl, hthinking⟩
          rw [Shows, List.append_assoc (pre ++ OPEN), List.append_assoc (thinking ++ CLOSE),
            parse_closed hpre hthinking, suffix_trim_iff]
          refine ⟨pre ++ (later ++ "\n\n".toList), [], ?_, rfl⟩
          simp only [List.append_assoc, List.append_nil]
        · rw [Shows, List.append_assoc, parse_unclosed hpre (hclose hrest)]
          by_contra hends
          exact h ⟨pre, rest, rfl, hpre, hrest, fun hlike => hends (suffix_trim_iff.mpr hlike)⟩
      · rw [Shows, parse_plain (hopen hbody), <- List.append_assoc]
        exact List.suffix_append _ _

end ReasoningSplit
end DomainAI
