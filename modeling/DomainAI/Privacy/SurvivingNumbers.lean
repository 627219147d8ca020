import DomainAI.Privacy.RedactedSegments

/-!
# Numbers that survive

The phone rule runs last, and what it matches is gone from the redacted text.  A
social security number that no word character follows has an end that it matches, and
so is a card number that stands alone.
-/

namespace DomainAI
namespace PiiRedactor

open Library

/-!
# Words of the patterns
-/

section Words

variable {k : CharClasses}

theorem digits_words {least extra : Nat} {w : Text}
    (hdigits : forall c, c ∈ w -> k.isDigit c = true) (hleast : least ≤ w.length)
    (hmost : w.length ≤ least + extra) : (k.digits least extra).Words w := by
  refine ⟨w.map fun c => [c], ?_, by simpa using hleast, by simpa using hmost, ?_⟩
  · clear hdigits hleast hmost
    induction w with
    | nil => rfl
    | cons c w ih => exact congrArg (List.cons c) ih
  · intro u hu
    rcases List.mem_map.mp hu with ⟨c, hc, rfl⟩
    exact ⟨c, hdigits c hc, rfl⟩

theorem phoneGroup_words {w separator : Text}
    (hdigits : forall c, c ∈ w -> k.isDigit c = true) (hleast : 2 ≤ w.length)
    (hmost : w.length ≤ 4) (hseparator : phoneSeparator.Words separator) :
    k.phoneGroup.Words (w ++ separator) :=
  ⟨[], w ++ separator, rfl, Or.inr rfl, w, separator, rfl,
    digits_words hdigits hleast hmost, [], separator, rfl, Or.inr rfl, hseparator⟩

theorem phoneCore_words {groups : List Text} {last : Text}
    (hgroups : forall u, u ∈ groups -> k.phoneGroup.Words u) (hleast : 2 ≤ groups.length)
    (hmost : groups.length ≤ 4) (hlast : (k.digits 2 2).Words last) :
    k.phoneCore.Words (groups.flatten ++ last) :=
  ⟨[], groups.flatten ++ last, rfl, Or.inr rfl, groups.flatten, last, rfl,
    ⟨groups, rfl, hleast, hmost, hgroups⟩, hlast⟩

theorem exists_groups (w : List alpha) (count : Nat) (hleast : 2 * count ≤ w.length)
    (hmost : w.length ≤ 4 * count) :
    exists groups : List (List alpha), w = groups.flatten ∧ groups.length = count ∧
      forall u, u ∈ groups -> 2 ≤ u.length ∧ u.length ≤ 4 := by
  induction count generalizing w with
  | zero =>
      have hnil : w = [] := List.length_eq_zero_iff.mp (by omega)
      subst hnil
      exact ⟨[], rfl, rfl, by simp⟩
  | succ count ih =>
      rcases ih (w.drop (max 2 (w.length - 4 * count)))
          (by rw [List.length_drop]; omega) (by rw [List.length_drop]; omega) with
        ⟨groups, hgroups, hcount, hall⟩
      refine ⟨w.take (max 2 (w.length - 4 * count)) :: groups, ?_, by simp [hcount], ?_⟩
      · rw [List.flatten_cons, <- hgroups, List.take_append_drop]
      · intro u hu
        rcases List.mem_cons.mp hu with rfl | hu
        · rw [List.length_take]
          omega
        · exact hall u hu

theorem phoneCore_run {w : Text} (hdigits : forall c, c ∈ w -> k.isDigit c = true)
    (hleast : 11 ≤ w.length) (hmost : w.length ≤ 18) : k.phoneCore.Words w := by
  rcases exists_groups (w.take (w.length - 3)) 4 (by rw [List.length_take]; omega)
      (by rw [List.length_take]; omega) with ⟨groups, hgroups, hcount, hall⟩
  have hword : k.phoneCore.Words (groups.flatten ++ w.drop (w.length - 3)) := by
    refine phoneCore_words ?_ (by omega) (by omega) (digits_words ?_ ?_ ?_)
    · intro u hu
      have hmem : forall c, c ∈ u -> c ∈ w := by
        intro c hc
        apply List.mem_of_mem_take (i := w.length - 3)
        rw [hgroups]
        exact List.mem_flatten.mpr ⟨u, hu, hc⟩
      rw [<- List.append_nil u]
      exact phoneGroup_words (fun c hc => hdigits c (hmem c hc)) (hall u hu).left
        (hall u hu).right (Or.inr rfl)
    · intro c hc
      exact hdigits c (List.mem_of_mem_drop hc)
    · rw [List.length_drop]
      omega
    · rw [List.length_drop]
      omega
  rw [<- hgroups, List.take_append_drop] at hword
  exact hword

theorem words_digits {least extra : Nat} {w : Text} (h : (k.digits least extra).Words w) :
    (forall c, c ∈ w -> k.isDigit c = true) ∧ least ≤ w.length ∧
      w.length ≤ least + extra := by
  rcases h with ⟨pieces, rfl, hleast, hmost, hall⟩
  have hlength : pieces.flatten.length = pieces.length := by
    clear hleast hmost
    induction pieces with
    | nil => rfl
    | cons u pieces ih =>
        rcases hall u List.mem_cons_self with ⟨c, _, rfl⟩
        have hrest := ih fun v hv => hall v (List.mem_cons_of_mem _ hv)
        simp [hrest]
  refine ⟨?_, by omega, by omega⟩
  intro c hc
  rcases List.mem_flatten.mp hc with ⟨u, hu, hcu⟩
  rcases hall u hu with ⟨d, hd, rfl⟩
  rw [List.mem_singleton.mp hcu]
  exact hd

theorem ssnCore_tail {w : Text} (h : k.ssnCore.Words w) :
    exists area tail : Text, w = area ++ '-' :: tail ∧ k.phoneCore.Words tail ∧
      exists first middle last, tail = first :: (middle ++ [last]) ∧
        k.isDigit first = true ∧ k.isDigit last = true := by
  rcases h with ⟨area, _, rfl, _, _, _, rfl, ⟨c, hc, rfl⟩, group, _, rfl, hgroup, _, serial,
    rfl, ⟨d, hd, rfl⟩, hserial⟩
  have hc : c = '-' := by simpa [isChar] using hc
  have hd : d = '-' := by simpa [isChar] using hd
  subst hc hd
  rcases words_digits hgroup with ⟨hgroup, hgroupLeast, hgroupMost⟩
  rcases words_digits hserial with ⟨hserial, hserialLeast, hserialMost⟩
  refine ⟨area, group ++ '-' :: serial, rfl, ?_, ?_⟩
  · have htail : group ++ '-' :: serial =
        [group ++ ['-'], serial.take 2].flatten ++ serial.drop 2 := by
      simp [List.take_append_drop]
    rw [htail]
    refine phoneCore_words ?_ (by simp) (by simp) (digits_words ?_ ?_ ?_)
    · intro u hu
      simp only [List.mem_cons, List.not_mem_nil, or_false] at hu
      rcases hu with rfl | rfl
      · exact phoneGroup_words hgroup (by omega) (by omega)
          (Or.inl ⟨'-', by decide, rfl⟩)
      · rw [<- List.append_nil (serial.take 2)]
        exact phoneGroup_words (fun e he => hserial e (List.mem_of_mem_take he))
          (by rw [List.length_take]; omega) (by rw [List.length_take]; omega) (Or.inr rfl)
    · intro e he
      exact hserial e (List.mem_of_mem_drop he)
    · rw [List.length_drop]
      omega
    · rw [List.length_drop]
      omega
  · cases group with
    | nil => cases hgroupLeast
    | cons first group =>
        rcases List.eq_nil_or_concat serial with rfl | ⟨middle, last, rfl⟩
        · cases hserialLeast
        · rw [List.concat_eq_append] at hserial ⊢
          exact ⟨first, group ++ '-' :: middle, last, by simp,
            hgroup first List.mem_cons_self, hserial last (by simp)⟩

end Words

/-!
# The last pass
-/

section LastPass

variable {k : CharClasses}

theorem not_isWord_bracket : k.isWord '[' = false ∧ k.isWord ']' = false := by
  constructor
  · rw [k.word_ascii _ (by decide)]
    decide
  · rw [k.word_ascii _ (by decide)]
    decide

theorem phone_ends {cur stop : Cursor Char} :
    stop ∈ k.phoneRule.regex.ends cur <->
      cur.before.head?.any k.isWord = false ∧ stop.after.head?.any k.isWord = false ∧
        exists w, k.phoneCore.Words w ∧ cur.after = w ++ stop.after ∧
          stop.before = w.reverse ++ cur.before := by
  have hplain : k.phoneCore.Plain = true := rfl
  rw [CharClasses.phoneRule, Regex.mem_framed_ends hplain]
  simp only [CharClasses.notAfterWord, CharClasses.notBeforeWord, Bool.not_eq_true']

theorem phone_consumes (cur : Cursor Char) : cur ∉ k.phoneRule.regex.ends cur := by
  intro h
  rcases phone_ends.mp h with ⟨_, _, w, hw, hafter, _⟩
  exact Regex.words_ne_nil (r := k.phoneCore) rfl hw (List.self_eq_append_left.mp hafter)

theorem phone_hit {text w : Text} {ps qs : List (Piece Char)}
    (h : k.phoneRule.regex.pieces text = ps ++ Piece.hit w :: qs) :
    (sourceText ps).getLast?.any k.isWord = false ∧
      (sourceText qs).head?.any k.isWord = false := by
  rcases phone_ends.mp (pieces_hit h).right with ⟨hbefore, hafter, _⟩
  rw [List.head?_reverse] at hbefore
  exact ⟨hbefore, hafter⟩

/-- The character before a word that was not matched is of the same kind before the
pass as after it. -/
theorem previous_of_phone {qs rs : List (Piece Char)} {w text : Text} {first : Char}
    (hpieces : k.phoneRule.regex.pieces text =
      qs ++ ((first :: w).map Piece.keep ++ rs))
    (hfirst : k.isDigit first = true)
    (h : (renderText k.phoneRule.placeholder qs).getLast?.any k.isWord = false) :
    (sourceText qs).getLast?.any k.isWord = false := by
  rcases List.eq_nil_or_concat qs with rfl | ⟨qs, p, rfl⟩
  · rfl
  · rw [List.concat_eq_append] at hpieces h ⊢
    cases p with
    | keep c => simpa [Piece.source, Piece.render] using h
    | hit u =>
        -- A phone number would end in front of a digit.
        exfalso
        rw [List.append_assoc] at hpieces
        have hnext := (phone_hit hpieces).right
        simp [Piece.source, k.word_of_digit first hfirst] at hnext

theorem next_of_phone {qs rs : List (Piece Char)} {w text : Text} {last : Char}
    (hpieces : k.phoneRule.regex.pieces text =
      qs ++ ((w ++ [last]).map Piece.keep ++ rs))
    (hlast : k.isDigit last = true)
    (h : (renderText k.phoneRule.placeholder rs).head?.any k.isWord = false) :
    (sourceText rs).head?.any k.isWord = false := by
  cases rs with
  | nil => rfl
  | cons p rs =>
      cases p with
      | keep c => exact h
      | hit u =>
          exfalso
          rw [<- List.append_assoc] at hpieces
          have hprevious := (phone_hit hpieces).left
          rw [sourceText_append, sourceText_keeps, <- List.append_assoc,
            List.getLast?_concat] at hprevious
          rw [Option.any_some, k.word_of_digit last hlast] at hprevious
          cases hprevious

theorem no_phone_left {text before after middle : Text} {first last : Char}
    (hword : k.phoneCore.Words (first :: (middle ++ [last])))
    (hfirst : k.isDigit first = true) (hlast : k.isDigit last = true)
    (hbefore : before.getLast?.any k.isWord = false)
    (hafter : after.head?.any k.isWord = false) :
    k.phoneRule.regex.replaceAll k.phoneRule.placeholder text ≠
      before ++ (first :: (middle ++ [last])) ++ after := by
  intro h
  have hplaceholder : IsPlaceholder k.phoneRule.placeholder :=
    placeholder_of_mem (k := k) (by simp [CharClasses.rules])
  have hfree : forall c, c ∈ first :: (middle ++ [last]) ->
      c ∉ k.phoneRule.placeholder ∧ c ≠ '[' := by
    intro c hc
    have hnumeral := phoneCore_isNumeral (Regex.words_letters hword c hc)
    exact ⟨not_mem_of_isNumeral hnumeral hplaceholder,
      (not_letter_of_isNumeral hnumeral).right.left⟩
  rcases hplaceholder with ⟨inner, hinner, _⟩
  rw [hinner] at h hfree
  rcases renderText_split (u := []) (v := middle ++ [last]) (a := first)
      (hfree first List.mem_cons_self).left List.not_mem_nil
      (fun hmem => (hfree '[' (List.mem_cons_of_mem _ hmem)).right rfl) h with
    ⟨qs, rs, hpieces, hqs, hrs⟩
  rw [<- hinner] at hqs hrs
  have hprevious := previous_of_phone hpieces hfirst (by rw [hqs]; exact hbefore)
  have hnext := next_of_phone (w := first :: middle) hpieces hlast (by rw [hrs]; exact hafter)
  have hnone : k.phoneRule.regex.ends
      { before := (sourceText qs).reverse,
        after := first :: sourceText ((middle ++ [last]).map Piece.keep ++ rs) } = [] :=
    pieces_keep phone_consumes hpieces
  have hstop : { before := (first :: (middle ++ [last])).reverse ++ (sourceText qs).reverse,
                 after := sourceText rs } ∈ k.phoneRule.regex.ends
      { before := (sourceText qs).reverse,
        after := first :: sourceText ((middle ++ [last]).map Piece.keep ++ rs) } := by
    refine phone_ends.mpr ⟨?_, hnext, _, hword, ?_, rfl⟩
    · rw [List.head?_reverse]
      exact hprevious
    · rw [sourceText_append, sourceText_keeps]
      rfl
  rw [hnone] at hstop
  cases hstop

end LastPass

/-!
# Words of which every character is kept
-/

def Survives (ss : List (Segment Rule Char)) (before w : Text) : Prop :=
  exists front back, ss = front ++ (w.map Segment.kept ++ back) ∧ original front = before

section Survivors

variable {k : CharClasses}

theorem previous_of_kept {front : List (Segment Rule Char)}
    (hplaceholder : forall m u, Segment.cut m u ∈ front -> IsPlaceholder m.placeholder)
    (h : (original front).getLast?.any k.isWord = false) :
    (rewritten Rule.placeholder front).getLast?.any k.isWord = false := by
  rcases List.eq_nil_or_concat front with rfl | ⟨front, s, rfl⟩
  · rfl
  · rw [List.concat_eq_append] at hplaceholder h ⊢
    rw [rewritten_append]
    cases s with
    | kept c => simpa [Segment.source, Segment.render] using h
    | cut m u =>
        have hlast := getLast?_placeholder (hplaceholder m u (by simp))
          (rewritten Rule.placeholder front)
        simp only [rewritten_cons, Segment.render, rewritten_nil, List.append_nil]
        rw [hlast, Option.any_some]
        exact not_isWord_bracket.right

theorem next_of_kept {back : List (Segment Rule Char)}
    (hplaceholder : forall m u, Segment.cut m u ∈ back -> IsPlaceholder m.placeholder)
    (h : (original back).head?.any k.isWord = false) :
    (rewritten Rule.placeholder back).head?.any k.isWord = false := by
  cases back with
  | nil => rfl
  | cons s back =>
      cases s with
      | kept c => exact h
      | cut m u =>
          rcases hplaceholder m u List.mem_cons_self with ⟨inner, hinner, _⟩
          rw [rewritten_cons, Segment.render, hinner, List.cons_append, List.head?_cons,
            Option.any_some]
          exact not_isWord_bracket.left

theorem redactedText_eq (k : CharClasses) (input : Text) :
    exists text, (k.redact input).redactedText =
      k.phoneRule.regex.replaceAll k.phoneRule.placeholder text :=
  ⟨_, rfl⟩

theorem Survives.redactedText {ss : List (Segment Rule Char)} {before w after : Text}
    (h : Survives ss before w)
    (hss : Accounted k.rules (before ++ w ++ after) ss (k.redact (before ++ w ++ after))) :
    exists left right,
      (k.redact (before ++ w ++ after)).redactedText = left ++ w ++ right ∧
      (before.getLast?.any k.isWord = false -> left.getLast?.any k.isWord = false) ∧
      (after.head?.any k.isWord = false -> right.head?.any k.isWord = false) := by
  rcases h with ⟨front, back, rfl, rfl⟩
  have hplaceholder : forall m u,
      Segment.cut m u ∈ front ++ (w.map Segment.kept ++ back) ->
        IsPlaceholder m.placeholder :=
    fun m u hmem => placeholder_of_mem (hss.cuts m u hmem).left
  have hafter : original back = after := by
    have hinput := hss.original
    rw [original_append, original_append, original_kept, <- List.append_assoc] at hinput
    exact List.append_cancel_left hinput
  refine ⟨rewritten Rule.placeholder front, rewritten Rule.placeholder back, ?_, ?_, ?_⟩
  · rw [<- hss.rewritten, rewritten_append, rewritten_append, rewritten_kept,
      List.append_assoc]
  · exact previous_of_kept fun m u hmem => hplaceholder m u (by simp [hmem])
  · intro hnext
    rw [<- hafter] at hnext
    exact next_of_kept (fun m u hmem => hplaceholder m u (by simp [hmem])) hnext

/-- A social security number that no word character follows, or thirteen to sixteen
digits with no word character before or after them. -/
def CharClasses.StandsClear (k : CharClasses) (before w after : Text) : Prop :=
  after.head?.any k.isWord = false ∧
    (k.ssnCore.Words w ∨
      before.getLast?.any k.isWord = false ∧ 13 ≤ w.length ∧ w.length ≤ 16 ∧
        forall c, c ∈ w -> k.isDigit c = true)

theorem not_survives_of_standsClear {before w after : Text}
    {ss : List (Segment Rule Char)} (h : k.StandsClear before w after)
    (hss : Accounted k.rules (before ++ w ++ after) ss (k.redact (before ++ w ++ after))) :
    ¬ Survives ss before w := by
  intro hsurvives
  rcases hsurvives.redactedText hss with ⟨left, right, htext, hleft, hright⟩
  rcases redactedText_eq k (before ++ w ++ after) with ⟨last, hlast⟩
  rw [hlast] at htext
  rcases h with ⟨hafter, hssn | ⟨hbefore, hleast, hmost, hdigits⟩⟩
  · rcases ssnCore_tail hssn with
      ⟨area, _, rfl, hword, first, middle, final, rfl, hfirst, hfinal⟩
    have hdash : (left ++ area ++ ['-']).getLast?.any k.isWord = false := by
      rw [List.getLast?_concat, Option.any_some, k.word_ascii _ (by decide)]
      decide
    apply no_phone_left hword hfirst hfinal hdash (hright hafter)
    rw [htext]
    simp
  · have hword := phoneCore_run hdigits (by omega) (by omega)
    cases w with
    | nil => cases hleast
    | cons first w =>
        rcases List.eq_nil_or_concat w with rfl | ⟨middle, final, rfl⟩
        · exact absurd hleast (by simp)
        · rw [List.concat_eq_append] at hword hdigits htext
          exact no_phone_left hword (hdigits first List.mem_cons_self)
            (hdigits final (by simp)) (hleft hbefore) (hright hafter) htext

end Survivors

/-- Whatever else surrounds it, no such number survives a redaction. -/
theorem numbers_removed (k : CharClasses) {before w after : Text}
    (h : k.StandsClear before w after) :
    ¬ Survives (segments k.rules (before ++ w ++ after)) before w :=
  not_survives_of_standsClear h (accounted_redact k _)

theorem survives_of_cuts_nil {before w after : Text}
    (h : (cuts (segments ascii.rules (before ++ w ++ after))).isEmpty = true) :
    Survives (segments ascii.rules (before ++ w ++ after)) before w := by
  have hkept := eq_kept_of_cuts (List.isEmpty_iff.mp h)
  rw [(accounted_redact ascii (before ++ w ++ after)).original] at hkept
  refine ⟨before.map Segment.kept, after.map Segment.kept, ?_,
    original_kept before⟩
  rw [hkept, List.map_append, List.map_append, List.append_assoc]

theorem numbers_removed_card :
    ¬ Survives (segments ascii.rules "no 4111111111111111, thanks".toList) "no ".toList
      "4111111111111111".toList :=
  @numbers_removed ascii "no ".toList "4111111111111111".toList ", thanks".toList
    ⟨by decide, Or.inr ⟨by decide, by decide, by decide, List.all_eq_true.mp rfl⟩⟩

/-- A word character next to a number keeps it from being matched. -/
theorem numbers_removed_fails :
    (exists before w after, ascii.ssnCore.Words w ∧
      before.getLast?.any isDigit = false ∧ after.head?.any isDigit = false ∧
      Survives (segments ascii.rules (before ++ w ++ after)) before w) ∧
    (exists before w after, (13 ≤ w.length ∧ w.length ≤ 16 ∧
        forall c, c ∈ w -> isDigit c = true) ∧
      before.getLast?.any isDigit = false ∧ after.head?.any isDigit = false ∧
      Survives (segments ascii.rules (before ++ w ++ after)) before w) := by
  constructor
  · refine ⟨[], "123-45-6789".toList, "x".toList, ?_, by decide, by decide,
      survives_of_cuts_nil (by decide +kernel)⟩
    exact ⟨"123".toList, _, rfl, digits_words (List.all_eq_true.mp rfl) (by decide) (by decide),
      ['-'], _, rfl, ⟨'-', rfl, rfl⟩,
      "45".toList, _, rfl, digits_words (List.all_eq_true.mp rfl) (by decide) (by decide),
      ['-'], "6789".toList, rfl, ⟨'-', rfl, rfl⟩,
      digits_words (List.all_eq_true.mp rfl) (by decide) (by decide)⟩
  · exact ⟨"x".toList, "4111111111111111".toList, [],
      ⟨by decide, by decide, List.all_eq_true.mp rfl⟩, by decide, by decide,
      survives_of_cuts_nil (by decide +kernel)⟩

end PiiRedactor
end DomainAI
