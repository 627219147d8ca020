import DomainAI.Privacy.PiiRedactor

/-!
# Redaction is stable

Once a rule has run, nothing it matches is left, and no later pass brings a
match back.  Every numeric rule cuts at word boundaries: what stands next to a
hit looks the same to the other rules whether they see the hit or the brackets
of its placeholder.  The email rule has no assertions at all, so its matches
only depend on the characters they read.
-/

namespace DomainAI
namespace PiiRedactor

open Library

/-!
# Placeholders
-/

def IsPlaceholder (t : Text) : Prop :=
  exists inner : Text, t = '[' :: (inner ++ [']']) ∧
    forall c, c ∈ inner -> isLetter c = true

theorem rules_placeholder {rule : Rule} (h : rule ∈ rules) :
    IsPlaceholder rule.placeholder := by
  simp only [rules, List.mem_cons, List.not_mem_nil, or_false] at h
  rcases h with rfl | rfl | rfl | rfl | rfl
  · exact ⟨"EMAIL".toList, rfl, List.all_eq_true.mp rfl⟩
  · exact ⟨"SSN".toList, rfl, List.all_eq_true.mp rfl⟩
  · exact ⟨"CARD".toList, rfl, List.all_eq_true.mp rfl⟩
  · exact ⟨"IP".toList, rfl, List.all_eq_true.mp rfl⟩
  · exact ⟨"PHONE".toList, rfl, List.all_eq_true.mp rfl⟩

theorem not_mem_placeholder {t : Text} (h : IsPlaceholder t) {c : Char}
    (hletter : isLetter c = false) (hopen : c ≠ '[') (hclose : c ≠ ']') :
    c ∉ t := by
  rcases h with ⟨inner, rfl, hinner⟩
  intro hc
  simp only [List.mem_cons, List.mem_append, List.not_mem_nil, or_false] at hc
  rcases hc with hc | hc | hc
  · exact hopen hc
  · rw [hinner c hc] at hletter
    cases hletter
  · exact hclose hc

theorem getLast?_placeholder {t : Text} (h : IsPlaceholder t) (before : Text) :
    (before ++ t).getLast? = some ']' := by
  rcases h with ⟨inner, rfl, _⟩
  rw [← List.cons_append, ← List.append_assoc, List.getLast?_concat]

/-!
# Numeric rules

The four rules other than the email rule read digits and separators between two
assertions.  On the letters such a pattern can begin and end with, both kinds of
assertion come down to one condition: a nonword character stands before it, and
its last letter and the next character are not of the same kind.
-/

def ReadsAt (core : Regex Char) (previous : Option Char) (w : Text)
    (next : Option Char) : Prop :=
  core.Words w ∧ isWordAt previous = false ∧
    exists last, w.getLast? = some last ∧ isWord last ≠ isWordAt next

structure Numeric (opening closing : Option Char -> Option Char -> Bool)
    (core : Regex Char) : Prop where
  plain : core.Plain = true
  nonempty : core.nullable = false
  letters : forall c, core.letters c = true ->
    isLetter c = false ∧ c ≠ '[' ∧ c ≠ ']'
  opens : forall previous c, core.firsts c = true ->
    (opening previous (some c) = true <-> isWordAt previous = false)
  closes : forall c next, core.lasts c = true ->
    (closing (some c) next = true <-> isWord c ≠ isWordAt next)
  /-- A leading sign or parenthesis is never needed. -/
  drop : forall c w, core.Words (c :: w) -> isWord c = false -> core.Words w

section NumericMatches

variable {opening closing : Option Char -> Option Char -> Bool}
  {core : Regex Char}

theorem exists_getLast?_of_ne_nil {w : Text} (h : w ≠ []) :
    exists last init, w = init ++ [last] ∧ w.getLast? = some last := by
  rcases List.eq_nil_or_concat w with rfl | ⟨init, last, rfl⟩
  · exact absurd rfl h
  · rw [List.concat_eq_append]
    exact ⟨last, init, rfl, List.getLast?_concat⟩

theorem mem_numeric_ends (hcore : Numeric opening closing core)
    (cur stop : Cursor Char) :
    stop ∈ (Regex.framed opening closing core).ends cur <->
      exists w, ReadsAt core cur.before.head? w stop.after.head? ∧
        cur.after = w ++ stop.after ∧
        stop.before = w.reverse ++ cur.before := by
  rw [Regex.mem_framed_ends hcore.plain]
  constructor
  · intro h
    rcases h with ⟨hopen, hclose, w, hw, hafter, hbefore⟩
    have hne := Regex.words_ne_nil hcore.nonempty hw
    rcases exists_getLast?_of_ne_nil hne with ⟨last, init, hinit, hlast⟩
    refine ⟨w, ⟨hw, ?_, last, hlast, ?_⟩, hafter, hbefore⟩
    · cases w with
      | nil => exact absurd rfl hne
      | cons c w =>
          rw [hafter] at hopen
          exact (hcore.opens _ c (Regex.words_firsts hw)).mp hopen
    · rw [hbefore, hinit] at hclose
      simp only [List.reverse_append, List.reverse_singleton,
        List.cons_append, List.head?_cons] at hclose
      rw [hinit] at hw
      exact (hcore.closes last _ (Regex.words_lasts hw)).mp hclose
  · intro h
    rcases h with ⟨w, ⟨hw, hprevious, last, hlast, hnext⟩, hafter, hbefore⟩
    have hne := Regex.words_ne_nil hcore.nonempty hw
    refine ⟨?_, ?_, w, hw, hafter, hbefore⟩
    · cases w with
      | nil => exact absurd rfl hne
      | cons c w =>
          rw [hafter]
          exact (hcore.opens _ c (Regex.words_firsts hw)).mpr hprevious
    · rcases exists_getLast?_of_ne_nil hne with ⟨last', init, hinit, hlast'⟩
      have hsame : last = last' := by
        rw [hlast] at hlast'
        exact Option.some.inj hlast'
      subst hsame
      rw [hbefore, hinit]
      simp only [List.reverse_append, List.reverse_singleton,
        List.cons_append, List.head?_cons]
      rw [hinit] at hw
      exact (hcore.closes last _ (Regex.words_lasts hw)).mpr hnext

theorem numeric_consumes (hcore : Numeric opening closing core)
    (cur : Cursor Char) :
    cur ∉ (Regex.framed opening closing core).ends cur := by
  intro h
  rcases (mem_numeric_ends hcore cur cur).mp h with ⟨w, hw, hafter, _⟩
  exact Regex.words_ne_nil hcore.nonempty hw.left (List.self_eq_append_left.mp hafter)

end NumericMatches

/-!
# Clean cuts
-/

/--
Every hit follows a nonword character, and a hit that ends with a word
character is followed by a nonword one.
-/
def CleanCuts (ps : List (Piece Char)) : Prop :=
  forall qs w rs, ps = qs ++ Piece.hit w :: rs ->
    isWordAt (sourceText qs).getLast? = false ∧
      exists last, w.getLast? = some last ∧
        isWord last ≠ isWordAt (sourceText rs).head?

theorem numeric_cleanCuts {opening closing : Option Char -> Option Char -> Bool}
    {core : Regex Char} (hcore : Numeric opening closing core) (text : Text) :
    CleanCuts ((Regex.framed opening closing core).pieces text) := by
  intro qs w rs hsplit
  rcases pieces_hit hsplit with ⟨_, hmem⟩
  rcases (mem_numeric_ends hcore _ _).mp hmem with
    ⟨u, ⟨_, hprevious, hlast⟩, hafter, _⟩
  simp only at hafter
  have huw : w = u := List.append_cancel_right hafter
  subst huw
  rw [List.head?_reverse] at hprevious
  exact ⟨hprevious, hlast⟩

def MatchesAtKept (r : Regex Char) (ps : List (Piece Char)) : Prop :=
  exists qs c rs stop, ps = qs ++ Piece.keep c :: rs ∧
    stop ∈ r.ends { before := (sourceText qs).reverse,
                    after := c :: sourceText rs }

theorem matchesAtKept_intro {r : Regex Char} {qs rs : List (Piece Char)}
    {w : Text} (hw : w ≠ [])
    (hstop : { before := w.reverse ++ (sourceText qs).reverse,
               after := sourceText rs } ∈
      r.ends { before := (sourceText qs).reverse, after := w ++ sourceText rs }) :
    MatchesAtKept r (qs ++ (w.map Piece.keep ++ rs)) := by
  cases w with
  | nil => exact absurd rfl hw
  | cons c w =>
      have hkept : sourceText (w.map Piece.keep ++ rs) = w ++ sourceText rs := by
        rw [sourceText_append, sourceText_keeps]
      refine ⟨qs, c, w.map Piece.keep ++ rs,
        { before := (c :: w).reverse ++ (sourceText qs).reverse,
          after := sourceText rs }, rfl, ?_⟩
      rw [hkept]
      exact hstop

/--
The character before an occurrence in the rewritten text is a nonword character;
so is the one before it in the scanned text, possibly after leaving out a
nonword first letter.
-/
theorem previous_of_rewritten {placeholder : Text} {qs rs : List (Piece Char)}
    {w : Text} (hcuts : CleanCuts (qs ++ (w.map Piece.keep ++ rs)))
    (hw : w ≠ [])
    (hprevious : isWordAt (renderText placeholder qs).getLast? = false) :
    isWordAt (sourceText qs).getLast? = false ∨
      exists c v, w = c :: v ∧ isWord c = false := by
  rcases List.eq_nil_or_concat qs with rfl | ⟨qs', p, rfl⟩
  · exact Or.inl rfl
  · rw [List.concat_eq_append] at hcuts hprevious ⊢
    cases p with
    | keep c =>
        left
        simpa [Piece.source, Piece.render] using hprevious
    | hit h =>
        have hhit := hcuts qs' h (w.map Piece.keep ++ rs) (by simp)
        rcases hhit with ⟨_, last, hlast, hnext⟩
        cases w with
        | nil => exact absurd rfl hw
        | cons c v =>
            simp only [List.map_cons, List.cons_append, sourceText_cons,
              Piece.source, List.nil_append, List.head?_cons,
              isWordAt] at hnext
            cases hword : isWord c with
            | false => exact Or.inr ⟨c, v, rfl, hword⟩
            | true =>
                left
                rw [hword] at hnext
                have hfalse : isWord last = false := by
                  cases hl : isWord last with
                  | false => rfl
                  | true => exact absurd hl hnext
                have hget : (sourceText (qs' ++ [Piece.hit h])).getLast? =
                    some last := by
                  simp [Piece.source, List.getLast?_append, hlast]
                rw [hget]
                exact hfalse

theorem next_of_rewritten {placeholder : Text} (hplaceholder : IsPlaceholder placeholder)
    {qs rs : List (Piece Char)} {w : Text} {last : Char}
    (hcuts : CleanCuts (qs ++ (w.map Piece.keep ++ rs)))
    (hlast : w.getLast? = some last)
    (hnext : isWord last ≠ isWordAt (renderText placeholder rs).head?) :
    isWord last ≠ isWordAt (sourceText rs).head? := by
  cases rs with
  | nil => exact hnext
  | cons p rs =>
      cases p with
      | keep c => exact hnext
      | hit h =>
          -- The next hit starts after a nonword character, but the bracket of
          -- its placeholder asks for a word character before it.
          exfalso
          have hhit := hcuts (qs ++ w.map Piece.keep) h rs (by simp)
          rcases hhit with ⟨hbefore, _⟩
          rw [sourceText_append, sourceText_keeps, List.getLast?_append,
            hlast] at hbefore
          rcases hplaceholder with ⟨inner, rfl, _⟩
          apply hnext
          rw [show isWord last = false by simpa [isWordAt] using hbefore]
          rfl

theorem numeric_match_of_rewritten
    {opening closing : Option Char -> Option Char -> Bool} {core : Regex Char}
    (hcore : Numeric opening closing core) {placeholder : Text}
    (hplaceholder : IsPlaceholder placeholder) {ps : List (Piece Char)}
    (hcuts : CleanCuts ps) {cur stop : Cursor Char}
    (htext : cur.text = renderText placeholder ps)
    (hstop : stop ∈ (Regex.framed opening closing core).ends cur) :
    MatchesAtKept (Regex.framed opening closing core) ps := by
  rcases (mem_numeric_ends hcore cur stop).mp hstop with
    ⟨w, ⟨hw, hprevious, last, hlast, hnext⟩, hafter, _⟩
  have hne := Regex.words_ne_nil hcore.nonempty hw
  have hfree : forall c, c ∈ w -> c ∉ placeholder := by
    intro c hc
    rcases hcore.letters c (Regex.words_letters hw c hc) with ⟨h1, h2, h3⟩
    exact not_mem_placeholder hplaceholder h1 h2 h3
  have hsplit : exists qs rs, ps = qs ++ (w.map Piece.keep ++ rs) ∧
      renderText placeholder qs = cur.before.reverse ∧
      renderText placeholder rs = stop.after := by
    rcases hplaceholder with ⟨inner, rfl, _⟩
    cases w with
    | nil => exact absurd rfl hne
    | cons c v =>
        refine renderText_split (u := []) (v := v) (a := c)
          (hfree c (List.mem_cons_self ..)) List.not_mem_nil ?_ ?_
        · intro hv
          exact hfree '[' (List.mem_cons_of_mem c hv) (List.mem_cons_self ..)
        · rw [← htext, Cursor.text, hafter]
          simp
  rcases hsplit with ⟨qs, rs, rfl, hqs, hrs⟩
  have hnextSource := next_of_rewritten hplaceholder hcuts hlast
    (by rw [hrs]; exact hnext)
  have hpreviousRendered :
      isWordAt (renderText placeholder qs).getLast? = false := by
    rw [hqs, List.getLast?_reverse]
    exact hprevious
  rcases previous_of_rewritten hcuts hne hpreviousRendered with
    hbefore | ⟨c, v, rfl, hnonword⟩
  · apply matchesAtKept_intro hne
    refine (mem_numeric_ends hcore _ _).mpr
      ⟨w, ⟨hw, ?_, last, hlast, hnextSource⟩, rfl, rfl⟩
    rw [List.head?_reverse]
    exact hbefore
  · have hv := hcore.drop c v hw hnonword
    have hvne := Regex.words_ne_nil hcore.nonempty hv
    have hvlast : v.getLast? = some last := by
      rw [← hlast, List.getLast?_cons]
      rcases exists_getLast?_of_ne_nil hvne with ⟨d, _, _, hd⟩
      rw [hd]
      rfl
    have hmatch : MatchesAtKept (Regex.framed opening closing core)
        ((qs ++ [Piece.keep c]) ++ (v.map Piece.keep ++ rs)) := by
      apply matchesAtKept_intro hvne
      refine (mem_numeric_ends hcore _ _).mpr
        ⟨v, ⟨hv, ?_, last, hvlast, hnextSource⟩, rfl, rfl⟩
      rw [List.head?_reverse]
      simpa [Piece.source, isWordAt] using hnonword
    simpa using hmatch

/-!
# The email rule

An email match holds an at sign, which no placeholder does, and no brackets.
-/

theorem isLocalPart_ne_bracket {c : Char} (h : isLocalPart c = true) :
    c ≠ '[' ∧ c ≠ ']' := by
  constructor <;> (rintro rfl; revert h; decide)

theorem isDomainPart_ne_bracket {c : Char} (h : isDomainPart c = true) :
    c ≠ '[' ∧ c ≠ ']' := by
  constructor <;> (rintro rfl; revert h; decide)

theorem isLetter_ne_bracket {c : Char} (h : isLetter c = true) :
    c ≠ '[' ∧ c ≠ ']' := by
  constructor <;> (rintro rfl; revert h; decide)

theorem emailRegex_split {w : Text} (h : emailRegex.Words w) :
    exists u v, w = u ++ '@' :: v ∧ ']' ∉ u ∧ '[' ∉ v := by
  rcases h with ⟨u, rest, rfl, hu, at_, rest', rfl, ⟨c, hc, rfl⟩,
    domain, rest'', rfl, hdomain, dot, tld, rfl, ⟨d, hd, rfl⟩, htld⟩
  have hat : c = '@' := by simpa [isChar] using hc
  have hdot : d = '.' := by simpa [isChar] using hd
  subst hat hdot
  refine ⟨u, domain ++ (['.'] ++ tld), rfl, ?_, ?_⟩
  · intro hmem
    exact (isLocalPart_ne_bracket (hu.right _ hmem)).right rfl
  · intro hmem
    simp only [List.mem_append, List.mem_singleton] at hmem
    rcases hmem with hmem | hmem | hmem
    · exact (isDomainPart_ne_bracket (hdomain.right _ hmem)).left rfl
    · revert hmem
      decide
    · exact (isLetter_ne_bracket (htld.right _ hmem)).left rfl

theorem email_consumes (cur : Cursor Char) : cur ∉ emailRegex.ends cur := by
  intro h
  rcases (Regex.ends_consumes (r := emailRegex) rfl cur cur).mp h with
    ⟨w, hw, hafter, _⟩
  exact Regex.words_ne_nil (r := emailRegex) rfl hw (List.self_eq_append_left.mp hafter)

theorem email_match_of_rewritten {placeholder : Text}
    (hplaceholder : IsPlaceholder placeholder) {ps : List (Piece Char)}
    {cur stop : Cursor Char} (htext : cur.text = renderText placeholder ps)
    (hstop : stop ∈ emailRegex.ends cur) :
    MatchesAtKept emailRegex ps := by
  rcases (Regex.ends_consumes (r := emailRegex) rfl cur stop).mp hstop with
    ⟨w, hw, hafter, _⟩
  have hat : '@' ∉ placeholder :=
    not_mem_placeholder hplaceholder (by decide) (by decide) (by decide)
  rcases emailRegex_split hw with ⟨u, v, hsplit, hu, hv⟩
  rcases hplaceholder with ⟨inner, rfl, _⟩
  have hrendered : renderText ('[' :: (inner ++ [']'])) ps =
      cur.before.reverse ++ (u ++ '@' :: v) ++ stop.after := by
    rw [← htext, Cursor.text, hafter, hsplit]
    simp
  rcases renderText_split hat hu hv hrendered with ⟨qs, rs, rfl, _, _⟩
  rw [← hsplit]
  apply matchesAtKept_intro (Regex.words_ne_nil (r := emailRegex) rfl hw)
  exact (Regex.ends_consumes (r := emailRegex) rfl _ _).mpr ⟨w, hw, rfl, rfl⟩

/-!
# The four numeric cores
-/

theorem isDigit_facts {c : Char} (h : isDigit c = true) :
    isWord c = true ∧ isLetter c = false ∧ c ≠ '[' ∧ c ≠ ']' := by
  refine ⟨by simp [isWord, h], ?_, ?_, ?_⟩
  · simp only [isDigit, Bool.and_eq_true, decide_eq_true_eq, Char.le_def,
      UInt32.le_iff_toNat_le] at h
    simp only [isLetter, Bool.or_eq_false_iff, Bool.and_eq_false_iff,
      decide_eq_false_iff_not, Char.le_def, UInt32.le_iff_toNat_le]
    have h9 : ('9' : Char).val.toNat = 57 := rfl
    have hA : ('A' : Char).val.toNat = 65 := rfl
    have ha : ('a' : Char).val.toNat = 97 := rfl
    omega
  · intro heq
    subst heq
    revert h
    decide
  · intro heq
    subst heq
    revert h
    decide

theorem opens_wordBoundary {core : Regex Char}
    (h : forall c, core.firsts c = true -> isDigit c = true)
    (previous : Option Char) (c : Char) (hc : core.firsts c = true) :
    wordBoundary previous (some c) = true <-> isWordAt previous = false := by
  have hword := (isDigit_facts (h c hc)).left
  simp [wordBoundary, isWordAt, hword]

theorem closes_wordBoundary (c : Char) (next : Option Char) :
    wordBoundary (some c) next = true <-> isWord c ≠ isWordAt next := by
  simp [wordBoundary, isWordAt]

theorem drop_of_firsts_digit {core : Regex Char}
    (h : forall c, core.firsts c = true -> isDigit c = true)
    (c : Char) (w : Text) (hw : core.Words (c :: w))
    (hc : isWord c = false) : core.Words w := by
  rw [(isDigit_facts (h c (Regex.words_firsts hw))).left] at hc
  cases hc

theorem ssnCore_numeric : Numeric wordBoundary wordBoundary ssnCore where
  plain := rfl
  nonempty := rfl
  letters := by
    intro c hc
    have hcases : isDigit c = true ∨ c = '-' := by
      simp only [ssnCore, digits, Regex.letters, isChar, Bool.or_eq_true,
        beq_iff_eq] at hc
      tauto
    rcases hcases with hdigit | rfl
    · exact (isDigit_facts hdigit).right
    · decide
  opens := opens_wordBoundary (by
    intro c hc
    simpa [ssnCore, digits, Regex.firsts, Regex.nullable] using hc)
  closes := fun c next _ => closes_wordBoundary c next
  drop := drop_of_firsts_digit (by
    intro c hc
    simpa [ssnCore, digits, Regex.firsts, Regex.nullable] using hc)

theorem cardCore_numeric : Numeric wordBoundary wordBoundary cardCore where
  plain := rfl
  nonempty := rfl
  letters := by
    intro c hc
    have hcases : isDigit c = true ∨ c = ' ' ∨ c = '-' := by
      simpa [cardCore, Regex.letters, oneOf] using hc
    rcases hcases with hdigit | rfl | rfl
    · exact (isDigit_facts hdigit).right
    · decide
    · decide
  opens := opens_wordBoundary (by
    intro c hc
    simpa [cardCore, Regex.firsts, Regex.nullable] using hc)
  closes := fun c next _ => closes_wordBoundary c next
  drop := drop_of_firsts_digit (by
    intro c hc
    simpa [cardCore, Regex.firsts, Regex.nullable] using hc)

theorem ipCore_numeric : Numeric wordBoundary wordBoundary ipCore where
  plain := rfl
  nonempty := rfl
  letters := by
    intro c hc
    have hcases : (isDigit c = true ∨ c = '.') ∨ isDigit c = true := by
      simpa [ipCore, digits, Regex.letters, isChar] using hc
    rcases hcases with (hdigit | rfl) | hdigit
    · exact (isDigit_facts hdigit).right
    · decide
    · exact (isDigit_facts hdigit).right
  opens := opens_wordBoundary (by
    intro c hc
    simpa [ipCore, digits, Regex.firsts, Regex.nullable] using hc)
  closes := fun c next _ => closes_wordBoundary c next
  drop := drop_of_firsts_digit (by
    intro c hc
    simpa [ipCore, digits, Regex.firsts, Regex.nullable] using hc)

theorem drop_optional {p : Char -> Bool} {r : Regex Char}
    (hdigit : forall c, r.firsts c = true -> isDigit c = true)
    {c : Char} {w : Text}
    (hw : (Regex.seq (Regex.opt (Regex.chars p)) r).Words (c :: w))
    (hc : isWord c = false) :
    (Regex.seq (Regex.opt (Regex.chars p)) r).Words w := by
  rcases hw with ⟨u, v, huv, ⟨d, hd, rfl⟩ | rfl, hv⟩
  · simp only [List.singleton_append, List.cons.injEq] at huv
    rcases huv with ⟨rfl, rfl⟩
    exact ⟨[], w, rfl, Or.inr rfl, hv⟩
  · simp only [List.nil_append] at huv
    subst huv
    exact absurd hv (fun h => by
      rw [(isDigit_facts (hdigit c (Regex.words_firsts h))).left] at hc
      cases hc)

theorem phoneCore_drop (c : Char) (w : Text) (hw : phoneCore.Words (c :: w))
    (hc : isWord c = false) : phoneCore.Words w := by
  rcases hw with ⟨country, rest, hsplit, hcountry, hrest⟩
  cases country with
  | cons d country =>
      simp only [List.cons_append, List.cons.injEq] at hsplit
      rcases hsplit with ⟨rfl, rfl⟩
      rcases hcountry with hbody | hnil
      · have hdropped := drop_optional (by
          intro e he
          simpa [digits, Regex.firsts, Regex.nullable] using he) hbody hc
        exact ⟨country, rest, rfl, Or.inl hdropped, hrest⟩
      · cases hnil
  | nil =>
      simp only [List.nil_append] at hsplit
      subst hsplit
      rcases hrest with ⟨groups, last, hrest, ⟨pieces, rfl, hleast, hmost, hall⟩,
        hlast⟩
      cases pieces with
      | nil =>
          simp only [List.length_nil] at hleast
          omega
      | cons piece pieces =>
          have hpiece := hall piece (List.mem_cons_self ..)
          cases piece with
          | nil => exact absurd rfl (Regex.words_ne_nil (r := phoneGroup) rfl hpiece)
          | cons d piece =>
              simp only [List.flatten_cons, List.cons_append,
                List.cons.injEq] at hrest
              rcases hrest with ⟨rfl, rfl⟩
              have hdropped := drop_optional (by
                intro e he
                simpa [digits, Regex.firsts, Regex.nullable] using he) hpiece hc
              refine ⟨[], _, rfl, Or.inr rfl, (piece :: pieces).flatten, last,
                rfl, ⟨piece :: pieces, rfl, hleast, hmost, ?_⟩, hlast⟩
              intro x hx
              rcases List.mem_cons.mp hx with rfl | hx
              · exact hdropped
              · exact hall x (List.mem_cons_of_mem _ hx)

theorem phoneCore_numeric : Numeric notAfterWord notBeforeWord phoneCore where
  plain := rfl
  nonempty := rfl
  letters := by
    intro c hc
    have hcases : isDigit c = true ∨
        c ∈ ['+', ' ', '.', '-', '(', ')'] := by
      simp only [phoneCore, phoneCountry, phoneGroup, phoneSeparator, digits,
        Regex.letters, isChar, oneOf, Bool.or_eq_true, beq_iff_eq,
        List.contains_iff_mem, List.mem_cons, List.not_mem_nil, or_false] at hc ⊢
      tauto
    rcases hcases with hdigit | hmem
    · exact (isDigit_facts hdigit).right
    · simp only [List.mem_cons, List.not_mem_nil, or_false] at hmem
      rcases hmem with rfl | rfl | rfl | rfl | rfl | rfl <;> decide
  opens := by
    intro previous c _
    simp [notAfterWord]
  closes := by
    intro c next hc
    have hdigit : isDigit c = true := by
      simpa [phoneCore, digits, Regex.lasts, Regex.nullable] using hc
    have hword := (isDigit_facts hdigit).left
    simp [notBeforeWord, hword]
  drop := phoneCore_drop

/-!
# Passes

A rule clears its own matches and, when it cuts cleanly, the earlier rules stay
cleared.
-/

def Traceable (r : Regex Char) : Prop :=
  forall (placeholder : Text) (ps : List (Piece Char)) (cur stop : Cursor Char),
    IsPlaceholder placeholder -> CleanCuts ps ->
      cur.text = renderText placeholder ps -> stop ∈ r.ends cur ->
      MatchesAtKept r ps

structure CuttingRule (rule : Rule) : Prop where
  placeholder : IsPlaceholder rule.placeholder
  consumes : forall cur, cur ∉ rule.regex.ends cur
  traceable : Traceable rule.regex
  cleanCuts : forall text, CleanCuts (rule.regex.pieces text)

theorem not_matchesAtKept_self {r : Regex Char} {text : Text}
    (hconsumes : forall cur, cur ∉ r.ends cur) :
    ¬ MatchesAtKept r (r.pieces text) := by
  intro h
  rcases h with ⟨qs, c, rs, stop, hsplit, hstop⟩
  rw [pieces_keep hconsumes hsplit] at hstop
  cases hstop

theorem not_matchesAtKept_of_noMatch {q r : Regex Char} {text : Text}
    (h : q.NoMatch text) : ¬ MatchesAtKept q (r.pieces text) := by
  intro h
  rcases h with ⟨qs, c, rs, stop, hsplit, hstop⟩
  rw [h] at hstop
  · cases hstop
  · have hsource := sourceText_pieces r text
    rw [hsplit] at hsource
    simpa [Cursor.text, Piece.source] using hsource

theorem noMatch_of_not_matchesAtKept {q : Regex Char} {placeholder : Text}
    {ps : List (Piece Char)}
    (h : forall cur stop, cur.text = renderText placeholder ps ->
      stop ∈ q.ends cur -> MatchesAtKept q ps)
    (hnot : ¬ MatchesAtKept q ps) :
    q.NoMatch (renderText placeholder ps) := by
  intro cur hcur
  cases hends : q.ends cur with
  | nil => rfl
  | cons stop others =>
      exfalso
      apply hnot
      apply h cur stop hcur
      rw [hends]
      exact List.mem_cons_self ..

theorem noMatch_replaceAll_self {rule : Rule} (h : CuttingRule rule)
    (text : Text) :
    rule.regex.NoMatch (rule.regex.replaceAll rule.placeholder text) :=
  noMatch_of_not_matchesAtKept
    (fun cur stop => h.traceable _ _ cur stop h.placeholder (h.cleanCuts text))
    (not_matchesAtKept_self h.consumes)

theorem noMatch_replaceAll {rule : Rule} (h : CuttingRule rule)
    {q : Regex Char} (hq : Traceable q) {text : Text} (hnone : q.NoMatch text) :
    q.NoMatch (rule.regex.replaceAll rule.placeholder text) :=
  noMatch_of_not_matchesAtKept
    (fun cur stop => hq _ _ cur stop h.placeholder (h.cleanCuts text))
    (not_matchesAtKept_of_noMatch hnone)

theorem numeric_cuttingRule {rule : Rule}
    {opening closing : Option Char -> Option Char -> Bool} {core : Regex Char}
    (hcore : Numeric opening closing core)
    (hregex : rule.regex = Regex.framed opening closing core)
    (hrule : rule ∈ rules) : CuttingRule rule where
  placeholder := rules_placeholder hrule
  consumes := by
    rw [hregex]
    exact numeric_consumes hcore
  traceable := by
    rw [hregex]
    intro placeholder ps cur stop hplaceholder hcuts htext hstop
    exact numeric_match_of_rewritten hcore hplaceholder hcuts htext hstop
  cleanCuts := by
    rw [hregex]
    exact numeric_cleanCuts hcore

theorem numericRules_cutting {rule : Rule}
    (h : rule ∈ [ssnRule, cardRule, ipRule, phoneRule]) : CuttingRule rule := by
  have hrule : rule ∈ rules := List.mem_cons_of_mem emailRule h
  simp only [List.mem_cons, List.not_mem_nil, or_false] at h
  rcases h with rfl | rfl | rfl | rfl
  · exact numeric_cuttingRule ssnCore_numeric rfl hrule
  · exact numeric_cuttingRule cardCore_numeric rfl hrule
  · exact numeric_cuttingRule ipCore_numeric rfl hrule
  · exact numeric_cuttingRule phoneCore_numeric rfl hrule

theorem emailRegex_traceable : Traceable emailRegex := by
  intro placeholder ps cur stop hplaceholder _ htext hstop
  exact email_match_of_rewritten hplaceholder htext hstop

theorem noMatch_emailRule (text : Text) :
    emailRegex.NoMatch (emailRegex.replaceAll emailRule.placeholder text) := by
  have hrule : emailRule ∈ rules := by simp [rules]
  refine noMatch_of_not_matchesAtKept ?_ (not_matchesAtKept_self email_consumes)
  intro cur stop htext hstop
  exact email_match_of_rewritten (rules_placeholder hrule) htext hstop

theorem noMatch_foldl (todo : List Rule)
    (htodo : forall rule, rule ∈ todo -> CuttingRule rule)
    (cleared : Regex Char -> Prop)
    (htraceable : forall q, cleared q -> Traceable q) (working : Result)
    (hcleared : forall q, cleared q -> q.NoMatch working.redactedText) :
    forall q, (cleared q ∨ exists rule, rule ∈ todo ∧ rule.regex = q) ->
      q.NoMatch (todo.foldl applyRule working).redactedText := by
  induction todo generalizing cleared working with
  | nil =>
      intro q hcase
      rcases hcase with hq | ⟨rule, hrule, _⟩
      · exact hcleared q hq
      · cases hrule
  | cons rule todo ih =>
      have hcut := htodo rule (List.mem_cons_self ..)
      intro q hq
      refine ih (fun r hr => htodo r (List.mem_cons_of_mem rule hr))
        (fun p => cleared p ∨ p = rule.regex) ?_ (applyRule working rule) ?_ q ?_
      · intro p hcase
        rcases hcase with hp | rfl
        · exact htraceable p hp
        · exact hcut.traceable
      · intro p hcase
        rcases hcase with hp | rfl
        · exact noMatch_replaceAll hcut (htraceable p hp) (hcleared p hp)
        · exact noMatch_replaceAll_self hcut working.redactedText
      · rcases hq with hq | ⟨r, hr, hrq⟩
        · exact Or.inl (Or.inl hq)
        · rcases List.mem_cons.mp hr with rfl | hr
          · exact Or.inl (Or.inr hrq.symm)
          · exact Or.inr ⟨r, hr, hrq⟩

theorem noMatch_redact (input : Text) {rule : Rule} (h : rule ∈ rules) :
    rule.regex.NoMatch (redact input).redactedText := by
  have hrun := noMatch_foldl [ssnRule, cardRule, ipRule, phoneRule]
    (fun _ => numericRules_cutting) (fun q => q = emailRegex)
    (by
      intro q heq
      subst heq
      exact emailRegex_traceable)
    (applyRule { redactedText := input, findings := [] } emailRule)
    (by
      intro q heq
      subst heq
      exact noMatch_emailRule input)
  apply hrun
  rcases List.mem_cons.mp h with rfl | h
  · exact Or.inl rfl
  · exact Or.inr ⟨rule, h, rfl⟩

theorem applyRule_of_noMatch {working : Result} {rule : Rule}
    (h : rule.regex.NoMatch working.redactedText) :
    applyRule working rule = working := by
  rcases hits_nil_of_keeps (pieces_of_noMatch h) with ⟨hhits, htext⟩
  cases working with
  | mk text findings =>
      simp only [applyRule, Regex.replaceAll, Result.mk.injEq]
      simp only at hhits htext
      rw [htext, sourceText_pieces, hhits]
      simp

theorem foldl_of_noMatch (todo : List Rule) (working : Result)
    (h : forall rule, rule ∈ todo -> rule.regex.NoMatch working.redactedText) :
    todo.foldl applyRule working = working := by
  induction todo with
  | nil => rfl
  | cons rule todo ih =>
      rw [List.foldl_cons, applyRule_of_noMatch (h rule (List.mem_cons_self ..))]
      exact ih (fun r hr => h r (List.mem_cons_of_mem rule hr))

/--
No rule matches anywhere in a redacted text, so redacting it again returns it
with no findings.
-/
theorem redact_complete_and_stable (input : Text) :
    (forall rule, rule ∈ rules ->
      rule.regex.NoMatch (redact input).redactedText) ∧
    redact (redact input).redactedText =
      { redactedText := (redact input).redactedText, findings := [] } := by
  have hnone : forall rule, rule ∈ rules ->
      rule.regex.NoMatch (redact input).redactedText :=
    fun _ => noMatch_redact input
  exact ⟨hnone, foldl_of_noMatch rules _ hnone⟩

end PiiRedactor
end DomainAI
