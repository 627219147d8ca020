import DomainAI.Library.Segments
import DomainAI.Privacy.RedactionStability

/-!
# Segments of a redacted text

Which characters of the input are still there after all passes, and which finding
stands where the others were.  What a digit, a word character and a word boundary
are is left to the regular expression engine, but for ASCII characters.
-/

namespace DomainAI
namespace PiiRedactor

open Library

/-!
# Patterns on any text
-/

/-- `\d`, `\w` and `\b`: those of ASCII, and whatever the engine makes of other
characters. -/
structure CharClasses where
  isDigit : Char -> Bool
  isWord : Char -> Bool
  wordBoundary : Option Char -> Option Char -> Bool
  digit_ascii : forall c, c.toNat < 128 -> isDigit c = PiiRedactor.isDigit c
  word_ascii : forall c, c.toNat < 128 -> isWord c = PiiRedactor.isWord c
  word_of_digit : forall c, isDigit c = true -> isWord c = true
  boundary_ascii : forall previous next,
    (forall c, c ∈ previous.toList ++ next.toList -> c.toNat < 128) ->
      wordBoundary previous next = PiiRedactor.wordBoundary previous next

def ascii : CharClasses where
  isDigit := isDigit
  isWord := isWord
  wordBoundary := wordBoundary
  digit_ascii := fun _ _ => rfl
  word_ascii := fun _ _ => rfl
  word_of_digit := fun _ h => (isDigit_facts h).left
  boundary_ascii := fun _ _ _ => rfl

namespace CharClasses

variable (k : CharClasses)

def digits (least extra : Nat) : Regex Char :=
  Regex.rep (Regex.chars k.isDigit) least extra

def notAfterWord (previous _next : Option Char) : Bool :=
  !previous.any k.isWord

def notBeforeWord (_previous next : Option Char) : Bool :=
  !next.any k.isWord

def ssnCore : Regex Char :=
  Regex.seq (k.digits 3 0)
    (Regex.seq (Regex.chars (isChar '-'))
      (Regex.seq (k.digits 2 0)
        (Regex.seq (Regex.chars (isChar '-')) (k.digits 4 0))))

def cardCore : Regex Char :=
  Regex.rep
    (Regex.seq (Regex.chars k.isDigit)
      (Regex.opt (Regex.chars (oneOf [' ', '-'])))) 13 3

def ipCore : Regex Char :=
  Regex.seq
    (Regex.rep (Regex.seq (k.digits 1 2) (Regex.chars (isChar '.'))) 3 0)
    (k.digits 1 2)

def phoneCountry : Regex Char :=
  Regex.opt
    (Regex.seq (Regex.opt (Regex.chars (isChar '+')))
      (Regex.seq (k.digits 1 2) phoneSeparator))

def phoneGroup : Regex Char :=
  Regex.seq (Regex.opt (Regex.chars (isChar '(')))
    (Regex.seq (k.digits 2 2)
      (Regex.seq (Regex.opt (Regex.chars (isChar ')'))) phoneSeparator))

def phoneCore : Regex Char :=
  Regex.seq k.phoneCountry
    (Regex.seq (Regex.rep k.phoneGroup 2 2) (k.digits 2 2))

def ssnRule : Rule where
  kind := "ssn".toList
  regex := Regex.framed k.wordBoundary k.wordBoundary k.ssnCore
  placeholder := "[SSN]".toList

def cardRule : Rule where
  kind := "credit-card".toList
  regex := Regex.framed k.wordBoundary k.wordBoundary k.cardCore
  placeholder := "[CARD]".toList

def ipRule : Rule where
  kind := "ip-address".toList
  regex := Regex.framed k.wordBoundary k.wordBoundary k.ipCore
  placeholder := "[IP]".toList

def phoneRule : Rule where
  kind := "phone".toList
  regex := Regex.framed k.notAfterWord k.notBeforeWord k.phoneCore
  placeholder := "[PHONE]".toList

/-- The email pattern has no class of the engine's. -/
def rules : List Rule :=
  [emailRule, k.ssnRule, k.cardRule, k.ipRule, k.phoneRule]

def redact (input : Text) : Result :=
  k.rules.foldl applyRule { redactedText := input, findings := [] }

end CharClasses

theorem isWordAt_eq (c? : Option Char) : isWordAt c? = c?.any isWord := by
  cases c? with
  | none => rfl
  | some c => rfl

theorem rules_ascii : ascii.rules = rules := by
  have hafter : ascii.notAfterWord = notAfterWord := by
    funext previous next
    rw [notAfterWord, isWordAt_eq]
    rfl
  have hbefore : ascii.notBeforeWord = notBeforeWord := by
    funext previous next
    rw [notBeforeWord, isWordAt_eq]
    rfl
  rw [CharClasses.rules, CharClasses.phoneRule, hafter, hbefore]
  rfl

theorem redact_ascii (input : Text) : ascii.redact input = redact input := by
  rw [CharClasses.redact, rules_ascii, redact]

/-!
# Passes over segments
-/

def cutBy (ss : List (Segment Rule Char)) (rule : Rule) : List (Segment Rule Char) :=
  recut Rule.placeholder rule 0 ss (rule.regex.pieces (rewritten Rule.placeholder ss))

def segments (rules : List Rule) (input : Text) : List (Segment Rule Char) :=
  rules.foldl cutBy (input.map Segment.kept)

def finding (cut : Rule × Text) : Finding where
  kind := cut.1.kind
  original := cut.2

/-- Segments that account for a redaction of the input. -/
structure Accounted (rules : List Rule) (input : Text) (ss : List (Segment Rule Char))
    (working : Result) : Prop where
  original : original ss = input
  rewritten : rewritten Rule.placeholder ss = working.redactedText
  cuts : forall rule w, Segment.cut rule w ∈ ss -> rule ∈ rules ∧ w ≠ []
  findings : working.findings.Perm ((Library.cuts ss).map finding)

theorem accounted_start (rules : List Rule) (input : Text) :
    Accounted rules input (input.map Segment.kept)
      { redactedText := input, findings := [] } := by
  refine ⟨original_kept input, rewritten_kept Rule.placeholder input, ?_, ?_⟩
  · intro rule w hmem
    rw [<- mem_cuts, cuts_kept] at hmem
    cases hmem
  · rw [cuts_kept]
    exact List.Perm.refl _

theorem mem_hits {w : List alpha} {ps : List (Piece alpha)} :
    w ∈ hits ps <-> Piece.hit w ∈ ps := by
  induction ps with
  | nil => simp [hits]
  | cons p ps ih =>
      cases p with
      | keep c => simp [hits, ih]
      | hit u => simp [hits, ih]

theorem hit_ne_nil {r : Regex alpha} {text w : List alpha}
    (h : Piece.hit w ∈ r.pieces text) : w ≠ [] := by
  rcases List.append_of_mem h with ⟨ps, qs, hsplit⟩
  exact (pieces_hit hsplit).left

theorem Accounted.step {rules : List Rule} {input : Text} {ss : List (Segment Rule Char)}
    {working : Result} {rule : Rule} (h : Accounted rules input ss working)
    (hrule : rule ∈ rules)
    (hrecut : Recut Rule.placeholder rule [] ss
      (rule.regex.pieces (Library.rewritten Rule.placeholder ss)) (cutBy ss rule)) :
    Accounted rules input (cutBy ss rule) (applyRule working rule) := by
  refine ⟨hrecut.original_eq.trans h.original, ?_, ?_, ?_⟩
  · have hrewritten := hrecut.rewritten_eq
    rw [List.nil_append, h.rewritten] at hrewritten
    exact hrewritten
  · intro m w hmem
    rw [<- mem_cuts, hrecut.cuts_perm.mem_iff, List.mem_append] at hmem
    rcases hmem with hold | hnew
    · exact h.cuts m w (mem_cuts.mp hold)
    · rcases List.mem_map.mp hnew with ⟨u, hu, heq⟩
      cases heq
      exact ⟨hrule, hit_ne_nil (mem_hits.mp hu)⟩
  · have hperm := hrecut.cuts_perm.map finding
    rw [List.map_append, List.map_map, h.rewritten] at hperm
    exact (h.findings.append_right _).trans hperm.symm

/-!
# Numerals

The patterns of the engine's classes read digits and separators, and no placeholder
has any of them.
-/

/-- `[\d .+()-]`. -/
def CharClasses.isNumeral (k : CharClasses) (c : Char) : Bool :=
  k.isDigit c || oneOf [' ', '.', '-', '+', '(', ')'] c

theorem isNumeral_of_isDigit {k : CharClasses} {c : Char} (h : k.isDigit c = true) :
    k.isNumeral c = true := by
  rw [CharClasses.isNumeral, h, Bool.true_or]

theorem isNumeral_separator {k : CharClasses} {c : Char}
    (h : c ∈ [' ', '.', '-', '+', '(', ')']) : k.isNumeral c = true := by
  rw [CharClasses.isNumeral, oneOf, List.contains_iff_mem.mpr h, Bool.or_true]

theorem ascii_of_isLetter {c : Char} (h : isLetter c = true) : c.toNat < 128 := by
  simp only [isLetter, Bool.or_eq_true, Bool.and_eq_true, decide_eq_true_eq,
    Char.le_def, UInt32.le_iff_toNat_le] at h
  rcases h with h | h
  · exact Nat.lt_of_le_of_lt h.right (by decide)
  · exact Nat.lt_of_le_of_lt h.right (by decide)

theorem not_letter_of_isNumeral {k : CharClasses} {c : Char}
    (h : k.isNumeral c = true) : isLetter c = false ∧ c ≠ '[' ∧ c ≠ ']' := by
  rw [CharClasses.isNumeral, Bool.or_eq_true] at h
  rcases h with hdigit | hseparator
  · refine ⟨?_, ?_, ?_⟩
    · rw [Bool.eq_false_iff]
      intro hletter
      rw [k.digit_ascii c (ascii_of_isLetter hletter)] at hdigit
      rw [(isDigit_facts hdigit).right.left] at hletter
      cases hletter
    · rintro rfl
      rw [k.digit_ascii _ (by decide)] at hdigit
      revert hdigit
      decide
    · rintro rfl
      rw [k.digit_ascii _ (by decide)] at hdigit
      revert hdigit
      decide
  · simp only [oneOf, List.contains_iff_mem, List.mem_cons, List.not_mem_nil,
      or_false] at hseparator
    rcases hseparator with rfl | rfl | rfl | rfl | rfl | rfl <;> decide

def CharClasses.Numerical (k : CharClasses) (rule : Rule) : Prop :=
  exists opening closing core, rule.regex = Regex.framed opening closing core ∧
    core.Plain = true ∧ core.nullable = false ∧
    forall c, core.letters c = true -> k.isNumeral c = true

theorem phoneCore_isNumeral {k : CharClasses} {c : Char}
    (hc : k.phoneCore.letters c = true) : k.isNumeral c = true := by
  have hcases : k.isDigit c = true ∨ c ∈ [' ', '.', '-', '+', '(', ')'] := by
    simp only [CharClasses.phoneCore, CharClasses.phoneCountry, CharClasses.phoneGroup,
      phoneSeparator, CharClasses.digits, Regex.letters, isChar, oneOf, Bool.or_eq_true,
      beq_iff_eq, List.contains_iff_mem, List.mem_cons, List.not_mem_nil, or_false]
      at hc ⊢
    tauto
  rcases hcases with hdigit | hmem
  · exact isNumeral_of_isDigit hdigit
  · exact isNumeral_separator hmem

theorem numerical_of_mem {k : CharClasses} {rule : Rule}
    (h : rule ∈ [k.ssnRule, k.cardRule, k.ipRule, k.phoneRule]) : k.Numerical rule := by
  simp only [List.mem_cons, List.not_mem_nil, or_false] at h
  rcases h with rfl | rfl | rfl | rfl
  · refine ⟨_, _, k.ssnCore, rfl, rfl, rfl, ?_⟩
    intro c hc
    have hcases : k.isDigit c = true ∨ c = '-' := by
      simp only [CharClasses.ssnCore, CharClasses.digits, Regex.letters, isChar,
        Bool.or_eq_true, beq_iff_eq] at hc
      tauto
    rcases hcases with hdigit | rfl
    · exact isNumeral_of_isDigit hdigit
    · exact isNumeral_separator (by decide)
  · refine ⟨_, _, k.cardCore, rfl, rfl, rfl, ?_⟩
    intro c hc
    have hcases : k.isDigit c = true ∨ c = ' ' ∨ c = '-' := by
      simpa [CharClasses.cardCore, Regex.letters, oneOf] using hc
    rcases hcases with hdigit | rfl | rfl
    · exact isNumeral_of_isDigit hdigit
    · exact isNumeral_separator (by decide)
    · exact isNumeral_separator (by decide)
  · refine ⟨_, _, k.ipCore, rfl, rfl, rfl, ?_⟩
    intro c hc
    have hcases : (k.isDigit c = true ∨ c = '.') ∨ k.isDigit c = true := by
      simpa [CharClasses.ipCore, CharClasses.digits, Regex.letters, isChar] using hc
    rcases hcases with (hdigit | rfl) | hdigit
    · exact isNumeral_of_isDigit hdigit
    · exact isNumeral_separator (by decide)
    · exact isNumeral_of_isDigit hdigit
  · exact ⟨_, _, k.phoneCore, rfl, rfl, rfl, fun _ => phoneCore_isNumeral⟩

theorem framed_hit {opening closing : Option alpha -> Option alpha -> Bool}
    {core : Regex alpha} (hplain : core.Plain = true) {text w : List alpha}
    {ps qs : List (Piece alpha)}
    (h : (Regex.framed opening closing core).pieces text = ps ++ Piece.hit w :: qs) :
    core.Words w := by
  have hstop := (pieces_hit h).right
  rcases (Regex.mem_framed_ends hplain _ _).mp hstop with ⟨_, _, u, hu, hafter, _⟩
  rw [List.append_cancel_right hafter]
  exact hu

theorem hit_isNumeral {k : CharClasses} {rule : Rule} (hrule : k.Numerical rule)
    {text w : Text} (h : Piece.hit w ∈ rule.regex.pieces text) :
    forall c, c ∈ w -> k.isNumeral c = true := by
  rcases hrule with ⟨opening, closing, core, hregex, hplain, _, hletters⟩
  rw [hregex] at h
  rcases List.append_of_mem h with ⟨ps, qs, hsplit⟩
  intro c hc
  exact hletters c (Regex.words_letters (framed_hit hplain hsplit) c hc)

theorem not_mem_of_isNumeral {k : CharClasses} {c : Char} (hc : k.isNumeral c = true)
    {t : Text} (ht : IsPlaceholder t) : c ∉ t := by
  rcases not_letter_of_isNumeral hc with ⟨hletter, hopen, hclose⟩
  exact not_mem_placeholder ht hletter hopen hclose

theorem IsPlaceholder.ne_nil {t : Text} (h : IsPlaceholder t) : t ≠ [] := by
  rcases h with ⟨inner, rfl, _⟩
  exact List.cons_ne_nil _ _

/-- A pass, or a part of it, neither consumes a placeholder nor anything but the input. -/
theorem recut_part {k : CharClasses} {rule : Rule} (hrule : k.Numerical rule) {text : Text}
    {ss : List (Segment Rule Char)} {ps : List (Piece Char)}
    (hplaceholder : forall m u, Segment.cut m u ∈ ss -> IsPlaceholder m.placeholder)
    (hps : forall piece, piece ∈ ps -> piece ∈ rule.regex.pieces text)
    (hsource : sourceText ps = rewritten Rule.placeholder ss) :
    Recut Rule.placeholder rule [] ss ps (recut Rule.placeholder rule 0 ss ps) := by
  refine recut_of_free (p := []) hsource (fun w hw => hit_ne_nil (hps _ hw)) ?_ ?_ ?_
  · intro m u hmem
    exact (hplaceholder m u hmem).ne_nil
  · intro m u w hmem hw c hc
    exact not_mem_of_isNumeral (hit_isNumeral hrule (hps _ hw) c hc) (hplaceholder m u hmem)
  · intro w _ c _ hmem
    cases hmem

theorem placeholder_of_mem {k : CharClasses} {rule : Rule} (h : rule ∈ k.rules) :
    IsPlaceholder rule.placeholder := by
  have hsame : k.rules.map Rule.placeholder = rules.map Rule.placeholder := rfl
  have hmem : rule.placeholder ∈ k.rules.map Rule.placeholder := List.mem_map_of_mem h
  rw [hsame] at hmem
  rcases List.mem_map.mp hmem with ⟨r, hr, heq⟩
  rw [<- heq]
  exact rules_placeholder hr

/-!
# All passes
-/

theorem recut_email (input : Text) :
    Recut Rule.placeholder emailRule [] (input.map Segment.kept)
      (emailRule.regex.pieces (rewritten Rule.placeholder (input.map Segment.kept)))
      (cutBy (input.map Segment.kept) emailRule) := by
  have hnone : forall (m : Rule) (u : Text), Segment.cut m u ∉ input.map Segment.kept := by
    intro m u hmem
    rw [<- mem_cuts, cuts_kept] at hmem
    cases hmem
  exact recut_of_free (p := []) (sourceText_pieces _ _) (fun _ => hit_ne_nil)
    (fun m u hmem => absurd hmem (hnone m u)) (fun m u w hmem => absurd hmem (hnone m u))
    (fun w _ c _ => List.not_mem_nil)

theorem Accounted.recut {k : CharClasses} {input : Text} {ss : List (Segment Rule Char)}
    {working : Result} {rule : Rule} (h : Accounted k.rules input ss working)
    (hrule : rule ∈ [k.ssnRule, k.cardRule, k.ipRule, k.phoneRule]) :
    Recut Rule.placeholder rule [] ss
      (rule.regex.pieces (Library.rewritten Rule.placeholder ss)) (cutBy ss rule) := by
  exact recut_part (numerical_of_mem hrule)
    (fun m u hmem => placeholder_of_mem (h.cuts m u hmem).left) (fun _ hpiece => hpiece)
    (sourceText_pieces _ _)

theorem Accounted.foldl {k : CharClasses} {input : Text} {todo : List Rule}
    (htodo : forall rule, rule ∈ todo ->
      rule ∈ [k.ssnRule, k.cardRule, k.ipRule, k.phoneRule])
    {ss : List (Segment Rule Char)} {working : Result}
    (h : Accounted k.rules input ss working) :
    Accounted k.rules input (todo.foldl cutBy ss) (todo.foldl applyRule working) := by
  induction todo generalizing ss working with
  | nil => exact h
  | cons rule todo ih =>
      have hrule := htodo rule List.mem_cons_self
      have hstep := h.step (List.mem_cons_of_mem emailRule hrule) (h.recut hrule)
      exact ih (fun r hr => htodo r (List.mem_cons_of_mem rule hr)) hstep

theorem accounted_email (k : CharClasses) (input : Text) :
    Accounted k.rules input (cutBy (input.map Segment.kept) emailRule)
      (applyRule { redactedText := input, findings := [] } emailRule) :=
  (accounted_start k.rules input).step List.mem_cons_self (recut_email input)

theorem accounted_redact (k : CharClasses) (input : Text) :
    Accounted k.rules input (segments k.rules input) (k.redact input) := by
  have hsegments : segments k.rules input =
      [k.ssnRule, k.cardRule, k.ipRule, k.phoneRule].foldl cutBy
        (cutBy (input.map Segment.kept) emailRule) := by
    rw [segments, CharClasses.rules, List.foldl_cons]
  have hredact : k.redact input =
      [k.ssnRule, k.cardRule, k.ipRule, k.phoneRule].foldl applyRule
        (applyRule { redactedText := input, findings := [] } emailRule) := by
    rw [CharClasses.redact, CharClasses.rules, List.foldl_cons]
  rw [hsegments, hredact]
  exact (accounted_email k input).foldl fun _ hrule => hrule

/-- The input is parted into characters that are kept and words that are redacted: the
redacted text has the former as they were and a placeholder for each of the latter,
and the findings are the latter with the kinds of their rules. -/
theorem redaction_bookkeeping (k : CharClasses) (input : Text) :
    original (segments k.rules input) = input ∧
      rewritten Rule.placeholder (segments k.rules input) = (k.redact input).redactedText ∧
      (forall rule w, Segment.cut rule w ∈ segments k.rules input ->
        rule ∈ k.rules ∧ w ≠ []) ∧
      (k.redact input).findings.Perm ((cuts (segments k.rules input)).map finding) ∧
      ((k.redact input).findings = [] -> (k.redact input).redactedText = input) := by
  have h := accounted_redact k input
  refine ⟨h.original, h.rewritten, h.cuts, h.findings, ?_⟩
  intro hnone
  have hcuts : cuts (segments k.rules input) = [] := by
    have hfindings := h.findings
    rw [hnone] at hfindings
    exact List.map_eq_nil_iff.mp hfindings.nil_eq.symm
  rw [<- h.rewritten, rewritten_eq_original hcuts, h.original]

end PiiRedactor
end DomainAI
