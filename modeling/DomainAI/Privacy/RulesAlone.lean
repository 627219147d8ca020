import DomainAI.Library.Locality
import DomainAI.Privacy.SurvivingNumbers

/-!
# A rule alone and among the others

What an earlier rule consumes is no longer there for a later one, and what is left of
a match may be too short for it.  Some of the match is always gone, and all of it
where the earlier rules have left the stretch of digits and separators alone.
-/

namespace DomainAI
namespace PiiRedactor

open Library

def Replaced (rule : Rule) (input : Text) (i : Nat) : Prop :=
  (pieceMask (rule.regex.pieces input))[i]? = some true

/-- The character lies in what one of the rules redacts, one after the other. -/
def Removed (rules : List Rule) (input : Text) (i : Nat) : Prop :=
  (mask (segments rules input))[i]? = some true

/-- One character lies in the stretch of digits and separators around another, or next
to that stretch. -/
def CharClasses.Near (k : CharClasses) (input : Text) (i j : Nat) : Prop :=
  forall m c, (i ≤ m ∧ m < j) ∨ (j < m ∧ m ≤ i) -> input[m]? = some c ->
    k.isNumeral c = true

/-!
# What has been removed
-/

section Passes

variable {k : CharClasses}

theorem forall₂_getElem? {R : alpha -> beta -> Prop} {as : List alpha} {bs : List beta}
    (h : List.Forall₂ R as bs) {i : Nat} {a : alpha} (ha : as[i]? = some a) :
    exists b, bs[i]? = some b ∧ R a b := by
  induction h generalizing i with
  | nil => cases ha
  | cons hab _ ih =>
      cases i with
      | zero =>
          cases ha
          exact ⟨_, rfl, hab⟩
      | succ i => exact ih ha

theorem removed_foldl {input : Text} {todo : List Rule}
    (htodo : forall rule, rule ∈ todo ->
      rule ∈ [k.ssnRule, k.cardRule, k.ipRule, k.phoneRule])
    {ss : List (Segment Rule Char)} {working : Result}
    (h : Accounted k.rules input ss working) {i : Nat} (hi : (mask ss)[i]? = some true) :
    (mask (todo.foldl cutBy ss))[i]? = some true := by
  induction todo generalizing ss working with
  | nil => exact hi
  | cons rule todo ih =>
      have hrule := htodo rule List.mem_cons_self
      have hrecut := h.recut hrule
      rcases forall₂_getElem? hrecut.mask_le hi with ⟨b, hb, hcut⟩
      rw [hcut rfl] at hb
      exact ih (fun r hr => htodo r (List.mem_cons_of_mem rule hr))
        (h.step (List.mem_cons_of_mem emailRule hrule) hrecut) hb

theorem accounted_segments (input : Text) {earlier : List Rule}
    (h : forall rule, rule ∈ earlier ->
      rule ∈ [k.ssnRule, k.cardRule, k.ipRule, k.phoneRule]) :
    Accounted k.rules input (segments (emailRule :: earlier) input)
      ((emailRule :: earlier).foldl applyRule { redactedText := input, findings := [] }) := by
  rw [segments, List.foldl_cons, List.foldl_cons]
  exact (accounted_email k input).foldl h

theorem removed_email {input : Text} {i : Nat} (h : Replaced emailRule input i) :
    (mask (cutBy (input.map Segment.kept) emailRule))[i]? = some true := by
  have hrecut := recut_email input
  rw [rewritten_kept] at hrecut
  rw [hrecut.mask_eq rfl (cuts_kept input)]
  exact h

end Passes

/-!
# A stretch that is left alone
-/

section Stretches

variable {k : CharClasses}

theorem kept_stretch {ss : List (Segment Rule Char)} {x s y : Text}
    (hcuts : forall m u, Segment.cut m u ∈ ss -> u ≠ []) (hne : s ≠ [])
    (horiginal : original ss = x ++ (s ++ y))
    (h : forall j, x.length ≤ j + 1 -> j ≤ x.length + s.length ->
      (mask ss)[j]? ≠ some true) :
    exists front back, ss = front ++ (s.map Segment.kept ++ back) ∧ original front = x ∧
      (rewritten Rule.placeholder front).getLast? = x.getLast? ∧
      (rewritten Rule.placeholder back).head? = y.head? := by
  have hlength := congrArg List.length horiginal
  have hs := List.length_pos_iff.mpr hne
  simp only [List.length_append] at hlength
  rcases segments_at hcuts (x.length - 1)
      (x.length - (x.length - 1) + s.length + min 1 y.length) (by omega) (by omega)
      (fun j hleast hmost => h j (by omega) (by omega)) with
    ⟨front, w, back, rfl, hfront, hw⟩
  have hparts : original front ++ (w ++ original back) =
      x.take (x.length - 1) ++
        ((x.drop (x.length - 1) ++ (s ++ y.take 1)) ++ y.drop 1) := by
    rw [original_append, original_append, original_kept] at horiginal
    rw [horiginal, List.append_assoc, List.append_assoc, List.take_append_drop,
      <- List.append_assoc (x.take _), List.take_append_drop]
  rcases List.append_inj hparts (by rw [hfront, List.length_take]; omega) with
    ⟨hfront, hrest⟩
  rcases List.append_inj hrest (by
    rw [hw, List.length_append, List.length_append, List.length_drop, List.length_take]
    omega) with ⟨rfl, hback⟩
  refine ⟨front ++ (x.drop (x.length - 1)).map Segment.kept,
    (y.take 1).map Segment.kept ++ back, by simp, ?_, ?_, ?_⟩
  · rw [original_append, hfront, original_kept, List.take_append_drop]
  · rw [rewritten_append, rewritten_kept]
    rcases List.eq_nil_or_concat x with rfl | ⟨x, c, rfl⟩
    · have hnil : front = [] :=
        eq_nil_of_original (fun m u hmem => hcuts m u (List.mem_append_left _ hmem)) hfront
      rw [hnil]
      rfl
    · rw [List.concat_eq_append, List.length_append, List.length_singleton,
        Nat.add_sub_cancel, List.drop_left, List.getLast?_concat, List.getLast?_concat]
  · rw [rewritten_append, rewritten_kept]
    cases y with
    | nil =>
        have hnil : back = [] :=
          eq_nil_of_original
            (fun m u hmem => hcuts m u (List.mem_append_right _ (List.mem_append_right _ hmem)))
            hback
        rw [hnil]
        rfl
    | cons c y => rfl

theorem hit_of_mask {ps : List (Piece alpha)} {i : Nat}
    (h : (pieceMask ps)[i]? = some true) :
    exists w c, Piece.hit w ∈ ps ∧ c ∈ w ∧ (sourceText ps)[i]? = some c := by
  induction ps generalizing i with
  | nil => cases h
  | cons piece ps ih =>
      have hpiece : piece.mask.length = piece.source.length := by
        cases piece <;> simp [Piece.mask, Piece.source]
      rw [pieceMask_cons] at h
      by_cases hi : i < piece.source.length
      · rw [List.getElem?_append_left (by rw [hpiece]; exact hi)] at h
        cases piece with
        | keep c =>
            have hzero : i = 0 := by simpa [Piece.source] using hi
            rw [hzero] at h
            cases h
        | hit w =>
            refine ⟨w, w[i], List.mem_cons_self, List.getElem_mem _, ?_⟩
            rw [sourceText_cons, List.getElem?_append_left hi]
            exact List.getElem?_eq_getElem hi
      · rw [List.getElem?_append_right (by rw [hpiece]; omega), hpiece] at h
        rcases ih h with ⟨w, c, hw, hc, hget⟩
        refine ⟨w, c, List.mem_cons_of_mem _ hw, hc, ?_⟩
        rw [sourceText_cons, List.getElem?_append_right (by omega)]
        exact hget

theorem mask_cutBy {rule : Rule} (hrule : k.Numerical rule)
    {front back : List (Segment Rule Char)} {s : Text} {first middle last : List (Piece Char)}
    (hplaceholder : forall m u, Segment.cut m u ∈ front ++ (s.map Segment.kept ++ back) ->
      IsPlaceholder m.placeholder)
    (hpieces : rule.regex.pieces
      (rewritten Rule.placeholder (front ++ (s.map Segment.kept ++ back))) =
        first ++ (middle ++ last))
    (hfirst : sourceText first = rewritten Rule.placeholder front)
    (hmiddle : sourceText middle = s) :
    exists before after, mask (cutBy (front ++ (s.map Segment.kept ++ back)) rule) =
      before ++ (pieceMask middle ++ after) ∧ before.length = (original front).length := by
  have hfront := recut_part hrule
    (fun m u hmem => hplaceholder m u (List.mem_append_left _ hmem))
    (fun piece hmem => by rw [hpieces]; exact List.mem_append_left _ hmem) hfirst
  have hstretch := recut_part hrule
    (fun m u hmem => hplaceholder m u
      (List.mem_append_right _ (List.mem_append_left _ hmem)))
    (fun piece hmem => by
      rw [hpieces]
      exact List.mem_append_right _ (List.mem_append_left _ hmem))
    (hmiddle.trans (rewritten_kept Rule.placeholder s).symm)
  refine ⟨mask (recut Rule.placeholder rule 0 front first),
    mask (recut Rule.placeholder rule 0 back last), ?_, ?_⟩
  · have hall := hfront.append (s.map Segment.kept ++ back) (middle ++ last)
    have hrest := hstretch.append back last
    rw [List.length_nil] at hall hrest
    rw [cutBy, hpieces, hall, hrest, mask_append, mask_append, hstretch.mask_eq rfl (cuts_kept s)]
  · rw [length_mask, hfront.original_eq]

theorem near_of_stretch {x s y : Text} (hstretch : forall c, c ∈ s -> k.isNumeral c = true)
    {i j : Nat} (hi : x.length ≤ i ∧ i < x.length + s.length)
    (hj : x.length ≤ j + 1 ∧ j ≤ x.length + s.length) : k.Near (x ++ (s ++ y)) i j := by
  intro m c hm hget
  have hinside : x.length ≤ m ∧ m < x.length + s.length := by
    omega
  rw [List.getElem?_append_right hinside.left, List.getElem?_append_left (by omega)] at hget
  exact hstretch c (List.mem_of_getElem? hget)

theorem removed_cutBy {rule : Rule} (hrule : k.Numerical rule) {input : Text}
    {ss : List (Segment Rule Char)} {working : Result}
    (hss : Accounted k.rules input ss working) {i : Nat} (h : Replaced rule input i)
    (hnear : forall j, k.Near input i j -> (mask ss)[j]? ≠ some true) :
    (mask (cutBy ss rule))[i]? = some true := by
  rcases hit_of_mask h with ⟨w, c, hw, hcw, hget⟩
  rw [sourceText_pieces] at hget
  have hc := hit_isNumeral hrule hw c hcw
  have hsplit : input = input.take i ++ c :: input.drop (i + 1) := by
    rcases List.getElem?_eq_some_iff.mp hget with ⟨hi, heq⟩
    rw [<- heq, List.getElem_cons_drop, List.take_append_drop]
  rcases exists_stretch k.isNumeral (input.take i) (input.drop (i + 1)) hc with
    ⟨x, u, v, y, hbefore, hafter, hstretch, hprevious, hnext⟩
  have hinput : input = x ++ ((u ++ c :: v) ++ y) := by
    rw [hsplit, hbefore, hafter]
    simp
  have hi : i = x.length + u.length := by
    have hlength := congrArg List.length hbefore
    rw [List.length_take, List.length_append] at hlength
    have hlast := (List.getElem?_eq_some_iff.mp hget).choose
    omega
  generalize hs : u ++ c :: v = s at hstretch hinput
  have hplace : x.length ≤ i ∧ i < x.length + s.length := by
    rw [<- hs, hi, List.length_append, List.length_cons]
    omega
  subst hinput
  rcases kept_stretch (fun m w hmem => (hss.cuts m w hmem).right)
      (by rw [<- hs]; simp) hss.original
      (fun j hleast hmost => hnear j (near_of_stretch hstretch hplace ⟨hleast, hmost⟩)) with
    ⟨front, back, rfl, hfront, hlast, hhead⟩
  have hborders : Borders k.isNumeral x.reverse (rewritten Rule.placeholder front).reverse y
      (rewritten Rule.placeholder back) :=
    ⟨by rw [List.head?_reverse, List.head?_reverse, hlast], hhead.symm, hnext⟩
  have hletters : forall d, rule.regex.letters d = true -> k.isNumeral d = true := by
    rcases hrule with ⟨opening, closing, core, hregex, _, _, hcore⟩
    intro d hd
    rw [hregex] at hd
    exact hcore d (by simpa [Regex.framed, Regex.letters] using hd)
  rcases pieces_alike hletters (fun text w hw => hit_isNumeral hrule hw) hstretch hprevious
      hborders with ⟨first, first', middle, last, last', hpieces, hx, hpieces', hx', hmiddle⟩
  have hworking : rewritten Rule.placeholder (front ++ (s.map Segment.kept ++ back)) =
      rewritten Rule.placeholder front ++ (s ++ rewritten Rule.placeholder back) := by
    rw [rewritten_append, rewritten_append, rewritten_kept]
  rw [<- hworking] at hpieces'
  rcases mask_cutBy hrule
      (fun m u hmem => placeholder_of_mem (hss.cuts m u hmem).left) hpieces' hx' hmiddle with
    ⟨before, after, hmask, hlength⟩
  rw [hfront] at hlength
  have hfirst : (pieceMask first).length = x.length := by
    rw [length_pieceMask, hx]
  have hshort : i - x.length < (pieceMask middle).length := by
    rw [length_pieceMask, hmiddle]
    omega
  rw [Replaced, hpieces, pieceMask_append, pieceMask_append,
    List.getElem?_append_right (by omega), hfirst, List.getElem?_append_left hshort] at h
  rw [hmask, List.getElem?_append_right (by omega), hlength,
    List.getElem?_append_left hshort]
  exact h

end Stretches

/-- A rule removes all that it replaces by itself, unless an earlier rule has removed
something of the stretch or next to it. -/
theorem removed_of_replaced (k : CharClasses) {earlier later : List Rule} {rule : Rule}
    (hrules : k.rules = earlier ++ rule :: later) {input : Text} {i : Nat}
    (h : Replaced rule input i)
    (hnear : forall j, k.Near input i j -> ¬ Removed earlier input j) :
    Removed k.rules input i := by
  rw [Removed, hrules, segments, List.foldl_append, List.foldl_cons]
  cases earlier with
  | nil =>
      rcases List.cons.inj hrules with ⟨rfl, rfl⟩
      exact removed_foldl (fun _ hr => hr) (accounted_email k input) (removed_email h)
  | cons first earlier =>
      rcases List.cons.inj hrules with ⟨rfl, hrest⟩
      have hmem : forall r, r ∈ earlier ++ rule :: later ->
          r ∈ [k.ssnRule, k.cardRule, k.ipRule, k.phoneRule] := by
        intro r hr
        have hall : earlier ++ rule :: later =
            [k.ssnRule, k.cardRule, k.ipRule, k.phoneRule] := hrest.symm
        rw [hall] at hr
        exact hr
      have hrule := hmem rule (by simp)
      have hss := accounted_segments (k := k) input
        (fun r hr => hmem r (List.mem_append_left _ hr))
      refine removed_foldl (fun r hr => hmem r (by simp [hr]))
        (hss.step (List.mem_cons_of_mem emailRule hrule) (hss.recut hrule)) ?_
      exact removed_cutBy (numerical_of_mem hrule) hss h hnear

/-!
# A match that is left whole
-/

/-- A word that ends with a digit, or one that ends with a separator and is matched
without it as well. -/
def Trims (core : Regex Char) : Prop :=
  forall w last, core.Words (w ++ [last]) ->
    isWord last = true ∨
      core.Words w ∧ exists digit, w.getLast? = some digit ∧ isWord digit = true

theorem trims_of_lasts {core : Regex Char}
    (h : forall c, core.lasts c = true -> isDigit c = true) : Trims core :=
  fun _ last hw => Or.inl (isDigit_facts (h last (Regex.words_lasts hw))).left

theorem cardCore_trims : Trims cardCore := by
  intro w last hw
  rcases hw with ⟨groups, hgroups, hleast, hmost, hall⟩
  rcases List.eq_nil_or_concat groups with rfl | ⟨groups, group, rfl⟩
  · cases hleast
  rw [List.concat_eq_append] at hgroups hleast hmost hall
  rcases hall group (by simp) with ⟨_, separator, rfl, ⟨digit, hdigit, rfl⟩, hseparator⟩
  have hword := (isDigit_facts hdigit).left
  rw [List.flatten_append, List.flatten_singleton] at hgroups
  rcases hseparator with ⟨c, _, rfl⟩ | rfl
  · rw [<- List.append_assoc] at hgroups
    rcases List.append_inj' hgroups rfl with ⟨rfl, hlast⟩
    refine Or.inr ⟨⟨groups ++ [[digit]], by simp, by simpa using hleast,
      by simpa using hmost, ?_⟩, digit, List.getLast?_concat, hword⟩
    intro u hu
    rcases List.mem_append.mp hu with hu | hu
    · exact hall u (List.mem_append_left _ hu)
    · rw [List.mem_singleton.mp hu]
      exact ⟨[digit], [], rfl, ⟨digit, hdigit, rfl⟩, Or.inr rfl⟩
  · rw [List.append_nil] at hgroups
    rcases List.append_inj' hgroups rfl with ⟨_, hlast⟩
    rw [(List.cons.inj hlast).left]
    exact Or.inl hword

theorem numeric_of_mem {rule : Rule} (h : rule ∈ [ssnRule, cardRule, ipRule, phoneRule]) :
    exists opening closing core, rule.regex = Regex.framed opening closing core ∧
      Numeric opening closing core ∧ Trims core := by
  simp only [List.mem_cons, List.not_mem_nil, or_false] at h
  rcases h with rfl | rfl | rfl | rfl
  · refine ⟨_, _, ssnCore, rfl, ssnCore_numeric, trims_of_lasts ?_⟩
    intro c hc
    simpa [ssnCore, digits, Regex.lasts, Regex.nullable] using hc
  · exact ⟨_, _, cardCore, rfl, cardCore_numeric, cardCore_trims⟩
  · refine ⟨_, _, ipCore, rfl, ipCore_numeric, trims_of_lasts ?_⟩
    intro c hc
    simpa [ipCore, digits, Regex.lasts, Regex.nullable] using hc
  · refine ⟨_, _, phoneCore, rfl, phoneCore_numeric, trims_of_lasts ?_⟩
    intro c hc
    simpa [phoneCore, digits, Regex.lasts, Regex.nullable] using hc

theorem not_noMatch_of_readsAt {opening closing : Option Char -> Option Char -> Bool}
    {core : Regex Char} (hcore : Numeric opening closing core) {left w right text : Text}
    (hread : ReadsAt core left.getLast? w right.head?) (htext : text = left ++ w ++ right) :
    ¬ (Regex.framed opening closing core).NoMatch text := by
  intro hnone
  have hends := hnone { before := left.reverse, after := w ++ right } (by
    rw [Cursor.text, List.reverse_reverse, htext, List.append_assoc])
  have hstop : { before := w.reverse ++ left.reverse, after := right } ∈
      (Regex.framed opening closing core).ends
        { before := left.reverse, after := w ++ right } := by
    refine (mem_numeric_ends hcore _ _).mpr ⟨w, ?_, rfl, rfl⟩
    rw [List.head?_reverse]
    exact hread
  rw [hends] at hstop
  cases hstop

/-- What a numeric rule has matched, between characters of which those that are not
of a word have stayed so. -/
theorem not_noMatch_of_left {opening closing : Option Char -> Option Char -> Bool}
    {core : Regex Char} (hcore : Numeric opening closing core) (htrims : Trims core)
    {previous next : Option Char} {w left right : Text} (hread : ReadsAt core previous w next)
    (hprevious : isWordAt previous = false -> isWordAt left.getLast? = false)
    (hnext : isWordAt next = false -> isWordAt right.head? = false) :
    ¬ (Regex.framed opening closing core).NoMatch (left ++ w ++ right) := by
  rcases hread with ⟨hw, hbefore, last, hlast, hafter⟩
  rcases exists_getLast?_of_ne_nil (Regex.words_ne_nil hcore.nonempty hw) with
    ⟨last', v, rfl, hlast'⟩
  have hsame : last = last' := Option.some.inj (hlast.symm.trans hlast')
  subst hsame
  by_cases hword : isWord last = true
  · have hnonword : isWordAt next = false := by
      rw [hword] at hafter
      exact Bool.eq_false_iff.mpr (Ne.symm hafter)
    refine not_noMatch_of_readsAt hcore ⟨hw, hprevious hbefore, last, hlast, ?_⟩ rfl
    rw [hword, hnext hnonword]
    decide
  · -- A separator at the end is left out.
    rcases (htrims v last hw).resolve_left hword with ⟨hv, digit, hdigit, hdigitWord⟩
    have hread : ReadsAt core left.getLast? v (last :: right).head? := by
      refine ⟨hv, hprevious hbefore, digit, hdigit, ?_⟩
      rw [hdigitWord, List.head?_cons, isWordAt, Bool.eq_false_iff.mpr hword]
      decide
    exact not_noMatch_of_readsAt hcore hread (by simp)

theorem not_survives_hit {input : Text} {rule : Rule} (hrule : rule ∈ rules)
    {qs rs : List (Piece Char)} {w : Text}
    (h : rule.regex.pieces input = qs ++ Piece.hit w :: rs) :
    ¬ Survives (segments rules input) (sourceText qs) w := by
  intro hsurvives
  have hinput : sourceText qs ++ w ++ sourceText rs = input := by
    rw [<- sourceText_pieces rule.regex input, h]
    simp [Piece.source]
  have hss := accounted_redact ascii input
  rw [rules_ascii, <- hinput] at hss
  rw [<- hinput] at hsurvives h
  rw [<- rules_ascii] at hss hsurvives
  rcases hsurvives.redactedText hss with ⟨left, right, htext, hleft, hright⟩
  have hnone : rule.regex.NoMatch (left ++ w ++ right) := by
    rw [<- htext, redact_ascii]
    exact noMatch_redact _ hrule
  rcases pieces_hit h with ⟨_, hstop⟩
  rcases List.mem_cons.mp hrule with rfl | hnumeric
  · rcases (Regex.ends_consumes (r := emailRegex) rfl _ _).mp hstop with
      ⟨u, hu, hafter, _⟩
    have huw : w = u := List.append_cancel_right hafter
    subst huw
    have hends := hnone { before := left.reverse, after := w ++ right } (by
      rw [Cursor.text, List.reverse_reverse, List.append_assoc])
    have hmem : { before := w.reverse ++ left.reverse, after := right } ∈
        emailRegex.ends { before := left.reverse, after := w ++ right } :=
      (Regex.ends_consumes (r := emailRegex) rfl _ _).mpr ⟨w, hu, rfl, rfl⟩
    rw [show emailRule.regex = emailRegex from rfl] at hends
    rw [hends] at hmem
    cases hmem
  · rcases numeric_of_mem hnumeric with ⟨opening, closing, core, hregex, hcore, htrims⟩
    rw [hregex] at hstop hnone
    rcases (mem_numeric_ends hcore _ _).mp hstop with ⟨u, hread, hafter, _⟩
    have huw : w = u := List.append_cancel_right hafter
    subst huw
    rw [List.head?_reverse] at hread
    refine not_noMatch_of_left hcore htrims hread ?_ ?_ hnone
    · rw [isWordAt_eq, isWordAt_eq]
      exact hleft
    · rw [isWordAt_eq, isWordAt_eq]
      exact hright

theorem exists_removed {rules : List Rule} {input before w after : Text}
    {working : Result} (hss : Accounted rules input (segments rules input) working)
    (hinput : input = before ++ (w ++ after)) (hne : w ≠ [])
    (h : ¬ Survives (segments rules input) before w) :
    exists i, before.length ≤ i ∧ i < before.length + w.length ∧ Removed rules input i := by
  by_contra hnone
  apply h
  have hlength := congrArg List.length hinput
  rw [List.length_append, List.length_append] at hlength
  rcases segments_at (fun m u hmem => (hss.cuts m u hmem).right) before.length w.length
      (List.length_pos_iff.mpr hne)
      (by rw [hss.original]; omega)
      (fun j hleast hmost hremoved => hnone ⟨j, hleast, hmost, hremoved⟩) with
    ⟨front, v, back, hsegments, hfront, hv⟩
  have horiginal := hss.original
  rw [hsegments, original_append, original_append, original_kept, hinput] at horiginal
  rcases List.append_inj horiginal hfront with ⟨hbefore, hrest⟩
  rcases List.append_inj hrest hv with ⟨rfl, _⟩
  exact ⟨front, back, hsegments, hbefore⟩

/-- No match of a rule by itself is left whole, and all of it is removed unless an
earlier rule has removed something of the stretch that it lies in, or next to it. -/
theorem rules_alone (input : Text) :
    (forall rule, rule ∈ rules -> forall qs w rs,
      rule.regex.pieces input = qs ++ Piece.hit w :: rs ->
        exists i, (sourceText qs).length ≤ i ∧ i < (sourceText qs).length + w.length ∧
          Removed rules input i) ∧
    (forall earlier rule later, rules = earlier ++ rule :: later ->
      forall i, Replaced rule input i ->
        (forall j, ascii.Near input i j -> ¬ Removed earlier input j) ->
          Removed rules input i) := by
  constructor
  · intro rule hrule qs w rs h
    have hss := accounted_redact ascii input
    rw [rules_ascii] at hss
    have hinput : input = sourceText qs ++ (w ++ sourceText rs) := by
      rw [<- sourceText_pieces rule.regex input, h]
      simp [Piece.source]
    exact exists_removed hss hinput (pieces_hit h).left (not_survives_hit hrule h)
  · intro earlier rule later hrules i h hnear
    rw [<- rules_ascii] at hrules ⊢
    exact removed_of_replaced ascii hrules h hnear

/-- The email rule consumes the end of a phone number, and its start is left. -/
theorem rules_alone_fails :
    phoneRule ∈ rules ∧ Replaced phoneRule "415 555-2671@x.com".toList 0 ∧
      ¬ Removed rules "415 555-2671@x.com".toList 0 := by
  refine ⟨by simp [rules], ?_, ?_⟩
  · rw [Replaced]
    decide +kernel
  · rw [Removed]
    decide +kernel

end PiiRedactor
end DomainAI
