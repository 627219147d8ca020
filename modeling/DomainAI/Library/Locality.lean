import DomainAI.Library.Replace
import Mathlib.Data.List.Forall2

/-!
# Matching is local

A pattern that reads nothing but characters of one class cannot leave a stretch of
them.  What it matches there depends on the stretch and on the characters next to
it, and not on the rest of the text.
-/

namespace DomainAI
namespace Library

/-!
# Two texts around one stretch
-/

section Stretch

variable {p : alpha -> Bool} {before before' after after' : List alpha}

/-- Two cursors at one place of a stretch, each in its own text. -/
def Alike (p : alpha -> Bool) (before before' after after' : List alpha)
    (cur cur' : Cursor alpha) : Prop :=
  exists u v, (forall c, c ∈ v -> p c = true) ∧
    cur = { before := u ++ before, after := v ++ after } ∧
    cur' = { before := u ++ before', after := v ++ after' }

/-- The texts agree next to the stretch, where the class ends. -/
structure Borders (p : alpha -> Bool) (before before' after after' : List alpha) : Prop where
  previous : before.head? = before'.head?
  next : after.head? = after'.head?
  outside : forall c, after.head? = some c -> p c = false

theorem head?_append_congr {s s' : List alpha} (h : s.head? = s'.head?) (u : List alpha) :
    (u ++ s).head? = (u ++ s').head? := by
  cases u with
  | nil => exact h
  | cons c u => rfl

theorem Borders.stops (h : Borders p before before' after after') {q : alpha -> Bool}
    (hq : forall c, q c = true -> p c = true) :
    (after = [] ∧ after' = []) ∨
      exists c s s', after = c :: s ∧ after' = c :: s' ∧ q c = false := by
  cases after with
  | nil =>
      have hnext := h.next
      rw [List.head?_nil, eq_comm, List.head?_eq_none_iff] at hnext
      exact Or.inl ⟨rfl, hnext⟩
  | cons c s =>
      have hnext := h.next
      rw [List.head?_cons, eq_comm] at hnext
      rcases List.head?_eq_some_iff.mp hnext with ⟨s', hs'⟩
      refine Or.inr ⟨c, s, s', rfl, hs', ?_⟩
      rw [Bool.eq_false_iff]
      intro hqc
      have hc := h.outside c rfl
      rw [hq c hqc] at hc
      cases hc

theorem charsEnds_alike (h : Borders p before before' after after') {q : alpha -> Bool}
    (hq : forall c, q c = true -> p c = true) {cur cur' : Cursor alpha}
    (hcur : Alike p before before' after after' cur cur') :
    List.Forall₂ (Alike p before before' after after') (Regex.charsEnds q cur)
      (Regex.charsEnds q cur') := by
  rcases hcur with ⟨u, v, hv, rfl, rfl⟩
  cases v with
  | nil =>
      rcases h.stops hq with ⟨rfl, rfl⟩ | ⟨c, s, s', rfl, rfl, hstop⟩
      · exact List.Forall₂.nil
      · simp [Regex.charsEnds, hstop]
  | cons c v =>
      simp only [List.cons_append, Regex.charsEnds]
      split
      · refine List.Forall₂.cons ⟨c :: u, v, ?_, rfl, rfl⟩ List.Forall₂.nil
        exact fun d hd => hv d (List.mem_cons_of_mem c hd)
      · exact List.Forall₂.nil

theorem manyEnds_alike (h : Borders p before before' after after') {q : alpha -> Bool}
    (hq : forall c, q c = true -> p c = true) {v : List alpha}
    (hv : forall c, c ∈ v -> p c = true) (least : Nat) (u : List alpha) :
    List.Forall₂ (Alike p before before' after after')
      (Regex.manyEnds q least (u ++ before) (v ++ after))
      (Regex.manyEnds q least (u ++ before') (v ++ after')) := by
  induction v generalizing least u with
  | nil =>
      rcases h.stops hq with ⟨rfl, rfl⟩ | ⟨c, s, s', rfl, rfl, hstop⟩
      · simp only [List.nil_append, Regex.manyEnds]
        split
        · exact List.Forall₂.cons ⟨u, [], hv, rfl, rfl⟩ List.Forall₂.nil
        · exact List.Forall₂.nil
      · simp only [List.nil_append, Regex.manyEnds, hstop, Bool.false_eq_true, if_false]
        split
        · exact List.Forall₂.cons ⟨u, [], hv, rfl, rfl⟩ List.Forall₂.nil
        · exact List.Forall₂.nil
  | cons c v ih =>
      have hrest := ih (fun d hd => hv d (List.mem_cons_of_mem c hd)) (least - 1) (c :: u)
      simp only [List.cons_append, Regex.manyEnds]
      refine List.rel_append ?_ ?_
      · split
        · exact hrest
        · exact List.Forall₂.nil
      · split
        · exact List.Forall₂.cons ⟨u, c :: v, hv, rfl, rfl⟩ List.Forall₂.nil
        · exact List.Forall₂.nil

theorem repEnds_alike {step : Cursor alpha -> List (Cursor alpha)}
    (hstep : forall cur cur', Alike p before before' after after' cur cur' ->
      List.Forall₂ (Alike p before before' after after') (step cur) (step cur'))
    (extra least : Nat) {cur cur' : Cursor alpha}
    (hcur : Alike p before before' after after' cur cur') :
    List.Forall₂ (Alike p before before' after after') (Regex.repEnds step extra least cur)
      (Regex.repEnds step extra least cur') := by
  induction least generalizing cur cur' with
  | zero =>
      simp only [Regex.repEnds]
      induction extra generalizing cur cur' with
      | zero => exact List.Forall₂.cons hcur List.Forall₂.nil
      | succ extra ih =>
          refine List.rel_append (List.rel_flatMap (hstep cur cur' hcur) ?_) ?_
          · exact fun _ _ hnext => ih hnext
          · exact List.Forall₂.cons hcur List.Forall₂.nil
  | succ least ih =>
      exact List.rel_flatMap (hstep cur cur' hcur) fun _ _ hnext => ih hnext

/-- A pattern stops at the same places of the stretch in both texts. -/
theorem ends_alike (h : Borders p before before' after after') {r : Regex alpha}
    (hletters : forall c, r.letters c = true -> p c = true) {cur cur' : Cursor alpha}
    (hcur : Alike p before before' after after' cur cur') :
    List.Forall₂ (Alike p before before' after after') (r.ends cur) (r.ends cur') := by
  induction r generalizing cur cur' with
  | chars q => exact charsEnds_alike h hletters hcur
  | many q least =>
      rcases hcur with ⟨u, v, hv, rfl, rfl⟩
      exact manyEnds_alike h hletters hv least u
  | seq r s ihr ihs =>
      have hr : forall c, r.letters c = true -> p c = true :=
        fun c hc => hletters c (by rw [Regex.letters, hc, Bool.true_or])
      have hs : forall c, s.letters c = true -> p c = true :=
        fun c hc => hletters c (by rw [Regex.letters, hc, Bool.or_true])
      exact List.rel_flatMap (ihr hr hcur) fun _ _ hnext => ihs hs hnext
  | alt r s ihr ihs =>
      have hr : forall c, r.letters c = true -> p c = true :=
        fun c hc => hletters c (by rw [Regex.letters, hc, Bool.true_or])
      have hs : forall c, s.letters c = true -> p c = true :=
        fun c hc => hletters c (by rw [Regex.letters, hc, Bool.or_true])
      exact List.rel_append (ihr hr hcur) (ihs hs hcur)
  | opt r ih =>
      exact List.rel_append (ih hletters hcur) (List.Forall₂.cons hcur List.Forall₂.nil)
  | rep r least extra ih =>
      exact repEnds_alike (fun _ _ hnext => ih hletters hnext) extra least hcur
  | assert q =>
      rcases hcur with ⟨u, v, hv, rfl, rfl⟩
      have hprevious := head?_append_congr h.previous u
      have hnext := head?_append_congr h.next v
      simp only [Regex.ends]
      rw [hprevious, hnext]
      split
      · exact List.Forall₂.cons ⟨u, v, hv, rfl, rfl⟩ List.Forall₂.nil
      · exact List.Forall₂.nil

theorem matchLength_alike (h : Borders p before before' after after') {r : Regex alpha}
    (hletters : forall c, r.letters c = true -> p c = true) {cur cur' : Cursor alpha}
    (hcur : Alike p before before' after after' cur cur') :
    r.matchLength cur = r.matchLength cur' := by
  have hends := ends_alike h hletters hcur
  unfold Regex.matchLength
  rcases hcur with ⟨u, v, _, rfl, rfl⟩
  generalize r.ends { before := u ++ before, after := v ++ after } = stops at hends ⊢
  generalize r.ends { before := u ++ before', after := v ++ after' } = stops' at hends ⊢
  cases hends with
  | nil => rfl
  | cons hfirst _ =>
      rcases hfirst with ⟨u', v', _, rfl, rfl⟩
      simp only [List.head?_cons, Option.map_some, List.length_append]
      congr 1
      omega

end Stretch

/-!
# Two scans of one stretch
-/

section Scans

variable {p : alpha -> Bool} {r : Regex alpha}

theorem head?_append_of_ne_nil {u : List alpha} (h : u ≠ []) (s s' : List alpha) :
    (u ++ s).head? = (u ++ s').head? := by
  cases u with
  | nil => exact absurd rfl h
  | cons c u => rfl

theorem Scanned.hit_ne_nil {b : List alpha} {ps : List (Piece alpha)} (h : Scanned r b ps)
    {w : List alpha} (hw : Piece.hit w ∈ ps) : w ≠ [] := by
  induction h with
  | nil b => cases hw
  | keep _ _ ih =>
      rcases List.mem_cons.mp hw with heq | hrest
      · cases heq
      · exact ih hrest
  | hit hne _ _ ih =>
      rcases List.mem_cons.mp hw with heq | hrest
      · cases heq
        exact hne
      · exact ih hrest

theorem Scanned.keep_matchLength {b : List alpha} {c : alpha} {ps qs : List (Piece alpha)}
    (h : Scanned r b (Piece.keep c :: (ps ++ qs))) (n : Nat) :
    r.matchLength { before := b, after := sourceText (Piece.keep c :: ps) ++ sourceText qs } ≠
      some (n + 1) := by
  cases h with
  | keep hnone _ =>
      have hsource := hnone n
      rw [sourceText_append] at hsource
      exact hsource

theorem Scanned.hit_matchLength {b w : List alpha} {ps qs : List (Piece alpha)}
    (h : Scanned r b (Piece.hit w :: (ps ++ qs))) :
    r.matchLength { before := b, after := sourceText (Piece.hit w :: ps) ++ sourceText qs } =
      some w.length := by
  cases h with
  | hit _ hmatch _ =>
      rw [sourceText_append, <- List.append_assoc] at hmatch
      exact hmatch

theorem exists_succ_length {w : List alpha} (h : w ≠ []) :
    exists n, w.length = n + 1 :=
  ⟨w.length - 1, (Nat.succ_pred_eq_of_pos (List.length_pos_iff.mpr h)).symm⟩

theorem scanned_alike (hletters : forall c, r.letters c = true -> p c = true)
    {qs qs' : List (Piece alpha)} {ps ps' : List (Piece alpha)} {b b' : List alpha}
    (h : Scanned r b (ps ++ qs)) (h' : Scanned r b' (ps' ++ qs'))
    (hsource : sourceText ps = sourceText ps')
    (hstretch : forall c, c ∈ sourceText ps -> p c = true)
    (hborders : Borders p b b' (sourceText qs) (sourceText qs')) : ps = ps' := by
  induction ps generalizing b b' ps' with
  | nil =>
      cases ps' with
      | nil => rfl
      | cons piece ps' =>
          cases piece with
          | keep c => cases hsource
          | hit w =>
              have hnil := (List.append_eq_nil_iff.mp hsource.symm).left
              exact absurd hnil (h'.hit_ne_nil List.mem_cons_self)
  | cons piece ps ih =>
      cases ps' with
      | nil =>
          cases piece with
          | keep c => cases hsource
          | hit w =>
              have hnil := (List.append_eq_nil_iff.mp hsource).left
              exact absurd hnil (h.hit_ne_nil List.mem_cons_self)
      | cons piece' ps' =>
          -- The engine reports the same at both places.
          have hreport : r.matchLength
                { before := b, after := sourceText (piece :: ps) ++ sourceText qs } =
              r.matchLength
                { before := b', after := sourceText (piece' :: ps') ++ sourceText qs' } := by
            rw [<- hsource]
            exact matchLength_alike hborders hletters ⟨[], _, hstretch, rfl, rfl⟩
          cases piece with
          | keep c =>
              cases piece' with
              | keep d =>
                  rcases List.cons.inj hsource with ⟨rfl, htail⟩
                  cases h with
                  | keep _ hrest =>
                      cases h' with
                      | keep _ hrest' =>
                          have hps := ih hrest hrest' htail
                            (fun e he => hstretch e (List.mem_cons_of_mem c he))
                            ⟨rfl, hborders.next, hborders.outside⟩
                          rw [hps]
              | hit w =>
                  exfalso
                  rcases exists_succ_length (h'.hit_ne_nil List.mem_cons_self) with ⟨n, hn⟩
                  apply h.keep_matchLength n
                  rw [hreport, h'.hit_matchLength, hn]
          | hit w =>
              cases piece' with
              | keep d =>
                  exfalso
                  rcases exists_succ_length (h.hit_ne_nil List.mem_cons_self) with ⟨n, hn⟩
                  apply h'.keep_matchLength n
                  rw [<- hreport, h.hit_matchLength, hn]
              | hit w' =>
                  rw [h.hit_matchLength, h'.hit_matchLength] at hreport
                  rcases List.append_inj hsource (Option.some.inj hreport) with ⟨hw, htail⟩
                  simp only [Piece.source] at hw
                  subst hw
                  cases h with
                  | hit hne _ hrest =>
                      cases h' with
                      | hit _ _ hrest' =>
                          have hps := ih hrest hrest' htail
                            (fun e he => hstretch e (List.mem_append_right w he))
                            ⟨head?_append_of_ne_nil (by simpa using hne) b b',
                              hborders.next, hborders.outside⟩
                          rw [hps]

/-!
# Cutting a scan at a stretch
-/

theorem pieces_at {ps : List (Piece alpha)} {c : alpha} {x y : List alpha}
    (hfree : forall w, Piece.hit w ∈ ps -> c ∉ w) (h : sourceText ps = x ++ c :: y) :
    exists qs rs, ps = qs ++ Piece.keep c :: rs ∧ sourceText qs = x ∧
      sourceText rs = y := by
  induction ps generalizing x with
  | nil => simp at h
  | cons piece ps ih =>
      have hfree' : forall w, Piece.hit w ∈ ps -> c ∉ w :=
        fun w hw => hfree w (List.mem_cons_of_mem _ hw)
      cases piece with
      | keep d =>
          cases x with
          | nil =>
              rcases List.cons.inj h with ⟨rfl, hrest⟩
              exact ⟨[], ps, rfl, rfl, hrest⟩
          | cons e x =>
              rcases List.cons.inj h with ⟨rfl, hrest⟩
              rcases ih hfree' hrest with ⟨qs, rs, rfl, hqs, hrs⟩
              exact ⟨Piece.keep d :: qs, rs, rfl, by simp [Piece.source, hqs], hrs⟩
      | hit w =>
          rcases List.append_eq_append_iff.mp h with ⟨x', hx, hrest⟩ | ⟨v, hw, hrest⟩
          · rcases ih hfree' hrest with ⟨qs, rs, rfl, hqs, hrs⟩
            exact ⟨Piece.hit w :: qs, rs, rfl, by simp [Piece.source, hqs, hx], hrs⟩
          · cases v with
            | nil =>
                rw [List.nil_append] at hrest
                rcases ih (x := []) hfree' hrest.symm with ⟨qs, rs, rfl, hqs, hrs⟩
                refine ⟨Piece.hit w :: qs, rs, rfl, ?_, hrs⟩
                rw [List.append_nil] at hw
                rw [sourceText_cons, hqs, List.append_nil]
                exact hw
            | cons d v =>
                exfalso
                rcases List.cons.inj hrest with ⟨rfl, _⟩
                apply hfree w List.mem_cons_self
                simp only [Piece.source] at hw
                rw [hw]
                simp

theorem pieces_around {ps : List (Piece alpha)} {x s y : List alpha}
    (hletters : forall w, Piece.hit w ∈ ps -> forall c, c ∈ w -> p c = true)
    (h : sourceText ps = x ++ (s ++ y))
    (hprevious : forall c, x.getLast? = some c -> p c = false)
    (hnext : forall c, y.head? = some c -> p c = false) :
    exists first middle last, ps = first ++ (middle ++ last) ∧ sourceText first = x ∧
      sourceText middle = s ∧ sourceText last = y := by
  have hfree : forall c, p c = false -> forall w, Piece.hit w ∈ ps -> c ∉ w := by
    intro c hc w hw hmem
    rw [hletters w hw c hmem] at hc
    cases hc
  have hfirst : exists first rest, ps = first ++ rest ∧ sourceText first = x ∧
      sourceText rest = s ++ y := by
    rcases List.eq_nil_or_concat x with rfl | ⟨x, c, rfl⟩
    · exact ⟨[], ps, rfl, rfl, h⟩
    · rw [List.concat_eq_append] at h hprevious ⊢
      rw [List.append_assoc] at h
      rcases pieces_at (hfree c (hprevious c List.getLast?_concat)) h with
        ⟨qs, rs, rfl, hqs, hrs⟩
      exact ⟨qs ++ [Piece.keep c], rs, by simp, by simp [Piece.source, hqs], hrs⟩
  rcases hfirst with ⟨first, rest, rfl, hx, hrest⟩
  cases y with
  | nil =>
      rw [List.append_nil] at hrest
      exact ⟨first, rest, [], by simp, hx, hrest, rfl⟩
  | cons c y =>
      have hfree' : forall w, Piece.hit w ∈ rest -> c ∉ w :=
        fun w hw => hfree c (hnext c rfl) w (List.mem_append_right _ hw)
      rcases pieces_at hfree' hrest with ⟨qs, rs, rfl, hqs, hrs⟩
      exact ⟨first, qs, Piece.keep c :: rs, rfl, hx, hqs, by simp [Piece.source, hrs]⟩

/-- One stretch in two texts is matched alike. -/
theorem pieces_alike (hletters : forall c, r.letters c = true -> p c = true)
    (hhits : forall text w, Piece.hit w ∈ r.pieces text -> forall c, c ∈ w -> p c = true)
    {x x' s y y' : List alpha} (hstretch : forall c, c ∈ s -> p c = true)
    (hprevious : forall c, x.getLast? = some c -> p c = false)
    (hborders : Borders p x.reverse x'.reverse y y') :
    exists first first' middle last last',
      r.pieces (x ++ (s ++ y)) = first ++ (middle ++ last) ∧ sourceText first = x ∧
      r.pieces (x' ++ (s ++ y')) = first' ++ (middle ++ last') ∧ sourceText first' = x' ∧
      sourceText middle = s := by
  have hprevious' : forall c, x'.getLast? = some c -> p c = false := by
    intro c hc
    apply hprevious c
    rw [<- List.head?_reverse, hborders.previous, List.head?_reverse]
    exact hc
  have hnext' : forall c, y'.head? = some c -> p c = false := by
    intro c hc
    exact hborders.outside c (hborders.next.trans hc)
  rcases pieces_around (hhits _) (sourceText_pieces r (x ++ (s ++ y))) hprevious
      hborders.outside with ⟨first, middle, last, hpieces, hx, hs, hy⟩
  rcases pieces_around (hhits _) (sourceText_pieces r (x' ++ (s ++ y'))) hprevious' hnext' with
    ⟨first', middle', last', hpieces', hx', hs', hy'⟩
  have hscan := pieces_scanned r (x ++ (s ++ y))
  have hscan' := pieces_scanned r (x' ++ (s ++ y'))
  rw [hpieces] at hscan
  rw [hpieces'] at hscan'
  have hrest := scanned_append hscan
  have hrest' := scanned_append hscan'
  rw [List.append_nil, hx] at hrest
  rw [List.append_nil, hx'] at hrest'
  have hmiddle : middle = middle' :=
    scanned_alike hletters hrest hrest' (hs.trans hs'.symm) (by rw [hs]; exact hstretch)
      (by rw [hy, hy']; exact hborders)
  subst hmiddle
  exact ⟨first, first', middle, last, last', hpieces, hx, hpieces', hx', hs⟩

theorem exists_stretch (p : alpha -> Bool) (before after : List alpha) {c : alpha}
    (hc : p c = true) :
    exists x u v y, before = x ++ u ∧ after = v ++ y ∧
      (forall d, d ∈ u ++ c :: v -> p d = true) ∧
      (forall d, x.getLast? = some d -> p d = false) ∧
      (forall d, y.head? = some d -> p d = false) := by
  have hleft : exists x u, before = x ++ u ∧ (forall d, d ∈ u -> p d = true) ∧
      forall d, x.getLast? = some d -> p d = false := by
    induction before using List.reverseRecOn with
    | nil => exact ⟨[], [], rfl, by simp, by simp⟩
    | append_singleton before d ih =>
        cases hd : p d with
        | false => exact ⟨before ++ [d], [], by simp, by simp, by simp [hd]⟩
        | true =>
            rcases ih with ⟨x, u, rfl, hu, hx⟩
            refine ⟨x, u ++ [d], by simp, ?_, hx⟩
            intro e he
            rcases List.mem_append.mp he with he | he
            · exact hu e he
            · rw [List.mem_singleton.mp he]
              exact hd
  have hright : exists v y, after = v ++ y ∧ (forall d, d ∈ v -> p d = true) ∧
      forall d, y.head? = some d -> p d = false := by
    induction after with
    | nil => exact ⟨[], [], rfl, by simp, by simp⟩
    | cons d after ih =>
        cases hd : p d with
        | false => exact ⟨[], d :: after, rfl, by simp, by simp [hd]⟩
        | true =>
            rcases ih with ⟨v, y, rfl, hv, hy⟩
            refine ⟨d :: v, y, rfl, ?_, hy⟩
            intro e he
            rcases List.mem_cons.mp he with rfl | he
            · exact hd
            · exact hv e he
  rcases hleft with ⟨x, u, rfl, hu, hx⟩
  rcases hright with ⟨v, y, rfl, hv, hy⟩
  refine ⟨x, u, v, y, rfl, rfl, ?_, hx, hy⟩
  intro d hd
  rcases List.mem_append.mp hd with hd | hd
  · exact hu d hd
  · rcases List.mem_cons.mp hd with rfl | hd
    · exact hc
    · exact hv d hd

end Scans

end Library
end DomainAI
