import DomainAI.Library.Regex

/-!
# Replacing every match

A text is scanned from left to right and cut into kept characters and matched
words; each matched word is then replaced by a fixed placeholder.  The module
describes what the scan knows about every piece and how an occurrence of a word
in the rewritten text is traced back to the kept characters it came from.
-/

namespace DomainAI
namespace Library

inductive Piece (alpha : Type) where
  | keep (c : alpha)
  | hit (w : List alpha)
  deriving DecidableEq, Repr

namespace Piece

def source : Piece alpha -> List alpha
  | keep c => [c]
  | hit w => w

def render (placeholder : List alpha) : Piece alpha -> List alpha
  | keep c => [c]
  | hit _ => placeholder

end Piece

def sourceText (ps : List (Piece alpha)) : List alpha :=
  ps.flatMap Piece.source

def renderText (placeholder : List alpha) (ps : List (Piece alpha)) :
    List alpha :=
  ps.flatMap (Piece.render placeholder)

def hits : List (Piece alpha) -> List (List alpha)
  | [] => []
  | Piece.keep _ :: ps => hits ps
  | Piece.hit w :: ps => w :: hits ps

namespace Regex

/--
Cut a text into pieces; the first argument counts the characters of the current
match that are still to be passed over.
-/
def scan (r : Regex alpha) : Nat -> List alpha -> List alpha -> List (Piece alpha)
  | _, _, [] => []
  | skip + 1, b, c :: rest => scan r skip (c :: b) rest
  | 0, b, c :: rest =>
      match r.matchLength { before := b, after := c :: rest } with
      | some (n + 1) =>
          Piece.hit ((c :: rest).take (n + 1)) :: scan r n (c :: b) rest
      | _ => Piece.keep c :: scan r 0 (c :: b) rest

def pieces (r : Regex alpha) (text : List alpha) : List (Piece alpha) :=
  r.scan 0 [] text

/-- Replace all non-overlapping matches, leftmost first. -/
def replaceAll (r : Regex alpha) (placeholder text : List alpha) : List alpha :=
  renderText placeholder (r.pieces text)

def replaceFirstFrom (r : Regex alpha) (placeholder : List alpha) :
    List alpha -> List alpha -> List alpha
  | b, [] =>
      match r.matchLength { before := b, after := [] } with
      | some _ => placeholder
      | none => []
  | b, c :: rest =>
      match r.matchLength { before := b, after := c :: rest } with
      | some n => placeholder ++ (c :: rest).drop n
      | none => c :: replaceFirstFrom r placeholder (c :: b) rest

def replaceFirst (r : Regex alpha) (placeholder text : List alpha) :
    List alpha :=
  r.replaceFirstFrom placeholder [] text

def NoMatch (r : Regex alpha) (text : List alpha) : Prop :=
  forall cur : Cursor alpha, cur.text = text -> r.ends cur = []

end Regex

/-!
# What a scan knows
-/

/--
The pieces of a scan that starts with `b` on its left: a kept character is one
where the engine reports no nonempty match, a hit is the match it reports.
-/
inductive Scanned (r : Regex alpha) : List alpha -> List (Piece alpha) -> Prop where
  | nil (b : List alpha) : Scanned r b []
  | keep {b : List alpha} {c : alpha} {ps : List (Piece alpha)} :
      (forall n, r.matchLength { before := b, after := c :: sourceText ps } ≠
        some (n + 1)) ->
      Scanned r (c :: b) ps -> Scanned r b (Piece.keep c :: ps)
  | hit {b w : List alpha} {ps : List (Piece alpha)} :
      w ≠ [] ->
      r.matchLength { before := b, after := w ++ sourceText ps } =
        some w.length ->
      Scanned r (w.reverse ++ b) ps -> Scanned r b (Piece.hit w :: ps)

@[simp] theorem sourceText_nil : sourceText ([] : List (Piece alpha)) = [] := rfl

@[simp] theorem sourceText_cons (p : Piece alpha) (ps : List (Piece alpha)) :
    sourceText (p :: ps) = p.source ++ sourceText ps := rfl

@[simp] theorem sourceText_append (ps qs : List (Piece alpha)) :
    sourceText (ps ++ qs) = sourceText ps ++ sourceText qs :=
  List.flatMap_append

@[simp] theorem renderText_nil (placeholder : List alpha) :
    renderText placeholder [] = [] := rfl

@[simp] theorem renderText_cons (placeholder : List alpha) (p : Piece alpha)
    (ps : List (Piece alpha)) :
    renderText placeholder (p :: ps) =
      p.render placeholder ++ renderText placeholder ps := rfl

@[simp] theorem renderText_append (placeholder : List alpha)
    (ps qs : List (Piece alpha)) :
    renderText placeholder (ps ++ qs) =
      renderText placeholder ps ++ renderText placeholder qs :=
  List.flatMap_append

theorem matchLength_le {r : Regex alpha} {cur : Cursor alpha} {n : Nat}
    (h : r.matchLength cur = some n) : n ≤ cur.after.length := by
  unfold Regex.matchLength at h
  cases hends : (r.ends cur).head? with
  | none =>
      rw [hends] at h
      cases h
  | some stop =>
      rw [hends] at h
      cases h
      exact Nat.sub_le _ _

theorem scan_scanned (r : Regex alpha) (a : List alpha) :
    forall (skip : Nat) (b : List alpha),
      sourceText (r.scan skip b a) = a.drop skip ∧
        Scanned r ((a.take skip).reverse ++ b) (r.scan skip b a) := by
  induction a with
  | nil =>
      intro skip b
      simpa [Regex.scan] using Scanned.nil (r := r) b
  | cons c rest ih =>
      intro skip b
      cases skip with
      | succ skip =>
          have hrest := ih skip (c :: b)
          simpa [Regex.scan] using hrest
      | zero =>
          have hstay := ih 0 (c :: b)
          simp only [List.drop_zero, List.take_zero, List.reverse_nil,
            List.nil_append] at hstay
          rw [List.take_zero, List.reverse_nil, List.nil_append]
          unfold Regex.scan
          split
          · rename_i n hmatch
            rcases ih n (c :: b) with ⟨hsource, hscanned⟩
            have hlen : n + 1 ≤ rest.length + 1 := by
              simpa using matchLength_le hmatch
            constructor
            · simp [Piece.source, hsource]
            · refine Scanned.hit (by simp) ?_ (by simpa using hscanned)
              rw [hsource]
              simp only [List.take_succ_cons, List.cons_append,
                List.take_append_drop, List.length_cons, List.length_take]
              rw [hmatch, Nat.min_eq_left (by omega)]
          · rename_i hnone
            constructor
            · simp [Piece.source, hstay.left]
            · refine Scanned.keep ?_ hstay.right
              intro n hn
              rw [hstay.left] at hn
              exact hnone n hn

theorem sourceText_pieces (r : Regex alpha) (text : List alpha) :
    sourceText (r.pieces text) = text := by
  simpa [Regex.pieces] using (scan_scanned r text 0 []).left

theorem pieces_scanned (r : Regex alpha) (text : List alpha) :
    Scanned r [] (r.pieces text) := by
  simpa [Regex.pieces] using (scan_scanned r text 0 []).right

theorem scanned_append {r : Regex alpha} {ps qs : List (Piece alpha)}
    {b : List alpha} (h : Scanned r b (ps ++ qs)) :
    Scanned r ((sourceText ps).reverse ++ b) qs := by
  induction ps generalizing b with
  | nil => simpa using h
  | cons p ps ih =>
      cases h with
      | keep _ hrest => simpa [Piece.source] using ih hrest
      | hit _ _ hrest => simpa [Piece.source] using ih hrest

theorem ends_of_matchLength {r : Regex alpha} {b w rest : List alpha}
    (h : r.matchLength { before := b, after := w ++ rest } = some w.length) :
    { before := w.reverse ++ b, after := rest } ∈
      r.ends { before := b, after := w ++ rest } := by
  unfold Regex.matchLength at h
  cases hends : (r.ends { before := b, after := w ++ rest }).head? with
  | none =>
      rw [hends] at h
      cases h
  | some stop =>
      have hmem := List.mem_of_head? hends
      rcases Regex.ends_moves r _ stop hmem with ⟨u, hafter, hbefore⟩
      rw [hends] at h
      simp only [Option.map_some, Option.some.injEq] at h
      simp only at hafter hbefore
      have hlen : u.length = w.length := by
        have htotal := congrArg List.length hafter
        simp only [List.length_append] at h htotal
        omega
      rcases List.append_inj hafter hlen.symm with ⟨rfl, rfl⟩
      rw [← hbefore]
      exact hmem

theorem pieces_hit {r : Regex alpha} {text w : List alpha}
    {ps qs : List (Piece alpha)}
    (h : r.pieces text = ps ++ Piece.hit w :: qs) :
    w ≠ [] ∧
      { before := w.reverse ++ (sourceText ps).reverse, after := sourceText qs } ∈
        r.ends { before := (sourceText ps).reverse,
                 after := w ++ sourceText qs } := by
  have hscan := pieces_scanned r text
  rw [h] at hscan
  have hsuffix := scanned_append hscan
  rw [List.append_nil] at hsuffix
  cases hsuffix with
  | hit hne hmatch _ =>
      exact ⟨hne, ends_of_matchLength hmatch⟩

theorem pieces_keep {r : Regex alpha} {text : List alpha} {c : alpha}
    {ps qs : List (Piece alpha)}
    (hconsumes : forall cur, cur ∉ r.ends cur)
    (h : r.pieces text = ps ++ Piece.keep c :: qs) :
    r.ends { before := (sourceText ps).reverse,
             after := c :: sourceText qs } = [] := by
  have hscan := pieces_scanned r text
  rw [h] at hscan
  have hsuffix := scanned_append hscan
  rw [List.append_nil] at hsuffix
  cases hsuffix with
  | keep hnone _ =>
      cases hends : r.ends { before := (sourceText ps).reverse,
                             after := c :: sourceText qs } with
      | nil => rfl
      | cons stop others =>
          exfalso
          have hmem : stop ∈ r.ends { before := (sourceText ps).reverse,
                                      after := c :: sourceText qs } := by
            rw [hends]
            exact List.mem_cons_self ..
          rcases Regex.ends_moves r _ stop hmem with ⟨u, hafter, hbefore⟩
          cases u with
          | nil =>
              have hsame : stop = { before := (sourceText ps).reverse,
                                    after := c :: sourceText qs } := by
                cases stop
                simp only [List.nil_append] at hafter
                simp only [List.reverse_nil, List.nil_append] at hbefore
                rw [hafter, hbefore]
              rw [hsame] at hmem
              exact hconsumes _ hmem
          | cons d u =>
              apply hnone u.length
              unfold Regex.matchLength
              rw [hends]
              simp only at hafter
              simp only [List.head?_cons, Option.map_some, Option.some.injEq]
              rw [hafter]
              simp only [List.cons_append, List.length_cons,
                List.length_append]
              omega

theorem hits_nil_of_keeps {ps : List (Piece alpha)}
    (h : forall p, p ∈ ps -> exists c, p = Piece.keep c) :
    hits ps = [] ∧ forall placeholder, renderText placeholder ps = sourceText ps := by
  induction ps with
  | nil => exact ⟨rfl, fun _ => rfl⟩
  | cons p ps ih =>
      rcases ih (fun q hq => h q (List.mem_cons_of_mem p hq)) with ⟨hhits, htext⟩
      rcases h p (List.mem_cons_self ..) with ⟨c, rfl⟩
      constructor
      · exact hhits
      · intro placeholder
        rw [renderText_cons, sourceText_cons, htext]
        rfl

/-- Without a match anywhere the scan keeps every character. -/
theorem pieces_of_noMatch {r : Regex alpha} {text : List alpha}
    (h : r.NoMatch text) :
    forall p, p ∈ r.pieces text -> exists c, p = Piece.keep c := by
  intro p hp
  cases p with
  | keep c => exact ⟨c, rfl⟩
  | hit w =>
      exfalso
      rcases List.append_of_mem hp with ⟨ps, qs, hsplit⟩
      have hmatch := (pieces_hit hsplit).right
      rw [h] at hmatch
      · cases hmatch
      · have hsource := sourceText_pieces r text
        rw [hsplit] at hsource
        simpa [Cursor.text, Piece.source] using hsource

/-!
# Occurrences in the rewritten text
-/

theorem renderText_prefix {e : alpha} {placeholder : List alpha}
    {w post : List alpha} (hfree : e ∉ w) {ps : List (Piece alpha)}
    (h : renderText (e :: placeholder) ps = w ++ post) :
    exists qs, ps = w.map Piece.keep ++ qs ∧
      renderText (e :: placeholder) qs = post := by
  induction w generalizing ps with
  | nil => exact ⟨ps, rfl, h⟩
  | cons c w ih =>
      cases ps with
      | nil => cases h
      | cons p ps =>
          cases p with
          | keep d =>
              simp only [renderText_cons, Piece.render, List.cons_append,
                List.nil_append, List.cons.injEq] at h
              rcases h with ⟨rfl, hrest⟩
              rcases ih (fun he => hfree (List.mem_cons_of_mem d he)) hrest
                with ⟨qs, rfl, hqs⟩
              exact ⟨qs, rfl, hqs⟩
          | hit u =>
              exfalso
              simp only [renderText_cons, Piece.render, List.cons_append,
                List.cons.injEq] at h
              apply hfree
              rw [h.left]
              exact List.mem_cons_self ..

theorem renderText_suffix {e : alpha} {placeholder : List alpha}
    {pre w : List alpha} (hfree : e ∉ w) {ps : List (Piece alpha)}
    (h : renderText (placeholder ++ [e]) ps = pre ++ w) :
    exists qs, ps = qs ++ w.map Piece.keep ∧
      renderText (placeholder ++ [e]) qs = pre := by
  induction w using List.reverseRecOn generalizing ps with
  | nil => exact ⟨ps, by simp, by simpa using h⟩
  | append_singleton w c ih =>
      have hne : e ≠ c ∧ e ∉ w := by
        simp only [List.mem_append, List.mem_singleton, not_or] at hfree
        exact ⟨hfree.right, hfree.left⟩
      rw [← List.append_assoc] at h
      rcases List.eq_nil_or_concat ps with rfl | ⟨ps', p, rfl⟩
      · simp at h
      · rw [List.concat_eq_append] at h ⊢
        rw [renderText_append] at h
        cases p with
        | keep d =>
            simp only [renderText_cons, Piece.render, renderText_nil,
              List.append_nil] at h
            rcases List.append_inj' h rfl with ⟨hrest, hlast⟩
            rcases ih hne.right hrest with ⟨qs, rfl, hqs⟩
            refine ⟨qs, ?_, hqs⟩
            rw [List.map_append, List.append_assoc]
            cases hlast
            rfl
        | hit u =>
            exfalso
            simp only [renderText_cons, Piece.render, renderText_nil,
              List.append_nil, ← List.append_assoc] at h
            have hlast := (List.append_inj' h rfl).right
            exact hne.left (List.cons.inj hlast).left

theorem renderText_anchor {placeholder : List alpha} {pre post : List alpha}
    {a : alpha} (hfree : a ∉ placeholder) {ps : List (Piece alpha)}
    (h : renderText placeholder ps = pre ++ a :: post) :
    exists qs rs, ps = qs ++ Piece.keep a :: rs ∧
      renderText placeholder qs = pre ∧ renderText placeholder rs = post := by
  induction ps generalizing pre with
  | nil => simp at h
  | cons p ps ih =>
      cases p with
      | keep c =>
          cases pre with
          | nil =>
              simp only [renderText_cons, Piece.render, List.nil_append,
                List.cons_append, List.cons.injEq] at h
              rcases h with ⟨rfl, hrest⟩
              exact ⟨[], ps, rfl, rfl, hrest⟩
          | cons d pre =>
              simp only [renderText_cons, Piece.render, List.cons_append,
                List.nil_append, List.cons.injEq] at h
              rcases h with ⟨rfl, hrest⟩
              rcases ih hrest with ⟨qs, rs, rfl, hqs, hrs⟩
              exact ⟨Piece.keep c :: qs, rs, rfl, by simp [Piece.render, hqs], hrs⟩
      | hit u =>
          simp only [renderText_cons, Piece.render] at h
          rcases List.append_eq_append_iff.mp h with
            ⟨pre', hpre, hrest⟩ | ⟨mid, hplace, hmid⟩
          · rcases ih hrest with ⟨qs, rs, rfl, hqs, hrs⟩
            exact ⟨Piece.hit u :: qs, rs, rfl,
              by simp [Piece.render, hqs, hpre], hrs⟩
          · cases mid with
            | nil =>
                simp only [List.nil_append] at hmid
                have hrest : renderText placeholder ps = [] ++ a :: post :=
                  hmid.symm
                rcases ih hrest with ⟨qs, rs, rfl, hqs, hrs⟩
                refine ⟨Piece.hit u :: qs, rs, rfl, ?_, hrs⟩
                rw [renderText_cons, hqs]
                simpa [Piece.render] using hplace
            | cons e mid =>
                exfalso
                simp only [List.cons_append, List.cons.injEq] at hmid
                apply hfree
                rw [hplace, ← hmid.left]
                simp

/--
An occurrence that holds a letter no placeholder contains and avoids the two
outer placeholder letters lies inside kept characters.
-/
theorem renderText_split {opening closing : alpha} {inner : List alpha}
    {pre post u v : List alpha} {a : alpha}
    (hanchor : a ∉ opening :: (inner ++ [closing]))
    (hu : closing ∉ u) (hv : opening ∉ v) {ps : List (Piece alpha)}
    (h : renderText (opening :: (inner ++ [closing])) ps =
      pre ++ (u ++ a :: v) ++ post) :
    exists qs rs, ps = qs ++ ((u ++ a :: v).map Piece.keep ++ rs) ∧
      renderText (opening :: (inner ++ [closing])) qs = pre ∧
      renderText (opening :: (inner ++ [closing])) rs = post := by
  have hsplit : renderText (opening :: (inner ++ [closing])) ps =
      (pre ++ u) ++ a :: (v ++ post) := by
    simpa [List.append_assoc] using h
  rcases renderText_anchor hanchor hsplit with ⟨left, right, rfl, hleft, hright⟩
  rw [← List.cons_append] at hleft
  rcases renderText_suffix hu hleft with ⟨qs, rfl, hqs⟩
  rcases renderText_prefix hv hright with ⟨rs, rfl, hrs⟩
  refine ⟨qs, rs, ?_, hqs, hrs⟩
  simp [List.append_assoc]

theorem sourceText_keeps (w : List alpha) :
    sourceText (w.map Piece.keep) = w := by
  induction w with
  | nil => rfl
  | cons c w ih => simp [Piece.source, ih]

end Library
end DomainAI
