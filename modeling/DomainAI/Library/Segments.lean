import DomainAI.Library.Replace
import Mathlib.Data.List.Forall2

/-!
# Segments of a text that is rewritten again and again

Every rewriting is scanned for the next pattern, and what a match covers is replaced
by the placeholder of that pattern.  The segments tell what of the first text is
still there and what stands in for the rest.
-/

namespace DomainAI
namespace Library

/-- A character that is still there, or a word that a label stands in for. -/
inductive Segment (label alpha : Type) where
  | kept (c : alpha)
  | cut (l : label) (w : List alpha)
  deriving DecidableEq, Repr

namespace Segment

def source : Segment label alpha -> List alpha
  | kept c => [c]
  | cut _ w => w

def render (placeholder : label -> List alpha) : Segment label alpha -> List alpha
  | kept c => [c]
  | cut l _ => placeholder l

def mask : Segment label alpha -> List Bool
  | kept _ => [false]
  | cut _ w => w.map fun _ => true

end Segment

def original (ss : List (Segment label alpha)) : List alpha :=
  ss.flatMap Segment.source

def rewritten (placeholder : label -> List alpha) (ss : List (Segment label alpha)) :
    List alpha :=
  ss.flatMap (Segment.render placeholder)

/-- For every character of the original text, whether it has been cut. -/
def mask (ss : List (Segment label alpha)) : List Bool :=
  ss.flatMap Segment.mask

def cuts : List (Segment label alpha) -> List (label × List alpha)
  | [] => []
  | Segment.kept _ :: ss => cuts ss
  | Segment.cut l w :: ss => (l, w) :: cuts ss

def Piece.mask : Piece alpha -> List Bool
  | Piece.keep _ => [false]
  | Piece.hit w => w.map fun _ => true

def pieceMask (ps : List (Piece alpha)) : List Bool :=
  ps.flatMap Piece.mask

section Basics

variable {placeholder : label -> List alpha}

@[simp] theorem original_nil : original ([] : List (Segment label alpha)) = [] := rfl

@[simp] theorem original_cons (s : Segment label alpha) (ss : List (Segment label alpha)) :
    original (s :: ss) = s.source ++ original ss := rfl

@[simp] theorem original_append (ss ts : List (Segment label alpha)) :
    original (ss ++ ts) = original ss ++ original ts :=
  List.flatMap_append

@[simp] theorem rewritten_nil :
    rewritten placeholder ([] : List (Segment label alpha)) = [] := rfl

@[simp] theorem rewritten_cons (s : Segment label alpha)
    (ss : List (Segment label alpha)) :
    rewritten placeholder (s :: ss) = s.render placeholder ++ rewritten placeholder ss :=
  rfl

@[simp] theorem rewritten_append (ss ts : List (Segment label alpha)) :
    rewritten placeholder (ss ++ ts) =
      rewritten placeholder ss ++ rewritten placeholder ts :=
  List.flatMap_append

@[simp] theorem mask_nil : mask ([] : List (Segment label alpha)) = [] := rfl

@[simp] theorem mask_cons (s : Segment label alpha) (ss : List (Segment label alpha)) :
    mask (s :: ss) = s.mask ++ mask ss := rfl

@[simp] theorem mask_append (ss ts : List (Segment label alpha)) :
    mask (ss ++ ts) = mask ss ++ mask ts :=
  List.flatMap_append

@[simp] theorem cuts_append (ss ts : List (Segment label alpha)) :
    cuts (ss ++ ts) = cuts ss ++ cuts ts := by
  induction ss with
  | nil => rfl
  | cons s ss ih =>
      cases s with
      | kept c => exact ih
      | cut l w => exact congrArg (List.cons (l, w)) ih

theorem mem_cuts {l : label} {w : List alpha} {ss : List (Segment label alpha)} :
    (l, w) ∈ cuts ss <-> Segment.cut l w ∈ ss := by
  induction ss with
  | nil => simp [cuts]
  | cons s ss ih =>
      cases s with
      | kept c => simp [cuts, ih]
      | cut l' w' => simp [cuts, ih]

theorem length_mask (ss : List (Segment label alpha)) :
    (mask ss).length = (original ss).length := by
  induction ss with
  | nil => rfl
  | cons s ss ih => cases s <;> simp [Segment.mask, Segment.source, ih]

theorem pieceMask_cons (piece : Piece alpha) (ps : List (Piece alpha)) :
    pieceMask (piece :: ps) = piece.mask ++ pieceMask ps := rfl

theorem pieceMask_append (ps qs : List (Piece alpha)) :
    pieceMask (ps ++ qs) = pieceMask ps ++ pieceMask qs :=
  List.flatMap_append

theorem length_pieceMask (ps : List (Piece alpha)) :
    (pieceMask ps).length = (sourceText ps).length := by
  induction ps with
  | nil => rfl
  | cons piece ps ih =>
      rw [pieceMask_cons, sourceText_cons, List.length_append, List.length_append, ih]
      cases piece <;> simp [Piece.mask, Piece.source]

@[simp] theorem original_kept (w : List alpha) :
    original (w.map Segment.kept : List (Segment label alpha)) = w := by
  induction w with
  | nil => rfl
  | cons c w ih => exact congrArg (List.cons c) ih

@[simp] theorem rewritten_kept (placeholder : label -> List alpha) (w : List alpha) :
    rewritten placeholder (w.map Segment.kept) = w := by
  induction w with
  | nil => rfl
  | cons c w ih => exact congrArg (List.cons c) ih

@[simp] theorem cuts_kept (w : List alpha) :
    cuts (w.map Segment.kept : List (Segment label alpha)) = [] := by
  induction w with
  | nil => rfl
  | cons c w ih => exact ih

@[simp] theorem mask_kept (w : List alpha) :
    mask (w.map Segment.kept : List (Segment label alpha)) = w.map fun _ => false := by
  induction w with
  | nil => rfl
  | cons c w ih => exact congrArg (List.cons false) ih

theorem eq_kept_of_cuts {ss : List (Segment label alpha)} (h : cuts ss = []) :
    ss = (original ss).map Segment.kept := by
  induction ss with
  | nil => rfl
  | cons s ss ih =>
      cases s with
      | kept c => exact congrArg (List.cons (Segment.kept c)) (ih h)
      | cut l w => cases h

theorem rewritten_eq_original {ss : List (Segment label alpha)} (h : cuts ss = []) :
    rewritten placeholder ss = original ss := by
  rw [eq_kept_of_cuts h, rewritten_kept, original_kept]

end Basics

/-!
# One more pattern
-/

/-- Cut what a scan of the rewritten text has matched; the number counts the
characters of the current placeholder that are still to be passed over. -/
def recut (placeholder : label -> List alpha) (l : label) :
    Nat -> List (Segment label alpha) -> List (Piece alpha) ->
      List (Segment label alpha)
  | _, _, [] => []
  | skip, ss, Piece.hit w :: ps =>
      Segment.cut l w :: recut placeholder l skip (ss.drop w.length) ps
  | skip + 1, ss, Piece.keep _ :: ps => recut placeholder l skip ss ps
  | 0, Segment.kept c :: ss, Piece.keep _ :: ps =>
      Segment.kept c :: recut placeholder l 0 ss ps
  | 0, Segment.cut m w :: ss, Piece.keep _ :: ps =>
      Segment.cut m w :: recut placeholder l ((placeholder m).length - 1) ss ps
  | 0, [], Piece.keep _ :: _ => []

/-- What becomes of the segments when no match reaches into a placeholder; the word is
what is still to be passed over. -/
inductive Recut (placeholder : label -> List alpha) (l : label) :
    List alpha -> List (Segment label alpha) -> List (Piece alpha) ->
      List (Segment label alpha) -> Prop where
  | nil : Recut placeholder l [] [] [] []
  | pass {c : alpha} {p : List alpha} {ss ts : List (Segment label alpha)}
      {ps : List (Piece alpha)} :
      Recut placeholder l p ss ps ts ->
      Recut placeholder l (c :: p) ss (Piece.keep c :: ps) ts
  | keep {c : alpha} {ss ts : List (Segment label alpha)} {ps : List (Piece alpha)} :
      Recut placeholder l [] ss ps ts ->
      Recut placeholder l [] (Segment.kept c :: ss) (Piece.keep c :: ps)
        (Segment.kept c :: ts)
  | old {m : label} {w p : List alpha} {c : alpha} {ss ts : List (Segment label alpha)}
      {ps : List (Piece alpha)} :
      placeholder m = c :: p -> Recut placeholder l p ss ps ts ->
      Recut placeholder l [] (Segment.cut m w :: ss) (Piece.keep c :: ps)
        (Segment.cut m w :: ts)
  | hit {w : List alpha} {ss ts : List (Segment label alpha)} {ps : List (Piece alpha)} :
      w ≠ [] -> Recut placeholder l [] ss ps ts ->
      Recut placeholder l [] (w.map Segment.kept ++ ss) (Piece.hit w :: ps)
        (Segment.cut l w :: ts)

section Recuts

variable {placeholder : label -> List alpha} {l : label}

theorem kept_of_rewritten {w rest : List alpha} {ss : List (Segment label alpha)}
    (hplaceholder : forall m u, Segment.cut m u ∈ ss -> placeholder m ≠ [])
    (hfree : forall m u, Segment.cut m u ∈ ss -> forall c, c ∈ w -> c ∉ placeholder m)
    (h : rewritten placeholder ss = w ++ rest) :
    exists ts, ss = w.map Segment.kept ++ ts ∧ rewritten placeholder ts = rest := by
  induction w generalizing ss with
  | nil => exact ⟨ss, rfl, h⟩
  | cons c w ih =>
      cases ss with
      | nil => cases h
      | cons s ss =>
          cases s with
          | kept d =>
              simp only [rewritten_cons, Segment.render, List.cons_append,
                List.nil_append, List.cons.injEq] at h
              rcases h with ⟨rfl, hrest⟩
              rcases ih (fun m u hmem => hplaceholder m u (List.mem_cons_of_mem _ hmem))
                  (fun m u hmem e he => hfree m u (List.mem_cons_of_mem _ hmem) e
                    (List.mem_cons_of_mem _ he)) hrest with ⟨ts, rfl, hts⟩
              exact ⟨ts, rfl, hts⟩
          | cut m u =>
              exfalso
              have hne := hplaceholder m u List.mem_cons_self
              have hc := hfree m u List.mem_cons_self c List.mem_cons_self
              simp only [rewritten_cons, Segment.render] at h
              cases hm : placeholder m with
              | nil => exact hne hm
              | cons d p =>
                  rw [hm] at h hc
                  simp only [List.cons_append, List.cons.injEq] at h
                  exact hc (List.mem_cons.mpr (Or.inl h.left.symm))

theorem recut_of_free {ps : List (Piece alpha)} {p : List alpha}
    {ss : List (Segment label alpha)}
    (hsource : sourceText ps = p ++ rewritten placeholder ss)
    (hhits : forall w, Piece.hit w ∈ ps -> w ≠ [])
    (hplaceholder : forall m u, Segment.cut m u ∈ ss -> placeholder m ≠ [])
    (hfree : forall m u w, Segment.cut m u ∈ ss -> Piece.hit w ∈ ps ->
      forall c, c ∈ w -> c ∉ placeholder m)
    (hpassed : forall w, Piece.hit w ∈ ps -> forall c, c ∈ w -> c ∉ p) :
    Recut placeholder l p ss ps (recut placeholder l p.length ss ps) := by
  induction ps generalizing p ss with
  | nil =>
      rcases List.append_eq_nil_iff.mp hsource.symm with ⟨rfl, hrewritten⟩
      cases ss with
      | nil => exact Recut.nil
      | cons s ss =>
          exfalso
          cases s with
          | kept c => cases hrewritten
          | cut m u =>
              exact hplaceholder m u List.mem_cons_self
                (List.append_eq_nil_iff.mp hrewritten).left
  | cons piece ps ih =>
      have hhits' : forall w, Piece.hit w ∈ ps -> w ≠ [] :=
        fun w hw => hhits w (List.mem_cons_of_mem _ hw)
      cases piece with
      | hit w =>
          have hw := hhits w List.mem_cons_self
          -- Inside a placeholder nothing is matched.
          cases p with
          | cons c p =>
              exfalso
              cases w with
              | nil => exact hw rfl
              | cons d w =>
                  simp only [sourceText_cons, Piece.source, List.cons_append,
                    List.cons.injEq] at hsource
                  exact hpassed (d :: w) List.mem_cons_self d List.mem_cons_self
                    (List.mem_cons.mpr (Or.inl hsource.left))
          | nil =>
              have hrewritten : rewritten placeholder ss = w ++ sourceText ps := hsource.symm
              rcases kept_of_rewritten hplaceholder
                (fun m u hmem c hc => hfree m u w hmem List.mem_cons_self c hc)
                hrewritten with ⟨ts, rfl, hts⟩
              have hrest := @ih [] ts hts.symm hhits'
                (fun m u hmem => hplaceholder m u (List.mem_append_right _ hmem))
                (fun m u v hmem hv => hfree m u v (List.mem_append_right _ hmem)
                  (List.mem_cons_of_mem _ hv))
                (fun v hv c hc hnil => List.not_mem_nil hnil)
              have hdrop : (w.map Segment.kept ++ ts).drop w.length = ts := by
                rw [List.drop_append_of_le_length (by simp)]
                simp
              rw [List.length_nil, recut, hdrop]
              exact Recut.hit hw hrest
      | keep c =>
          cases p with
          | cons d p =>
              simp only [sourceText_cons, Piece.source, List.cons_append,
                List.nil_append, List.cons.injEq] at hsource
              rcases hsource with ⟨rfl, hsource⟩
              have hrest := @ih p ss hsource hhits' hplaceholder
                (fun m u v hmem hv => hfree m u v hmem (List.mem_cons_of_mem _ hv))
                (fun v hv e he hmem => hpassed v (List.mem_cons_of_mem _ hv) e he
                  (List.mem_cons_of_mem _ hmem))
              rw [List.length_cons, recut]
              exact Recut.pass hrest
          | nil =>
              cases ss with
              | nil => cases hsource
              | cons s ss =>
                  have hplaceholder' : forall m u, Segment.cut m u ∈ ss ->
                      placeholder m ≠ [] :=
                    fun m u hmem => hplaceholder m u (List.mem_cons_of_mem _ hmem)
                  have hfree' : forall m u w, Segment.cut m u ∈ ss -> Piece.hit w ∈ ps ->
                      forall e, e ∈ w -> e ∉ placeholder m :=
                    fun m u v hmem hv => hfree m u v (List.mem_cons_of_mem _ hmem)
                      (List.mem_cons_of_mem _ hv)
                  cases s with
                  | kept d =>
                      simp only [sourceText_cons, Piece.source, List.nil_append,
                        rewritten_cons, Segment.render, List.cons_append,
                        List.cons.injEq] at hsource
                      rcases hsource with ⟨rfl, hsource⟩
                      have hrest := @ih [] ss hsource hhits' hplaceholder'
                        hfree' (fun v hv e he hnil => List.not_mem_nil hnil)
                      exact Recut.keep hrest
                  | cut m u =>
                      have hne := hplaceholder m u List.mem_cons_self
                      cases hm : placeholder m with
                      | nil => exact absurd hm hne
                      | cons d p =>
                          simp only [sourceText_cons, Piece.source, List.nil_append,
                            rewritten_cons, Segment.render, hm, List.cons_append,
                            List.cons.injEq] at hsource
                          rcases hsource with ⟨rfl, hsource⟩
                          have hrest := @ih p ss hsource hhits' hplaceholder'
                            hfree' (fun v hv e he hmem =>
                              hfree m u v List.mem_cons_self (List.mem_cons_of_mem _ hv) e he
                                (by rw [hm]; exact List.mem_cons_of_mem _ hmem))
                          have hlength : (placeholder m).length - 1 = p.length := by
                            rw [hm, List.length_cons, Nat.add_sub_cancel]
                          rw [List.length_nil, recut, hlength]
                          exact Recut.old hm hrest

theorem Recut.original_eq {p : List alpha} {ss ts : List (Segment label alpha)}
    {ps : List (Piece alpha)} (h : Recut placeholder l p ss ps ts) :
    original ts = original ss := by
  induction h with
  | nil => rfl
  | pass _ ih => exact ih
  | keep _ ih => rw [original_cons, original_cons, ih]
  | old _ _ ih => rw [original_cons, original_cons, ih]
  | hit _ _ ih =>
      rw [original_cons, original_append, ih, original_kept]
      rfl

theorem Recut.rewritten_eq {p : List alpha} {ss ts : List (Segment label alpha)}
    {ps : List (Piece alpha)} (h : Recut placeholder l p ss ps ts) :
    p ++ rewritten placeholder ts = renderText (placeholder l) ps := by
  induction h with
  | nil => rfl
  | pass _ ih => exact congrArg (List.cons _) ih
  | keep _ ih => exact congrArg (List.cons _) ih
  | old hm _ ih =>
      rw [rewritten_cons, Segment.render, hm, renderText_cons, <- ih]
      rfl
  | hit _ _ ih => exact congrArg (List.append (placeholder l)) ih

theorem Recut.cuts_perm {p : List alpha} {ss ts : List (Segment label alpha)}
    {ps : List (Piece alpha)} (h : Recut placeholder l p ss ps ts) :
    (cuts ts).Perm (cuts ss ++ (hits ps).map fun w => (l, w)) := by
  induction h with
  | nil => exact List.Perm.refl _
  | pass _ ih => exact ih
  | keep _ ih => exact ih
  | old _ _ ih => exact ih.cons _
  | hit _ _ ih =>
      rw [cuts_append, cuts_kept, List.nil_append]
      exact (ih.cons _).trans List.perm_middle.symm

theorem Recut.mask_le {p : List alpha} {ss ts : List (Segment label alpha)}
    {ps : List (Piece alpha)} (h : Recut placeholder l p ss ps ts) :
    List.Forall₂ (fun a b => a = true -> b = true) (mask ss) (mask ts) := by
  induction h with
  | nil => exact List.Forall₂.nil
  | pass _ ih => exact ih
  | keep _ ih => exact List.Forall₂.cons id ih
  | old _ _ ih => exact List.rel_append (List.forall₂_same.mpr fun _ _ => id) ih
  | hit _ _ ih =>
      rw [mask_append, mask_cons, mask_kept]
      refine List.rel_append ?_ ih
      exact List.forall₂_map_left_iff.mpr
        (List.forall₂_map_right_iff.mpr (List.forall₂_same.mpr fun _ _ _ => rfl))

theorem Recut.append {p : List alpha} {ss ts : List (Segment label alpha)}
    {ps : List (Piece alpha)} (h : Recut placeholder l p ss ps ts)
    (ss' : List (Segment label alpha)) (ps' : List (Piece alpha)) :
    recut placeholder l p.length (ss ++ ss') (ps ++ ps') =
      ts ++ recut placeholder l 0 ss' ps' := by
  induction h with
  | nil => rfl
  | pass _ ih =>
      rw [List.length_cons, List.cons_append, recut]
      exact ih
  | keep _ ih =>
      rw [List.length_nil, List.cons_append, List.cons_append, recut]
      exact congrArg (List.cons _) ih
  | old hm _ ih =>
      rw [List.length_nil, List.cons_append, List.cons_append, recut, hm,
        List.length_cons, Nat.add_sub_cancel, ih]
      rfl
  | @hit w ss ts ps _ _ ih =>
      have hdrop : (w.map Segment.kept ++ ss ++ ss').drop w.length = ss ++ ss' := by
        rw [List.append_assoc, List.drop_append_of_le_length (by simp)]
        simp
      rw [List.length_nil, List.cons_append, recut, hdrop]
      exact congrArg (List.cons _) ih

theorem Recut.mask_eq {p : List alpha} {ss ts : List (Segment label alpha)}
    {ps : List (Piece alpha)} (h : Recut placeholder l p ss ps ts) (hp : p = [])
    (hcuts : cuts ss = []) : mask ts = pieceMask ps := by
  induction h with
  | nil => rfl
  | pass _ _ => cases hp
  | keep _ ih => exact congrArg (List.cons false) (ih rfl hcuts)
  | old _ _ _ => cases hcuts
  | @hit w ss ts ps _ _ ih =>
      rw [cuts_append, List.append_eq_nil_iff] at hcuts
      exact congrArg (List.append (w.map fun _ => true)) (ih rfl hcuts.right)

end Recuts

/-!
# Stretches of which nothing is cut
-/

section Stretches

variable {ss : List (Segment label alpha)}

theorem eq_nil_of_original (hcuts : forall l w, Segment.cut l w ∈ ss -> w ≠ [])
    (h : original ss = []) : ss = [] := by
  cases ss with
  | nil => rfl
  | cons s ss =>
      exfalso
      cases s with
      | kept c => cases h
      | cut l w =>
          exact hcuts l w List.mem_cons_self (List.append_eq_nil_iff.mp h).left

/-- The segments of a stretch of which nothing is cut. -/
theorem segments_at (hcuts : forall l w, Segment.cut l w ∈ ss -> w ≠ []) (first count : Nat)
    (hcount : 0 < count) (hlength : first + count ≤ (original ss).length)
    (h : forall j, first ≤ j -> j < first + count -> (mask ss)[j]? ≠ some true) :
    exists front, exists w : List alpha, exists back,
      ss = front ++ (w.map Segment.kept ++ back) ∧
        (original front).length = first ∧ w.length = count := by
  induction ss generalizing first count with
  | nil =>
      simp only [original_nil, List.length_nil] at hlength
      omega
  | cons s ss ih =>
      have hcuts' : forall l w, Segment.cut l w ∈ ss -> w ≠ [] :=
        fun l w hmem => hcuts l w (List.mem_cons_of_mem s hmem)
      cases s with
      | kept c =>
          have hshift : forall j, (mask (Segment.kept c :: ss))[j + 1]? =
              (mask ss)[j]? := fun j => rfl
          simp only [original_cons, Segment.source, List.singleton_append,
            List.length_cons] at hlength
          cases first with
          | succ first =>
              rcases ih hcuts' first count hcount (by omega) (by
                  intro j hleast hmost
                  rw [<- hshift]
                  exact h (j + 1) (by omega) (by omega)) with
                ⟨front, w, back, rfl, hfront, hw⟩
              exact ⟨Segment.kept c :: front, w, back, rfl,
                by simp [Segment.source, hfront], hw⟩
          | zero =>
              cases count with
              | zero => cases hcount
              | succ count =>
                  cases count with
                  | zero => exact ⟨[], [c], ss, rfl, rfl, rfl⟩
                  | succ count =>
                      rcases ih hcuts' 0 (count + 1) (Nat.succ_pos count) (by omega) (by
                          intro j hleast hmost
                          rw [<- hshift]
                          exact h (j + 1) (by omega) (by omega)) with
                        ⟨front, w, back, rfl, hfront, hw⟩
                      have hnil : front = [] :=
                        eq_nil_of_original
                          (fun l u hmem => hcuts' l u (List.mem_append_left _ hmem))
                          (List.length_eq_zero_iff.mp hfront)
                      subst hnil
                      exact ⟨[], c :: w, back, rfl, rfl, by rw [List.length_cons, hw]⟩
      | cut l u =>
          have hmask : mask (Segment.cut l u :: ss) = u.map (fun _ => true) ++ mask ss := rfl
          simp only [original_cons, Segment.source, List.length_append] at hlength
          have hpassed : u.length ≤ first := by
            by_contra hinside
            apply h first (Nat.le_refl _) (by omega)
            rw [hmask, List.getElem?_append_left (by simpa using hinside),
              List.getElem?_map, List.getElem?_eq_getElem (by omega)]
            rfl
          rcases ih hcuts' (first - u.length) count hcount (by omega) (by
              intro j hleast hmost
              have hj := h (j + u.length) (by omega) (by omega)
              rw [hmask, List.getElem?_append_right (by simp), List.length_map,
                Nat.add_sub_cancel] at hj
              exact hj) with ⟨front, w, back, rfl, hfront, hw⟩
          refine ⟨Segment.cut l u :: front, w, back, rfl, ?_, hw⟩
          rw [original_cons, List.length_append, hfront]
          exact Nat.add_sub_cancel' hpassed

end Stretches

end Library
end DomainAI
