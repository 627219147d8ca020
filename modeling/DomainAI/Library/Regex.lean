import Mathlib.Data.List.Basic
import Mathlib.Data.List.Induction

/-!
# Backtracking regular expressions

Patterns are matched the way a backtracking engine does: every pattern maps a
cursor in the text to the list of cursors it can stop at, in the order the
engine tries them, so the first entry is the match the engine reports.

The language of a pattern is defined separately by structural recursion.  For
patterns without zero-width assertions the two views agree in every context,
which is what lets a match be moved from one text into another.
-/

namespace DomainAI
namespace Library

/-- A position in a text; `before` is the text on its left, nearest first. -/
structure Cursor (alpha : Type) where
  before : List alpha
  after : List alpha
  deriving DecidableEq, Repr

namespace Cursor

def advance (cur : Cursor alpha) (w rest : List alpha) : Cursor alpha :=
  { before := w.reverse ++ cur.before, after := rest }

def atStart (text : List alpha) : Cursor alpha :=
  { before := [], after := text }

def text (cur : Cursor alpha) : List alpha :=
  cur.before.reverse ++ cur.after

end Cursor

/--
Patterns over an alphabet.  A repetition with two bounds takes an arbitrary
body that consumes input; the unbounded one repeats a single character class.
-/
inductive Regex (alpha : Type) where
  | chars (p : alpha -> Bool)
  | many (p : alpha -> Bool) (least : Nat)
  | seq (r s : Regex alpha)
  | alt (r s : Regex alpha)
  | opt (r : Regex alpha)
  | rep (r : Regex alpha) (least extra : Nat)
  | assert (p : Option alpha -> Option alpha -> Bool)

namespace Regex

/-- `^`. -/
def start (previous _next : Option alpha) : Bool :=
  previous.isNone

/-!
# Matching
-/

def charsEnds (p : alpha -> Bool) : Cursor alpha -> List (Cursor alpha)
  | { before := _, after := [] } => []
  | { before := b, after := c :: rest } =>
      if p c then [{ before := c :: b, after := rest }] else []

/-- Greedy repetition of a class: the longest run is tried first. -/
def manyEnds (p : alpha -> Bool) :
    Nat -> List alpha -> List alpha -> List (Cursor alpha)
  | least, b, [] =>
      if least = 0 then [{ before := b, after := [] }] else []
  | least, b, c :: rest =>
      (if p c then manyEnds p (least - 1) (c :: b) rest else []) ++
        (if least = 0 then [{ before := b, after := c :: rest }] else [])

def upToEnds (step : Cursor alpha -> List (Cursor alpha)) :
    Nat -> Cursor alpha -> List (Cursor alpha)
  | 0, cur => [cur]
  | extra + 1, cur => (step cur).flatMap (upToEnds step extra) ++ [cur]

def repEnds (step : Cursor alpha -> List (Cursor alpha)) (extra : Nat) :
    Nat -> Cursor alpha -> List (Cursor alpha)
  | 0, cur => upToEnds step extra cur
  | least + 1, cur => (step cur).flatMap (repEnds step extra least)

/-- The cursors a pattern can stop at, in backtracking order. -/
def ends : Regex alpha -> Cursor alpha -> List (Cursor alpha)
  | chars p, cur => charsEnds p cur
  | many p least, cur => manyEnds p least cur.before cur.after
  | seq r s, cur => (ends r cur).flatMap (ends s)
  | alt r s, cur => ends r cur ++ ends s cur
  | opt r, cur => ends r cur ++ [cur]
  | rep r least extra, cur => repEnds (ends r) extra least cur
  | assert p, cur => if p cur.before.head? cur.after.head? then [cur] else []

def matchLength (r : Regex alpha) (cur : Cursor alpha) : Option Nat :=
  (r.ends cur).head?.map fun stop => cur.after.length - stop.after.length

/-!
# Languages
-/

/-- The words a pattern can consume, assertions ignored. -/
def Words : Regex alpha -> List alpha -> Prop
  | chars p, w => exists c, p c = true ∧ w = [c]
  | many p least, w => least ≤ w.length ∧ forall c, c ∈ w -> p c = true
  | seq r s, w => exists u v, w = u ++ v ∧ Words r u ∧ Words s v
  | alt r s, w => Words r w ∨ Words s w
  | opt r, w => Words r w ∨ w = []
  | rep r least extra, w =>
      exists pieces : List (List alpha),
        w = pieces.flatten ∧ least ≤ pieces.length ∧
          pieces.length ≤ least + extra ∧ forall u, u ∈ pieces -> Words r u
  | assert _, w => w = []

/-- A pattern that looks at nothing but the characters it consumes. -/
def Plain : Regex alpha -> Bool
  | chars _ => true
  | many _ _ => true
  | seq r s => Plain r && Plain s
  | alt r s => Plain r && Plain s
  | opt r => Plain r
  | rep r _ _ => Plain r
  | assert _ => false

def Consumes (step : Cursor alpha -> List (Cursor alpha))
    (L : List alpha -> Prop) : Prop :=
  forall cur stop, stop ∈ step cur <->
    exists w, L w ∧ cur.after = w ++ stop.after ∧
      stop.before = w.reverse ++ cur.before

theorem charsEnds_consumes (p : alpha -> Bool) :
    Consumes (charsEnds p) (Words (chars p)) := by
  intro cur stop
  cases cur with
  | mk b a =>
      cases stop with
      | mk b' a' =>
          cases a with
          | nil =>
              constructor
              · intro h
                cases h
              · intro h
                rcases h with ⟨w, ⟨c, _hc, hw⟩, hafter, _⟩
                rw [hw] at hafter
                cases hafter
          | cons c rest =>
              constructor
              · intro h
                by_cases hc : p c = true
                · simp only [charsEnds, hc, if_true, List.mem_singleton,
                    Cursor.mk.injEq] at h
                  rcases h with ⟨hb, ha⟩
                  exact ⟨[c], ⟨c, hc, rfl⟩, by simp [ha], by simp [hb]⟩
                · simp [charsEnds, hc] at h
              · intro h
                rcases h with ⟨w, ⟨d, hd, hw⟩, hafter, hbefore⟩
                subst hw
                simp only [List.singleton_append, List.cons.injEq] at hafter
                rcases hafter with ⟨rfl, rfl⟩
                have hbefore' : b' = c :: b := by simpa using hbefore
                simp [charsEnds, hd, hbefore']

theorem mem_manyEnds (p : alpha -> Bool) (least : Nat) (b a : List alpha)
    (stop : Cursor alpha) :
    stop ∈ manyEnds p least b a <->
      exists w, Words (many p least) w ∧ a = w ++ stop.after ∧
        stop.before = w.reverse ++ b := by
  induction a generalizing least b with
  | nil =>
      constructor
      · intro h
        by_cases hleast : least = 0
        · simp only [manyEnds, hleast, if_true, List.mem_singleton] at h
          subst h
          exact ⟨[], ⟨by simp [hleast], by simp⟩, rfl, rfl⟩
        · simp [manyEnds, hleast] at h
      · intro h
        rcases h with ⟨w, ⟨hlen, _⟩, hafter, hbefore⟩
        rcases List.append_eq_nil_iff.mp hafter.symm with ⟨hw, hstop⟩
        subst hw
        have hleast : least = 0 := by simpa using hlen
        cases stop with
        | mk b' a' =>
            simp only at hstop
            simp only [List.reverse_nil, List.nil_append] at hbefore
            simp [manyEnds, hleast, hstop, hbefore]
  | cons c rest ih =>
      simp only [manyEnds, List.mem_append]
      constructor
      · intro hcase
        rcases hcase with h | h
        · by_cases hc : p c = true
          · rw [if_pos hc] at h
            rcases (ih (least - 1) (c :: b)).mp h with
              ⟨w, ⟨hlen, hall⟩, hafter, hbefore⟩
            refine ⟨c :: w, ⟨?_, ?_⟩, ?_, ?_⟩
            · simp only [List.length_cons]
              omega
            · intro d hd
              rcases List.mem_cons.mp hd with hd | hd
              · rw [hd]
                exact hc
              · exact hall d hd
            · rw [hafter]
              rfl
            · simpa using hbefore
          · simp [hc] at h
        · by_cases hleast : least = 0
          · simp only [hleast, if_true, List.mem_singleton] at h
            subst h
            exact ⟨[], ⟨by simp [hleast], by simp⟩, rfl, rfl⟩
          · simp [hleast] at h
      · intro h
        rcases h with ⟨w, ⟨hlen, hall⟩, hafter, hbefore⟩
        cases w with
        | nil =>
            have hleast : least = 0 := by simpa using hlen
            right
            cases stop with
            | mk b' a' =>
                simp only [List.nil_append] at hafter
                simp only [List.reverse_nil, List.nil_append] at hbefore
                simp [hleast, hafter, hbefore]
        | cons d v =>
            left
            simp only [List.cons_append, List.cons.injEq] at hafter
            rcases hafter with ⟨rfl, hrest⟩
            rw [if_pos (hall c (List.mem_cons_self ..))]
            refine (ih (least - 1) (c :: b)).mpr ⟨v, ⟨?_, ?_⟩, hrest, ?_⟩
            · simp only [List.length_cons] at hlen
              omega
            · intro e he
              exact hall e (List.mem_cons_of_mem c he)
            · simpa using hbefore

theorem seq_consumes {first second : Cursor alpha -> List (Cursor alpha)}
    {L M : List alpha -> Prop}
    (hfirst : Consumes first L) (hsecond : Consumes second M) :
    Consumes (fun cur => (first cur).flatMap second)
      (fun w => exists u v, w = u ++ v ∧ L u ∧ M v) := by
  intro cur stop
  rw [List.mem_flatMap]
  constructor
  · intro h
    rcases h with ⟨mid, hmid, hstop⟩
    rcases (hfirst cur mid).mp hmid with ⟨u, hu, hua, hub⟩
    rcases (hsecond mid stop).mp hstop with ⟨v, hv, hva, hvb⟩
    refine ⟨u ++ v, ⟨u, v, rfl, hu, hv⟩, ?_, ?_⟩
    · rw [hua, hva, List.append_assoc]
    · rw [hvb, hub, List.reverse_append, List.append_assoc]
  · intro h
    rcases h with ⟨w, ⟨u, v, rfl, hu, hv⟩, hafter, hbefore⟩
    refine ⟨cur.advance u (v ++ stop.after), ?_, ?_⟩
    · refine (hfirst cur _).mpr ⟨u, hu, ?_, rfl⟩
      rw [hafter, List.append_assoc]
      rfl
    · refine (hsecond _ stop).mpr ⟨v, hv, rfl, ?_⟩
      rw [hbefore, List.reverse_append, List.append_assoc]
      rfl

theorem stay_consumes :
    Consumes (fun cur : Cursor alpha => [cur]) (fun w => w = []) := by
  intro cur stop
  rw [List.mem_singleton]
  constructor
  · intro heq
    subst heq
    exact ⟨[], rfl, rfl, rfl⟩
  · intro h
    rcases h with ⟨w, rfl, hafter, hbefore⟩
    cases cur
    cases stop
    simp only [List.nil_append] at hafter
    simp only [List.reverse_nil, List.nil_append] at hbefore
    rw [hafter, hbefore]

theorem either_consumes {first second : Cursor alpha -> List (Cursor alpha)}
    {L M : List alpha -> Prop}
    (hfirst : Consumes first L) (hsecond : Consumes second M) :
    Consumes (fun cur => first cur ++ second cur) (fun w => L w ∨ M w) := by
  intro cur stop
  rw [List.mem_append, hfirst cur stop, hsecond cur stop]
  constructor
  · intro hcase
    rcases hcase with ⟨w, hw, hrest⟩ | ⟨w, hw, hrest⟩
    · exact ⟨w, Or.inl hw, hrest⟩
    · exact ⟨w, Or.inr hw, hrest⟩
  · intro h
    rcases h with ⟨w, hw | hw, hrest⟩
    · exact Or.inl ⟨w, hw, hrest⟩
    · exact Or.inr ⟨w, hw, hrest⟩

theorem consumes_congr {step : Cursor alpha -> List (Cursor alpha)}
    {L M : List alpha -> Prop} (h : Consumes step L)
    (heq : forall w, L w <-> M w) : Consumes step M := by
  have hLM : L = M := by
    funext w
    exact propext (heq w)
  rwa [← hLM]

theorem repEnds_consumes {step : Cursor alpha -> List (Cursor alpha)}
    {r : Regex alpha} (hstep : Consumes step (Words r)) (least extra : Nat) :
    Consumes (repEnds step extra least) (Words (rep r least extra)) := by
  induction least with
  | zero =>
      induction extra with
      | zero =>
          apply consumes_congr stay_consumes
          intro w
          constructor
          · intro heq
            subst heq
            exact ⟨[], rfl, Nat.le_refl _, Nat.le_refl _, by simp⟩
          · intro h
            rcases h with ⟨pieces, hw, _, hmost, _⟩
            have hnil : pieces = [] := List.length_eq_zero_iff.mp (by omega)
            rw [hw, hnil]
            rfl
      | succ extra ih =>
          refine consumes_congr
            (either_consumes (seq_consumes hstep ih) stay_consumes) ?_
          intro w
          constructor
          · intro hcase
            rcases hcase with ⟨u, v, rfl, hu, pieces, rfl, _, hmost, hall⟩ | rfl
            · refine ⟨u :: pieces, rfl, Nat.zero_le _, ?_, ?_⟩
              · simp only [List.length_cons]
                omega
              · intro x hx
                rcases List.mem_cons.mp hx with rfl | hx
                · exact hu
                · exact hall x hx
            · exact ⟨[], rfl, Nat.zero_le _, Nat.zero_le _, by simp⟩
          · intro h
            rcases h with ⟨pieces, rfl, _, hmost, hall⟩
            cases pieces with
            | nil => exact Or.inr rfl
            | cons u pieces =>
                left
                refine ⟨u, pieces.flatten, rfl,
                  hall u (List.mem_cons_self ..), pieces, rfl,
                  Nat.zero_le _, ?_, ?_⟩
                · simp only [List.length_cons] at hmost
                  omega
                · intro x hx
                  exact hall x (List.mem_cons_of_mem u hx)
  | succ least ih =>
      apply consumes_congr (seq_consumes hstep ih)
      intro w
      constructor
      · intro h
        rcases h with ⟨u, v, rfl, hu, pieces, rfl, hleast, hmost, hall⟩
        refine ⟨u :: pieces, rfl, ?_, ?_, ?_⟩
        · simp only [List.length_cons]
          omega
        · simp only [List.length_cons]
          omega
        · intro x hx
          rcases List.mem_cons.mp hx with rfl | hx
          · exact hu
          · exact hall x hx
      · intro h
        rcases h with ⟨pieces, rfl, hleast, hmost, hall⟩
        cases pieces with
        | nil =>
            simp only [List.length_nil] at hleast
            omega
        | cons u pieces =>
            refine ⟨u, pieces.flatten, rfl,
              hall u (List.mem_cons_self ..), pieces, rfl, ?_, ?_, ?_⟩
            · simp only [List.length_cons] at hleast
              omega
            · simp only [List.length_cons] at hmost
              omega
            · intro x hx
              exact hall x (List.mem_cons_of_mem u hx)

/-- A plain pattern consumes its words in every context and nothing else. -/
theorem ends_consumes {r : Regex alpha} (hplain : r.Plain = true) :
    Consumes r.ends r.Words := by
  induction r with
  | chars p =>
      exact charsEnds_consumes p
  | many p least =>
      intro cur stop
      exact mem_manyEnds p least cur.before cur.after stop
  | seq r s ihr ihs =>
      simp only [Plain, Bool.and_eq_true] at hplain
      exact seq_consumes (ihr hplain.left) (ihs hplain.right)
  | alt r s ihr ihs =>
      simp only [Plain, Bool.and_eq_true] at hplain
      exact either_consumes (ihr hplain.left) (ihs hplain.right)
  | opt r ih =>
      exact either_consumes (ih hplain) stay_consumes
  | rep r least extra ih =>
      exact repEnds_consumes (ih hplain) least extra
  | assert p =>
      cases hplain

/-!
# Forward motion

Assertions only filter cursors, so every stopping cursor lies ahead of the
starting one even when the pattern is not plain.
-/

def Moves (step : Cursor alpha -> List (Cursor alpha)) : Prop :=
  forall cur stop, stop ∈ step cur ->
    exists w, cur.after = w ++ stop.after ∧
      stop.before = w.reverse ++ cur.before

theorem moves_of_consumes {step : Cursor alpha -> List (Cursor alpha)}
    {L : List alpha -> Prop} (h : Consumes step L) : Moves step := by
  intro cur stop hstop
  rcases (h cur stop).mp hstop with ⟨w, _, hafter, hbefore⟩
  exact ⟨w, hafter, hbefore⟩

theorem moves_stay : Moves (fun cur : Cursor alpha => [cur]) :=
  moves_of_consumes stay_consumes

theorem moves_seq {first second : Cursor alpha -> List (Cursor alpha)}
    (hfirst : Moves first) (hsecond : Moves second) :
    Moves (fun cur => (first cur).flatMap second) := by
  intro cur stop hstop
  rcases List.mem_flatMap.mp hstop with ⟨mid, hmid, hend⟩
  rcases hfirst cur mid hmid with ⟨u, hua, hub⟩
  rcases hsecond mid stop hend with ⟨v, hva, hvb⟩
  refine ⟨u ++ v, ?_, ?_⟩
  · rw [hua, hva, List.append_assoc]
  · rw [hvb, hub, List.reverse_append, List.append_assoc]

theorem moves_either {first second : Cursor alpha -> List (Cursor alpha)}
    (hfirst : Moves first) (hsecond : Moves second) :
    Moves (fun cur => first cur ++ second cur) := by
  intro cur stop hstop
  rcases List.mem_append.mp hstop with h | h
  · exact hfirst cur stop h
  · exact hsecond cur stop h

theorem moves_rep {step : Cursor alpha -> List (Cursor alpha)}
    (hstep : Moves step) (least extra : Nat) :
    Moves (repEnds step extra least) := by
  induction least with
  | zero =>
      induction extra with
      | zero => exact moves_stay
      | succ extra ih => exact moves_either (moves_seq hstep ih) moves_stay
  | succ least ih => exact moves_seq hstep ih

theorem ends_moves (r : Regex alpha) : Moves r.ends := by
  induction r with
  | chars p => exact moves_of_consumes (charsEnds_consumes p)
  | many p least =>
      exact moves_of_consumes (ends_consumes (r := many p least) rfl)
  | seq r s ihr ihs => exact moves_seq ihr ihs
  | alt r s ihr ihs => exact moves_either ihr ihs
  | opt r ih => exact moves_either ih moves_stay
  | rep r least extra ih => exact moves_rep ih least extra
  | assert p =>
      intro cur stop hstop
      by_cases h : p cur.before.head? cur.after.head? = true
      · simp only [ends, h, if_true, List.mem_singleton] at hstop
        subst hstop
        exact ⟨[], rfl, rfl⟩
      · simp [ends, h] at hstop

/-!
# Patterns between two assertions
-/

def framed (opening closing : Option alpha -> Option alpha -> Bool)
    (core : Regex alpha) : Regex alpha :=
  seq (assert opening) (seq core (assert closing))

theorem mem_framed_ends {opening closing : Option alpha -> Option alpha -> Bool}
    {core : Regex alpha} (hplain : core.Plain = true)
    (cur stop : Cursor alpha) :
    stop ∈ (framed opening closing core).ends cur <->
      opening cur.before.head? cur.after.head? = true ∧
        closing stop.before.head? stop.after.head? = true ∧
        exists w, core.Words w ∧ cur.after = w ++ stop.after ∧
          stop.before = w.reverse ++ cur.before := by
  rw [← ends_consumes hplain cur stop]
  constructor
  · intro h
    rcases List.mem_flatMap.mp h with ⟨first, hfirst, hrest⟩
    rcases List.mem_flatMap.mp hrest with ⟨last, hlast, hstop⟩
    by_cases ho : opening cur.before.head? cur.after.head? = true
    · simp only [ends, ho, if_true, List.mem_singleton] at hfirst
      subst hfirst
      by_cases hc : closing last.before.head? last.after.head? = true
      · simp only [ends, hc, if_true, List.mem_singleton] at hstop
        subst hstop
        exact ⟨ho, hc, hlast⟩
      · simp [ends, hc] at hstop
    · simp [ends, ho] at hfirst
  · intro h
    rcases h with ⟨ho, hc, hcore⟩
    refine List.mem_flatMap.mpr ⟨cur, by simp [ends, ho], ?_⟩
    exact List.mem_flatMap.mpr ⟨stop, hcore, by simp [ends, hc]⟩

/-!
# Letters of a pattern

The characters a pattern can consume at all, as a first letter, and as a last
letter, computed from the pattern.
-/

def nullable : Regex alpha -> Bool
  | chars _ => false
  | many _ least => least == 0
  | seq r s => nullable r && nullable s
  | alt r s => nullable r || nullable s
  | opt _ => true
  | rep r least _ => least == 0 || nullable r
  | assert _ => true

def letters : Regex alpha -> alpha -> Bool
  | chars p, c => p c
  | many p _, c => p c
  | seq r s, c => letters r c || letters s c
  | alt r s, c => letters r c || letters s c
  | opt r, c => letters r c
  | rep r _ _, c => letters r c
  | assert _, _ => false

def firsts : Regex alpha -> alpha -> Bool
  | chars p, c => p c
  | many p _, c => p c
  | seq r s, c => firsts r c || (nullable r && firsts s c)
  | alt r s, c => firsts r c || firsts s c
  | opt r, c => firsts r c
  | rep r _ _, c => firsts r c
  | assert _, _ => false

def lasts : Regex alpha -> alpha -> Bool
  | chars p, c => p c
  | many p _, c => p c
  | seq r s, c => lasts s c || (nullable s && lasts r c)
  | alt r s, c => lasts r c || lasts s c
  | opt r, c => lasts r c
  | rep r _ _, c => lasts r c
  | assert _, _ => false

theorem nullable_of_words_nil {r : Regex alpha} (h : r.Words []) :
    r.nullable = true := by
  induction r with
  | chars p =>
      rcases h with ⟨c, _, hw⟩
      cases hw
  | many p least =>
      have hleast : least = 0 := by simpa using h.left
      simp [nullable, hleast]
  | seq r s ihr ihs =>
      rcases h with ⟨u, v, huv, hu, hv⟩
      rcases List.append_eq_nil_iff.mp huv.symm with ⟨rfl, rfl⟩
      simp [nullable, ihr hu, ihs hv]
  | alt r s ihr ihs =>
      rcases h with hr | hs
      · simp [nullable, ihr hr]
      · simp [nullable, ihs hs]
  | opt r ih => rfl
  | rep r least extra ih =>
      rcases h with ⟨pieces, hw, hleast, _, hall⟩
      cases pieces with
      | nil =>
          have hzero : least = 0 := by simpa using hleast
          simp [nullable, hzero]
      | cons u pieces =>
          have hu : u = [] := (List.append_eq_nil_iff.mp hw.symm).left
          have hbody : r.nullable = true := by
            apply ih
            rw [← hu]
            exact hall u (List.mem_cons_self ..)
          simp [nullable, hbody]
  | assert p => rfl

theorem words_ne_nil {r : Regex alpha} {w : List alpha}
    (hnull : r.nullable = false) (h : r.Words w) : w ≠ [] := by
  intro hw
  rw [hw] at h
  rw [nullable_of_words_nil h] at hnull
  cases hnull

theorem words_letters {r : Regex alpha} {w : List alpha} (h : r.Words w) :
    forall c, c ∈ w -> r.letters c = true := by
  induction r generalizing w with
  | chars p =>
      rcases h with ⟨d, hd, rfl⟩
      intro c hc
      rw [List.mem_singleton.mp hc]
      exact hd
  | many p least => exact h.right
  | seq r s ihr ihs =>
      rcases h with ⟨u, v, rfl, hu, hv⟩
      intro c hc
      rcases List.mem_append.mp hc with hc | hc
      · simp [letters, ihr hu c hc]
      · simp [letters, ihs hv c hc]
  | alt r s ihr ihs =>
      intro c hc
      rcases h with hr | hs
      · simp [letters, ihr hr c hc]
      · simp [letters, ihs hs c hc]
  | opt r ih =>
      rcases h with hr | rfl
      · exact ih hr
      · intro c hc
        cases hc
  | rep r least extra ih =>
      rcases h with ⟨pieces, rfl, _, _, hall⟩
      intro c hc
      rcases List.mem_flatten.mp hc with ⟨u, hu, hcu⟩
      exact ih (hall u hu) c hcu
  | assert p =>
      rw [show w = [] from h]
      intro c hc
      cases hc

theorem words_firsts {r : Regex alpha} {c : alpha} {w : List alpha}
    (h : r.Words (c :: w)) : r.firsts c = true := by
  induction r generalizing w with
  | chars p =>
      rcases h with ⟨d, hd, hw⟩
      cases hw
      exact hd
  | many p least => exact h.right c (List.mem_cons_self ..)
  | seq r s ihr ihs =>
      rcases h with ⟨u, v, huv, hu, hv⟩
      cases u with
      | nil =>
          simp only [List.nil_append] at huv
          subst huv
          simp [firsts, nullable_of_words_nil hu, ihs hv]
      | cons d u =>
          simp only [List.cons_append, List.cons.injEq] at huv
          rcases huv with ⟨rfl, _⟩
          simp [firsts, ihr hu]
  | alt r s ihr ihs =>
      rcases h with hr | hs
      · simp [firsts, ihr hr]
      · simp [firsts, ihs hs]
  | opt r ih =>
      rcases h with hr | hnil
      · exact ih hr
      · cases hnil
  | rep r least extra ih =>
      rcases h with ⟨pieces, hw, _, _, hall⟩
      clear * - hw hall ih
      -- The first letter comes from the first piece that is not empty.
      induction pieces with
      | nil => cases hw
      | cons u pieces ihp =>
          cases u with
          | nil =>
              exact ihp hw (fun x hx => hall x (List.mem_cons_of_mem _ hx))
          | cons d u =>
              simp only [List.flatten_cons, List.cons_append,
                List.cons.injEq] at hw
              rcases hw with ⟨rfl, _⟩
              exact ih (hall (c :: u) (List.mem_cons_self ..))
  | assert p => cases h

theorem words_lasts {r : Regex alpha} {c : alpha} {w : List alpha}
    (h : r.Words (w ++ [c])) : r.lasts c = true := by
  induction r generalizing w with
  | chars p =>
      rcases h with ⟨d, hd, hw⟩
      have hc : c = d := by
        have hlast := congrArg List.getLast? hw
        simpa using hlast
      rw [hc]
      exact hd
  | many p least => exact h.right c (by simp)
  | seq r s ihr ihs =>
      rcases h with ⟨u, v, huv, hu, hv⟩
      rcases List.eq_nil_or_concat v with rfl | ⟨v', d, rfl⟩
      · simp only [List.append_nil] at huv
        subst huv
        simp [lasts, nullable_of_words_nil hv, ihr hu]
      · rw [List.concat_eq_append, ← List.append_assoc] at huv
        have hcd : c = d := (List.append_inj' huv rfl).right |> List.cons.inj |>.left
        subst hcd
        rw [List.concat_eq_append] at hv
        simp [lasts, ihs hv]
  | alt r s ihr ihs =>
      rcases h with hr | hs
      · simp [lasts, ihr hr]
      · simp [lasts, ihs hs]
  | opt r ih =>
      rcases h with hr | hnil
      · exact ih hr
      · simp at hnil
  | rep r least extra ih =>
      rcases h with ⟨pieces, hw, _, _, hall⟩
      clear * - hw hall ih
      -- Symmetrically, the last letter comes from the last nonempty piece.
      induction pieces using List.reverseRecOn generalizing w with
      | nil => simp at hw
      | append_singleton pieces u ihp =>
          rcases List.eq_nil_or_concat u with rfl | ⟨u', d, rfl⟩
          · refine ihp (w := w) ?_ (fun x hx => hall x (by simp [hx]))
            simpa using hw
          · have hflat : w ++ [c] = (pieces.flatten ++ u') ++ [d] := by
              simpa [List.append_assoc] using hw
            have hcd : c = d :=
              (List.append_inj' hflat rfl).right |> List.cons.inj |>.left
            subst hcd
            apply ih (w := u')
            rw [← List.concat_eq_append]
            exact hall _ (by simp)
  | assert p =>
      have hnil : w ++ [c] = [] := h
      simp at hnil

end Regex

end Library
end DomainAI
