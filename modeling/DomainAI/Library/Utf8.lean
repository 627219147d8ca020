import Mathlib.Data.List.Basic

/-!
# UTF-8

The well-formed byte sequences of the Unicode standard, one for each code point, and
where they stand in a string of bytes.  A reader that goes by lead and continuation
bytes alone takes in more; whatever it takes in, it parts between code points.
-/

namespace DomainAI
namespace Library
namespace Utf8

/-!
# Sequences
-/

def within (low high b : UInt8) : Bool :=
  low ≤ b && b ≤ high

def isTail (b : UInt8) : Bool :=
  within 0x80 0xBF b

/-- The well-formed sequences: nothing overlong, no surrogates, nothing above
U+10FFFF. -/
def isSequence : List UInt8 -> Bool
  | [a] => within 0x00 0x7F a
  | [a, b] => within 0xC2 0xDF a && isTail b
  | [a, b, c] =>
      (a == 0xE0 && within 0xA0 0xBF b || within 0xE1 0xEC a && isTail b ||
        a == 0xED && within 0x80 0x9F b || within 0xEE 0xEF a && isTail b) && isTail c
  | [a, b, c, d] =>
      (a == 0xF0 && within 0x90 0xBF b || within 0xF1 0xF3 a && isTail b ||
        a == 0xF4 && within 0x80 0x8F b) && isTail c && isTail d
  | _ => false

def WellFormed (bytes : List UInt8) : Prop :=
  exists ss : List (List UInt8),
    (forall s, s ∈ ss -> isSequence s = true) ∧ bytes = ss.flatten

def leading (bytes : List UInt8) : Option (List UInt8) :=
  [bytes.take 1, bytes.take 2, bytes.take 3, bytes.take 4].find? isSequence

/-- The complete code points in a string of bytes, whatever stands between them. -/
def codePoints : List UInt8 -> List (List UInt8)
  | [] => []
  | b :: rest => (leading (b :: rest)).toList ++ codePoints rest

example : codePoints [0xFF, 0x61, 0xE2, 0x82, 0xE2, 0x82, 0xAC, 0xC3] =
    [[0x61], [0xE2, 0x82, 0xAC]] := by
  decide

theorem within_iff {low high b : UInt8} :
    within low high b = true <-> low.toNat ≤ b.toNat ∧ b.toNat ≤ high.toNat := by
  rw [within, Bool.and_eq_true, decide_eq_true_eq, decide_eq_true_eq,
    UInt8.le_iff_toNat_le, UInt8.le_iff_toNat_le]

theorem within_mono {low high low' high' b : UInt8} (hlow : low'.toNat ≤ low.toNat)
    (hhigh : high.toNat ≤ high'.toNat) (h : within low high b = true) :
    within low' high' b = true := by
  rw [within_iff] at h ⊢
  omega

theorem isSequence_cases {s : List UInt8} (h : isSequence s = true) :
    (exists a, s = [a] ∧ within 0x00 0x7F a = true) ∨
    (exists a b, s = [a, b] ∧ within 0xC2 0xDF a = true ∧ isTail b = true) ∨
    (exists a b c, s = [a, b, c] ∧ within 0xE0 0xEF a = true ∧ isTail b = true ∧
      isTail c = true) ∨
    (exists a b c d, s = [a, b, c, d] ∧ within 0xF0 0xF4 a = true ∧ isTail b = true ∧
      isTail c = true ∧ isTail d = true) := by
  unfold isSequence at h
  split at h
  · exact Or.inl ⟨_, rfl, h⟩
  · rw [Bool.and_eq_true] at h
    exact Or.inr (Or.inl ⟨_, _, rfl, h⟩)
  · simp only [Bool.and_eq_true, Bool.or_eq_true, beq_iff_eq] at h
    refine Or.inr (Or.inr (Or.inl ⟨_, _, _, rfl, ?_, ?_, h.right⟩))
    · rcases h.left with ((⟨rfl, _⟩ | ⟨ha, _⟩) | ⟨rfl, _⟩) | ⟨ha, _⟩
      · rfl
      · exact within_mono (by decide) (by decide) ha
      · rfl
      · exact within_mono (by decide) (by decide) ha
    · rcases h.left with ((⟨_, hb⟩ | ⟨_, hb⟩) | ⟨_, hb⟩) | ⟨_, hb⟩
      · exact within_mono (by decide) (by decide) hb
      · exact hb
      · exact within_mono (by decide) (by decide) hb
      · exact hb
  · simp only [Bool.and_eq_true, Bool.or_eq_true, beq_iff_eq] at h
    refine Or.inr (Or.inr (Or.inr ⟨_, _, _, _, rfl, ?_, ?_, h.left.right, h.right⟩))
    · rcases h.left.left with (⟨rfl, _⟩ | ⟨ha, _⟩) | ⟨rfl, _⟩
      · rfl
      · exact within_mono (by decide) (by decide) ha
      · rfl
    · rcases h.left.left with (⟨_, hb⟩ | ⟨_, hb⟩) | ⟨_, hb⟩
      · exact within_mono (by decide) (by decide) hb
      · exact hb
      · exact within_mono (by decide) (by decide) hb
  · cases h

theorem isSequence_length {s : List UInt8} (h : isSequence s = true) :
    1 ≤ s.length ∧ s.length ≤ 4 := by
  rcases isSequence_cases h with
    ⟨_, rfl, _⟩ | ⟨_, _, rfl, _⟩ | ⟨_, _, _, rfl, _⟩ | ⟨_, _, _, _, rfl, _⟩
  all_goals simp

theorem not_isSequence_of_tail {b : UInt8} {rest : List UInt8} (h : isTail b = true) :
    isSequence (b :: rest) = false := by
  rw [isTail, within_iff] at h
  rw [Bool.eq_false_iff]
  intro hs
  rcases isSequence_cases hs with
    ⟨a, ha, hlead⟩ | ⟨a, _, ha, hlead, _⟩ | ⟨a, _, _, ha, hlead, _⟩ |
      ⟨a, _, _, _, ha, hlead, _⟩
  all_goals
    cases ha
    rw [within_iff] at hlead
    have hbounds := hlead
    simp at h hbounds
    omega

/-!
# Forbidden sequences
-/

/-- The sequences of the right shape that Unicode forbids: overlong ones, surrogates,
and those above U+10FFFF. -/
def isForbidden : List UInt8 -> Bool
  | [a, b] => within 0xC0 0xC1 a && isTail b
  | [a, b, c] =>
      (a == 0xE0 && within 0x80 0x9F b || a == 0xED && within 0xA0 0xBF b) &&
        isTail c
  | [a, b, c, d] =>
      (a == 0xF0 && within 0x80 0x8F b || a == 0xF4 && within 0x90 0xBF b ||
        within 0xF5 0xF7 a && isTail b) && isTail c && isTail d
  | _ => false

def Lax (bytes : List UInt8) : Prop :=
  exists ss : List (List UInt8),
    (forall s, s ∈ ss -> isSequence s = true ∨ isForbidden s = true) ∧
      (exists s, s ∈ ss ∧ isForbidden s = true) ∧ bytes = ss.flatten

theorem beq_iff_toNat {a b : UInt8} : (a == b) = true <-> a.toNat = b.toNat := by
  rw [beq_iff_eq, UInt8.toNat_inj]

theorem isForbidden_cases {s : List UInt8} (h : isForbidden s = true) :
    (exists a b, s = [a, b] ∧ 0xC0 ≤ a.toNat ∧ a.toNat < 0xC2 ∧ isTail b = true) ∨
    (exists a b c, s = [a, b, c] ∧
      (a.toNat = 0xE0 ∧ 0x80 ≤ b.toNat ∧ b.toNat < 0xA0 ∨
        a.toNat = 0xED ∧ 0xA0 ≤ b.toNat ∧ b.toNat < 0xC0) ∧ isTail c = true) ∨
    (exists a b c d, s = [a, b, c, d] ∧
      (a.toNat = 0xF0 ∧ 0x80 ≤ b.toNat ∧ b.toNat < 0x90 ∨
        a.toNat = 0xF4 ∧ 0x90 ≤ b.toNat ∧ b.toNat < 0xC0 ∨
        0xF5 ≤ a.toNat ∧ a.toNat < 0xF8 ∧ 0x80 ≤ b.toNat ∧ b.toNat < 0xC0) ∧
      isTail c = true ∧ isTail d = true) := by
  unfold isForbidden at h
  split at h
  · rename_i a b
    simp only [Bool.and_eq_true, within_iff, UInt8.reduceToNat] at h
    exact Or.inl ⟨a, b, rfl, by omega, by omega, h.right⟩
  · rename_i a b c
    simp only [Bool.and_eq_true, Bool.or_eq_true, within_iff, beq_iff_toNat,
      UInt8.reduceToNat] at h
    exact Or.inr (Or.inl ⟨a, b, c, rfl, by omega, h.right⟩)
  · rename_i a b c d
    simp only [Bool.and_eq_true, Bool.or_eq_true] at h
    have hlead := h.left.left
    rw [isTail] at hlead
    simp only [within_iff, beq_iff_toNat, UInt8.reduceToNat] at hlead
    exact Or.inr (Or.inr ⟨a, b, c, d, rfl, by omega, h.left.right, h.right⟩)
  · cases h

theorem isTail_of_bounds {b : UInt8} (h : 0x80 ≤ b.toNat) (h' : b.toNat < 0xC0) :
    isTail b = true := by
  rw [isTail, within_iff]
  simp only [UInt8.reduceToNat]
  omega

theorem not_isSequence_of_forbidden {s : List UInt8} (h : isForbidden s = true) :
    isSequence s ≠ true := by
  rcases isForbidden_cases h with
    ⟨a, b, rfl, ha, ha', hb⟩ | ⟨a, b, c, rfl, hab, hc⟩ | ⟨a, b, c, d, rfl, hab, hc, hd⟩
  · simp only [isSequence, Bool.and_eq_true, ne_eq, within_iff,
      UInt8.reduceToNat]
    omega
  · have hb := isTail_of_bounds (b := b) (by omega) (by omega)
    simp only [isSequence, hb, hc, Bool.and_true, Bool.or_eq_true, Bool.and_eq_true,
      ne_eq, within_iff, beq_iff_toNat, UInt8.reduceToNat]
    omega
  · have hb := isTail_of_bounds (b := b) (by omega) (by omega)
    simp only [isSequence, hb, hc, hd, Bool.and_true, Bool.or_eq_true,
      Bool.and_eq_true, ne_eq, within_iff, beq_iff_toNat, UInt8.reduceToNat]
    omega

/-!
# Readers

A reader tells from a byte how long a sequence is that begins with it, and takes the
rest of it to be continuation bytes.
-/

structure Reader where
  length : UInt8 -> Option Nat
  continues : UInt8 -> Bool
  isTail_of_continues : forall b, continues b = true -> isTail b = true
  reads : forall a rest, isSequence (a :: rest) = true ->
    length a = some (rest.length + 1) ∧ forall b, b ∈ rest -> continues b = true

namespace Reader

variable (R : Reader)

/-- What the reader takes for one sequence. -/
def Frame (s : List UInt8) : Prop :=
  exists a rest, s = a :: rest ∧ R.length a = some (rest.length + 1) ∧
    forall b, b ∈ rest -> R.continues b = true

def Accepts (bytes : List UInt8) : Prop :=
  exists ss : List (List UInt8), (forall s, s ∈ ss -> R.Frame s) ∧ bytes = ss.flatten

variable {R} {x y : List UInt8}

theorem frame_of_isSequence {s : List UInt8} (h : isSequence s = true) : R.Frame s := by
  cases s with
  | nil => cases h
  | cons a rest => exact ⟨a, rest, rfl, R.reads a rest h⟩

theorem accepts_nil : R.Accepts [] :=
  ⟨[], by simp, rfl⟩

theorem accepts_of_wellFormed (h : WellFormed x) : R.Accepts x := by
  rcases h with ⟨ss, hss, rfl⟩
  exact ⟨ss, fun s hs => frame_of_isSequence (hss s hs), rfl⟩

theorem accepts_append (hx : R.Accepts x) (hy : R.Accepts y) : R.Accepts (x ++ y) := by
  rcases hx with ⟨ss, hss, rfl⟩
  rcases hy with ⟨ts, hts, rfl⟩
  refine ⟨ss ++ ts, ?_, List.flatten_append.symm⟩
  intro s hs
  rcases List.mem_append.mp hs with hs | hs
  · exact hss s hs
  · exact hts s hs

/-- A byte string is read in one way only. -/
theorem frames_of_flatten_append {ss ts : List (List UInt8)}
    (hss : forall s, s ∈ ss -> R.Frame s) (hts : forall t, t ∈ ts -> R.Frame t)
    (h : ss.flatten ++ x = ts.flatten) :
    exists us, ts = ss ++ us ∧ x = us.flatten := by
  induction ss generalizing ts with
  | nil => exact ⟨ts, rfl, h⟩
  | cons s ss ih =>
      rcases hss s List.mem_cons_self with ⟨a, rest, rfl, hlength, _⟩
      cases ts with
      | nil => simp at h
      | cons t ts =>
          rcases hts t List.mem_cons_self with ⟨a', rest', rfl, hlength', _⟩
          simp only [List.flatten_cons, List.cons_append, List.append_assoc,
            List.cons.injEq] at h
          rcases h with ⟨rfl, h⟩
          have hsame : rest.length = rest'.length := by
            rw [hlength] at hlength'
            exact Nat.succ.inj (Option.some.inj hlength')
          rcases List.append_inj h hsame with ⟨rfl, hrest⟩
          rcases ih (fun s hs => hss s (List.mem_cons_of_mem _ hs))
            (fun t ht => hts t (List.mem_cons_of_mem _ ht)) hrest with ⟨us, rfl, hx⟩
          exact ⟨us, rfl, hx⟩

theorem accepts_of_append (hx : R.Accepts x) (h : R.Accepts (x ++ y)) : R.Accepts y := by
  rcases hx with ⟨ss, hss, rfl⟩
  rcases h with ⟨ts, hts, hflatten⟩
  rcases frames_of_flatten_append hss hts hflatten with ⟨us, rfl, hy⟩
  exact ⟨us, fun s hs => hts s (List.mem_append_right ss hs), hy⟩

theorem accepts_cons_iff {a : UInt8} {rest : List UInt8}
    (hlength : R.length a = some (rest.length + 1)) :
    R.Accepts (a :: rest ++ y) <->
      (forall b, b ∈ rest -> R.continues b = true) ∧ R.Accepts y := by
  constructor
  · intro h
    rcases h with ⟨ss, hss, hflatten⟩
    cases ss with
    | nil => cases hflatten
    | cons s ss =>
        rcases hss s List.mem_cons_self with ⟨a', rest', rfl, hlength', hrest'⟩
        simp only [List.flatten_cons, List.cons_append, List.cons.injEq] at hflatten
        rcases hflatten with ⟨rfl, hflatten⟩
        have hsame : rest.length = rest'.length := by
          rw [hlength] at hlength'
          exact Nat.succ.inj (Option.some.inj hlength')
        rcases List.append_inj hflatten hsame with ⟨rfl, hy⟩
        exact ⟨hrest', ss, fun s hs => hss s (List.mem_cons_of_mem _ hs), hy⟩
  · intro h
    have hframe : R.Accepts (a :: rest) :=
      ⟨[a :: rest], by
        intro s hs
        rw [List.mem_singleton.mp hs]
        exact ⟨a, rest, rfl, hlength, h.left⟩, by simp⟩
    exact accepts_append hframe h.right

theorem length_of_accepts_cons {a : UInt8} (h : R.Accepts (a :: x)) :
    exists n, R.length a = some (n + 1) ∧ n ≤ x.length := by
  rcases h with ⟨ss, hss, hflatten⟩
  cases ss with
  | nil => cases hflatten
  | cons s ss =>
      rcases hss s List.mem_cons_self with ⟨a', rest', rfl, hlength', _⟩
      simp only [List.flatten_cons, List.cons_append, List.cons.injEq] at hflatten
      rcases hflatten with ⟨rfl, rfl⟩
      refine ⟨rest'.length, hlength', ?_⟩
      rw [List.length_append]
      exact Nat.le_add_right _ _

theorem wellFormed_of_append (hx : R.Accepts x) (h : WellFormed (x ++ y)) :
    WellFormed x ∧ WellFormed y := by
  rcases hx with ⟨ss, hss, rfl⟩
  rcases h with ⟨ts, hts, hflatten⟩
  rcases frames_of_flatten_append hss (fun t ht => frame_of_isSequence (hts t ht))
    hflatten with ⟨us, rfl, hy⟩
  constructor
  · exact ⟨ss, fun s hs => hts s (List.mem_append_left us hs), rfl⟩
  · exact ⟨us, fun s hs => hts s (List.mem_append_right ss hs), hy⟩

/-!
# Code points
-/

theorem eq_of_prefix_frame {s f : List UInt8} (hf : R.Frame f)
    (hs : isSequence s = true) (h : s <+: f ++ x) : s = f := by
  rcases hf with ⟨a, rest, rfl, hlength, _⟩
  rcases frame_of_isSequence (R := R) hs with ⟨a', rest', rfl, hlength', _⟩
  rcases h with ⟨z, hz⟩
  simp only [List.cons_append, List.cons.injEq] at hz
  rcases hz with ⟨rfl, hz⟩
  have hsame : rest'.length = rest.length := by
    rw [hlength] at hlength'
    exact Nat.succ.inj (Option.some.inj hlength'.symm)
  rw [(List.append_inj hz hsame).left]

theorem leading_prefix {s : List UInt8} (h : leading x = some s) : s <+: x := by
  have hmem := List.mem_of_find?_eq_some h
  simp only [List.mem_cons, List.not_mem_nil, or_false] at hmem
  rcases hmem with rfl | rfl | rfl | rfl
  all_goals exact List.take_prefix _ _

theorem leading_eq_some_iff (R : Reader) {s : List UInt8} :
    leading x = some s <-> isSequence s = true ∧ s <+: x := by
  constructor
  · intro h
    exact ⟨List.find?_some h, leading_prefix h⟩
  · intro h
    rcases h with ⟨hs, hprefix⟩
    have hlength := isSequence_length hs
    have hshort : s.length = 1 ∨ s.length = 2 ∨ s.length = 3 ∨ s.length = 4 := by
      omega
    have htake : s ∈ [x.take 1, x.take 2, x.take 3, x.take 4] := by
      rw [List.prefix_iff_eq_take.mp hprefix]
      rcases hshort with h | h | h | h
      all_goals simp [h]
    cases hleading : leading x with
    | none => exact absurd hs (List.find?_eq_none.mp hleading s htake)
    | some s' =>
        have hs' : isSequence s' = true := List.find?_some hleading
        have hprefix' := leading_prefix hleading
        rcases hprefix with ⟨z, rfl⟩
        rw [eq_of_prefix_frame (frame_of_isSequence (R := R) hs) hs' hprefix']

theorem leading_of_tail (R : Reader) {b : UInt8} (h : isTail b = true) :
    leading (b :: x) = none := by
  rw [Option.eq_none_iff_forall_ne_some]
  intro s hs
  rcases (leading_eq_some_iff R).mp hs with ⟨hsequence, hprefix⟩
  cases s with
  | nil => cases hsequence
  | cons a rest =>
      rcases hprefix with ⟨z, hz⟩
      cases hz
      rw [not_isSequence_of_tail h] at hsequence
      cases hsequence

theorem codePoints_tails (R : Reader) {tails : List UInt8}
    (h : forall b, b ∈ tails -> isTail b = true) :
    codePoints (tails ++ x) = codePoints x := by
  induction tails with
  | nil => rfl
  | cons b tails ih =>
      rw [List.cons_append, codePoints, leading_of_tail R (h b List.mem_cons_self),
        ih (fun c hc => h c (List.mem_cons_of_mem b hc))]
      rfl

/-- No code point reaches from one sequence into what follows. -/
theorem codePoints_frame {s : List UInt8} (h : R.Frame s) :
    codePoints (s ++ x) = codePoints s ++ codePoints x := by
  have hframe := h
  rcases h with ⟨a, rest, rfl, hlength, hrest⟩
  have htails : forall b, b ∈ rest -> isTail b = true :=
    fun b hb => R.isTail_of_continues b (hrest b hb)
  have hleading : leading (a :: rest ++ x) = leading (a :: rest) := by
    apply Option.ext
    intro s'
    rw [leading_eq_some_iff R, leading_eq_some_iff R]
    apply and_congr_right
    intro hs'
    constructor
    · intro hprefix
      have hsame := eq_of_prefix_frame hframe hs' hprefix
      exact ⟨[], by rw [hsame, List.append_nil]⟩
    · intro hprefix
      exact hprefix.trans (List.prefix_append _ _)
  have hnone : codePoints rest = [] := by
    have := codePoints_tails R (x := []) htails
    rwa [List.append_nil] at this
  rw [List.cons_append, codePoints, codePoints, hnone, List.append_nil,
    codePoints_tails R htails, <- List.cons_append, hleading]

theorem codePoints_append (hx : R.Accepts x) :
    codePoints (x ++ y) = codePoints x ++ codePoints y := by
  rcases hx with ⟨ss, hss, rfl⟩
  induction ss with
  | nil => rfl
  | cons s ss ih =>
      have hs := hss s List.mem_cons_self
      rw [List.flatten_cons, List.append_assoc, codePoints_frame hs, codePoints_frame hs,
        ih (fun s' hs' => hss s' (List.mem_cons_of_mem s hs')), List.append_assoc]

theorem codePoints_flatten {xs : List (List UInt8)}
    (h : forall x, x ∈ xs -> R.Accepts x) :
    codePoints xs.flatten = xs.flatMap codePoints := by
  induction xs with
  | nil => rfl
  | cons x xs ih =>
      rw [List.flatten_cons, codePoints_append (h x List.mem_cons_self), List.flatMap_cons,
        ih (fun x' hx' => h x' (List.mem_cons_of_mem x hx'))]

end Reader

theorem codePoints_suffix (x y : List UInt8) : codePoints y <:+ codePoints (x ++ y) := by
  induction x with
  | nil => exact List.suffix_refl _
  | cons b x ih =>
      rw [List.cons_append, codePoints]
      exact ih.trans (List.suffix_append _ _)

theorem nul_mem_codePoints {x : List UInt8} (h : 0 ∈ x) : [0] ∈ codePoints x := by
  rcases List.append_of_mem h with ⟨before, after, rfl⟩
  apply (codePoints_suffix before (0 :: after)).subset
  rw [codePoints]
  exact List.mem_append_left _ (by simp [leading, isSequence, within])

theorem infix_of_mem_codePoints {x s : List UInt8} (h : s ∈ codePoints x) : s <:+: x := by
  induction x with
  | nil => cases h
  | cons b x ih =>
      rw [codePoints, List.mem_append, Option.mem_toList] at h
      rcases h with h | h
      · exact (Reader.leading_prefix h).isInfix
      · exact (ih h).trans (List.suffix_cons b x).isInfix

end Utf8
end Library
end DomainAI
