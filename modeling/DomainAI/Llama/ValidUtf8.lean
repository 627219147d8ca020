import DomainAI.Llama.TokenPieces

/-!
# What passes for UTF-8

The bridge looks at the lead bytes and counts the continuation bytes.  It takes some
strings for UTF-8 that Unicode forbids, and these are all.
-/

namespace DomainAI
namespace Completion

open Library

/-!
# Frames
-/

theorem frame_cases {s : List UInt8} (h : reader.Frame s) :
    (exists a, s = [a] ∧ a.toNat < 0x80) ∨
    (exists a b, s = [a, b] ∧ 0xC0 ≤ a.toNat ∧ a.toNat < 0xE0 ∧ Utf8.isTail b = true) ∨
    (exists a b c, s = [a, b, c] ∧ 0xE0 ≤ a.toNat ∧ a.toNat < 0xF0 ∧
      Utf8.isTail b = true ∧ Utf8.isTail c = true) ∨
    (exists a b c d, s = [a, b, c, d] ∧ 0xF0 ≤ a.toNat ∧ a.toNat < 0xF8 ∧
      Utf8.isTail b = true ∧ Utf8.isTail c = true ∧ Utf8.isTail d = true) := by
  rcases h with ⟨a, rest, rfl, hlength, hrest⟩
  have htail : forall b, b ∈ rest -> Utf8.isTail b = true :=
    fun b hb => reader.isTail_of_continues b (hrest b hb)
  rcases sequenceLength_eq_some_iff.mp hlength with
    ⟨hlen, ha⟩ | ⟨hlen, ha, ha'⟩ | ⟨hlen, ha, ha'⟩ | ⟨hlen, ha, ha'⟩
  · rw [List.eq_nil_of_length_eq_zero (Nat.succ.inj hlen)]
    exact Or.inl ⟨a, rfl, ha⟩
  · rcases List.length_eq_one_iff.mp (Nat.succ.inj hlen) with ⟨b, rfl⟩
    exact Or.inr (Or.inl ⟨a, b, rfl, ha, ha', htail b (by simp)⟩)
  · rcases List.length_eq_two.mp (Nat.succ.inj hlen) with ⟨b, c, rfl⟩
    exact Or.inr (Or.inr (Or.inl
      ⟨a, b, c, rfl, ha, ha', htail b (by simp), htail c (by simp)⟩))
  · rcases List.length_eq_three.mp (Nat.succ.inj hlen) with ⟨b, c, d, rfl⟩
    exact Or.inr (Or.inr (Or.inr
      ⟨a, b, c, d, rfl, ha, ha', htail b (by simp), htail c (by simp), htail d (by simp)⟩))

theorem sequence_or_forbidden {s : List UInt8} (h : reader.Frame s) :
    Utf8.isSequence s = true ∨ Utf8.isForbidden s = true := by
  rcases frame_cases h with
    ⟨a, rfl, ha⟩ | ⟨a, b, rfl, ha, ha', hb⟩ | ⟨a, b, c, rfl, ha, ha', hb, hc⟩ |
      ⟨a, b, c, d, rfl, ha, ha', hb, hc, hd⟩
  · apply Or.inl
    rw [Utf8.isSequence, Utf8.within_iff]
    simp only [UInt8.reduceToNat]
    omega
  · simp only [Utf8.isSequence, Utf8.isForbidden, hb, Bool.and_true, Utf8.within_iff,
      UInt8.reduceToNat]
    omega
  · simp only [Utf8.isSequence, Utf8.isForbidden, hb, hc, Bool.and_true, Bool.or_eq_true,
      Bool.and_eq_true, Utf8.within_iff, Utf8.beq_iff_toNat, UInt8.reduceToNat]
    rw [Utf8.isTail, Utf8.within_iff] at hb
    simp only [UInt8.reduceToNat] at hb
    omega
  · simp only [Utf8.isSequence, Utf8.isForbidden, hb, hc, hd, Bool.and_true, Bool.or_eq_true,
      Bool.and_eq_true, Utf8.within_iff, Utf8.beq_iff_toNat, UInt8.reduceToNat]
    rw [Utf8.isTail, Utf8.within_iff] at hb
    simp only [UInt8.reduceToNat] at hb
    omega

theorem frame_of_tails {a : UInt8} {rest : List UInt8}
    (hlength : sequenceLength a = some (rest.length + 1))
    (h : forall b, b ∈ rest -> Utf8.isTail b = true) : reader.Frame (a :: rest) :=
  ⟨a, rest, rfl, hlength, fun b hb => isContinuation_iff.mpr (h b hb)⟩

theorem frame_of_forbidden {s : List UInt8} (h : Utf8.isForbidden s = true) :
    reader.Frame s := by
  rcases Utf8.isForbidden_cases h with
    ⟨a, b, rfl, ha, ha', hb⟩ | ⟨a, b, c, rfl, hab, hc⟩ | ⟨a, b, c, d, rfl, hab, hc, hd⟩
  · apply frame_of_tails
    · exact sequenceLength_eq_some_iff.mpr (Or.inr (Or.inl ⟨rfl, by omega, by omega⟩))
    · simp [hb]
  · have hb := Utf8.isTail_of_bounds (b := b) (by omega) (by omega)
    apply frame_of_tails
    · exact sequenceLength_eq_some_iff.mpr
        (Or.inr (Or.inr (Or.inl ⟨rfl, by omega, by omega⟩)))
    · simp [hb, hc]
  · have hb := Utf8.isTail_of_bounds (b := b) (by omega) (by omega)
    apply frame_of_tails
    · exact sequenceLength_eq_some_iff.mpr
        (Or.inr (Or.inr (Or.inr ⟨rfl, by omega, by omega⟩)))
    · simp [hb, hc, hd]

/-!
# The scan
-/

theorem isValidFrom_ne_none (bytes : List UInt8) (i : Nat) :
    isValidFrom bytes i ≠ none := by
  fun_induction isValidFrom bytes i with
  | case1 i hi hnone =>
      rw [List.getElem?_eq_getElem hi] at hnone
      cases hnone
  | case2 i hi c hc hlength => simp
  | case3 i hi c hc len hlength hcut => simp
  | case4 i hi c hc len hlength hfits hnone =>
      have hpos := sequenceLength_pos hlength
      rw [continuations_eq (by omega)] at hnone
      cases hnone
  | case5 i hi c hc len hlength hfits hfalse => simp
  | case6 i hi c hc len hlength hfits htrue ih => exact ih
  | case7 i hi => simp

theorem wellFormed_or_lax {bytes : List UInt8} (h : reader.Accepts bytes) :
    Utf8.WellFormed bytes ∨ Utf8.Lax bytes := by
  rcases h with ⟨ss, hss, hbytes⟩
  by_cases hforbidden : exists s, s ∈ ss ∧ Utf8.isForbidden s = true
  · exact Or.inr ⟨ss, fun s hs => sequence_or_forbidden (hss s hs), hforbidden, hbytes⟩
  · refine Or.inl ⟨ss, fun s hs => ?_, hbytes⟩
    rcases sequence_or_forbidden (hss s hs) with hsequence | hbad
    · exact hsequence
    · exact absurd ⟨s, hs, hbad⟩ hforbidden

theorem passes_of_lax {bytes : List UInt8} (h : Utf8.Lax bytes) :
    reader.Accepts bytes ∧ ¬ Utf8.WellFormed bytes := by
  rcases h with ⟨ss, hss, ⟨bad, hmem, hbad⟩, hbytes⟩
  have hframes : forall s, s ∈ ss -> reader.Frame s := by
    intro s hs
    rcases hss s hs with hsequence | hforbidden
    · exact Utf8.Reader.frame_of_isSequence hsequence
    · exact frame_of_forbidden hforbidden
  refine ⟨⟨ss, hframes, hbytes⟩, ?_⟩
  intro hwell
  rcases hwell with ⟨ts, hts, hflatten⟩
  have hsame : ss.flatten ++ [] = ts.flatten := by
    rw [List.append_nil, <- hbytes, hflatten]
  rcases Utf8.Reader.frames_of_flatten_append hframes
      (fun t ht => Utf8.Reader.frame_of_isSequence (hts t ht)) hsame with ⟨us, rfl, _⟩
  exact Utf8.not_isSequence_of_forbidden hbad (hts bad (List.mem_append_left us hmem))

/-- The scan stays within the string, and it accepts exactly the well-formed strings,
but for those that are lax. -/
theorem valid_utf8 (bytes : List UInt8) :
    (isValidFrom bytes 0 ≠ none ∧
      (isValidUtf8 bytes = true <-> Utf8.WellFormed bytes)) <-> ¬ Utf8.Lax bytes := by
  rw [and_iff_right (isValidFrom_ne_none bytes 0), isValidUtf8_iff]
  constructor
  · intro h hlax
    rcases passes_of_lax hlax with ⟨haccepts, hwell⟩
    exact hwell (h.mp haccepts)
  · intro h
    constructor
    · intro haccepts
      exact (wellFormed_or_lax haccepts).resolve_right h
    · exact Utf8.Reader.accepts_of_wellFormed

/-- An overlong NUL passes for UTF-8. -/
theorem valid_utf8_fails :
    isValidUtf8 [0xC0, 0x80] = true ∧ ¬ Utf8.WellFormed [0xC0, 0x80] := by
  have hlax : Utf8.Lax [0xC0, 0x80] :=
    ⟨[[0xC0, 0x80]], List.forall_mem_singleton.mpr (Or.inr rfl),
      ⟨_, List.mem_singleton_self _, rfl⟩, rfl⟩
  exact ⟨isValidUtf8_iff.mpr (passes_of_lax hlax).left, (passes_of_lax hlax).right⟩

end Completion
end DomainAI
