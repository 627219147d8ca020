import Mathlib.Data.List.Basic
import Mathlib.Data.List.Infix

/-!
# First occurrences

Where a part first occurs in a list from some place on.  A part whose first element
does not recur in it cannot overlap itself, so a list is parted at its first occurrence
in one way only.
-/

namespace DomainAI
namespace Library

variable {alpha : Type}

/-- The first place, from `start` on, where the part occurs. -/
def indexOf [DecidableEq alpha] (part : List alpha) (start : Nat) (xs : List alpha) :
    Option Nat :=
  (List.range' start (xs.length + 1 - start)).find? fun i => decide (part <+: xs.drop i)

variable {part xs ys : List alpha} {c : alpha}

theorem infix_append_cons_iff (hc : c ∉ part) :
    part <:+: xs ++ c :: ys <-> part <:+: xs ∨ part <:+: ys := by
  constructor
  · intro h
    rcases List.infix_append_iff_ne_nil.mp h with h | h | ⟨front, back, _, hback, hpart, _, h⟩
    · exact Or.inl h
    · rcases List.infix_cons_iff.mp h with h | h
      · cases part with
        | nil => exact Or.inl List.nil_infix
        | cons d part =>
            rcases h with ⟨later, hlater⟩
            cases hlater
            exact absurd List.mem_cons_self hc
      · exact Or.inr h
    · cases back with
      | nil => exact absurd rfl hback
      | cons d back =>
          rcases h with ⟨later, hlater⟩
          cases hlater
          exact absurd (by simp [hpart]) hc
  · intro h
    rcases h with h | h
    · exact h.trans (List.prefix_append _ _).isInfix
    · exact h.trans ((List.suffix_cons c ys).trans (List.suffix_append _ _)).isInfix

theorem infix_append_iff_of_notMem (hc : c ∉ xs) :
    c :: part <:+: xs ++ ys <-> c :: part <:+: ys := by
  constructor
  · intro h
    induction xs with
    | nil => exact h
    | cons x xs ih =>
        rcases List.ne_and_not_mem_of_not_mem_cons hc with ⟨hne, hc⟩
        rcases List.infix_cons_iff.mp h with h | h
        · exact absurd (List.cons_prefix_cons.mp h).left hne
        · exact ih hc h
  · exact fun h => h.trans (List.suffix_append _ _).isInfix

theorem prefix_append_cases {zs : List alpha} (h : xs <+: ys ++ zs) :
    xs <+: ys ∨ exists cut, xs = ys ++ cut ∧ cut <+: zs := by
  rcases List.prefix_or_prefix_of_prefix h (List.prefix_append ys zs) with hshort | hlong
  · exact Or.inl hshort
  · rcases hlong with ⟨cut, rfl⟩
    exact Or.inr ⟨cut, rfl, (List.prefix_append_right_inj ys).mp h⟩

/-- Where the part is missing in a beginning of a list that has it, the beginning is cut
before the part or inside it. -/
theorem prefix_cut {before after : List alpha} (h : xs <+: before ++ part ++ after)
    (hmissing : ¬ part <:+: xs) :
    exists front begun, xs = front ++ begun ∧ front <+: before ∧ begun <+: part ∧
      begun ≠ part := by
  rw [List.append_assoc] at h
  rcases prefix_append_cases h with h | ⟨cut, rfl, hcut⟩
  · refine ⟨xs, [], (List.append_nil xs).symm, h, List.nil_prefix, ?_⟩
    rintro rfl
    exact hmissing List.nil_infix
  · rcases prefix_append_cases hcut with hpart | ⟨more, rfl, _⟩
    · refine ⟨before, cut, rfl, List.prefix_refl before, hpart, ?_⟩
      rintro rfl
      exact hmissing (List.suffix_append _ _).isInfix
    · exact absurd ⟨before, more, by rw [List.append_assoc]⟩ hmissing

theorem exists_first (hne : part ≠ []) (h : part <:+: xs) :
    exists before after, xs = before ++ part ++ after ∧ ¬ part <:+: before := by
  rcases h with ⟨before, after, h⟩
  induction hlength : before.length using Nat.strongRecOn generalizing before after with
  | ind n ih =>
      by_cases hearlier : part <:+: before
      · rcases hearlier with ⟨before', after', rfl⟩
        have hshorter : before'.length < n := by
          have hpos := List.length_pos_iff.mpr hne
          simp only [List.length_append] at hlength
          omega
        apply ih _ hshorter before' (after' ++ part ++ after)
        · simpa only [List.append_assoc] using h
        · rfl
      · exact ⟨before, after, h.symm, hearlier⟩

theorem not_prefix_drop {rest before after : List alpha} (hc : c ∉ rest)
    (hbefore : ¬ (c :: rest) <:+: before) {j : Nat} (hj : j < before.length) :
    ¬ (c :: rest) <+: (before ++ (c :: rest) ++ after).drop j := by
  intro h
  rw [List.append_assoc, List.drop_append_of_le_length (Nat.le_of_lt hj)] at h
  rcases h with ⟨later, h⟩
  rcases List.append_eq_append_iff.mp h with ⟨more, hdrop, _⟩ | ⟨more, hpart, hmore⟩
  · exact hbefore ((hdrop ▸ List.infix_append_left).trans
      (List.drop_suffix j before).isInfix)
  · cases more with
    | nil =>
        rw [List.append_nil] at hpart
        exact hbefore (hpart ▸ (List.drop_suffix j before).isInfix)
    | cons d more =>
        -- the occurrence would have the first element of the part again
        simp only [List.cons_append, List.cons.injEq] at hmore
        rcases hmore with ⟨rfl, _⟩
        cases hdrop : before.drop j with
        | nil =>
            have hlength := List.drop_eq_nil_iff.mp hdrop
            omega
        | cons e tail =>
            rw [hdrop] at hpart
            cases hpart
            exact hc (by simp)

variable [DecidableEq alpha]

theorem indexOf_eq_none {start : Nat} (h : ¬ part <:+: xs.drop start) :
    indexOf part start xs = none := by
  apply List.find?_eq_none.mpr
  intro i hi hoccurs
  have hle : start ≤ i := (List.mem_range'_1.mp hi).left
  have hsuffix : xs.drop i <:+ xs.drop start := by
    rw [<- Nat.add_sub_of_le hle, <- List.drop_drop]
    exact List.drop_suffix _ _
  exact h ((of_decide_eq_true hoccurs).isInfix.trans hsuffix.isInfix)

theorem indexOf_first {skipped before after rest : List alpha} (hc : c ∉ rest)
    (hbefore : ¬ (c :: rest) <:+: before) :
    indexOf (c :: rest) skipped.length (skipped ++ (before ++ (c :: rest) ++ after)) =
      some (skipped.length + before.length) := by
  unfold indexOf
  rw [List.find?_range'_eq_some]
  refine ⟨?_, ?_, ?_⟩
  · rw [decide_eq_true_eq, <- List.drop_drop, List.drop_left, List.append_assoc,
      List.drop_left]
    exact List.prefix_append _ _
  · rw [List.mem_range'_1]
    simp only [List.length_append, List.length_cons]
    omega
  · intro j hle hlt
    rw [Bool.not_eq_true', decide_eq_false_iff_not]
    rw [<- Nat.add_sub_of_le hle, <- List.drop_drop, List.drop_left]
    exact not_prefix_drop hc hbefore (by omega)

end Library
end DomainAI
