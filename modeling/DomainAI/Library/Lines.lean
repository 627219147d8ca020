import Mathlib.Data.List.TakeWhile

/-!
# Lines

A stream of symbols is read line by line.  A line ends with a feed, or with a return and a
feed; what comes after the last feed is no line yet.
-/

namespace DomainAI
namespace Library

variable {alpha : Type} [DecidableEq alpha]

theorem takeWhile_ne {a : alpha} {xs : List alpha} (h : a ∉ xs) (ys : List alpha) :
    (xs ++ a :: ys).takeWhile (· ≠ a) = xs := by
  rw [List.takeWhile_append_of_pos, List.takeWhile_cons_of_neg, List.append_nil]
  · simp
  · intro x hx
    have hne : x ≠ a := fun heq => h (heq ▸ hx)
    exact decide_eq_true hne

theorem dropWhile_ne {a : alpha} {xs : List alpha} (h : a ∉ xs) (ys : List alpha) :
    (xs ++ a :: ys).dropWhile (· ≠ a) = a :: ys := by
  rw [List.dropWhile_append_of_pos, List.dropWhile_cons_of_neg]
  · simp
  · intro x hx
    have hne : x ≠ a := fun heq => h (heq ▸ hx)
    exact decide_eq_true hne

omit [DecidableEq alpha] in
theorem dropWhile_prefix (p : alpha -> Bool) {xs ys : List alpha} (h : xs <+: ys) :
    xs.dropWhile p <+: ys.dropWhile p := by
  rcases h with ⟨more, rfl⟩
  rw [List.dropWhile_append]
  split
  · rename_i hempty
    rw [List.isEmpty_iff.mp hempty]
    exact List.nil_prefix
  · exact List.prefix_append _ _

structure LineEnds (alpha : Type) where
  feed : alpha
  back : alpha
  apart : back ≠ feed

namespace LineEnds

variable (ends : LineEnds alpha)

/-- A line without the return it may end with. -/
def stripped (line : List alpha) : List alpha :=
  if line.getLast? = some ends.back then line.dropLast else line

/-- The first line and what comes after it, where the line is complete. -/
def nextLine (xs : List alpha) : Option (List alpha × List alpha) :=
  match xs.dropWhile (· ≠ ends.feed) with
  | [] => none
  | _ :: rest => some (ends.stripped (xs.takeWhile (· ≠ ends.feed)), rest)

def written (line : List alpha) (returned : Bool) : List alpha :=
  (if returned then line ++ [ends.back] else line) ++ [ends.feed]

structure Plain (line : List alpha) (returned : Bool) : Prop where
  feed : ends.feed ∉ line
  back : returned = false -> line.getLast? ≠ some ends.back

variable {ends} {line xs rest : List alpha} {returned : Bool}

theorem dropWhile_of_notMem (h : ends.feed ∉ xs) :
    xs.dropWhile (· ≠ ends.feed) = [] := by
  rw [List.dropWhile_eq_nil_iff]
  intro x hx
  have hne : x ≠ ends.feed := fun heq => h (heq ▸ hx)
  exact decide_eq_true hne

theorem nextLine_of_notMem (h : ends.feed ∉ xs) : ends.nextLine xs = none := by
  rw [nextLine, dropWhile_of_notMem h]

theorem nextLine_feed (h : ends.feed ∉ xs) (rest : List alpha) :
    ends.nextLine (xs ++ ends.feed :: rest) = some (ends.stripped xs, rest) := by
  rw [nextLine, takeWhile_ne h, dropWhile_ne h]

omit [DecidableEq alpha] in
theorem Plain.unended (h : ends.Plain line returned) :
    ends.feed ∉ (if returned then line ++ [ends.back] else line) := by
  cases returned with
  | false => exact h.feed
  | true =>
      intro hmem
      rcases List.mem_append.mp hmem with hline | hback
      · exact h.feed hline
      · exact ends.apart (List.mem_singleton.mp hback).symm

theorem nextLine_written (h : ends.Plain line returned) (rest : List alpha) :
    ends.nextLine (ends.written line returned ++ rest) = some (line, rest) := by
  have hread := nextLine_feed h.unended rest
  rw [written, List.append_assoc, List.singleton_append, hread]
  cases returned with
  | false => rw [if_neg Bool.false_ne_true, stripped, if_neg (h.back rfl)]
  | true =>
      rw [if_pos rfl, stripped, List.getLast?_concat, if_pos rfl, List.dropLast_concat]

theorem nextLine_cut (h : ends.Plain line returned) (rest : List alpha) {k : Nat}
    (hk : k < (ends.written line returned).length) :
    ends.nextLine ((ends.written line returned ++ rest).take k) = none := by
  rw [List.take_append_of_le_length (Nat.le_of_lt hk)]
  rw [written, List.length_append, List.length_singleton, Nat.lt_succ_iff] at hk
  rw [written, List.take_append_of_le_length hk]
  exact nextLine_of_notMem fun hmem => h.unended (List.mem_of_mem_take hmem)

theorem nextLine_shorter (h : ends.nextLine xs = some (line, rest)) :
    rest.length < xs.length := by
  unfold nextLine at h
  split at h
  · cases h
  · rename_i feed rest' hdrop
    cases h
    have hsuffix : feed :: rest <:+ xs := hdrop ▸ List.dropWhile_suffix _
    exact hsuffix.length_le

end LineEnds
end Library
end DomainAI
