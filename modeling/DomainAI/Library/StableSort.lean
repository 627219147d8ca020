import Mathlib.Data.List.Sort

/-!
# Stable sorting

What an insertion sort does with elements that compare alike: each keeps the place in
the list that it came from, and alike ones stay in the order of their places.
-/

namespace DomainAI
namespace Library

variable {alpha beta : Type}

/-- Sorted by a relation on the elements, and by their places where it decides
nothing. -/
def Placed (r : beta -> beta -> Prop) (p q : beta × Nat) : Prop :=
  r p.1 q.1 ∧ (r q.1 p.1 -> p.2 < q.2)

section Sorting

variable {r : beta -> beta -> Prop} [DecidableRel r]

instance decidableOnElements : DecidableRel fun p q : beta × Nat => r p.1 q.1 :=
  fun p q => inferInstanceAs (Decidable (r p.1 q.1))

variable [Std.Total r] [IsTrans beta r]

theorem pairwise_orderedInsert {p : beta × Nat} {sorted : List (beta × Nat)}
    (hsorted : sorted.Pairwise (Placed r)) (hp : forall q, q ∈ sorted -> p.2 < q.2) :
    (sorted.orderedInsert (fun p q => r p.1 q.1) p).Pairwise (Placed r) := by
  induction sorted with
  | nil => exact List.pairwise_singleton _ _
  | cons first rest ih =>
      rw [List.pairwise_cons] at hsorted
      rw [List.orderedInsert_cons]
      split
      · rename_i hle
        rw [List.pairwise_cons]
        refine ⟨?_, List.pairwise_cons.mpr hsorted⟩
        intro q hq
        refine ⟨?_, fun _ => hp q hq⟩
        rcases List.mem_cons.mp hq with rfl | hrest
        · exact hle
        · exact IsTrans.trans _ _ _ hle (hsorted.left q hrest).left
      · rename_i hgt
        rw [List.pairwise_cons]
        refine ⟨?_, ih hsorted.right fun q hq => hp q (List.mem_cons_of_mem _ hq)⟩
        intro q hq
        rcases (List.mem_orderedInsert _).mp hq with rfl | hrest
        · exact ⟨(Std.Total.total _ _).resolve_left hgt, fun hle => absurd hle hgt⟩
        · exact hsorted.left q hrest

theorem pairwise_insertionSort {ps : List (beta × Nat)}
    (h : ps.Pairwise fun p q => p.2 < q.2) :
    (ps.insertionSort fun p q => r p.1 q.1).Pairwise (Placed r) := by
  induction ps with
  | nil => exact List.Pairwise.nil
  | cons p ps ih =>
      rw [List.pairwise_cons] at h
      rw [List.insertionSort_cons]
      apply pairwise_orderedInsert (ih h.right)
      intro q hq
      exact h.left q ((List.mem_insertionSort _).mp hq)

end Sorting

/-!
# The first few
-/

section First

variable (r : beta -> beta -> Prop) [DecidableRel r] {xs : List beta} {k : Nat}

theorem length_take_insertionSort :
    ((xs.insertionSort r).take k).length = min k xs.length := by
  rw [List.length_take, List.length_insertionSort]

theorem nodup_take_insertionSort (h : xs.Nodup) : ((xs.insertionSort r).take k).Nodup :=
  ((List.perm_insertionSort r xs).nodup_iff.mpr h).sublist (List.take_sublist _ _)

theorem mem_of_mem_take_insertionSort {x : beta} (h : x ∈ (xs.insertionSort r).take k) :
    x ∈ xs :=
  (List.mem_insertionSort r).mp (List.mem_of_mem_take h)

/-- Whatever is not among the first few does not come before any of them. -/
theorem take_insertionSort_le [Std.Total r] [IsTrans beta r] {x y : beta}
    (hx : x ∈ (xs.insertionSort r).take k) (hy : y ∈ xs)
    (hleft : y ∉ (xs.insertionSort r).take k) : r x y := by
  have hsorted := List.pairwise_insertionSort r xs
  rw [<- List.take_append_drop k (xs.insertionSort r), List.pairwise_append] at hsorted
  have hmem : y ∈ (xs.insertionSort r).take k ++ (xs.insertionSort r).drop k := by
    rw [List.take_append_drop]
    exact (List.mem_insertionSort r).mpr hy
  rcases List.mem_append.mp hmem with htake | hdrop
  · exact absurd htake hleft
  · exact hsorted.right.right x hx y hdrop

end First

/-!
# Choosing and sorting
-/

variable {choose : alpha -> Option beta} {xs : List alpha}

/-- What is chosen of a list, with the places that it has there. -/
def chosen (choose : alpha -> Option beta) (xs : List alpha) : List (beta × Nat) :=
  xs.zipIdx.filterMap fun x => (choose x.1).map fun y => (y, x.2)

theorem chosen_map_fst : (chosen choose xs).map Prod.fst = xs.filterMap choose := by
  have hforget : (fun x : alpha × Nat =>
      ((choose x.1).map fun y => (y, x.2)).map Prod.fst) = choose ∘ Prod.fst := by
    funext x
    rw [Option.map_map]
    exact Option.map_id'
  rw [chosen, List.map_filterMap, hforget, <- List.filterMap_map, List.zipIdx_map_fst]

theorem mem_chosen {y : beta} {i : Nat} :
    (y, i) ∈ chosen choose xs <-> exists x, xs[i]? = some x ∧ choose x = some y := by
  rw [chosen, List.mem_filterMap]
  constructor
  · intro h
    rcases h with ⟨⟨x, j⟩, hx, hy⟩
    rcases Option.map_eq_some_iff.mp hy with ⟨y', hchoose, hsame⟩
    cases hsame
    exact ⟨x, List.mem_zipIdx_iff_getElem?.mp hx, hchoose⟩
  · intro h
    rcases h with ⟨x, hx, hy⟩
    exact ⟨(x, i), List.mem_zipIdx_iff_getElem?.mpr hx, by rw [hy]; rfl⟩

theorem chosen_pairwise : (chosen choose xs).Pairwise fun p q => p.2 < q.2 := by
  have hplaces : xs.zipIdx.Pairwise fun x y => x.2 < y.2 := by
    have h : (xs.zipIdx.map Prod.snd).Pairwise (· < ·) := by
      rw [List.zipIdx_map_snd]
      exact List.pairwise_lt_range'
    exact List.pairwise_map.mp h
  apply hplaces.filterMap
  intro x y hlt p hp q hq
  rcases Option.map_eq_some_iff.mp hp with ⟨_, _, rfl⟩
  rcases Option.map_eq_some_iff.mp hq with ⟨_, _, rfl⟩
  exact hlt

/-- What is chosen and sorted is all that can be chosen, once each, by the relation and
else in its order in the list. -/
theorem exists_placed (r : beta -> beta -> Prop) [DecidableRel r] [Std.Total r]
    [IsTrans beta r] (choose : alpha -> Option beta) (xs : List alpha) :
    exists placed : List (beta × Nat),
      (xs.filterMap choose).insertionSort r = placed.map Prod.fst ∧
        (forall y i, (y, i) ∈ placed <->
          exists x, xs[i]? = some x ∧ choose x = some y) ∧
        (placed.map Prod.snd).Nodup ∧ placed.Pairwise (Placed r) := by
  refine ⟨(chosen choose xs).insertionSort fun p q => r p.1 q.1, ?_, ?_, ?_, ?_⟩
  · rw [<- chosen_map_fst]
    exact (List.map_insertionSort _ _ Prod.fst _ fun _ _ _ _ => Iff.rfl).symm
  · intro y i
    rw [List.mem_insertionSort, mem_chosen]
  · have hperm := (List.perm_insertionSort (fun p q => r p.1 q.1)
      (chosen choose xs)).map Prod.snd
    rw [hperm.nodup_iff, List.Nodup, List.pairwise_map]
    exact chosen_pairwise.imp Nat.ne_of_lt
  · exact pairwise_insertionSort chosen_pairwise

end Library
end DomainAI
