import Mathlib.Data.List.Basic

/-!
# Reads that may fail

What a read gives where it succeeds, and exactly where it does.
-/

namespace DomainAI
namespace Library

variable {error alpha beta : Type}

/-!
# One read after another
-/

theorem bind_eq_ok {x : Except error alpha}
    {f : alpha -> Except error beta} {y : beta} :
    x >>= f = Except.ok y <-> exists a, x = Except.ok a ∧ f a = Except.ok y := by
  cases x <;> simp [bind, Except.bind]

theorem mapM_eq_some {f : alpha -> Except error beta}
    {o : Option alpha} {y : beta} :
    o.mapM f = Except.ok (some y) <-> exists x, o = some x ∧ f x = Except.ok y := by
  cases o with
  | none => simp [pure, Except.pure]
  | some x => cases h : f x <;> simp [h, Functor.map, Except.map]

/-!
# Where a read succeeds
-/

/-- The read succeeds exactly where the condition holds, and gives the value. -/
inductive Yields (r : Except error alpha) (good : Prop) (value : alpha) : Prop where
  | succeeds (hgood : good) (h : r = Except.ok value)
  | fails (hbad : ¬ good) (e : error) (h : r = Except.error e)

namespace Yields

variable {r : Except error alpha} {good good' : Prop} {value : alpha}
  {f : alpha -> Except error beta} {value' : beta}

theorem pure (value : alpha) : Yields (Except.ok value : Except error alpha) True value :=
  succeeds trivial rfl

theorem congr (h : Yields r good value) (hgood : good <-> good') : Yields r good' value := by
  cases h with
  | succeeds hg h => exact succeeds (hgood.mp hg) h
  | fails hbad e h => exact fails (fun hg => hbad (hgood.mpr hg)) e h

theorem bind (h : Yields r good value) (hf : good -> Yields (f value) good' value') :
    Yields (r >>= f) (good ∧ good') value' := by
  cases h with
  | succeeds hg h =>
      rw [h]
      cases hf hg with
      | succeeds hg' h' => exact succeeds ⟨hg, hg'⟩ h'
      | fails hbad e h' => exact fails (fun hboth => hbad hboth.right) e h'
  | fails hbad e h =>
      rw [h]
      exact fails (fun hboth => hbad hboth.left) e rfl

theorem eq_ok_iff (h : Yields r good value) {value'' : alpha} :
    r = Except.ok value'' <-> good ∧ value'' = value := by
  cases h with
  | succeeds hg h =>
      rw [h, Except.ok.injEq, eq_comm]
      exact (and_iff_right hg).symm
  | fails hbad e h =>
      rw [h]
      exact iff_of_false (fun hok => by cases hok) fun hboth => hbad hboth.left

theorem mapM {o : Option alpha} {Good : alpha -> Prop} {g : alpha -> beta}
    (h : forall x, Yields (f x) (Good x) (g x)) :
    Yields (o.mapM f) (forall x, x ∈ o -> Good x) (o.map g) := by
  cases o with
  | none => exact succeeds (by simp) rfl
  | some x =>
      rw [Option.mapM_some, Option.map_some]
      cases h x with
      | succeeds hg h =>
          rw [h]
          exact succeeds (by simpa using hg) rfl
      | fails hbad e h =>
          rw [h]
          exact fails (by simpa using hbad) e rfl

theorem filterMapM {xs : List alpha} {read : alpha -> Except error (Option beta)}
    {Good : alpha -> Prop} {g : alpha -> Option beta}
    (h : forall x, Yields (read x) (Good x) (g x)) :
    Yields (xs.filterMapM read) (forall x, x ∈ xs -> Good x) (xs.filterMap g) := by
  induction xs with
  | nil => exact succeeds (by simp) rfl
  | cons x xs ih =>
      rw [List.filterMapM_cons]
      have hgood : (Good x ∧ forall x, x ∈ xs -> Good x) <->
          forall y, y ∈ x :: xs -> Good y := List.forall_mem_cons.symm
      refine congr (bind (h x) fun _ => ?_) hgood
      rw [List.filterMap_cons]
      cases g x with
      | none => exact ih
      | some y =>
          cases ih with
          | succeeds hg h =>
              refine succeeds hg ?_
              simp only [h]
              rfl
          | fails hbad e h =>
              refine fails hbad e ?_
              simp only [h]
              rfl

end Yields
end Library
end DomainAI
