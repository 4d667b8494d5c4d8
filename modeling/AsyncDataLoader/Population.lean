import Mathlib.Algebra.BigOperators.Group.Finset.Basic
import Mathlib.Algebra.BigOperators.Ring.Finset
import Mathlib.Data.Fintype.BigOperators
import Mathlib.Tactic.Common

/-!
# How many threads are at a place

Counting invariants of systems of any number of threads, of which each is at one place and moves
alone.
-/

namespace AsyncDataLoader

variable {T P : Type*} [Fintype T] [DecidableEq T]

section Sum

variable {M : Type*} [AddCommMonoid M] (f : P → M) (place : T → P) (t : T) {q : P}

theorem sum_others (q : P) : (∑ u, f (Function.update place t q u)) =
    f q+∑ u ∈ Finset.univ.erase t, f (place u) := by
  have hothers : (∑ u ∈ Finset.univ.erase t, f (Function.update place t q u)) =
      ∑ u ∈ Finset.univ.erase t, f (place u) := by
    refine Finset.sum_congr rfl fun u hu => ?_
    rw [Function.update_of_ne (Finset.ne_of_mem_erase hu)]
  rw [← Finset.add_sum_erase _ _ (Finset.mem_univ t),hothers,Function.update_self]

theorem sum_place : (∑ u, f (place u)) = f (place t)+∑ u ∈ Finset.univ.erase t, f (place u) := by
  have hsum := sum_others f place t (place t)
  rwa [Function.update_eq_self] at hsum

theorem sum_update_add {d : M} (hq : f q+d = f (place t)) :
    (∑ u, f (Function.update place t q u))+d = ∑ u, f (place u) := by
  rw [sum_others,sum_place f place t,← hq,add_right_comm]

end Sum

variable [DecidableEq P]

def population (place : T → P) (p : P) : ℕ := (Finset.univ.filter fun t => place t = p).card

theorem population_update (place : T → P) (t : T) (q p : P) :
    population (Function.update place t q) p+(if place t = p then 1 else 0) =
      population place p+(if q = p then 1 else 0) := by
  simp only [population,Finset.card_filter]
  rw [sum_others (fun q => if q = p then 1 else 0) place t q,
    sum_place (fun q => if q = p then 1 else 0) place t]
  omega

end AsyncDataLoader
