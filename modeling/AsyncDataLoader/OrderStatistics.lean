import Mathlib.Data.List.Sort
import Mathlib.Order.Bounds.Basic
import Mathlib.Tactic.Common

/-!
# Sorted lists

Sorting by a key that no two elements share, and the element of a rank.
-/

namespace AsyncDataLoader
namespace OrderStatistics

variable {α κ : Type*} [LinearOrder κ]

def sortBy (key : α → κ) (xs : List α) : List α := xs.insertionSort fun a b => key a ≤ key b

theorem sortBy_perm (key : α → κ) (xs : List α) : (sortBy key xs).Perm xs :=
  List.perm_insertionSort _ xs

theorem pairwise_sortBy (key : α → κ) (xs : List α) :
    (sortBy key xs).Pairwise fun a b => key a ≤ key b := by
  have : Std.Total fun a b : α => key a ≤ key b := ⟨fun a b => le_total (key a) (key b)⟩
  have : IsTrans α fun a b => key a ≤ key b := ⟨fun _ _ _ hab hbc => hab.trans hbc⟩
  exact List.pairwise_insertionSort _ xs

/-- The order before the sort does not matter when no two elements have one key. -/
theorem sortBy_eq {key : α → κ} {xs ys : List α} (hperm : xs.Perm ys)
    (hkey : ∀ a ∈ xs, ∀ b ∈ xs, key a = key b → a = b) : sortBy key xs = sortBy key ys := by
  have hxs := sortBy_perm key xs
  have hys := (sortBy_perm key ys).trans hperm.symm
  refine List.Perm.eq_of_pairwise (fun a b ha hb hab hba => ?_) (pairwise_sortBy key xs)
    (pairwise_sortBy key ys) (hxs.trans hys.symm)
  exact hkey a (hxs.mem_iff.mp ha) b (hys.mem_iff.mp hb) (le_antisymm hab hba)

/-- The element of rank `k+1` is the least one with more than `k` elements at most it. -/
theorem isLeast_getElem {xs : List κ} (hsorted : xs.Pairwise (· ≤ ·)) {k : ℕ}
    (hk : k < xs.length) : IsLeast {v | v ∈ xs ∧ k+1 ≤ xs.countP (· ≤ v)} xs[k] := by
  have hle : ∀ i j (hj : j < xs.length) (hij : i ≤ j), xs[i] ≤ xs[j] := by
    intro i j hj hij
    obtain rfl | hlt := hij.eq_or_lt
    · exact le_refl _
    · exact List.pairwise_iff_getElem.mp hsorted i j _ hj hlt
  have hsplit : ∀ v, xs.countP (· ≤ v) =
      (xs.take (k+1)).countP (· ≤ v)+(xs.drop (k+1)).countP (· ≤ v) := by
    intro v
    rw [← List.countP_append,List.take_append_drop]
  constructor
  · refine ⟨List.getElem_mem hk,?_⟩
    have hall : (xs.take (k+1)).countP (· ≤ xs[k]) = k+1 := by
      rw [List.countP_eq_length.mpr,List.length_take]
      · omega
      · intro a ha
        obtain ⟨i,hi,rfl⟩ := List.mem_iff_getElem.mp ha
        rw [List.length_take] at hi
        rw [List.getElem_take]
        exact decide_eq_true (hle i k hk (by omega))
    rw [hsplit,hall]
    omega
  · rintro v ⟨-,hcount⟩
    by_contra hlt
    rw [not_le] at hlt
    have hnone : (xs.drop k).countP (· ≤ v) = 0 := by
      refine List.countP_eq_zero.mpr fun a ha => ?_
      obtain ⟨i,hi,rfl⟩ := List.mem_iff_getElem.mp ha
      rw [List.length_drop] at hi
      rw [List.getElem_drop]
      have hge := hle k (k+i) (by omega) (by omega)
      simpa using hlt.trans_le hge
    have hcut : xs.countP (· ≤ v) = (xs.take k).countP (· ≤ v)+(xs.drop k).countP (· ≤ v) := by
      rw [← List.countP_append,List.take_append_drop]
    have hfew : (xs.take k).countP (· ≤ v) ≤ k :=
      List.countP_le_length.trans (List.length_take_le k xs)
    omega

end OrderStatistics
end AsyncDataLoader
