import Mathlib.Data.List.Basic
import Mathlib.Order.Lattice
import Mathlib.Tactic.Common

/-!
# Binary search

The search for the first element of a sorted range that does not come before a value, by halving.
-/

namespace AsyncDataLoader
namespace BinarySearch

/-- The loop over the `len` positions from `first`; there is fuel for every turn. -/
def search (before : ℕ → Bool) : ℕ → ℕ → ℕ → ℕ
  | 0,first,_ => first
  | fuel+1,first,len =>
    if len = 0 then first
    else
      let half := len/2
      if before (first+half) then search before fuel (first+half+1) (len-half-1)
      else search before fuel first half

theorem search_eq {before : ℕ → Bool} {k fuel first len : ℕ} (hlow : first ≤ k)
    (hhigh : k ≤ first+len) (hfuel : len ≤ fuel)
    (h : ∀ i, first ≤ i → i < first+len → (before i = true ↔ i < k)) :
    search before fuel first len = k := by
  induction fuel generalizing first len with
  | zero =>
    rw [search]
    omega
  | succ fuel ih =>
    by_cases hzero : len = 0
    · rw [search,if_pos hzero]
      omega
    · rw [search,if_neg hzero]
      have hmiddle := h (first+len/2) (by omega) (by omega)
      by_cases hbefore : before (first+len/2) = true
      · rw [if_pos hbefore]
        have hk := hmiddle.mp hbefore
        exact ih (by omega) (by omega) (by omega) fun i hi hlt => h i (by omega) (by omega)
      · rw [if_neg hbefore]
        have hk : ¬ first+len/2 < k := fun hlt => hbefore (hmiddle.mpr hlt)
        exact ih (by omega) (by omega) (by omega) fun i hi hlt => h i hi (by omega)

variable {α : Type*} [LinearOrder α]

def lowerBound (xs : List α) (value : α) : ℕ :=
  search (fun i => xs[i]?.any fun x => x < value) xs.length 0 xs.length

theorem lt_iff_lt_findIdx {xs : List α} (h : xs.Pairwise (· < ·)) {value x : α} {i : ℕ}
    (hx : xs[i]? = some x) : x < value ↔ i < xs.findIdx fun x => value ≤ x := by
  obtain ⟨hi,rfl⟩ := List.getElem?_eq_some_iff.mp hx
  constructor
  · intro hlt
    by_contra hge
    have hk : (xs.findIdx fun x => value ≤ x) < xs.length := by omega
    have hfound : value ≤ xs[xs.findIdx fun x => value ≤ x] := by
      have hget := List.findIdx_getElem (w := hk)
      exact of_decide_eq_true hget
    have hle : xs[xs.findIdx fun x => value ≤ x] ≤ xs[i] := by
      obtain heq | hbelow := Nat.eq_or_lt_of_le (Nat.le_of_not_lt hge)
      · simp only [heq,le_refl]
      · exact (List.pairwise_iff_getElem.mp h _ _ hk hi hbelow).le
    exact absurd hlt (not_lt.mpr (hfound.trans hle))
  · intro hlt
    have hnot := List.not_of_lt_findIdx hlt
    exact lt_of_not_ge (of_decide_eq_false hnot)

theorem lowerBound_eq {xs : List α} (h : xs.Pairwise (· < ·)) (value : α) :
    lowerBound xs value = xs.findIdx fun x => value ≤ x := by
  refine search_eq (Nat.zero_le _) ?_ (Nat.le_refl _) fun i _ hi => ?_
  · rw [Nat.zero_add]
    exact List.findIdx_le_length
  · rw [Nat.zero_add] at hi
    have hx := List.getElem?_eq_getElem hi
    rw [hx,Option.any_some,decide_eq_true_eq]
    exact lt_iff_lt_findIdx h hx

theorem lowerBound_le {xs : List α} (h : xs.Pairwise (· < ·)) (value : α) :
    lowerBound xs value ≤ xs.length := by
  rw [lowerBound_eq h]
  exact List.findIdx_le_length

theorem lt_iff_lt_lowerBound {xs : List α} (h : xs.Pairwise (· < ·)) {value x : α} {i : ℕ}
    (hx : xs[i]? = some x) : x < value ↔ i < lowerBound xs value := by
  rw [lowerBound_eq h]
  exact lt_iff_lt_findIdx h hx

end BinarySearch
end AsyncDataLoader
