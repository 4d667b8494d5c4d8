import Mathlib.Data.List.Perm.Basic
import Mathlib.Data.List.Range
import Mathlib.Data.List.Nodup
import Mathlib.Tactic.Common

/-!
# Free lists

A fixed number of slots, each of which is either free or held. The free slots are a stack
whose top is at the end of the list. What is held is only ever known up to its order.
-/

namespace AsyncDataLoader
namespace FreeList

/-- The slots below `n` are held or free, each of them exactly once. -/
def Balanced (n : ℕ) (held free : List ℕ) : Prop := (held++free).Perm (List.range n)

namespace Balanced

variable {n : ℕ} {held free : List ℕ}

theorem allFree : Balanced n [] (List.range n).reverse := List.reverse_perm (List.range n)

theorem of_perm (h : Balanced n held free) {held' : List ℕ} (hp : held.Perm held') :
    Balanced n held' free :=
  (hp.symm.append_right free).trans h

theorem nodup (h : Balanced n held free) : (held++free).Nodup := (List.Perm.nodup_iff h).mpr List.nodup_range

theorem nodup_held (h : Balanced n held free) : held.Nodup := h.nodup.of_append_left

theorem disjoint (h : Balanced n held free) : held.Disjoint free :=
  List.disjoint_of_nodup_append h.nodup

theorem mem_iff (h : Balanced n held free) (i : ℕ) : i ∈ held ∨ i ∈ free ↔ i < n := by
  rw [← List.mem_append,List.Perm.mem_iff h,List.mem_range]

theorem length_eq (h : Balanced n held free) : held.length+free.length = n := by
  have hlen := List.Perm.length_eq h
  rwa [List.length_append,List.length_range] at hlen

theorem take (h : Balanced n held free) {i : ℕ} (hi : free.getLast? = some i) :
    Balanced n (i::held) free.dropLast := by
  have hfree : free.dropLast++[i] = free := List.dropLast_append_getLast? i hi
  have hmove : (i::held++free.dropLast).Perm (held++(free.dropLast++[i])) := by
    rw [← List.append_assoc]
    exact List.perm_append_singleton i (held++free.dropLast) |>.symm
  rw [hfree] at hmove
  exact hmove.trans h

theorem give {i : ℕ} (h : Balanced n (i::held) free) : Balanced n held (free++[i]) := by
  have hmove : (held++(free++[i])).Perm (i::held++free) := by
    rw [← List.append_assoc]
    exact List.perm_append_singleton i (held++free)
  exact hmove.trans h

theorem free_ne_nil (h : Balanced n [] free) (hn : 0 < n) : free ≠ [] := by
  rintro rfl
  have hlen := h.length_eq
  simp at hlen
  omega

end Balanced
end FreeList
end AsyncDataLoader
