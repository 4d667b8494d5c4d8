import Mathlib.Data.List.Rotate
import Mathlib.Data.Nat.ModEq
import Mathlib.Tactic.Common

/-!
# Turns

A list that is put together from blocks, and a list that begins one place later at each turn.
-/

namespace AsyncDataLoader
namespace TurnOrder

variable {α β : Type*}

theorem length_flatMap_eq {xs : List α} {f : α → List β} {n : ℕ}
    (h : ∀ x ∈ xs, (f x).length = n) : (xs.flatMap f).length = xs.length*n := by
  rw [List.length_flatMap,List.map_congr_left h,List.map_const',List.sum_replicate_nat]

theorem nodup_flatMap_of_disjoint {xs : List α} {f : α → List β} (hnodup : xs.Nodup)
    (hblock : ∀ x ∈ xs, (f x).Nodup)
    (hsource : ∀ x ∈ xs, ∀ y ∈ xs, ∀ b, b ∈ f x → b ∈ f y → x = y) :
    (xs.flatMap f).Nodup := by
  refine List.nodup_flatMap.mpr ⟨hblock,?_⟩
  refine List.Pairwise.imp_of_mem ?_ hnodup
  intro x y hx hy hne b hbx hby
  exact hne (hsource x hx y hy b hbx hby)

theorem block_contiguous {xs : List α} {x : α} (hx : x ∈ xs) (f : α → List β) :
    f x <:+: xs.flatMap f :=
  List.infix_of_mem_flatten (List.mem_map_of_mem hx)

theorem flatMap_eq_block {xs : List α} {f : α → List β} (hnodup : xs.Nodup) {x : α} (hx : x ∈ xs)
    (hothers : ∀ y ∈ xs, y ≠ x → f y = []) : xs.flatMap f = f x := by
  obtain ⟨before,after,rfl⟩ := List.append_of_mem hx
  rw [List.nodup_middle,List.nodup_cons,List.mem_append,not_or] at hnodup
  obtain ⟨⟨hbefore,hafter⟩,-⟩ := hnodup
  have hnone : ∀ ys : List α, ys ⊆ before++x::after → x ∉ ys → ys.flatMap f = [] :=
    fun ys hys hnot => List.flatMap_eq_nil_iff.mpr fun y hy =>
      hothers y (hys hy) (ne_of_mem_of_not_mem hy hnot)
  rw [List.flatMap_append,List.flatMap_cons,
    hnone before (List.subset_append_left _ _) hbefore,
    hnone after (fun y hy => List.mem_append_right _ (List.mem_cons_of_mem x hy)) hafter,
    List.nil_append,List.append_nil]

theorem map_fst_zip_sublist (xs : List α) (ys : List β) : ((xs.zip ys).map Prod.fst).Sublist xs := by
  induction xs generalizing ys with
  | nil => exact List.Sublist.refl _
  | cons x xs ih =>
    cases ys with
    | nil => exact List.nil_sublist _
    | cons y ys => exact (ih ys).cons_cons x

theorem nodup_zipIdx (xs : List α) : xs.zipIdx.Nodup := by
  refine List.Nodup.of_map Prod.snd ?_
  rw [List.zipIdx_map_snd]
  exact List.nodup_range'

theorem exists_mem_zipIdx {xs : List α} {x : α} (hx : x ∈ xs) : ∃ i, (x,i) ∈ xs.zipIdx := by
  obtain ⟨i,hi⟩ := List.mem_iff_getElem?.mp hx
  exact ⟨i,List.mk_mem_zipIdx_iff_getElem?.mpr hi⟩

theorem zipIdx_eq_of_fst_eq {xs : List α} (hnodup : xs.Nodup) {x y : α × ℕ} (hx : x ∈ xs.zipIdx)
    (hy : y ∈ xs.zipIdx) (h : x.1 = y.1) : x = y := by
  obtain ⟨-,hlt,hx'⟩ := List.mem_zipIdx hx
  obtain ⟨-,hlt',hy'⟩ := List.mem_zipIdx hy
  refine Prod.ext h ?_
  rw [hx',hy'] at h
  simpa using hnodup.getElem_inj_iff.mp h

/-- Among `n` consecutive numbers, one has a given remainder. -/
theorem existsUnique_turn {n r : ℕ} (hr : r < n) (a s : ℕ) :
    ∃! t, (s ≤ t ∧ t < s+n) ∧ (a+t)%n = r := by
  have hn : 0 < n := by omega
  -- the distance from `s` to the number that is sought
  let d := (r+(n-(a+s)%n))%n
  have hd : d < n := Nat.mod_lt _ hn
  have hmod : (a+(s+d))%n = r := by
    have hle : (a+s)%n ≤ n := (Nat.mod_lt _ hn).le
    calc (a+(s+d))%n = (a+s+(r+(n-(a+s)%n)))%n := by
          rw [← Nat.add_assoc,Nat.add_mod_mod]
      _ = ((a+s)%n+(r+(n-(a+s)%n)))%n := (Nat.mod_add_mod _ _ _).symm
      _ = (r+n)%n := by congr 1; omega
      _ = r := by rw [Nat.add_mod_right,Nat.mod_eq_of_lt hr]
  refine ⟨s+d,⟨⟨by omega,by omega⟩,hmod⟩,?_⟩
  rintro t ⟨⟨hlow,hhigh⟩,ht⟩
  have hcongr : a+t ≡ a+(s+d) [MOD n] := ht.trans hmod.symm
  refine (Nat.ModEq.add_left_cancel' a hcongr).eq_of_abs_lt ?_
  rw [abs_lt]
  omega

/-- Over as many turns as the list is long, each of its elements has each place once. -/
theorem existsUnique_rotate {xs : List α} (hnodup : xs.Nodup) {x : α} (hx : x ∈ xs) {p : ℕ}
    (hp : p < xs.length) (a s : ℕ) :
    ∃! t, (s ≤ t ∧ t < s+xs.length) ∧ (xs.rotate (a+t))[p]? = some x := by
  obtain ⟨i,hi,rfl⟩ := List.getElem_of_mem hx
  have hplace : ∀ t, (xs.rotate (a+t))[p]? = some xs[i] ↔ (p+a+t)%xs.length = i := by
    intro t
    have hlt : (p+(a+t))%xs.length < xs.length := Nat.mod_lt _ (by omega)
    rw [List.getElem?_rotate hp,List.getElem?_eq_getElem hlt,Option.some.injEq,
      hnodup.getElem_inj_iff,Nat.add_assoc]
  simp only [hplace]
  exact existsUnique_turn hi (p+a) s

end TurnOrder
end AsyncDataLoader
