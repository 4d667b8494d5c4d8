import Mathlib.Data.List.Induction
import Mathlib.Data.List.Perm.Lattice
import Mathlib.Tactic.Common

/-!
# Lists grouped by a key

A dictionary of lists that keeps the order in which its keys were inserted, and what does not depend
on that order.
-/

namespace AsyncDataLoader
namespace Grouping

variable {α κ β : Type*} [DecidableEq κ]

/-- Append a value to the list of its key. A new key is the last one. -/
def appendTo (key : κ) (x : α) : List (κ × List α) → List (κ × List α)
  | [] => [(key,[x])]
  | (k,xs)::groups => if k = key then (k,xs++[x])::groups else (k,xs)::appendTo key x groups

def groupBy (key : α → κ) (xs : List α) : List (κ × List α) :=
  xs.foldl (fun groups x => appendTo (key x) x groups) []

theorem keys_appendTo (key : κ) (x : α) (groups : List (κ × List α)) :
    (appendTo key x groups).map Prod.fst =
      if key ∈ groups.map Prod.fst then groups.map Prod.fst else groups.map Prod.fst++[key] := by
  induction groups with
  | nil => simp [appendTo]
  | cons group groups ih =>
    obtain ⟨k,xs⟩ := group
    unfold appendTo
    by_cases hk : k = key
    · subst hk
      simp
    · rw [if_neg hk,List.map_cons,ih]
      by_cases hmem : key ∈ groups.map Prod.fst
      · simp [hmem]
      · simp [hmem,Ne.symm hk]

theorem mem_appendTo {key : κ} {x : α} {groups : List (κ × List α)} {group : κ × List α}
    (hnodup : (groups.map Prod.fst).Nodup) (h : group ∈ appendTo key x groups) :
    group ∈ groups ∧ group.1 ≠ key ∨ (∃ xs, (key,xs) ∈ groups ∧ group = (key,xs++[x])) ∨
      key ∉ groups.map Prod.fst ∧ group = (key,[x]) := by
  induction groups with
  | nil => exact .inr (.inr ⟨List.not_mem_nil,List.mem_singleton.mp h⟩)
  | cons first groups ih =>
    obtain ⟨k,xs⟩ := first
    obtain ⟨hfirst,hrest⟩ := List.nodup_cons.mp hnodup
    unfold appendTo at h
    by_cases hk : k = key
    · subst hk
      rw [if_pos rfl] at h
      obtain rfl | hmem := List.mem_cons.mp h
      · exact .inr (.inl ⟨xs,List.mem_cons_self,rfl⟩)
      · refine .inl ⟨List.mem_cons_of_mem _ hmem,?_⟩
        rintro rfl
        have hkey : group.1 ∈ groups.map Prod.fst := List.mem_map_of_mem hmem
        exact hfirst hkey
    · rw [if_neg hk] at h
      obtain rfl | h := List.mem_cons.mp h
      · exact .inl ⟨List.mem_cons_self,hk⟩
      · obtain ⟨hmem,hne⟩ | ⟨ys,hys,rfl⟩ | ⟨hnew,rfl⟩ := ih hrest h
        · exact .inl ⟨List.mem_cons_of_mem _ hmem,hne⟩
        · exact .inr (.inl ⟨ys,List.mem_cons_of_mem _ hys,rfl⟩)
        · refine .inr (.inr ⟨?_,rfl⟩)
          simp only [List.map_cons,List.mem_cons,not_or]
          exact ⟨Ne.symm hk,hnew⟩

/-- The groups are the values of each key, in order. -/
structure Partitions (key : α → κ) (xs : List α) (groups : List (κ × List α)) : Prop where
  nodup : (groups.map Prod.fst).Nodup
  mem_keys : ∀ k, k ∈ groups.map Prod.fst ↔ k ∈ xs.map key
  group_eq : ∀ group ∈ groups, group.2 = xs.filter fun x => key x = group.1

theorem Partitions.append {key : α → κ} {xs : List α} {groups : List (κ × List α)}
    (h : Partitions key xs groups) (x : α) :
    Partitions key (xs++[x]) (appendTo (key x) x groups) := by
  refine ⟨?_,fun k => ?_,fun group hgroup => ?_⟩
  · rw [keys_appendTo]
    split_ifs with hmem
    · exact h.nodup
    · exact List.nodup_append.mpr ⟨h.nodup,List.nodup_singleton _,by
        intro a ha b hb
        rw [List.mem_singleton.mp hb]
        rintro rfl
        exact hmem ha⟩
  · rw [keys_appendTo]
    have hk := h.mem_keys k
    have hx := h.mem_keys (key x)
    split_ifs with hmem
    · rw [List.map_append,List.mem_append,hk]
      refine ⟨.inl,fun hor => hor.elim id fun heq => ?_⟩
      rw [List.map_singleton,List.mem_singleton] at heq
      rw [heq]
      exact hx.mp hmem
    · rw [List.map_append,List.mem_append,List.mem_append,hk]
      rfl
  · rw [List.filter_append]
    obtain ⟨hmem,hne⟩ | ⟨ys,hys,rfl⟩ | ⟨hnew,rfl⟩ := mem_appendTo h.nodup hgroup
    · rw [h.group_eq group hmem,List.filter_singleton]
      simp [Ne.symm hne]
    · have hgroup := h.group_eq _ hys
      simp only at hgroup
      rw [hgroup]
      simp
    · have hnone : xs.filter (fun y => key y = key x) = [] := by
        refine List.filter_eq_nil_iff.mpr fun y hy heq => ?_
        refine hnew ((h.mem_keys (key x)).mpr ?_)
        exact List.mem_map.mpr ⟨y,hy,of_decide_eq_true heq⟩
      rw [hnone]
      simp

theorem groupBy_partitions (key : α → κ) (xs : List α) : Partitions key xs (groupBy key xs) := by
  induction xs using List.reverseRecOn with
  | nil => exact ⟨List.nodup_nil,fun k => Iff.rfl,by simp [groupBy]⟩
  | append_singleton xs x ih =>
    rw [groupBy,List.foldl_append]
    exact ih.append x

namespace Partitions

variable {key : α → κ} {xs ys : List α} {groups : List (κ × List α)}

theorem ne_nil (h : Partitions key xs groups) {group : κ × List α} (hgroup : group ∈ groups) :
    group.2 ≠ [] := by
  rw [h.group_eq group hgroup]
  obtain ⟨x,hx,hkey⟩ := List.mem_map.mp ((h.mem_keys group.1).mp (List.mem_map_of_mem hgroup))
  exact List.ne_nil_of_mem (List.mem_filter.mpr ⟨hx,decide_eq_true hkey⟩)

theorem map_eq (h : Partitions key xs groups) (f : κ → List α → β) :
    groups.map (fun group => f group.1 group.2) =
      (groups.map Prod.fst).map fun k => f k (xs.filter fun x => key x = k) := by
  rw [List.map_map]
  refine List.map_congr_left fun group hgroup => ?_
  rw [h.group_eq group hgroup]
  rfl

theorem existsUnique (h : Partitions key xs groups) {x : α} (hx : x ∈ xs) :
    ∃! group, group ∈ groups ∧ x ∈ group.2 := by
  obtain ⟨group,hgroup,hkey⟩ := List.mem_map.mp ((h.mem_keys (key x)).mpr (List.mem_map_of_mem hx))
  refine ⟨group,⟨hgroup,?_⟩,fun other hother => ?_⟩
  · rw [h.group_eq group hgroup,List.mem_filter]
    exact ⟨hx,decide_eq_true hkey.symm⟩
  · have hmem := hother.2
    rw [h.group_eq other hother.1,List.mem_filter] at hmem
    exact List.inj_on_of_nodup_map h.nodup hother.1 hgroup ((of_decide_eq_true hmem.2).symm.trans
      hkey.symm)

/-- What is computed of each group from its values in any order does not depend on the order of all
values. -/
theorem map_perm (h : Partitions key xs groups) {groups' : List (κ × List α)}
    (h' : Partitions key ys groups') (hperm : xs.Perm ys) {f : κ → List α → β}
    (hf : ∀ k group group', group.Perm group' → (∀ x ∈ group, x ∈ xs) → f k group = f k group') :
    (groups.map fun group => f group.1 group.2).Perm
      (groups'.map fun group => f group.1 group.2) := by
  rw [h.map_eq,h'.map_eq]
  have hkeys : (groups.map Prod.fst).Perm (groups'.map Prod.fst) := by
    rw [List.perm_ext_iff_of_nodup h.nodup h'.nodup]
    intro k
    rw [h.mem_keys,h'.mem_keys]
    exact (hperm.map key).mem_iff
  refine (hkeys.map _).trans (List.Perm.of_eq (List.map_congr_left fun k _ => ?_))
  exact hf k _ _ (hperm.filter _) fun x hx => List.mem_of_mem_filter hx

end Partitions
end Grouping
end AsyncDataLoader
