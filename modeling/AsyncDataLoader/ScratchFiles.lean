import AsyncDataLoader.FileSystem
import Mathlib.Data.Set.Insert

/-!
# Scratch files

A program that makes files of its own and removes them again: the names that were there before
denote what they denoted, while a set of new names may denote anything.
-/

namespace AsyncDataLoader
namespace FileSystem

variable {N C : Type*}

/-- The names in `S` are new, all others denote what they denoted before. -/
structure Apart (before fs : FileSystem N C) (S : Set (ℕ × N)) : Prop where
  absent : ∀ d n, (d,n) ∈ S → before.entries d n = none
  kept : ∀ d n, (d,n) ∉ S → fs.denotes d n = before.denotes d n

variable {before fs fs' : FileSystem N C} {S T : Set (ℕ × N)} {d inode : ℕ} {n : N}

theorem denotes_eq_none : fs.denotes d n = none ↔ fs.entries d n = none := Option.map_eq_none_iff

namespace Apart

theorem refl (fs : FileSystem N C) : Apart fs fs ∅ := ⟨by simp,fun _ _ _ => rfl⟩

theorem trans (h : Apart before fs S)
    (hkept : ∀ d n, (d,n) ∉ S → fs'.denotes d n = fs.denotes d n) : Apart before fs' S :=
  ⟨h.absent,fun d n hn => (hkept d n hn).trans (h.kept d n hn)⟩

theorem grow (h : Apart before fs S)
    (hkept : ∀ d n, (d,n) ∉ S → fs.entries d n ≠ none → fs'.denotes d n = fs.denotes d n) :
    Apart before fs' (S ∪ {x | fs.entries x.1 x.2 = none ∧ fs'.entries x.1 x.2 ≠ none}) where
  absent := by
    rintro d n (hmem | ⟨habsent,-⟩)
    · exact h.absent d n hmem
    · by_cases hnew : (d,n) ∈ S
      · exact h.absent d n hnew
      · rw [← denotes_eq_none,← h.kept d n hnew]
        exact denotes_eq_none.mpr habsent
  kept := by
    intro d n hn
    rw [Set.mem_union,not_or] at hn
    rw [← h.kept d n hn.1]
    by_cases habsent : fs.entries d n = none
    · have hstill : fs'.entries d n = none := by
        by_contra hmade
        exact hn.2 ⟨habsent,hmade⟩
      rw [denotes_eq_none.mpr habsent,denotes_eq_none.mpr hstill]
    · exact hkept d n hn.1 habsent

theorem of_eq (h : Apart before fs S) (heq : S = T) : Apart before fs T := heq ▸ h

variable [DecidableEq N]

theorem create (h : Apart before fs S) (habsent : fs.entries d n = none)
    (hunused : ∀ d' n', fs.entries d' n' ≠ some inode) (empty : C) :
    Apart before (fs.create d n inode empty) (insert (d,n) S) where
  absent := by
    rintro d' n' (heq | hmem)
    · obtain ⟨rfl,rfl⟩ := Prod.mk.inj heq
      by_cases hnew : (d',n') ∈ S
      · exact h.absent d' n' hnew
      · rw [← denotes_eq_none,← h.kept d' n' hnew]
        exact denotes_eq_none.mpr habsent
    · exact h.absent d' n' hmem
  kept := by
    intro d' n' hn
    rw [Set.mem_insert_iff,not_or] at hn
    have hne : ¬ (d' = d ∧ n' = n) := fun heq => hn.1 (by rw [heq.1,heq.2])
    rw [← h.kept d' n' hn.2]
    exact (beside_create habsent hunused empty).denotes hne

theorem unlink (h : Apart before fs S) (hmem : (d,n) ∈ S) :
    Apart before (fs.unlink d n) (S \ {(d,n)}) where
  absent := fun d' n' hn => h.absent d' n' hn.1
  kept := by
    intro d' n' hn
    by_cases heq : d' = d ∧ n' = n
    · obtain ⟨rfl,rfl⟩ := heq
      rw [denotes_eq_none.mpr (h.absent d' n' hmem)]
      exact denotes_eq_none.mpr (if_pos ⟨rfl,rfl⟩)
    · have hnew : (d',n') ∉ S := fun hin => hn ⟨hin,fun hsingle => heq (Prod.mk.inj hsingle)⟩
      rw [← h.kept d' n' hnew]
      simp [denotes,FileSystem.unlink,heq]

end Apart
end FileSystem
end AsyncDataLoader
