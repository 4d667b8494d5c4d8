import Mathlib.Data.List.Basic
import Mathlib.Tactic.Common

/-!
# Directory entries and the files behind them

A name of a directory denotes an inode; the contents belong to the inode, and so does what
the last `fsync` has made durable. The relations below follow a new file that is made beside
the others and then removed again or moved over another name.
-/

namespace AsyncDataLoader

/-- `N` are the names in a directory, `C` the contents of a file. -/
structure FileSystem (N C : Type*) where
  entries : ℕ → N → Option ℕ
  contents : ℕ → C
  durable : ℕ → C

namespace FileSystem

variable {N C : Type*}

def write (fs : FileSystem N C) (inode : ℕ) (content : C) : FileSystem N C :=
  { fs with contents := fun j => if j = inode then content else fs.contents j }

def sync (fs : FileSystem N C) (inode : ℕ) : FileSystem N C :=
  { fs with durable := fun j => if j = inode then fs.contents j else fs.durable j }

def denotes (fs : FileSystem N C) (d : ℕ) (n : N) : Option (ℕ × C) :=
  (fs.entries d n).map fun inode => (inode,fs.contents inode)

@[simp] theorem denotes_sync (fs : FileSystem N C) (inode : ℕ) :
    (fs.sync inode).denotes = fs.denotes := rfl

/-- Every name denotes what it denoted before. -/
def Untouched (before fs : FileSystem N C) : Prop := ∀ d n, fs.denotes d n = before.denotes d n

/-- A new file stands beside the files that were there before. -/
structure Beside (before fs : FileSystem N C) (d : ℕ) (n : N) (inode : ℕ) : Prop where
  absent : before.entries d n = none
  unused : ∀ d' n', before.entries d' n' ≠ some inode
  entry : fs.entries d n = some inode
  others : ∀ d' n', ¬ (d' = d ∧ n' = n) → fs.entries d' n' = before.entries d' n'
  contents : ∀ j, j ≠ inode → fs.contents j = before.contents j

/-- A name denotes the new file, and every other name what it denoted before. -/
structure Replaced (before fs : FileSystem N C) (d : ℕ) (n : N) (inode : ℕ) : Prop where
  entry : fs.denotes d n = some (inode,fs.contents inode)
  others : ∀ d' n', ¬ (d' = d ∧ n' = n) → fs.denotes d' n' = before.denotes d' n'
  contents : ∀ j, j ≠ inode → fs.contents j = before.contents j

variable {before fs : FileSystem N C} {d inode : ℕ} {n : N}

namespace Beside

theorem write (h : Beside before fs d n inode) (content : C) :
    Beside before (fs.write inode content) d n inode :=
  { h with contents := fun j hne => (if_neg hne).trans (h.contents j hne) }

theorem sync (h : Beside before fs d n inode) : Beside before (fs.sync inode) d n inode :=
  { h with }

theorem denotes (h : Beside before fs d n inode) {d' : ℕ} {n' : N} (hne : ¬ (d' = d ∧ n' = n)) :
    fs.denotes d' n' = before.denotes d' n' := by
  rw [FileSystem.denotes,FileSystem.denotes,h.others d' n' hne]
  cases hentry : before.entries d' n' with
  | none => rfl
  | some j =>
    have hj : j ≠ inode := fun heq => h.unused d' n' (hentry.trans (congrArg some heq))
    simp [h.contents j hj]

end Beside

variable [DecidableEq N]

def create (fs : FileSystem N C) (d : ℕ) (n : N) (inode : ℕ) (empty : C) : FileSystem N C where
  entries := fun d' n' => if d' = d ∧ n' = n then some inode else fs.entries d' n'
  contents := fun j => if j = inode then empty else fs.contents j
  durable := fs.durable

def rename (fs : FileSystem N C) (d : ℕ) (old new : N) : FileSystem N C :=
  { fs with entries := fun d' n' =>
      if d' = d ∧ n' = old then none
      else if d' = d ∧ n' = new then fs.entries d old
      else fs.entries d' n' }

def unlink (fs : FileSystem N C) (d : ℕ) (n : N) : FileSystem N C :=
  { fs with entries := fun d' n' => if d' = d ∧ n' = n then none else fs.entries d' n' }

theorem beside_create (habsent : before.entries d n = none)
    (hunused : ∀ d' n', before.entries d' n' ≠ some inode) (empty : C) :
    Beside before (before.create d n inode empty) d n inode where
  absent := habsent
  unused := hunused
  entry := if_pos ⟨rfl,rfl⟩
  others := fun _ _ hne => if_neg hne
  contents := fun _ hne => if_neg hne

namespace Beside

theorem unlink (h : Beside before fs d n inode) : Untouched before (fs.unlink d n) := by
  intro d' n'
  by_cases heq : d' = d ∧ n' = n
  · obtain ⟨rfl,rfl⟩ := heq
    simp [FileSystem.denotes,FileSystem.unlink,h.absent]
  · rw [← h.denotes heq]
    simp [FileSystem.denotes,FileSystem.unlink,heq]

theorem rename (h : Beside before fs d n inode) {new : N} (hne : new ≠ n) :
    Replaced before (fs.rename d n new) d new inode where
  entry := by simp [FileSystem.denotes,FileSystem.rename,hne,h.entry]
  others := by
    intro d' n' hother
    by_cases heq : d' = d ∧ n' = n
    · obtain ⟨rfl,rfl⟩ := heq
      simp [FileSystem.denotes,FileSystem.rename,h.absent]
    · rw [← h.denotes heq]
      simp [FileSystem.denotes,FileSystem.rename,heq,hother]
  contents := h.contents

end Beside
end FileSystem
end AsyncDataLoader
