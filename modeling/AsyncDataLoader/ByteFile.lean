import Mathlib.Data.List.Basic
import Mathlib.Data.List.TakeDrop
import Mathlib.Data.UInt

/-!
# Positional stores

A file or a buffer is the list of its elements. Storing past the end first extends the
list with zeros, as a positional write to a sparse file does.
-/

namespace AsyncDataLoader
namespace ByteFile

variable {α : Type*} [Zero α]

/-- Put `data` at `offset`, and leave everything else as it is. -/
def store (file : List α) (offset : ℕ) (data : List α) : List α :=
  file.take offset ++ List.replicate (offset-file.length) 0 ++ data ++
    file.drop (offset+data.length)

@[simp] theorem store_length (file : List α) (offset : ℕ) (data : List α) :
    (store file offset data).length = max file.length (offset+data.length) := by
  simp only [store,List.length_append,List.length_take,List.length_replicate,List.length_drop]
  omega

@[simp] theorem store_end (file data : List α) : store file file.length data = file++data := by
  simp [store]

@[simp] theorem store_start (file data : List α) :
    store file 0 data = data++file.drop data.length := by
  simp [store]

theorem store_store (file first second : List α) (offset : ℕ) :
    store (store file offset first) (offset+first.length) second =
      store file offset (first++second) := by
  have hlen : (file.take offset ++ List.replicate (offset-file.length) 0 ++ first).length =
      offset+first.length := by
    simp only [List.length_append,List.length_take,List.length_replicate]
    omega
  have hhead : (store file offset first).take (offset+first.length) =
      file.take offset ++ List.replicate (offset-file.length) 0 ++ first := by
    rw [← hlen,store,List.take_left]
  have htail : (store file offset first).drop (offset+first.length+second.length) =
      file.drop (offset+first.length+second.length) := by
    rw [← hlen,store,List.drop_append,List.drop_eq_nil_of_le (by omega),List.drop_drop]
    simp only [List.nil_append]
    congr 1
    omega
  have hgap : offset+first.length-(store file offset first).length = 0 := by
    rw [store_length]
    omega
  conv_lhs => rw [store]
  rw [hhead,htail,hgap,store]
  simp [List.append_assoc,Nat.add_assoc]

end ByteFile
end AsyncDataLoader
