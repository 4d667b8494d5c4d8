import Mathlib.Data.List.Rotate
import Mathlib.Data.List.ReduceOption
import Mathlib.Data.Nat.ModEq
import Mathlib.Tactic.Common

/-!
# Ring buffers

A fixed list of optional slots, read cyclically from a head position, holds a list of
values when rotating it to its head gives the values followed by empty slots.
-/

namespace AsyncDataLoader
namespace RingBuffer

variable {α : Type*}

/-- The slots, read from `head`, are the values `xs` and then empty slots only. -/
def Holds (slots : List (Option α)) (head : ℕ) (xs : List α) : Prop :=
  slots.rotate head = xs.map some ++ List.replicate (slots.length-xs.length) none

def values (slots : List (Option α)) (head : ℕ) : List α := (slots.rotate head).reduceOption

theorem rotate_set {slots : List (Option α)} {head k : ℕ} (hk : k < slots.length)
    (v : Option α) :
    (slots.set ((head+k)%slots.length) v).rotate head = (slots.rotate head).set k v := by
  apply List.ext_getElem (by simp)
  intro i hi hi'
  have hi : i < slots.length := by simpa using hi
  rw [List.getElem_rotate,List.getElem_set,List.getElem_set,List.getElem_rotate]
  simp only [List.length_set]
  have heq : (head+k)%slots.length = (i+head)%slots.length ↔ k = i := by
    rw [Nat.add_comm i head]
    constructor
    · intro h
      have hm : k ≡ i [MOD slots.length] := Nat.ModEq.add_left_cancel' head h
      exact Nat.ModEq.eq_of_lt_of_lt hm hk hi
    · rintro rfl; rfl
  simp only [heq]

theorem Holds.length_le {slots : List (Option α)} {head : ℕ} {xs : List α}
    (h : Holds slots head xs) : xs.length ≤ slots.length := by
  have hlen := congrArg List.length h
  simp only [List.length_rotate,List.length_append,List.length_map,List.length_replicate] at hlen
  omega

@[simp] theorem values_eq {slots : List (Option α)} {head : ℕ} {xs : List α}
    (h : Holds slots head xs) : values slots head = xs := by
  have hnone : ∀ n, (List.replicate n (none : Option α)).reduceOption = [] := by
    intro n
    induction n with
    | zero => rfl
    | succ n ih => simp [List.replicate_succ,ih]
  have hsome : ∀ ys : List α, (ys.map some).reduceOption = ys := by
    intro ys
    induction ys with
    | nil => rfl
    | cons y ys ih => simp [ih]
  rw [values,h,List.reduceOption_append,hnone,hsome,List.append_nil]

theorem holds_empty (n head : ℕ) : Holds (List.replicate n (none : Option α)) head [] := by
  simp [Holds,List.rotate_replicate]

theorem Holds.getElem? {slots : List (Option α)} {head : ℕ} {xs : List α}
    (h : Holds slots head xs) {k : ℕ} (hk : k < slots.length) :
    slots[(head+k)%slots.length]? = some xs[k]? := by
  have hrot : (slots.rotate head)[k]? = slots[(k+head)%slots.length]? := List.getElem?_rotate hk
  rw [Nat.add_comm head k,← hrot,h]
  by_cases hx : k < xs.length
  · simp [List.getElem?_append,hx]
  · have hr : k-xs.length < slots.length-xs.length := by omega
    simp [List.getElem?_append,hx,hr]

theorem Holds.head_slot {slots : List (Option α)} {head : ℕ} {x : α} {xs : List α}
    (h : Holds slots head (x::xs)) : slots[head%slots.length]? = some (some x) := by
  have hlen := h.length_le
  simp only [List.length_cons] at hlen
  have hslot := @Holds.getElem? α slots head (x::xs) h 0 (by omega)
  simpa using hslot

theorem Holds.tail_slot {slots : List (Option α)} {head : ℕ} {xs : List α}
    (h : Holds slots head xs) (hlt : xs.length < slots.length) :
    slots[(head+xs.length)%slots.length]? = some none := by
  simpa using h.getElem? hlt

theorem Holds.occupied_iff {slots : List (Option α)} {head : ℕ} {xs : List α}
    (h : Holds slots head xs) {i : ℕ} (hi : i < slots.length) :
    (∃ x, slots[i]? = some (some x)) ↔ ∃ j, j < xs.length ∧ i = (head+j)%slots.length := by
  constructor
  · rintro ⟨x,hx⟩
    let k := (i+(slots.length-head%slots.length))%slots.length
    have hpos : 0 < slots.length := by omega
    have hmod := Nat.mod_lt head hpos
    have hk : k < slots.length := Nat.mod_lt _ hpos
    have hik : (head+k)%slots.length = i := by
      have hsum : head%slots.length+(i+(slots.length-head%slots.length)) = i+slots.length := by
        omega
      calc (head+k)%slots.length
          = (head%slots.length+(i+(slots.length-head%slots.length)))%slots.length := by
            simp [k,Nat.add_mod]
        _ = i := by rw [hsum,Nat.add_mod_right,Nat.mod_eq_of_lt hi]
    have hslot := h.getElem? hk
    rw [hik,hx,Option.some.injEq] at hslot
    refine ⟨k,?_,hik.symm⟩
    by_contra hge
    rw [List.getElem?_eq_none (by omega)] at hslot
    simp at hslot
  · rintro ⟨j,hj,rfl⟩
    have hlen := h.length_le
    exact ⟨xs[j],by rw [h.getElem? (by omega),List.getElem?_eq_getElem hj]⟩

theorem Holds.push {slots : List (Option α)} {head : ℕ} {xs : List α}
    (h : Holds slots head xs) (hlt : xs.length < slots.length) (v : α) :
    Holds (slots.set ((head+xs.length)%slots.length) (some v)) head (xs++[v]) := by
  have hfree : slots.length-xs.length = (slots.length-(xs.length+1))+1 := by omega
  unfold Holds
  rw [rotate_set hlt,h,hfree,List.replicate_succ,List.set_append]
  simp

theorem Holds.pop {slots : List (Option α)} {head : ℕ} {x : α} {xs : List α}
    (h : Holds slots head (x::xs)) :
    Holds (slots.set (head%slots.length) none) ((head+1)%slots.length) xs := by
  have hlen := h.length_le
  simp only [List.length_cons] at hlen
  have hset : (slots.set (head%slots.length) none).rotate head =
      none :: (xs.map some ++ List.replicate (slots.length-(xs.length+1)) none) := by
    have hrot := @rotate_set α slots head 0 (by omega) none
    rw [Nat.add_zero] at hrot
    rw [hrot,h]
    simp
  have hnext : (slots.set (head%slots.length) none).rotate ((head+1)%slots.length) =
      (slots.set (head%slots.length) none).rotate (head+1) := by
    conv_rhs => rw [← List.rotate_mod]
    simp
  have hfree : slots.length-xs.length = (slots.length-(xs.length+1))+1 := by omega
  unfold Holds
  rw [hnext,← List.rotate_rotate,hset,List.length_set,hfree,List.replicate_succ']
  simp [List.append_assoc]

end RingBuffer
end AsyncDataLoader
