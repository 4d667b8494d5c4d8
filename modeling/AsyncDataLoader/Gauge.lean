import Mathlib.Algebra.Group.Int.Defs
import Mathlib.Algebra.Group.Nat.Defs
import Mathlib.Tactic.Common

/-!
# Gauges and counters

A gauge is a signed 64-bit value with its lifetime maximum. The operations are modelled one
at a time: the queue and the pool update their gauges under their mutexes.
-/

namespace AsyncDataLoader

structure Counter where
  value : ℕ
  deriving DecidableEq, Repr

def Counter.increment (c : Counter) (amount : ℕ) : Counter := ⟨(c.value+amount)%2^64⟩

def int64Max : ℤ := 2^63-1

/-- Two's-complement wrapping of `std::atomic<std::int64_t>::fetch_add`. -/
def wrapInt64 (v : ℤ) : ℤ := (v+2^63)%2^64-2^63

theorem wrapInt64_eq {v : ℤ} (hlo : -2^63 ≤ v) (hhi : v ≤ int64Max) : wrapInt64 v = v := by
  simp only [wrapInt64,int64Max] at *
  omega

structure Gauge where
  current : ℤ
  highWatermark : ℤ
  deriving DecidableEq, Repr

namespace Gauge

def zero : Gauge := ⟨0,0⟩

def updateHighWatermark (g : Gauge) (candidate : ℤ) : Gauge :=
  if candidate > g.highWatermark then { g with highWatermark := candidate } else g

def set (g : Gauge) (newValue : ℤ) : Gauge :=
  updateHighWatermark { g with current := newValue } newValue

def increment (g : Gauge) : Gauge :=
  let previous := g.current
  let stored := { g with current := wrapInt64 (previous+1) }
  if previous = int64Max then stored.updateHighWatermark previous
  else stored.updateHighWatermark (previous+1)

def decrement (g : Gauge) : Gauge := { g with current := wrapInt64 (g.current-1) }

/-- The gauge shows `depth`, and the largest depth so far was `peak`. -/
def Shows (g : Gauge) (depth peak : ℕ) : Prop := g.current = depth ∧ g.highWatermark = peak

theorem Shows.increment {g : Gauge} {depth peak : ℕ} (h : g.Shows depth peak)
    (hlt : (depth : ℤ) < int64Max) : g.increment.Shows (depth+1) (max peak (depth+1)) := by
  obtain ⟨hc,hw⟩ := h
  have hwrap : wrapInt64 ((depth : ℤ)+1) = depth+1 := wrapInt64_eq (by omega) (by omega)
  have hne : (depth : ℤ) ≠ int64Max := by omega
  simp only [Gauge.increment,Shows,hc,if_neg hne,updateHighWatermark,hw,hwrap]
  by_cases hgt : (depth : ℤ)+1 > peak
  · rw [if_pos hgt]
    exact ⟨by push_cast; rfl,by push_cast; omega⟩
  · rw [if_neg hgt]
    exact ⟨by push_cast; rfl,by push_cast; omega⟩

theorem Shows.decrement {g : Gauge} {depth peak : ℕ} (h : g.Shows (depth+1) peak)
    (hlt : (depth : ℤ) < int64Max) : g.decrement.Shows depth peak := by
  obtain ⟨hc,hw⟩ := h
  have hwrap : wrapInt64 ((depth : ℤ)+1-1) = depth := by
    rw [Int.add_sub_cancel]
    exact wrapInt64_eq (by omega) (by omega)
  refine ⟨?_,hw⟩
  simp only [Gauge.decrement,hc]
  push_cast
  exact hwrap

theorem Shows.set_zero {g : Gauge} {depth peak : ℕ} (h : g.Shows depth peak) :
    (g.set 0).Shows 0 peak := by
  have hw := h.2
  have hlow : ¬ (0 : ℤ) > g.highWatermark := by omega
  simp only [Gauge.set,updateHighWatermark,if_neg hlow]
  exact ⟨rfl,hw⟩

end Gauge
end AsyncDataLoader
