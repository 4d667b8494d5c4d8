import Mathlib.Data.List.Basic
import Mathlib.Tactic.Common

/-!
# Condition variables

The threads that are parked on a condition variable. A notification that comes when nobody is
parked has no effect, so what matters is that one is still to come whenever a parked thread
could go on.
-/

namespace AsyncDataLoader

structure CondVar (T : Type*) where
  parked : List T

namespace CondVar

variable {T : Type*}

def empty (T : Type*) : CondVar T := ⟨[]⟩

/-- `wait` releases the mutex and parks the thread in one step. -/
def wait (c : CondVar T) (t : T) : CondVar T := ⟨t::c.parked⟩

def notifyAll (_ : CondVar T) : CondVar T := ⟨[]⟩

/-- A parked thread that is ready has a notification to come. -/
def NoLostWakeup (c : CondVar T) (ready pending : Prop) : Prop :=
  ∀ t ∈ c.parked, ready → pending

/-- Only `t` is ever parked here, and only while `inside` its call. -/
def SoleWaiter (c : CondVar T) (t : T) (inside : Prop) : Prop :=
  c.parked = [] ∨ c.parked = [t] ∧ inside

theorem noLostWakeup_of_empty {c : CondVar T} (h : c.parked = []) (ready pending : Prop) :
    c.NoLostWakeup ready pending := by
  intro t ht
  rw [h] at ht
  cases ht

theorem NoLostWakeup.wait {c : CondVar T} {ready : Prop} (h : ¬ready) (t : T) (pending : Prop) :
    (c.wait t).NoLostWakeup ready pending :=
  fun _ _ hready => absurd hready h

theorem NoLostWakeup.mono {c : CondVar T} {ready ready' pending pending' : Prop}
    (h : c.NoLostWakeup ready pending) (hready : ready' → ready) (hpending : pending → pending') :
    c.NoLostWakeup ready' pending' :=
  fun t ht hr => hpending (h t ht (hready hr))

theorem NoLostWakeup.of_pending {c : CondVar T} {ready pending : Prop} (h : pending) :
    c.NoLostWakeup ready pending :=
  fun _ _ _ => h

theorem SoleWaiter.of_unparked {c : CondVar T} {t : T} {inside : Prop}
    (h : c.SoleWaiter t inside) (ht : t ∉ c.parked) : c.parked = [] := by
  rcases h with hnone | ⟨hone,-⟩
  · exact hnone
  · rw [hone] at ht
    exact absurd (List.mem_singleton_self t) ht

theorem SoleWaiter.of_outside {c : CondVar T} {t : T} {inside : Prop}
    (h : c.SoleWaiter t inside) (hout : ¬inside) : c.parked = [] :=
  h.elim id fun hone => absurd hone.2 hout

variable [DecidableEq T]

def wake (c : CondVar T) (t : T) : Option (CondVar T) :=
  if t ∈ c.parked then some ⟨c.parked.erase t⟩ else none

/-- `notify_one` ends the wait of one parked thread, if there is any. -/
def notifyOne (c : CondVar T) : Option T → Option (CondVar T)
  | some t => c.wake t
  | none => if c.parked = [] then some c else none

theorem SoleWaiter.wake {c c' : CondVar T} {t u : T} {inside : Prop} (h : c.SoleWaiter t inside)
    (hwake : c.wake u = some c') : c'.parked = [] := by
  unfold CondVar.wake at hwake
  split at hwake
  · rename_i hmem
    obtain rfl := Option.some.inj hwake
    rcases h with hnone | ⟨hone,-⟩
    · rw [hnone] at hmem
      cases hmem
    · rw [hone] at hmem
      obtain rfl := List.mem_singleton.mp hmem
      simp [hone]
  · cases hwake

theorem SoleWaiter.notifyOne {c c' : CondVar T} {t : T} {woken : Option T} {inside : Prop}
    (h : c.SoleWaiter t inside) (hnotify : c.notifyOne woken = some c') : c'.parked = [] := by
  cases woken with
  | some u => exact h.wake hnotify
  | none =>
    simp only [CondVar.notifyOne] at hnotify
    split at hnotify
    · rename_i hnone
      obtain rfl := Option.some.inj hnotify
      exact hnone
    · cases hnotify

theorem SoleWaiter.exists_notifyOne {c : CondVar T} {t : T} {inside : Prop}
    (h : c.SoleWaiter t inside) : ∃ woken c', c.notifyOne woken = some c' := by
  rcases h with hnone | ⟨hone,-⟩
  · exact ⟨none,c,if_pos hnone⟩
  · exact ⟨some t,_,if_pos (by rw [hone]; exact List.mem_singleton_self t)⟩

end CondVar
end AsyncDataLoader
