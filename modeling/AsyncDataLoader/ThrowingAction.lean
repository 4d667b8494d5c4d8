import Mathlib.Tactic.Common

/-!
# Actions that may throw

A call that changes a state and returns or throws. What it has changed before it throws stays
changed, so that a call which is all or nothing has to see to it: by checks before the first
change, or by taking its changes back.
-/

namespace AsyncDataLoader

abbrev Action (ε σ α : Type) := EStateM ε σ α

namespace Action

variable {ε σ τ α β : Type}

def check (f : σ → Except ε α) : Action ε σ α := fun s =>
  match f s with
  | .ok a => .ok a s
  | .error e => .error e s

/-- A call on a part of the state. -/
def zoom (get : σ → τ) (set : σ → τ → σ) (x : Action ε τ α) : Action ε σ α := fun s =>
  match x (get s) with
  | .ok a t => .ok a (set s t)
  | .error e t => .error e (set s t)

/-- What the call leaves, whether it returns or throws. -/
def after (x : Action ε σ α) (s : σ) : σ :=
  match x s with
  | .ok _ s' => s'
  | .error _ s' => s'

/-- A call that throws leaves the state as it was. -/
def Atomic (x : Action ε σ α) : Prop := ∀ ⦃s e s'⦄, x s = .error e s' → s' = s

/-- A call that returns leaves the state as it was. -/
def ReadOnly (x : Action ε σ α) : Prop := ∀ ⦃s a s'⦄, x s = .ok a s' → s' = s

theorem bind_ok {x : Action ε σ α} {f : α → Action ε σ β} {s s' : σ} {b : β} :
    (x >>= f) s = .ok b s' ↔ ∃ a t, x s = .ok a t ∧ f a t = .ok b s' := by
  change EStateM.bind x f s = .ok b s' ↔ _
  cases hx : x s with
  | ok a t => simp [EStateM.bind,hx]
  | error e t => simp [EStateM.bind,hx]

theorem bind_error {x : Action ε σ α} {f : α → Action ε σ β} {s s' : σ} {e : ε} :
    (x >>= f) s = .error e s' ↔
      x s = .error e s' ∨ ∃ a t, x s = .ok a t ∧ f a t = .error e s' := by
  change EStateM.bind x f s = .error e s' ↔ _
  cases hx : x s with
  | ok a t => simp [EStateM.bind,hx]
  | error e t => simp [EStateM.bind,hx]

theorem check_ok {f : σ → Except ε α} {s s' : σ} {a : α} :
    check f s = .ok a s' ↔ f s = .ok a ∧ s' = s := by
  unfold check
  cases f s with
  | ok b => simp [eq_comm]
  | error e => simp

theorem check_error {f : σ → Except ε α} {s s' : σ} {e : ε} :
    check f s = .error e s' ↔ f s = .error e ∧ s' = s := by
  unfold check
  cases f s with
  | ok b => simp
  | error e => simp [eq_comm]

theorem after_ok {x : Action ε σ α} {s s' : σ} {a : α} (h : x s = .ok a s') : x.after s = s' := by
  rw [after,h]

theorem after_error {x : Action ε σ α} {s s' : σ} {e : ε} (h : x s = .error e s') :
    x.after s = s' := by
  rw [after,h]

theorem cases_on (x : Action ε σ α) (s : σ) :
    (∃ a, x s = .ok a (x.after s)) ∨ ∃ e, x s = .error e (x.after s) := by
  cases hx : x s with
  | ok a t => exact .inl ⟨a,by rw [after_ok hx]⟩
  | error e t => exact .inr ⟨e,by rw [after_error hx]⟩

theorem Atomic.check (f : σ → Except ε α) : (check f).Atomic := fun _ _ _ h => (check_error.mp h).2

theorem ReadOnly.check (f : σ → Except ε α) : (Action.check f).ReadOnly :=
  fun _ _ _ h => (check_ok.mp h).2

/-- Checks come before the first change. -/
theorem Atomic.bind {x : Action ε σ α} (hx : x.Atomic) (hread : x.ReadOnly)
    {f : α → Action ε σ β} (hf : ∀ a, (f a).Atomic) : Action.Atomic (x >>= f) := by
  intro s e s' h
  obtain hthrown | ⟨a,t,hreturned,hthrown⟩ := bind_error.mp h
  · exact hx hthrown
  · rw [hf a hthrown,hread hreturned]

end Action
end AsyncDataLoader
