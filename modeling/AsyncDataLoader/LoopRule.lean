import Mathlib.Tactic.Common

/-!
# Loops with a measure

A loop whose body leaves it with a result, or goes on in a state of smaller measure. Every run of
such a loop ends, so that an invariant gives what holds of the result.
-/

namespace AsyncDataLoader

/-- The body of a `while (true)` that returns or throws, or goes on. -/
structure MeasuredLoop (S R : Type*) where
  body : S → R ⊕ S
  measure : S → ℕ
  decreases : ∀ {s t}, body s = .inr t → measure t < measure s

namespace MeasuredLoop

variable {S R : Type*} (L : MeasuredLoop S R)

def run (s : S) : R :=
  match _hbody : L.body s with
  | .inl r => r
  | .inr t => run t
termination_by L.measure s
decreasing_by exact L.decreases _hbody

variable {L} {s t : S} {r : R}

theorem run_inl (h : L.body s = .inl r) : L.run s = r := by
  rw [run]
  split
  · rename_i hbody
    exact Sum.inl.inj (hbody.symm.trans h)
  · rename_i hbody
    cases hbody.symm.trans h

theorem run_inr (h : L.body s = .inr t) : L.run s = L.run t := by
  rw [run]
  split
  · rename_i hbody
    cases hbody.symm.trans h
  · rename_i hbody
    rw [Sum.inr.inj (hbody.symm.trans h)]

theorem run_rule {I : S → Prop} {Q : R → Prop} (hs : I s)
    (hturn : ∀ s t, I s → L.body s = .inr t → I t)
    (hexit : ∀ s r, I s → L.body s = .inl r → Q r) : Q (L.run s) := by
  induction hmeasure : L.measure s using Nat.strongRecOn generalizing s with
  | ind n ih =>
    cases hbody : L.body s with
    | inl r =>
      rw [run_inl hbody]
      exact hexit s r hs hbody
    | inr t =>
      rw [run_inr hbody]
      exact ih (L.measure t) (hmeasure ▸ L.decreases hbody) (hturn s t hs hbody) rfl

end MeasuredLoop
end AsyncDataLoader
