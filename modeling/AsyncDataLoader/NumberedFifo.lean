import AsyncDataLoader.BoundedFifo

/-!
# Queues of numbered values

A producer and a consumer that agree on the numbers of the values between them: the queue
holds the values from the consumer's number up to the producer's, each with the property
that belongs to its number.
-/

namespace AsyncDataLoader

def Numbered {α : Type*} (P : ℕ → α → Prop) : ℕ → List α → Prop
  | _,[] => True
  | k,x::xs => P k x ∧ Numbered P (k+1) xs

namespace Numbered

variable {α : Type*} {P Q : ℕ → α → Prop}

theorem append_singleton {k : ℕ} {xs : List α} {x : α} (h : Numbered P k xs)
    (hx : P (k+xs.length) x) : Numbered P k (xs++[x]) := by
  induction xs generalizing k with
  | nil => exact ⟨hx,trivial⟩
  | cons y ys ih =>
    refine ⟨h.1,ih h.2 ?_⟩
    simpa [Nat.add_assoc,Nat.add_comm 1] using hx

theorem imp {k : ℕ} {xs : List α} (h : Numbered P k xs)
    (himp : ∀ i, ∀ x ∈ xs, P i x → Q i x) : Numbered Q k xs := by
  induction xs generalizing k with
  | nil => trivial
  | cons y ys ih =>
    exact ⟨himp k y (by simp) h.1,ih h.2 fun i x hx => himp i x (by simp [hx])⟩

end Numbered

namespace BoundedFifo

variable {α ε : Type*}

/-- The queue holds the values numbered from `lo` up to `hi`; it is closed only after the
last value. A failed queue has lost its values, and with them the count. -/
structure Carries (P : ℕ → α → Prop) (Last : ℕ → Prop) (lo hi : ℕ) (q : BoundedFifo α ε) :
    Prop where
  items : Numbered P lo q.items
  count : (∀ reason, q.life ≠ .failed reason) → hi = lo+q.items.length
  closed : q.life = .closed → Last hi

namespace Carries

variable {P Q : ℕ → α → Prop} {Last : ℕ → Prop} {lo hi : ℕ} {q q' : BoundedFifo α ε}

theorem imp (h : Carries P Last lo hi q) (himp : ∀ i, ∀ x ∈ q.items, P i x → Q i x) :
    Carries Q Last lo hi q :=
  ⟨h.items.imp himp,h.count,h.closed⟩

theorem failed {reason : ε} (hlife : q'.life = .failed reason) (hitems : q'.items = []) :
    Carries P Last lo hi q' :=
  ⟨by rw [hitems]; trivial,fun hlive => absurd hlife (hlive reason),
    fun hclosed => by rw [hlife] at hclosed; cases hclosed⟩

theorem push {v : α} (h : Carries P Last lo hi q) (hopen : q.life = .opened) (hv : P hi v)
    (hitems : q'.items = q.items++[v]) (hlife : q'.life = .opened) :
    Carries P Last lo (hi+1) q' := by
  have hhi : hi = lo+q.items.length := h.count (by simp [hopen])
  refine ⟨?_,fun _ => ?_,by simp [hlife]⟩
  · rw [hitems]
    exact h.items.append_singleton (by rwa [← hhi])
  · rw [hitems,List.length_append,List.length_singleton]
    omega

theorem pop {v : α} (h : Carries P Last lo hi q) (hitems : q.items = v::q'.items)
    (hlife : q'.life = q.life) : P lo v ∧ Carries P Last (lo+1) hi q' := by
  have hnumbered := h.items
  rw [hitems] at hnumbered
  refine ⟨hnumbered.1,hnumbered.2,fun hlive => ?_,fun hclosed => h.closed (hlife.symm.trans hclosed)⟩
  have hhi := h.count (by simpa [hlife] using hlive)
  rw [hitems,List.length_cons] at hhi
  omega

theorem close (h : Carries P Last lo hi q) (hlast : Last hi) : Carries P Last lo hi q.close := by
  cases hlife : q.life with
  | opened =>
    have hclose : q.close = { q with life := .closed } := by simp [BoundedFifo.close,hlife]
    rw [hclose]
    exact ⟨h.items,fun _ => h.count (by simp [hlife]),fun _ => hlast⟩
  | closed | failed =>
    have hclose : q.close = q := by simp [BoundedFifo.close,hlife]
    rw [hclose]
    exact h

/-- The consumer that finds a closed and empty queue has seen every value. -/
theorem drained (h : Carries P Last lo hi q) (hlife : q.life = .closed) (hitems : q.items = []) :
    Last lo := by
  have hhi := h.count (by simp [hlife])
  rw [hitems,List.length_nil,Nat.add_zero] at hhi
  exact hhi ▸ h.closed hlife

end Carries
end BoundedFifo
end AsyncDataLoader
