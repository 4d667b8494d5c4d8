import AsyncDataLoader.TransitionSystem

/-!
# Bounded first-in first-out queues with a life state

The abstract queue between a producer and a consumer: a list of values of bounded length
that is open, closed, or failed for a reason of type `ε`. Calls wait on an open queue only.
-/

namespace AsyncDataLoader

inductive Life (ε : Type*)
  | opened
  | closed
  | failed (reason : ε)
  deriving DecidableEq, Repr

structure BoundedFifo (α ε : Type*) where
  capacity : ℕ
  items : List α
  life : Life ε

namespace BoundedFifo

variable {α ε : Type*}

/-- `none` while the queue is open and full. -/
def push (q : BoundedFifo α ε) (v : α) : Option (BoundedFifo α ε × Except ε Bool) :=
  match q.life with
  | .failed reason => some (q,.error reason)
  | .closed => some (q,.ok false)
  | .opened =>
    if q.items.length < q.capacity then some ({ q with items := q.items++[v] },.ok true)
    else none

def pop (q : BoundedFifo α ε) : Option (BoundedFifo α ε × Except ε (Option α)) :=
  match q.life,q.items with
  | .failed reason,_ => some (q,.error reason)
  | _,v::vs => some ({ q with items := vs },.ok (some v))
  | .closed,[] => some (q,.ok none)
  | .opened,[] => none

def close (q : BoundedFifo α ε) : BoundedFifo α ε :=
  match q.life with
  | .opened => { q with life := .closed }
  | _ => q

/-- The first reason stays. -/
def fail (q : BoundedFifo α ε) (reason : ε) : BoundedFifo α ε :=
  match q.life with
  | .failed _ => q
  | _ => { q with items := [], life := .failed reason }

theorem push_cases {q q' : BoundedFifo α ε} {v : α} {r : Except ε Bool}
    (h : q.push v = some (q',r)) :
    (r = .ok true ∧ q.life = .opened ∧ q.items.length < q.capacity ∧
      q' = { q with items := q.items++[v] }) ∨
    (r = .ok false ∧ q.life = .closed ∧ q' = q) ∨
    ∃ reason, r = .error reason ∧ q.life = .failed reason ∧ q' = q := by
  unfold push at h
  cases hlife : q.life with
  | failed reason =>
    obtain ⟨rfl,rfl⟩ : q = q' ∧ .error reason = r := by simpa [hlife] using h
    exact .inr (.inr ⟨reason,rfl,rfl,rfl⟩)
  | closed =>
    obtain ⟨rfl,rfl⟩ : q = q' ∧ .ok false = r := by simpa [hlife] using h
    exact .inr (.inl ⟨rfl,rfl,rfl⟩)
  | opened =>
    obtain ⟨hlt,rfl,rfl⟩ : q.items.length < q.capacity ∧
        { q with items := q.items++[v] } = q' ∧ .ok true = r := by simpa [hlife] using h
    exact .inl ⟨rfl,rfl,hlt,by rw [hlife]⟩

theorem push_eq_none {q : BoundedFifo α ε} {v : α} :
    q.push v = none ↔ q.life = .opened ∧ q.capacity ≤ q.items.length := by
  unfold push
  cases q.life <;> simp

theorem pop_cases {q q' : BoundedFifo α ε} {r : Except ε (Option α)}
    (h : q.pop = some (q',r)) :
    (∃ v vs, r = .ok (some v) ∧ q.items = v::vs ∧ (∀ reason, q.life ≠ .failed reason) ∧
      q' = { q with items := vs }) ∨
    (r = .ok none ∧ q.life = .closed ∧ q.items = [] ∧ q' = q) ∨
    ∃ reason, r = .error reason ∧ q.life = .failed reason ∧ q' = q := by
  unfold pop at h
  cases hlife : q.life with
  | failed reason =>
    obtain ⟨rfl,rfl⟩ : q = q' ∧ .error reason = r := by simpa [hlife] using h
    exact .inr (.inr ⟨reason,rfl,rfl,rfl⟩)
  | closed =>
    cases hitems : q.items with
    | nil =>
      obtain ⟨rfl,rfl⟩ : q = q' ∧ .ok none = r := by simpa [hlife,hitems] using h
      exact .inr (.inl ⟨rfl,rfl,rfl,rfl⟩)
    | cons v vs =>
      obtain ⟨rfl,rfl⟩ : { q with items := vs } = q' ∧ .ok (some v) = r := by
        simpa [hlife,hitems] using h
      exact .inl ⟨v,vs,rfl,rfl,by simp,by rw [hlife]⟩
  | opened =>
    cases hitems : q.items with
    | nil => simp [hlife,hitems] at h
    | cons v vs =>
      obtain ⟨rfl,rfl⟩ : { q with items := vs } = q' ∧ .ok (some v) = r := by
        simpa [hlife,hitems] using h
      exact .inl ⟨v,vs,rfl,rfl,by simp,by rw [hlife]⟩

theorem pop_eq_none {q : BoundedFifo α ε} :
    q.pop = none ↔ q.life = .opened ∧ q.items = [] := by
  unfold pop
  cases q.life <;> cases q.items <;> simp

@[simp] theorem close_items (q : BoundedFifo α ε) : q.close.items = q.items := by
  unfold close
  cases q.life <;> rfl

theorem fail_of_failed {q : BoundedFifo α ε} {first : ε} (h : q.life = .failed first)
    (reason : ε) : q.fail reason = q := by
  simp [fail,h]

theorem fail_of_live {q : BoundedFifo α ε} (h : ∀ first, q.life ≠ .failed first) (reason : ε) :
    q.fail reason = { q with items := [], life := .failed reason } := by
  unfold fail
  cases hlife : q.life with
  | failed first => exact absurd hlife (h first)
  | opened => rfl
  | closed => rfl

/-- The calls on a queue; a failure without a reason is refused. -/
inductive Operation (α ε : Type*)
  | push (v : α)
  | pop
  | close
  | fail (reason : Option ε)

inductive Response (α ε : Type*)
  | pushed (result : Except ε Bool)
  | popped (result : Except ε (Option α))
  | closed
  | failed (accepted : Bool)

def perform (q : BoundedFifo α ε) : Operation α ε → Option (BoundedFifo α ε × Response α ε)
  | .push v => (q.push v).map fun r => (r.1,.pushed r.2)
  | .pop => q.pop.map fun r => (r.1,.popped r.2)
  | .close => some (q.close,.closed)
  | .fail none => some (q,.failed false)
  | .fail (some reason) => some (q.fail reason,.failed true)

/-- A queue of any representation with what has been observed of it. -/
structure Observed (Q α ε : Type*) where
  queue : Q
  history : List (Operation α ε × Response α ε)
  peak : ℕ

/-- The completed calls on a queue, recorded, with the largest size so far. -/
def observe {Q : Type*} (perform : Q → Operation α ε → Option (Q × Response α ε)) (size : Q → ℕ) :
    TransitionSystem (Operation α ε) (Observed Q α ε) where
  step op s := (perform s.queue op).map fun r =>
    ⟨r.1,s.history++[(op,r.2)],max s.peak (size r.1)⟩

def pushedValues (history : List (Operation α ε × Response α ε)) : List α :=
  history.filterMap fun
    | (.push v,.pushed (.ok true)) => some v
    | _ => none

def poppedValues (history : List (Operation α ε × Response α ε)) : List α :=
  history.filterMap fun
    | (_,.popped (.ok (some v))) => some v
    | _ => none

@[simp] theorem pushedValues_append (h k : List (Operation α ε × Response α ε)) :
    pushedValues (h++k) = pushedValues h ++ pushedValues k := by
  simp [pushedValues]

@[simp] theorem poppedValues_append (h k : List (Operation α ε × Response α ε)) :
    poppedValues (h++k) = poppedValues h ++ poppedValues k := by
  simp [poppedValues]

@[simp] theorem pushedValues_accepted (v : α) :
    pushedValues [((.push v : Operation α ε),.pushed (.ok true))] = [v] := rfl

@[simp] theorem poppedValues_push (v : α) (r : Except ε Bool) :
    poppedValues [((.push v : Operation α ε),.pushed r)] = [] := rfl

@[simp] theorem pushedValues_pop (r : Except ε (Option α)) :
    pushedValues [((.pop : Operation α ε),.popped r)] = [] := rfl

@[simp] theorem poppedValues_value (v : α) :
    poppedValues [((.pop : Operation α ε),.popped (.ok (some v)))] = [v] := rfl

/-- Everything accepted was delivered in order, is still queued, or was dropped by the
failure that ended the queue. -/
structure Accounted (s : Observed (BoundedFifo α ε) α ε) : Prop where
  accounted : ∃ dropped, pushedValues s.history =
    poppedValues s.history ++ s.queue.items ++ dropped ∧
    ((∀ reason, s.queue.life ≠ .failed reason) → dropped = [])
  failed_empty : ∀ reason, s.queue.life = .failed reason → s.queue.items = []
  length_le_peak : s.queue.items.length ≤ s.peak

theorem Accounted.keep {s : Observed (BoundedFifo α ε) α ε} (h : Accounted s)
    {op : Operation α ε} {r : Response α ε} (hpush : pushedValues [(op,r)] = [])
    (hpop : poppedValues [(op,r)] = []) :
    Accounted ⟨s.queue,s.history++[(op,r)],max s.peak s.queue.items.length⟩ := by
  obtain ⟨dropped,hacc,hlive⟩ := h.accounted
  refine ⟨⟨dropped,?_,hlive⟩,h.failed_empty,Nat.le_max_right _ _⟩
  simp [hpush,hpop,hacc]

theorem Accounted.push {s : Observed (BoundedFifo α ε) α ε} (h : Accounted s) {v : α}
    {q : BoundedFifo α ε} {r : Except ε Bool} (hstep : s.queue.push v = some (q,r)) :
    Accounted ⟨q,s.history++[(.push v,.pushed r)],max s.peak q.items.length⟩ := by
  rcases push_cases hstep with ⟨rfl,hopen,-,rfl⟩ | ⟨rfl,-,rfl⟩ | ⟨reason,rfl,-,rfl⟩
  · obtain ⟨dropped,hacc,hlive⟩ := h.accounted
    obtain rfl : dropped = [] := hlive (by simp [hopen])
    refine ⟨⟨[],?_,fun _ => rfl⟩,by simp [hopen],Nat.le_max_right _ _⟩
    simp [hacc]
  · exact h.keep rfl rfl
  · exact h.keep rfl rfl

theorem Accounted.pop {s : Observed (BoundedFifo α ε) α ε} (h : Accounted s)
    {q : BoundedFifo α ε} {r : Except ε (Option α)} (hstep : s.queue.pop = some (q,r)) :
    Accounted ⟨q,s.history++[(.pop,.popped r)],max s.peak q.items.length⟩ := by
  rcases pop_cases hstep with ⟨v,vs,rfl,hitems,hnf,rfl⟩ | ⟨rfl,-,-,rfl⟩ | ⟨reason,rfl,-,rfl⟩
  · obtain ⟨dropped,hacc,hlive⟩ := h.accounted
    refine ⟨⟨dropped,?_,hlive⟩,fun reason hl => absurd hl (hnf reason),Nat.le_max_right _ _⟩
    simp [hacc,hitems]
  · exact h.keep rfl rfl
  · exact h.keep rfl rfl

theorem Accounted.close {s : Observed (BoundedFifo α ε) α ε} (h : Accounted s) :
    Accounted ⟨s.queue.close,s.history++[(.close,.closed)],
      max s.peak s.queue.close.items.length⟩ := by
  unfold BoundedFifo.close
  cases hlife : s.queue.life with
  | opened =>
    obtain ⟨dropped,hacc,hlive⟩ := h.accounted
    obtain rfl : dropped = [] := hlive (by simp [hlife])
    refine ⟨⟨[],?_,fun _ => rfl⟩,by simp,Nat.le_max_right _ _⟩
    simpa [pushedValues,poppedValues] using hacc
  | closed => exact h.keep rfl rfl
  | failed reason => exact h.keep rfl rfl

theorem Accounted.fail {s : Observed (BoundedFifo α ε) α ε} (h : Accounted s) (reason : ε) :
    Accounted ⟨s.queue.fail reason,s.history++[(.fail (some reason),.failed true)],
      max s.peak (s.queue.fail reason).items.length⟩ := by
  have hdrop : Accounted ⟨{ s.queue with items := [], life := .failed reason },
      s.history++[(.fail (some reason),.failed true)],max s.peak 0⟩ := by
    obtain ⟨dropped,hacc,-⟩ := h.accounted
    refine ⟨⟨s.queue.items++dropped,?_,fun hnf => absurd rfl (hnf reason)⟩,by simp,by simp⟩
    simpa [pushedValues,poppedValues] using hacc
  unfold BoundedFifo.fail
  cases hlife : s.queue.life with
  | failed reason' => exact h.keep rfl rfl
  | opened => exact hdrop
  | closed => exact hdrop

theorem perform_failed {q q' : BoundedFifo α ε} {op : Operation α ε} {r : Response α ε}
    {first : ε} (h : q.life = .failed first) (hop : q.perform op = some (q',r)) : q' = q := by
  cases op with
  | push v =>
    simp only [perform,push,h,Option.map_some,Option.some.injEq,Prod.mk.injEq] at hop
    exact hop.1.symm
  | pop =>
    simp only [perform,pop,h,Option.map_some,Option.some.injEq,Prod.mk.injEq] at hop
    exact hop.1.symm
  | close =>
    simp only [perform,close,h,Option.some.injEq,Prod.mk.injEq] at hop
    exact hop.1.symm
  | fail reason =>
    cases reason with
    | none =>
      simp only [perform,Option.some.injEq,Prod.mk.injEq] at hop
      exact hop.1.symm
    | some reason =>
      simp only [perform,fail_of_failed h,Option.some.injEq,Prod.mk.injEq] at hop
      exact hop.1.symm

theorem perform_capacity {q q' : BoundedFifo α ε} {op : Operation α ε} {r : Response α ε}
    (hop : q.perform op = some (q',r)) : q'.capacity = q.capacity := by
  cases op with
  | push v =>
    obtain ⟨⟨p,r'⟩,hpush,heq⟩ := Option.map_eq_some_iff.mp hop
    obtain ⟨rfl,-⟩ := Prod.mk.inj heq
    rcases push_cases hpush with ⟨-,-,-,rfl⟩ | ⟨-,-,rfl⟩ | ⟨_,-,-,rfl⟩ <;> rfl
  | pop =>
    obtain ⟨⟨p,r'⟩,hpop,heq⟩ := Option.map_eq_some_iff.mp hop
    obtain ⟨rfl,-⟩ := Prod.mk.inj heq
    rcases pop_cases hpop with ⟨_,_,-,-,-,rfl⟩ | ⟨-,-,-,rfl⟩ | ⟨_,-,-,rfl⟩ <;> rfl
  | close =>
    obtain ⟨rfl,-⟩ := Prod.mk.inj (Option.some.inj hop)
    unfold close
    cases q.life <;> rfl
  | fail reason =>
    cases reason with
    | none =>
      obtain ⟨rfl,-⟩ := Prod.mk.inj (Option.some.inj hop)
      rfl
    | some reason =>
      obtain ⟨rfl,-⟩ := Prod.mk.inj (Option.some.inj hop)
      unfold fail
      cases q.life <;> rfl

theorem accounted_step {op : Operation α ε} {s t : Observed (BoundedFifo α ε) α ε}
    (h : Accounted s)
    (hstep : (observe BoundedFifo.perform fun q => q.items.length).step op s = some t) :
    Accounted t := by
  simp only [observe,Option.map_eq_some_iff] at hstep
  obtain ⟨⟨q,r⟩,hop,rfl⟩ := hstep
  cases op with
  | push v =>
    obtain ⟨⟨q',r'⟩,hpush,heq⟩ := Option.map_eq_some_iff.mp hop
    obtain ⟨rfl,rfl⟩ := Prod.mk.inj heq
    exact h.push hpush
  | pop =>
    obtain ⟨⟨q',r'⟩,hpop,heq⟩ := Option.map_eq_some_iff.mp hop
    obtain ⟨rfl,rfl⟩ := Prod.mk.inj heq
    exact h.pop hpop
  | close =>
    obtain ⟨rfl,rfl⟩ := Prod.mk.inj (Option.some.inj hop)
    exact h.close
  | fail reason =>
    cases reason with
    | none =>
      obtain ⟨rfl,rfl⟩ := Prod.mk.inj (Option.some.inj hop)
      exact h.keep rfl rfl
    | some reason =>
      obtain ⟨rfl,rfl⟩ := Prod.mk.inj (Option.some.inj hop)
      exact h.fail reason

end BoundedFifo
end AsyncDataLoader
