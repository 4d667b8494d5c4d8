import AsyncDataLoader.SPSCQueue

/-!
# Queues that carry their invariant

A ring queue bundled with the proof that it is well formed. Its calls are those of
`SPSCQueue`; the lemmas say what they do to the queued values and to the life state.
-/

namespace AsyncDataLoader

/-- A queue with its invariant; `peak` is the largest size it has reached. -/
structure CheckedQueue (α : Type*) where
  queue : SPSCQueue α
  peak : ℕ
  wellFormed : queue.WellFormed peak

namespace CheckedQueue

open SPSCQueue

variable {α : Type*}

@[ext] theorem ext {q r : CheckedQueue α} (hq : q.queue = r.queue) (hp : q.peak = r.peak) :
    q = r := by
  cases q; cases r; cases hq; cases hp; rfl

def contents (q : CheckedQueue α) : List α := q.queue.contents

def state (q : CheckedQueue α) : QueueState := q.queue.state

def capacity (q : CheckedQueue α) : ℕ := q.queue.slots.length

def toFifo (q : CheckedQueue α) : BoundedFifo α Failure := q.queue.toFifo

def make (α : Type*) [SlotSize α] (capacity : ℕ) (depth : Option Gauge) : Except Failure (CheckedQueue α) :=
  match h : SPSCQueue.make α capacity depth with
  | .error failure => .error failure
  | .ok q => .ok ⟨q,0,(make_wellFormed h).1⟩

def push (q : CheckedQueue α) (v : α) : Option (CheckedQueue α × Except Failure Bool) :=
  match h : q.queue.push v with
  | none => none
  | some (q',r) => some (⟨q',max q.peak q'.size,q.wellFormed.push_wellFormed h⟩,r)

def pop (q : CheckedQueue α) : Option (CheckedQueue α × Except Failure (Option α)) :=
  match h : q.queue.pop with
  | none => none
  | some (q',r) => some (⟨q',max q.peak q'.size,q.wellFormed.pop_wellFormed h⟩,r)

def close (q : CheckedQueue α) : CheckedQueue α := ⟨q.queue.close,q.peak,q.wellFormed.close⟩

theorem fail_wellFormed (q : CheckedQueue α) {failure : Failure} {r : SPSCQueue α × List α}
    (h : q.queue.fail (some failure) = .ok r) : r.1.WellFormed q.peak := by
  obtain ⟨q',dropped,hfail,-,hwf,-⟩ := q.wellFormed.fail_simulates failure
  obtain rfl := Except.ok.inj (h.symm.trans hfail)
  exact hwf

def fail (q : CheckedQueue α) (failure : Failure) : CheckedQueue α × List α :=
  match h : q.queue.fail (some failure) with
  | .error _ => (q,[]) -- not reached: the exception is not null
  | .ok r => (⟨r.1,q.peak,q.fail_wellFormed h⟩,r.2)

theorem make_cases [SlotSize α] {capacity : ℕ} {depth : Option Gauge} {q : CheckedQueue α}
    (h : make α capacity depth = .ok q) :
    q.contents = [] ∧ q.state = .opened ∧ q.capacity = capacity ∧ q.queue.depthMetric = depth ∧
      q.peak = 0 := by
  unfold make at h
  split at h
  · cases h
  · rename_i q' hq
    obtain rfl := Except.ok.inj h
    obtain ⟨-,hlen,hcontents,hstate,hdepth⟩ := make_wellFormed hq
    exact ⟨hcontents,hstate,hlen,hdepth,rfl⟩

theorem capacity_le_of_make [SlotSize α] {capacity : ℕ} {depth : Option Gauge} {q : CheckedQueue α}
    (h : make α capacity depth = .ok q) : capacity ≤ maxCapacity α := by
  by_contra hgt
  unfold make at h
  split at h
  · cases h
  · rename_i q' hq
    rw [SPSCQueue.make,if_pos (Nat.lt_of_not_le hgt)] at hq
    cases hq

theorem make_eq_ok [SlotSize α] {capacity : ℕ} {depth : Option Gauge} (hpos : 0 < capacity)
    (hmax : capacity ≤ maxCapacity α) (hdepth : ∀ g, depth = some g → g = Gauge.zero) :
    ∃ q, make α capacity depth = .ok q := by
  have hclean : (depth.any fun g => g.current ≠ 0 || g.highWatermark ≠ 0) = false := by
    cases depth with
    | none => rfl
    | some g => rw [hdepth g rfl]; rfl
  have hmake : ∃ q, SPSCQueue.make α capacity depth = .ok q := by
    refine ⟨⟨List.replicate capacity none,0,0,0,.opened,depth⟩,?_⟩
    unfold SPSCQueue.make
    rw [if_neg (by omega),if_neg (by omega),hclean]
    rfl
  obtain ⟨q,hq⟩ := hmake
  refine ⟨⟨q,0,(make_wellFormed hq).1⟩,?_⟩
  unfold make
  split
  · rename_i failure herr
    rw [hq] at herr; cases herr
  · rename_i q' hq'
    obtain rfl := Except.ok.inj (hq.symm.trans hq')
    rfl

theorem capacity_pos (q : CheckedQueue α) : 0 < q.capacity := q.wellFormed.capacity_pos

theorem length_le (q : CheckedQueue α) : q.contents.length ≤ q.capacity := by
  have h := q.wellFormed.size_le
  rwa [← q.wellFormed.size_eq] at h

theorem contents_of_failed (q : CheckedQueue α) {failure : Failure}
    (h : q.state = .failed failure) : q.contents = [] := by
  have hzero := q.wellFormed.failed_empty failure h
  rw [← q.wellFormed.size_eq] at hzero
  exact List.length_eq_zero_iff.mp hzero

theorem push_toFifo (q : CheckedQueue α) (v : α) :
    (q.push v).map (fun r => (r.1.toFifo,r.2)) = q.toFifo.push v := by
  rw [toFifo,← q.wellFormed.push_simulates v]
  unfold push
  split
  · rename_i h
    rw [h]; rfl
  · rename_i q' r h
    simp only [h]; rfl

theorem pop_toFifo (q : CheckedQueue α) :
    q.pop.map (fun r => (r.1.toFifo,r.2)) = q.toFifo.pop := by
  rw [toFifo,← q.wellFormed.pop_simulates]
  unfold pop
  split
  · rename_i h
    rw [h]; rfl
  · rename_i q' r h
    simp only [h]; rfl

theorem push_cases {q q' : CheckedQueue α} {v : α} {r : Except Failure Bool}
    (h : q.push v = some (q',r)) :
    (r = .ok true ∧ q.state = .opened ∧ q'.contents = q.contents++[v] ∧ q'.state = .opened ∧
      q'.capacity = q.capacity) ∨
    (r = .ok false ∧ q.state = .closed ∧ q'.toFifo = q.toFifo) ∨
    ∃ failure, r = .error failure ∧ q.state = .failed failure ∧ q'.toFifo = q.toFifo := by
  have hfifo : q.toFifo.push v = some (q'.toFifo,r) := by rw [← push_toFifo,h]; rfl
  rcases BoundedFifo.push_cases hfifo with ⟨hr,hlife,-,hq'⟩ | ⟨hr,hlife,hq'⟩ | ⟨f,hr,hlife,hq'⟩
  · exact .inl ⟨hr,hlife,congrArg BoundedFifo.items hq',(congrArg BoundedFifo.life hq').trans hlife,
      congrArg BoundedFifo.capacity hq'⟩
  · exact .inr (.inl ⟨hr,hlife,hq'⟩)
  · exact .inr (.inr ⟨f,hr,hlife,hq'⟩)

theorem push_eq_none {q : CheckedQueue α} {v : α} :
    q.push v = none ↔ q.state = .opened ∧ q.capacity ≤ q.contents.length := by
  have hnone : q.push v = none ↔ q.toFifo.push v = none := by
    rw [← push_toFifo,Option.map_eq_none_iff]
  exact hnone.trans BoundedFifo.push_eq_none

theorem pop_cases {q q' : CheckedQueue α} {r : Except Failure (Option α)}
    (h : q.pop = some (q',r)) :
    (∃ v, r = .ok (some v) ∧ q.contents = v::q'.contents ∧ q'.state = q.state ∧
      q'.capacity = q.capacity) ∨
    (r = .ok none ∧ q.state = .closed ∧ q.contents = [] ∧ q'.toFifo = q.toFifo) ∨
    ∃ failure, r = .error failure ∧ q.state = .failed failure ∧ q'.toFifo = q.toFifo := by
  have hfifo : q.toFifo.pop = some (q'.toFifo,r) := by rw [← pop_toFifo,h]; rfl
  rcases BoundedFifo.pop_cases hfifo with
    ⟨v,vs,hr,hitems,-,hq'⟩ | ⟨hr,hlife,hitems,hq'⟩ | ⟨f,hr,hlife,hq'⟩
  · have hvs : q'.contents = vs := congrArg BoundedFifo.items hq'
    exact .inl ⟨v,hr,by rw [hvs]; exact hitems,congrArg BoundedFifo.life hq',
      congrArg BoundedFifo.capacity hq'⟩
  · exact .inr (.inl ⟨hr,hlife,hitems,hq'⟩)
  · exact .inr (.inr ⟨f,hr,hlife,hq'⟩)

theorem pop_eq_none {q : CheckedQueue α} :
    q.pop = none ↔ q.state = .opened ∧ q.contents = [] := by
  have hnone : q.pop = none ↔ q.toFifo.pop = none := by
    rw [← pop_toFifo,Option.map_eq_none_iff]
  exact hnone.trans BoundedFifo.pop_eq_none

@[simp] theorem close_contents (q : CheckedQueue α) : q.close.contents = q.contents :=
  SPSCQueue.close_contents q.queue

@[simp] theorem close_capacity (q : CheckedQueue α) : q.close.capacity = q.capacity :=
  SPSCQueue.close_capacity q.queue

theorem close_state (q : CheckedQueue α) :
    q.close.state = if q.state = .opened then .closed else q.state :=
  SPSCQueue.close_state q.queue

theorem close_ne_opened (q : CheckedQueue α) : q.close.state ≠ .opened := by
  rw [close_state]
  split
  · simp
  · assumption

theorem fail_cases (q : CheckedQueue α) (failure : Failure) :
    ((∃ first, q.state = .failed first) ∧ (q.fail failure).1 = q ∧ (q.fail failure).2 = []) ∨
    ((∀ first, q.state ≠ .failed first) ∧ (q.fail failure).1.state = .failed failure ∧
      (q.fail failure).2.Perm q.contents) := by
  obtain ⟨q',dropped,hfail,hfifo,-,hperm⟩ := q.wellFormed.fail_simulates failure
  have hresult : (q.fail failure).1.queue = q' ∧ (q.fail failure).1.peak = q.peak ∧
      (q.fail failure).2 = dropped := by
    unfold fail
    split
    · rename_i f herr
      rw [hfail] at herr; cases herr
    · rename_i r hok
      obtain rfl := Except.ok.inj (hfail.symm.trans hok)
      exact ⟨rfl,rfl,rfl⟩
  obtain ⟨hqueue,hpeak,hdropped⟩ := hresult
  cases hstate : q.queue.state with
  | failed first =>
    have hkeep : q.queue.fail (some failure) = .ok (q.queue,[]) := by simp [SPSCQueue.fail,hstate]
    obtain ⟨rfl,rfl⟩ := Prod.mk.inj (Except.ok.inj (hfail.symm.trans hkeep))
    exact .inl ⟨⟨first,hstate⟩,ext hqueue hpeak,hdropped⟩
  | opened | closed =>
    have hlive : ∀ first, q.toFifo.life ≠ .failed first := by
      intro first hlife
      rw [show q.toFifo.life = q.queue.state from rfl,hstate] at hlife
      cases hlife
    have hlife : q'.state = .failed failure :=
      congrArg BoundedFifo.life (hfifo.trans (BoundedFifo.fail_of_live hlive failure))
    rw [hstate] at hperm
    exact .inr ⟨hlive,by rw [state,hqueue]; exact hlife,by rw [hdropped]; exact hperm⟩

theorem fail_state_failed (q : CheckedQueue α) (failure : Failure) :
    ∃ first, (q.fail failure).1.state = .failed first := by
  rcases q.fail_cases failure with ⟨⟨first,hfirst⟩,hq,-⟩ | ⟨-,hstate,-⟩
  · exact ⟨first,by rw [hq]; exact hfirst⟩
  · exact ⟨failure,hstate⟩

theorem fail_dropped_perm (q : CheckedQueue α) (failure : Failure) :
    (q.fail failure).2.Perm q.contents := by
  rcases q.fail_cases failure with ⟨⟨first,hfirst⟩,-,hdropped⟩ | ⟨-,-,hperm⟩
  · rw [hdropped,q.contents_of_failed hfirst]
  · exact hperm

end CheckedQueue
end AsyncDataLoader
