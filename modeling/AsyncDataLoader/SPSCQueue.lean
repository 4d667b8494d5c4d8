import AsyncDataLoader.RingBuffer
import AsyncDataLoader.BoundedFifo
import AsyncDataLoader.Gauge
import AsyncDataLoader.Failure

/-!
# The bounded queue between two pipeline stages

The ring `slots`, `head`, `tail`, `size` of `SPSCQueue` with its three life states. Each
critical section is one function; a call that does not return has no result. The well-formed
queues are bundled with their invariant, and their operations are characterised by the list
of queued values alone.
-/

namespace AsyncDataLoader

/-- `state_`, with `failure_`: it is set exactly when the state becomes failed. -/
abbrev QueueState := Life Failure

/-- `sizeof(std::optional<T>)` -/
class SlotSize (α : Type*) where
  bytes : ℕ

instance : SlotSize ℕ := ⟨16⟩ -- `T` is `std::uint64_t`

structure SPSCQueue (α : Type*) where
  slots : List (Option α)
  head : ℕ
  tail : ℕ
  size : ℕ
  state : QueueState
  depthMetric : Option Gauge

namespace SPSCQueue

variable {α : Type*}

def ptrdiffMax : ℕ := 2^63-1

/-- No `std::vector` has more bytes than `PTRDIFF_MAX`. -/
def maxCapacity (α : Type*) [SlotSize α] : ℕ := ptrdiffMax/SlotSize.bytes α

def make (α : Type*) [SlotSize α] (capacity : ℕ) (depth : Option Gauge) : Except Failure (SPSCQueue α) :=
  if capacity > maxCapacity α then
    .error (.lengthError "cannot create std::vector larger than max_size()")
  else if capacity = 0 then
    .error (.invalidArgument "SPSCQueue capacity must be greater than zero")
  else if depth.any fun g => g.current ≠ 0 || g.highWatermark ≠ 0 then
    .error (.invalidArgument "SPSCQueue depth Gauge must be dedicated and start at zero")
  else .ok ⟨List.replicate capacity none,0,0,0,.opened,depth⟩

def nextIndex (q : SPSCQueue α) (index : ℕ) : ℕ := (index+1)%q.slots.length

/-- `none` while the call waits for space in an open queue, and if its assertion fails. -/
def push (q : SPSCQueue α) (value : α) : Option (SPSCQueue α × Except Failure Bool) :=
  match q.state with
  | .failed failure => some (q,.error failure)
  | .closed => some (q,.ok false)
  | .opened =>
    if q.size < q.slots.length then
      match q.slots[q.tail]? with
      | some none => some ({ q with
          slots := q.slots.set q.tail (some value)
          tail := q.nextIndex q.tail
          size := q.size+1
          depthMetric := q.depthMetric.map Gauge.increment },.ok true)
      | _ => none -- assert(!slots_[tail_].has_value())
    else none

def takeHead (q : SPSCQueue α) : Option (SPSCQueue α × Except Failure (Option α)) :=
  match q.slots[q.head]? with
  | some (some v) => some ({ q with
      slots := q.slots.set q.head none
      head := q.nextIndex q.head
      size := q.size-1
      depthMetric := q.depthMetric.map Gauge.decrement },.ok (some v))
  | _ => none -- assert(slots_[head_].has_value())

def pop (q : SPSCQueue α) : Option (SPSCQueue α × Except Failure (Option α)) :=
  match q.state with
  | .failed failure => some (q,.error failure)
  | .closed => if q.size = 0 then some (q,.ok none) else q.takeHead
  | .opened => if q.size = 0 then none else q.takeHead

def close (q : SPSCQueue α) : SPSCQueue α :=
  if q.state = .opened then { q with state := .closed } else q

/-- Also returns the values it destroys, in slot order. -/
def discardQueuedValues (q : SPSCQueue α) : SPSCQueue α × List α :=
  ({ q with
    slots := List.replicate q.slots.length none
    head := 0
    tail := 0
    size := 0
    depthMetric := q.depthMetric.map fun g => g.set 0 },q.slots.reduceOption)

/-- A null `exception_ptr` is rejected; a queue that has failed keeps its first failure. -/
def fail (q : SPSCQueue α) (failure : Option Failure) : Except Failure (SPSCQueue α × List α) :=
  match failure with
  | none => .error (.invalidArgument "SPSCQueue failure requires a non-null exception")
  | some f =>
    match q.state with
    | .failed _ => .ok (q,[])
    | _ => .ok ({ q with state := .failed f }.discardQueuedValues)

def destroy (q : SPSCQueue α) : Option Gauge := q.depthMetric.map fun g => g.set 0

def contents (q : SPSCQueue α) : List α := RingBuffer.values q.slots q.head

/-- The invariant of the ring, of the life state and of the depth gauge, whose high
watermark is `peak`. -/
structure WellFormed (q : SPSCQueue α) (peak : ℕ) : Prop where
  capacity_pos : 0 < q.slots.length
  capacity_le : q.slots.length ≤ ptrdiffMax
  head_lt : q.head < q.slots.length
  tail_eq : q.tail = (q.head+q.size)%q.slots.length
  size_eq : q.contents.length = q.size
  holds : RingBuffer.Holds q.slots q.head q.contents
  failed_empty : ∀ failure, q.state = .failed failure → q.size = 0
  size_le_peak : q.size ≤ peak
  peak_le : peak ≤ q.slots.length
  gauge_shows : ∀ g, q.depthMetric = some g → g.Shows q.size peak

theorem WellFormed.size_le {q : SPSCQueue α} {peak : ℕ} (h : q.WellFormed peak) :
    q.size ≤ q.slots.length := h.size_le_peak.trans h.peak_le

theorem make_wellFormed [SlotSize α] {capacity : ℕ} {depth : Option Gauge} {q : SPSCQueue α}
    (h : make α capacity depth = .ok q) :
    q.WellFormed 0 ∧ q.slots.length = capacity ∧ q.contents = [] ∧ q.state = .opened ∧
      q.depthMetric = depth := by
  unfold make at h
  split_ifs at h with hmax hpos hdirty
  obtain rfl := Except.ok.inj h
  have hholds := @RingBuffer.holds_empty α capacity 0
  have hnil : RingBuffer.values (List.replicate capacity (none : Option α)) 0 = [] :=
    RingBuffer.values_eq hholds
  refine ⟨⟨?_,?_,?_,?_,?_,?_,?_,?_,?_,?_⟩,by simp,hnil,rfl,rfl⟩
  · simpa using Nat.pos_of_ne_zero hpos
  · simpa using (Nat.le_of_not_gt hmax).trans (Nat.div_le_self _ _)
  · simpa using Nat.pos_of_ne_zero hpos
  · simp
  · simp [contents,hnil]
  · simpa [contents,hnil] using hholds
  · simp
  · simp
  · simp
  · intro g hg
    obtain rfl : depth = some g := hg
    simp only [Option.any_some,Bool.or_eq_true,decide_eq_true_eq,not_or,not_not] at hdirty
    exact ⟨by simpa using hdirty.1,by simpa using hdirty.2⟩

/-- The slots are as `push` and `pop` assert where they use them. -/
structure SlotsAsserted (q : SPSCQueue α) : Prop where
  tail_empty : q.state = .opened → q.size < q.slots.length → q.slots[q.tail]? = some none
  head_filled : (∀ failure, q.state ≠ .failed failure) → q.size ≠ 0 →
    ∃ v, q.slots[q.head]? = some (some v)

theorem WellFormed.tail_slot {q : SPSCQueue α} {peak : ℕ} (h : q.WellFormed peak)
    (hlt : q.size < q.slots.length) : q.slots[q.tail]? = some none := by
  have hlen : q.contents.length < q.slots.length := h.size_eq ▸ hlt
  rw [h.tail_eq,← h.size_eq]
  exact h.holds.tail_slot hlen

theorem WellFormed.head_slot {q : SPSCQueue α} {peak : ℕ} (h : q.WellFormed peak)
    {v : α} {vs : List α} (hcons : q.contents = v::vs) : q.slots[q.head]? = some (some v) := by
  have hholds := h.holds
  rw [hcons] at hholds
  have hslot := hholds.head_slot
  rwa [Nat.mod_eq_of_lt h.head_lt] at hslot

theorem WellFormed.slotsAsserted {q : SPSCQueue α} {peak : ℕ} (h : q.WellFormed peak) :
    q.SlotsAsserted := by
  refine ⟨fun _ hlt => h.tail_slot hlt,fun _ hsize => ?_⟩
  cases hcontents : q.contents with
  | nil =>
    have hzero := h.size_eq
    rw [hcontents] at hzero
    exact absurd hzero.symm hsize
  | cons v vs => exact ⟨v,h.head_slot hcontents⟩

theorem WellFormed.push_opened {q : SPSCQueue α} {peak : ℕ} (h : q.WellFormed peak)
    (hopen : q.state = .opened) (hlt : q.size < q.slots.length) (v : α) :
    ∃ q', q.push v = some (q',.ok true) ∧ q'.WellFormed (max peak (q.size+1)) ∧
      q'.state = .opened ∧ q'.contents = q.contents++[v] ∧
      q'.slots.length = q.slots.length := by
  have hlen : q.contents.length < q.slots.length := h.size_eq ▸ hlt
  have htail : q.tail = (q.head+q.contents.length)%q.slots.length := by
    rw [h.size_eq]; exact h.tail_eq
  have hslot := h.tail_slot hlt
  have hholds := h.holds.push hlen v
  rw [← htail] at hholds
  have hvalues := RingBuffer.values_eq hholds
  have hmax := h.capacity_le
  have hgauge : (q.size : ℤ) < int64Max := by
    unfold ptrdiffMax at hmax
    unfold int64Max
    omega
  refine ⟨{ q with
    slots := q.slots.set q.tail (some v)
    tail := q.nextIndex q.tail
    size := q.size+1
    depthMetric := q.depthMetric.map Gauge.increment },?_,?_,hopen,hvalues,by simp⟩
  · simp [push,hopen,hlt,hslot]
  · refine ⟨?_,?_,?_,?_,?_,?_,?_,?_,?_,?_⟩
    · simpa using h.capacity_pos
    · simpa using hmax
    · simpa using h.head_lt
    · simp [nextIndex,h.tail_eq,Nat.add_assoc]
    · rw [contents,hvalues,List.length_append,h.size_eq]; rfl
    · simpa [contents,hvalues] using hholds
    · simp [hopen]
    · simp
    · have hpeak := h.peak_le
      simp only [List.length_set]
      omega
    · intro g hg
      obtain ⟨g',hg',rfl⟩ := Option.map_eq_some_iff.mp hg
      exact (h.gauge_shows g' hg').increment hgauge

theorem WellFormed.takeHead_cons {q : SPSCQueue α} {peak : ℕ} (h : q.WellFormed peak)
    {v : α} {vs : List α} (hcons : q.contents = v::vs) :
    ∃ q', q.takeHead = some (q',.ok (some v)) ∧ q'.WellFormed peak ∧ q'.state = q.state ∧
      q'.contents = vs ∧ q'.slots.length = q.slots.length := by
  have hholds := h.holds
  rw [hcons] at hholds
  have hsize : q.size = vs.length+1 := by rw [← h.size_eq,hcons]; rfl
  have hmod : q.head%q.slots.length = q.head := Nat.mod_eq_of_lt h.head_lt
  have hslot := h.head_slot hcons
  have hpop := hholds.pop
  rw [hmod] at hpop
  have hvalues := RingBuffer.values_eq hpop
  have hmax := h.capacity_le
  have hle := h.size_le
  have hgauge : (vs.length : ℤ) < int64Max := by
    unfold ptrdiffMax at hmax
    unfold int64Max
    omega
  refine ⟨{ q with
    slots := q.slots.set q.head none
    head := q.nextIndex q.head
    size := q.size-1
    depthMetric := q.depthMetric.map Gauge.decrement },?_,?_,rfl,hvalues,by simp⟩
  · simp [takeHead,hslot]
  · refine ⟨?_,?_,?_,?_,?_,?_,?_,?_,?_,?_⟩
    · simpa using h.capacity_pos
    · simpa using hmax
    · simpa [nextIndex] using Nat.mod_lt _ h.capacity_pos
    · have hnext : q.head+q.size = q.head+1+(q.size-1) := by omega
      simp only [nextIndex,List.length_set,h.tail_eq,hnext,Nat.mod_add_mod]
    · simp [contents,nextIndex,hvalues,hsize]
    · simpa [contents,nextIndex,hvalues] using hpop
    · intro failure hfail
      have hzero := h.failed_empty failure hfail
      omega
    · have hpeak := h.size_le_peak
      simp only
      omega
    · simpa using h.peak_le
    · intro g hg
      obtain ⟨g',hg',rfl⟩ := Option.map_eq_some_iff.mp hg
      have hshows := h.gauge_shows g' hg'
      rw [hsize] at hshows
      simpa [hsize] using hshows.decrement hgauge

theorem WellFormed.close {q : SPSCQueue α} {peak : ℕ} (h : q.WellFormed peak) :
    q.close.WellFormed peak := by
  unfold SPSCQueue.close
  split
  · exact ⟨h.capacity_pos,h.capacity_le,h.head_lt,h.tail_eq,h.size_eq,h.holds,by simp,
      h.size_le_peak,h.peak_le,h.gauge_shows⟩
  · exact h

@[simp] theorem close_contents (q : SPSCQueue α) : q.close.contents = q.contents := by
  unfold SPSCQueue.close
  split <;> rfl

@[simp] theorem close_capacity (q : SPSCQueue α) :
    q.close.slots.length = q.slots.length := by
  unfold SPSCQueue.close
  split <;> rfl

theorem close_state (q : SPSCQueue α) :
    q.close.state = if q.state = .opened then .closed else q.state := by
  unfold SPSCQueue.close
  split <;> rfl

theorem WellFormed.discard {q : SPSCQueue α} {peak : ℕ} (h : q.WellFormed peak)
    (failure : Failure) :
    ({ q with state := .failed failure }.discardQueuedValues).1.WellFormed peak ∧
      ({ q with state := .failed failure }.discardQueuedValues).1.contents = [] := by
  have hholds := @RingBuffer.holds_empty α q.slots.length 0
  have hvalues := RingBuffer.values_eq hholds
  refine ⟨⟨?_,?_,?_,?_,?_,?_,?_,?_,?_,?_⟩,hvalues⟩
  · simpa [discardQueuedValues] using h.capacity_pos
  · simpa [discardQueuedValues] using h.capacity_le
  · simpa [discardQueuedValues] using h.capacity_pos
  · simp [discardQueuedValues]
  · simp [discardQueuedValues,contents,hvalues]
  · simpa [discardQueuedValues,contents,hvalues] using hholds
  · simp [discardQueuedValues]
  · simp [discardQueuedValues]
  · simpa [discardQueuedValues] using h.peak_le
  · intro g hg
    obtain ⟨g',hg',rfl⟩ := Option.map_eq_some_iff.mp hg
    exact (h.gauge_shows g' hg').set_zero

/-- Slot order and queue order of the discarded values differ by a rotation. -/
theorem discarded_perm (q : SPSCQueue α) : q.slots.reduceOption.Perm q.contents := by
  have hrot : (q.slots.rotate q.head).reduceOption.Perm q.slots.reduceOption :=
    (List.rotate_perm q.slots q.head).filterMap id
  exact hrot.symm

def toFifo (q : SPSCQueue α) : BoundedFifo α Failure := ⟨q.slots.length,q.contents,q.state⟩

theorem WellFormed.push_simulates {q : SPSCQueue α} {peak : ℕ} (h : q.WellFormed peak) (v : α) :
    (q.push v).map (fun r => (r.1.toFifo,r.2)) = q.toFifo.push v := by
  cases hstate : q.state with
  | failed failure => simp [push,toFifo,BoundedFifo.push,hstate]
  | closed => simp [push,toFifo,BoundedFifo.push,hstate]
  | opened =>
    by_cases hlt : q.size < q.slots.length
    · obtain ⟨q',hpush,-,hopen,hcontents,hlen⟩ := h.push_opened hstate hlt v
      have hitems : q.contents.length < q.slots.length := h.size_eq ▸ hlt
      simp [hpush,toFifo,BoundedFifo.push,hstate,hopen,hcontents,hlen,hitems]
    · have hitems : ¬ q.contents.length < q.slots.length := h.size_eq ▸ hlt
      simp [push,toFifo,BoundedFifo.push,hstate,hlt,hitems]

theorem WellFormed.pop_simulates {q : SPSCQueue α} {peak : ℕ} (h : q.WellFormed peak) :
    q.pop.map (fun r => (r.1.toFifo,r.2)) = q.toFifo.pop := by
  have hsize := h.size_eq
  cases hstate : q.state with
  | failed failure => simp [pop,toFifo,BoundedFifo.pop,hstate]
  | closed =>
    cases hitems : q.contents with
    | nil =>
      have hzero : q.size = 0 := by rw [← hsize,hitems]; rfl
      simp [pop,toFifo,BoundedFifo.pop,hstate,hitems,hzero]
    | cons v vs =>
      obtain ⟨q',htake,-,hstate',hcontents,hlen⟩ := h.takeHead_cons hitems
      have hpos : q.size ≠ 0 := by rw [← hsize,hitems]; simp
      simp [pop,toFifo,BoundedFifo.pop,hstate,hitems,hpos,htake,hstate',hcontents,hlen]
  | opened =>
    cases hitems : q.contents with
    | nil =>
      have hzero : q.size = 0 := by rw [← hsize,hitems]; rfl
      simp [pop,toFifo,BoundedFifo.pop,hstate,hitems,hzero]
    | cons v vs =>
      obtain ⟨q',htake,-,hstate',hcontents,hlen⟩ := h.takeHead_cons hitems
      have hpos : q.size ≠ 0 := by rw [← hsize,hitems]; simp
      simp [pop,toFifo,BoundedFifo.pop,hstate,hitems,hpos,htake,hstate',hcontents,hlen]

theorem close_simulates (q : SPSCQueue α) : q.close.toFifo = q.toFifo.close := by
  cases hstate : q.state <;> simp [close,toFifo,BoundedFifo.close,hstate,contents]

theorem WellFormed.fail_simulates {q : SPSCQueue α} {peak : ℕ} (h : q.WellFormed peak)
    (failure : Failure) : ∃ q' dropped, q.fail (some failure) = .ok (q',dropped) ∧
      q'.toFifo = q.toFifo.fail failure ∧ q'.WellFormed peak ∧
      dropped.Perm (match q.state with
        | .failed _ => []
        | _ => q.contents) := by
  have hdiscard := h.discard failure
  have hperm := q.discarded_perm
  cases hstate : q.state with
  | failed failure' =>
    exact ⟨q,[],by simp [fail,hstate],by simp [toFifo,BoundedFifo.fail,hstate],h,.nil⟩
  | opened =>
    refine ⟨_,_,by simp only [fail,hstate]; rfl,?_,hdiscard.1,hperm⟩
    have hnil := hdiscard.2
    simp only [toFifo,BoundedFifo.fail,hstate,hnil]
    simp [discardQueuedValues]
  | closed =>
    refine ⟨_,_,by simp only [fail,hstate]; rfl,?_,hdiscard.1,hperm⟩
    have hnil := hdiscard.2
    simp only [toFifo,BoundedFifo.fail,hstate,hnil]
    simp [discardQueuedValues]

theorem WellFormed.push_wellFormed {q q' : SPSCQueue α} {peak : ℕ} {v : α}
    {r : Except Failure Bool} (h : q.WellFormed peak) (hpush : q.push v = some (q',r)) :
    q'.WellFormed (max peak q'.size) := by
  have hkeep : q.WellFormed (max peak q.size) := by
    rw [max_eq_left h.size_le_peak]; exact h
  cases hstate : q.state with
  | failed failure =>
    obtain ⟨rfl,-⟩ : q = q' ∧ .error failure = r := by simpa [push,hstate] using hpush
    exact hkeep
  | closed =>
    obtain ⟨rfl,-⟩ : q = q' ∧ .ok false = r := by simpa [push,hstate] using hpush
    exact hkeep
  | opened =>
    by_cases hlt : q.size < q.slots.length
    · obtain ⟨q'',hpush',hwf,-,hcontents,-⟩ := h.push_opened hstate hlt v
      obtain ⟨rfl,-⟩ := Prod.mk.inj (Option.some.inj (hpush.symm.trans hpush'))
      have hsize : q'.size = q.size+1 := by
        rw [← hwf.size_eq,hcontents,List.length_append,h.size_eq]; rfl
      rwa [hsize]
    · simp [push,hstate,hlt] at hpush

theorem WellFormed.pop_wellFormed {q q' : SPSCQueue α} {peak : ℕ}
    {r : Except Failure (Option α)} (h : q.WellFormed peak) (hpop : q.pop = some (q',r)) :
    q'.WellFormed (max peak q'.size) := by
  have hkeep : q.WellFormed (max peak q.size) := by
    rw [max_eq_left h.size_le_peak]; exact h
  have htake : q.takeHead = some (q',r) → q.size ≠ 0 → q'.WellFormed (max peak q'.size) := by
    intro htake hpos
    cases hitems : q.contents with
    | nil =>
      have hsize := h.size_eq
      rw [hitems] at hsize
      exact absurd hsize.symm hpos
    | cons v vs =>
      obtain ⟨q'',htake',hwf,-⟩ := h.takeHead_cons hitems
      obtain ⟨rfl,-⟩ := Prod.mk.inj (Option.some.inj (htake.symm.trans htake'))
      rw [max_eq_left hwf.size_le_peak]
      exact hwf
  unfold pop at hpop
  split at hpop
  · obtain ⟨rfl,-⟩ := Prod.mk.inj (Option.some.inj hpop)
    exact hkeep
  · split at hpop
    · obtain ⟨rfl,-⟩ := Prod.mk.inj (Option.some.inj hpop)
      exact hkeep
    · exact htake hpop ‹_›
  · split at hpop
    · cases hpop
    · exact htake hpop ‹_›

def perform (q : SPSCQueue α) :
    BoundedFifo.Operation α Failure → Option (SPSCQueue α × BoundedFifo.Response α Failure)
  | .push v => (q.push v).map fun r => (r.1,.pushed r.2)
  | .pop => q.pop.map fun r => (r.1,.popped r.2)
  | .close => some (q.close,.closed)
  | .fail failure => match q.fail failure with
    | .error _ => some (q,.failed false)
    | .ok (q',_) => some (q',.failed true)

def observed (α : Type*) :
    TransitionSystem (BoundedFifo.Operation α Failure) (BoundedFifo.Observed (SPSCQueue α) α Failure) :=
  BoundedFifo.observe perform SPSCQueue.size

theorem WellFormed.perform_simulates {q : SPSCQueue α} {peak : ℕ} (h : q.WellFormed peak)
    (op : BoundedFifo.Operation α Failure) :
    (q.perform op).map (fun r => (r.1.toFifo,r.2)) = q.toFifo.perform op := by
  cases op with
  | push v =>
    simp only [perform,BoundedFifo.perform,← h.push_simulates v,Option.map_map]
    rfl
  | pop =>
    simp only [perform,BoundedFifo.perform,← h.pop_simulates,Option.map_map]
    rfl
  | close => simp [perform,BoundedFifo.perform,close_simulates]
  | fail failure =>
    cases failure with
    | none => rfl
    | some failure =>
      obtain ⟨q',dropped,hfail,hfifo,-⟩ := h.fail_simulates failure
      simp [perform,BoundedFifo.perform,hfail,hfifo]

theorem WellFormed.perform_wellFormed {q q' : SPSCQueue α} {peak : ℕ}
    {op : BoundedFifo.Operation α Failure} {r : BoundedFifo.Response α Failure}
    (h : q.WellFormed peak) (hop : q.perform op = some (q',r)) :
    q'.WellFormed (max peak q'.size) := by
  have hkeep : ∀ p : SPSCQueue α, p.WellFormed peak → p.WellFormed (max peak p.size) := by
    intro p hp
    rw [max_eq_left hp.size_le_peak]; exact hp
  cases op with
  | push v =>
    obtain ⟨⟨p,r'⟩,hpush,heq⟩ := Option.map_eq_some_iff.mp hop
    obtain ⟨rfl,-⟩ := Prod.mk.inj heq
    exact h.push_wellFormed hpush
  | pop =>
    obtain ⟨⟨p,r'⟩,hpop,heq⟩ := Option.map_eq_some_iff.mp hop
    obtain ⟨rfl,-⟩ := Prod.mk.inj heq
    exact h.pop_wellFormed hpop
  | close =>
    obtain ⟨rfl,-⟩ := Prod.mk.inj (Option.some.inj hop)
    exact hkeep _ h.close
  | fail failure =>
    cases failure with
    | none =>
      obtain ⟨rfl,-⟩ := Prod.mk.inj (Option.some.inj hop)
      exact hkeep _ h
    | some failure =>
      obtain ⟨p,dropped,hfail,-,hwf,-⟩ := h.fail_simulates failure
      simp only [perform,hfail] at hop
      obtain ⟨rfl,-⟩ := Prod.mk.inj (Option.some.inj hop)
      exact hkeep _ hwf

end SPSCQueue

end AsyncDataLoader
