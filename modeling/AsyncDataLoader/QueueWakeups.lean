import AsyncDataLoader.ConditionVariable
import AsyncDataLoader.SPSCQueue
import Mathlib.Logic.Function.Basic

/-!
# The wakeups of a queue

The critical sections of `SPSCQueue` and the notifications that follow them, as steps of a
producer, a consumer, and any number of threads that close the queue or make it fail. The
notifications come after the mutex has been released, so that everything can happen between.
-/

namespace AsyncDataLoader

/-- `ι` are the threads that call `close` and `fail`. -/
inductive QueueThread (ι : Type*)
  | producer
  | consumer
  | closer (i : ι)
  deriving DecidableEq

/-- `inside` a call, a thread is about to enter the critical section, or parked. -/
inductive ProducerPlace (α : Type*)
  | idle
  | inside (value : α)
  | notifying -- not_empty_cv_.notify_one()

inductive ConsumerPlace
  | idle
  | inside
  | notifying -- not_full_cv_.notify_one()
  deriving DecidableEq

inductive CloserPlace
  | idle
  | closing
  | failing (failure : Failure)
  | notifyingNotEmpty -- not_empty_cv_.notify_all()
  | notifyingNotFull -- not_full_cv_.notify_all()
  deriving DecidableEq

structure QueueMonitor (α ι : Type*) where
  queue : SPSCQueue α
  notFull : CondVar (QueueThread ι)
  notEmpty : CondVar (QueueThread ι)
  producer : ProducerPlace α
  consumer : ConsumerPlace
  closers : ι → CloserPlace

/-- `woken` is the thread that a notification or a spurious wakeup reaches. -/
inductive QueueAction (α ι : Type*)
  | callPush (value : α)
  | enterPush
  | notifyNotEmpty (woken : Option (QueueThread ι))
  | callPop
  | enterPop
  | notifyNotFull (woken : Option (QueueThread ι))
  | callClose (i : ι)
  | callFail (i : ι) (failure : Option Failure)
  | enterCloser (i : ι)
  | notifyAll (i : ι)
  | wakeNotFull (woken : QueueThread ι)
  | wakeNotEmpty (woken : QueueThread ι)

namespace SPSCQueue

variable {α : Type*}

def NotFullReady (q : SPSCQueue α) : Prop := q.state ≠ .opened ∨ q.size < q.slots.length

def NotEmptyReady (q : SPSCQueue α) : Prop := q.state ≠ .opened ∨ 0 < q.size

instance (q : SPSCQueue α) : Decidable q.NotFullReady := inferInstanceAs (Decidable (_ ∨ _))

instance (q : SPSCQueue α) : Decidable q.NotEmptyReady := inferInstanceAs (Decidable (_ ∨ _))

theorem push_unaccepted {q q' : SPSCQueue α} {value : α} {result : Except Failure Bool}
    (h : q.push value = some (q',result)) (hne : result ≠ .ok true) : q' = q := by
  unfold push at h
  split at h
  · exact (Prod.mk.inj (Option.some.inj h)).1.symm
  · exact (Prod.mk.inj (Option.some.inj h)).1.symm
  · split at h
    · split at h
      · obtain ⟨-,rfl⟩ := Prod.mk.inj (Option.some.inj h)
        exact absurd rfl hne
      · cases h
    · cases h

theorem takeHead_delivers {q q' : SPSCQueue α} {result : Except Failure (Option α)}
    (h : q.takeHead = some (q',result)) : ∃ value, result = .ok (some value) := by
  unfold takeHead at h
  split at h
  · exact ⟨_,(Prod.mk.inj (Option.some.inj h)).2.symm⟩
  · cases h

theorem pop_undelivered {q q' : SPSCQueue α} {result : Except Failure (Option α)}
    (h : q.pop = some (q',result)) (hne : ∀ value, result ≠ .ok (some value)) : q' = q := by
  unfold pop at h
  split at h
  · exact (Prod.mk.inj (Option.some.inj h)).1.symm
  · split at h
    · exact (Prod.mk.inj (Option.some.inj h)).1.symm
    · obtain ⟨value,hvalue⟩ := takeHead_delivers h
      exact absurd hvalue (hne value)
  · split at h
    · cases h
    · obtain ⟨value,hvalue⟩ := takeHead_delivers h
      exact absurd hvalue (hne value)

/-- A thread whose predicate holds does not wait, nor does its assertion fail. -/
theorem WellFormed.push_ready {q : SPSCQueue α} {peak : ℕ} (h : q.WellFormed peak)
    (hready : q.NotFullReady) (value : α) : q.push value ≠ none := by
  intro hnone
  have hfifo : q.toFifo.push value = none := by rw [← h.push_simulates value,hnone]; rfl
  obtain ⟨hopened,hfull⟩ := BoundedFifo.push_eq_none.mp hfifo
  have hfull : q.slots.length ≤ q.contents.length := hfull
  rw [h.size_eq] at hfull
  rcases hready with hclosed | hspace
  · exact hclosed hopened
  · omega

theorem WellFormed.pop_ready {q : SPSCQueue α} {peak : ℕ} (h : q.WellFormed peak)
    (hready : q.NotEmptyReady) : q.pop ≠ none := by
  intro hnone
  have hfifo : q.toFifo.pop = none := by rw [← h.pop_simulates,hnone]; rfl
  obtain ⟨hopened,hempty⟩ := BoundedFifo.pop_eq_none.mp hfifo
  have hempty : q.contents = [] := hempty
  have hsize := h.size_eq
  rw [hempty,List.length_nil] at hsize
  rcases hready with hclosed | hitem
  · exact hclosed hopened
  · omega

end SPSCQueue

namespace QueueMonitor

variable {α ι : Type*} [DecidableEq ι]

def start (ι : Type*) (queue : SPSCQueue α) : QueueMonitor α ι :=
  ⟨queue,.empty _,.empty _,.idle,.idle,fun _ => .idle⟩

def moveCloser (s : QueueMonitor α ι) (i : ι) (place : CloserPlace) : QueueMonitor α ι :=
  { s with closers := Function.update s.closers i place }

/-- The critical section of `push`, up to its end or to the wait in it. -/
def enterPush (s : QueueMonitor α ι) (value : α) : Option (QueueMonitor α ι) :=
  if s.queue.NotFullReady then
    match s.queue.push value with
    | some (queue,.ok true) => some { s with queue := queue, producer := .notifying }
    | some (queue,_) => some { s with queue := queue, producer := .idle }
    | none => none -- assert(!slots_[tail_].has_value())
  else some { s with notFull := s.notFull.wait .producer }

def enterPop (s : QueueMonitor α ι) : Option (QueueMonitor α ι) :=
  if s.queue.NotEmptyReady then
    match s.queue.pop with
    | some (queue,.ok (some _)) => some { s with queue := queue, consumer := .notifying }
    | some (queue,_) => some { s with queue := queue, consumer := .idle }
    | none => none -- assert(slots_[head_].has_value())
  else some { s with notEmpty := s.notEmpty.wait .consumer }

/-- The critical sections of `close` and of `fail`, which does not notify for a queue that has
failed before. -/
def enterCloser (s : QueueMonitor α ι) (i : ι) : Option (QueueMonitor α ι) :=
  match s.closers i with
  | .closing => some { s.moveCloser i .notifyingNotEmpty with queue := s.queue.close }
  | .failing failure =>
    match s.queue.state,s.queue.fail (some failure) with
    | .failed _,_ => some (s.moveCloser i .idle)
    | _,.ok (queue,_) => some { s.moveCloser i .notifyingNotEmpty with queue := queue }
    | _,.error _ => none
  | _ => none

def step (s : QueueMonitor α ι) : QueueAction α ι → Option (QueueMonitor α ι)
  | .callPush value =>
    match s.producer with
    | .idle => some { s with producer := .inside value }
    | _ => none
  | .enterPush =>
    match s.producer with
    | .inside value => if .producer ∈ s.notFull.parked then none else s.enterPush value
    | _ => none
  | .notifyNotEmpty woken =>
    match s.producer with
    | .notifying => (s.notEmpty.notifyOne woken).map fun notEmpty =>
        { s with notEmpty := notEmpty, producer := .idle }
    | _ => none
  | .callPop =>
    match s.consumer with
    | .idle => some { s with consumer := .inside }
    | _ => none
  | .enterPop =>
    match s.consumer with
    | .inside => if .consumer ∈ s.notEmpty.parked then none else s.enterPop
    | _ => none
  | .notifyNotFull woken =>
    match s.consumer with
    | .notifying => (s.notFull.notifyOne woken).map fun notFull =>
        { s with notFull := notFull, consumer := .idle }
    | _ => none
  | .callClose i =>
    match s.closers i with
    | .idle => some (s.moveCloser i .closing)
    | _ => none
  | .callFail i failure =>
    match s.closers i,failure with
    | .idle,some failure => some (s.moveCloser i (.failing failure))
    | .idle,none => some s -- std::invalid_argument
    | _,_ => none
  | .enterCloser i => s.enterCloser i
  | .notifyAll i =>
    match s.closers i with
    | .notifyingNotEmpty =>
      some { s.moveCloser i .notifyingNotFull with notEmpty := s.notEmpty.notifyAll }
    | .notifyingNotFull => some { s.moveCloser i .idle with notFull := s.notFull.notifyAll }
    | _ => none
  | .wakeNotFull woken => (s.notFull.wake woken).map fun notFull => { s with notFull := notFull }
  | .wakeNotEmpty woken =>
    (s.notEmpty.wake woken).map fun notEmpty => { s with notEmpty := notEmpty }

end QueueMonitor

def queueMonitorSystem (α ι : Type*) [DecidableEq ι] :
    TransitionSystem (QueueAction α ι) (QueueMonitor α ι) where
  step action s := s.step action

namespace QueueMonitor

variable {α ι : Type*}

def PendingNotFull (s : QueueMonitor α ι) : Prop :=
  s.consumer = .notifying ∨
    ∃ i, s.closers i = .notifyingNotEmpty ∨ s.closers i = .notifyingNotFull

def PendingNotEmpty (s : QueueMonitor α ι) : Prop :=
  s.producer = .notifying ∨ ∃ i, s.closers i = .notifyingNotEmpty

def ProducerInside (s : QueueMonitor α ι) : Prop := ∃ value, s.producer = .inside value

theorem not_producerInside {s : QueueMonitor α ι} (h : ∀ value, s.producer ≠ .inside value) :
    ¬ s.ProducerInside := fun ⟨value,hinside⟩ => h value hinside

/-- Nobody sleeps through the change that it waits for. -/
structure Wakeful (s : QueueMonitor α ι) : Prop where
  notFull_sole : s.notFull.SoleWaiter .producer s.ProducerInside
  notEmpty_sole : s.notEmpty.SoleWaiter .consumer (s.consumer = .inside)
  notFull : s.notFull.NoLostWakeup s.queue.NotFullReady s.PendingNotFull
  notEmpty : s.notEmpty.NoLostWakeup s.queue.NotEmptyReady s.PendingNotEmpty

namespace Wakeful

theorem start (ι : Type*) (queue : SPSCQueue α) : (QueueMonitor.start ι queue).Wakeful where
  notFull_sole := .inl rfl
  notEmpty_sole := .inl rfl
  notFull := CondVar.noLostWakeup_of_empty rfl _ _
  notEmpty := CondVar.noLostWakeup_of_empty rfl _ _

variable {s s' : QueueMonitor α ι}

/-- The producer in its critical section: it parks, or leaves with a notification to make, or
without one. -/
theorem enterPush {value : α} (h : s.Wakeful) (hplace : s.producer = .inside value)
    (hunparked : .producer ∉ s.notFull.parked) (hstep : s.enterPush value = some s') :
    s'.Wakeful := by
  have hempty := h.notFull_sole.of_unparked hunparked
  unfold QueueMonitor.enterPush at hstep
  split at hstep
  · split at hstep
    · obtain rfl := Option.some.inj hstep
      exact ⟨.inl hempty,h.notEmpty_sole,CondVar.noLostWakeup_of_empty hempty _ _,
        .of_pending (.inl rfl)⟩
    · rename_i queue result hne hpush
      obtain rfl := Option.some.inj hstep
      obtain rfl := SPSCQueue.push_unaccepted hpush (fun hok => hne (hok ▸ rfl))
      refine ⟨.inl hempty,h.notEmpty_sole,CondVar.noLostWakeup_of_empty hempty _ _,
        h.notEmpty.mono id fun hpending => ?_⟩
      rcases hpending with hnotifying | hcloser
      · rw [hplace] at hnotifying
        cases hnotifying
      · exact .inr hcloser
    · cases hstep
  · rename_i hready
    obtain rfl := Option.some.inj hstep
    refine ⟨.inr ⟨by simp [CondVar.wait,hempty],value,hplace⟩,h.notEmpty_sole,.wait hready _ _,
      h.notEmpty⟩

theorem enterPop (h : s.Wakeful) (hplace : s.consumer = .inside)
    (hunparked : .consumer ∉ s.notEmpty.parked) (hstep : s.enterPop = some s') : s'.Wakeful := by
  have hempty := h.notEmpty_sole.of_unparked hunparked
  unfold QueueMonitor.enterPop at hstep
  split at hstep
  · split at hstep
    · obtain rfl := Option.some.inj hstep
      exact ⟨h.notFull_sole,.inl hempty,.of_pending (.inl rfl),
        CondVar.noLostWakeup_of_empty hempty _ _⟩
    · rename_i queue result hne hpop
      obtain rfl := Option.some.inj hstep
      obtain rfl := SPSCQueue.pop_undelivered hpop (fun value hok => hne value (hok ▸ rfl))
      refine ⟨h.notFull_sole,.inl hempty,h.notFull.mono id fun hpending => ?_,
        CondVar.noLostWakeup_of_empty hempty _ _⟩
      rcases hpending with hnotifying | hcloser
      · rw [hplace] at hnotifying
        cases hnotifying
      · exact .inr hcloser
    · cases hstep
  · rename_i hready
    obtain rfl := Option.some.inj hstep
    exact ⟨h.notFull_sole,.inr ⟨by simp [CondVar.wait,hempty],hplace⟩,h.notFull,.wait hready _ _⟩

variable [DecidableEq ι]

/-- A thread that has no notification to make does not take one away by going on. -/
theorem moveCloser (h : s.Wakeful) {i : ι} (place : CloserPlace)
    (hempty : s.closers i ≠ .notifyingNotEmpty) (hfull : s.closers i ≠ .notifyingNotFull) :
    (s.moveCloser i place).Wakeful := by
  refine ⟨h.notFull_sole,h.notEmpty_sole,h.notFull.mono id ?_,h.notEmpty.mono id ?_⟩
  · rintro (hconsumer | ⟨j,hj⟩)
    · exact .inl hconsumer
    · have hne : j ≠ i := by
        rintro rfl
        exact hj.elim hempty hfull
      exact .inr ⟨j,by simpa [QueueMonitor.moveCloser,Function.update_of_ne hne] using hj⟩
  · rintro (hproducer | ⟨j,hj⟩)
    · exact .inl hproducer
    · have hne : j ≠ i := by
        rintro rfl
        exact hempty hj
      exact .inr ⟨j,by simpa [QueueMonitor.moveCloser,Function.update_of_ne hne] using hj⟩

theorem of_closer {i : ι} (h : s.Wakeful) (queue : SPSCQueue α) :
    ({ s.moveCloser i .notifyingNotEmpty with queue := queue } : QueueMonitor α ι).Wakeful := by
  have hplace : (s.moveCloser i .notifyingNotEmpty).closers i = .notifyingNotEmpty :=
    Function.update_self i _ _
  exact ⟨h.notFull_sole,h.notEmpty_sole,.of_pending (.inr ⟨i,.inl hplace⟩),
    .of_pending (.inr ⟨i,hplace⟩)⟩

theorem enterCloser (h : s.Wakeful) {i : ι} (hstep : s.enterCloser i = some s') : s'.Wakeful := by
  unfold QueueMonitor.enterCloser at hstep
  split at hstep
  · obtain rfl := Option.some.inj hstep
    exact h.of_closer _
  · rename_i failure hplace
    split at hstep
    · obtain rfl := Option.some.inj hstep
      exact h.moveCloser _ (by rw [hplace]; nofun) (by rw [hplace]; nofun)
    · obtain rfl := Option.some.inj hstep
      exact h.of_closer _
    · cases hstep
  · cases hstep

theorem notifyAll (h : s.Wakeful) {i : ι} (hstep : s.step (.notifyAll i) = some s') :
    s'.Wakeful := by
  simp only [QueueMonitor.step] at hstep
  split at hstep
  · obtain rfl := Option.some.inj hstep
    refine ⟨h.notFull_sole,.inl rfl,.of_pending (.inr ⟨i,.inr (Function.update_self i _ _)⟩),
      CondVar.noLostWakeup_of_empty rfl _ _⟩
  · rename_i hplace
    obtain rfl := Option.some.inj hstep
    refine ⟨.inl rfl,h.notEmpty_sole,CondVar.noLostWakeup_of_empty rfl _ _,
      h.notEmpty.mono id ?_⟩
    rintro (hproducer | ⟨j,hj⟩)
    · exact .inl hproducer
    · have hne : j ≠ i := by
        rintro rfl
        rw [hplace] at hj
        cases hj
      exact .inr ⟨j,by simpa [QueueMonitor.moveCloser,Function.update_of_ne hne] using hj⟩
  · cases hstep

theorem step (h : s.Wakeful) {action : QueueAction α ι} (hstep : s.step action = some s') :
    s'.Wakeful := by
  cases action with
  | callPush value =>
    simp only [QueueMonitor.step] at hstep
    split at hstep
    · rename_i hplace
      obtain rfl := Option.some.inj hstep
      have hempty := h.notFull_sole.of_outside (not_producerInside (by rw [hplace]; nofun))
      refine ⟨.inl hempty,h.notEmpty_sole,CondVar.noLostWakeup_of_empty hempty _ _,
        h.notEmpty.mono id (Or.imp_left fun hnotifying => ?_)⟩
      rw [hplace] at hnotifying
      cases hnotifying
    · cases hstep
  | enterPush =>
    simp only [QueueMonitor.step] at hstep
    split at hstep
    · rename_i value hplace
      split at hstep
      · cases hstep
      · rename_i hunparked
        exact h.enterPush hplace hunparked hstep
    · cases hstep
  | notifyNotEmpty woken =>
    simp only [QueueMonitor.step] at hstep
    split at hstep
    · rename_i hplace
      obtain ⟨notEmpty,hnotify,rfl⟩ := Option.map_eq_some_iff.mp hstep
      have hempty := h.notEmpty_sole.notifyOne hnotify
      have hfull := h.notFull_sole.of_outside (not_producerInside (by rw [hplace]; nofun))
      exact ⟨.inl hfull,.inl hempty,CondVar.noLostWakeup_of_empty hfull _ _,
        CondVar.noLostWakeup_of_empty hempty _ _⟩
    · cases hstep
  | callPop =>
    simp only [QueueMonitor.step] at hstep
    split at hstep
    · rename_i hplace
      obtain rfl := Option.some.inj hstep
      have hempty := h.notEmpty_sole.of_outside (by rw [hplace]; nofun)
      refine ⟨h.notFull_sole,.inl hempty,h.notFull.mono id (Or.imp_left fun hnotifying => ?_),
        CondVar.noLostWakeup_of_empty hempty _ _⟩
      rw [hplace] at hnotifying
      cases hnotifying
    · cases hstep
  | enterPop =>
    simp only [QueueMonitor.step] at hstep
    split at hstep
    · rename_i hplace
      split at hstep
      · cases hstep
      · rename_i hunparked
        exact h.enterPop hplace hunparked hstep
    · cases hstep
  | notifyNotFull woken =>
    simp only [QueueMonitor.step] at hstep
    split at hstep
    · rename_i hplace
      obtain ⟨notFull,hnotify,rfl⟩ := Option.map_eq_some_iff.mp hstep
      have hfull := h.notFull_sole.notifyOne hnotify
      have hempty := h.notEmpty_sole.of_outside (by rw [hplace]; nofun)
      exact ⟨.inl hfull,.inl hempty,CondVar.noLostWakeup_of_empty hfull _ _,
        CondVar.noLostWakeup_of_empty hempty _ _⟩
    · cases hstep
  | callClose i =>
    simp only [QueueMonitor.step] at hstep
    split at hstep
    · rename_i hplace
      obtain rfl := Option.some.inj hstep
      exact h.moveCloser _ (by rw [hplace]; nofun) (by rw [hplace]; nofun)
    · cases hstep
  | callFail i failure =>
    simp only [QueueMonitor.step] at hstep
    split at hstep
    · rename_i hplace
      obtain rfl := Option.some.inj hstep
      exact h.moveCloser _ (by rw [hplace]; nofun) (by rw [hplace]; nofun)
    · obtain rfl := Option.some.inj hstep
      exact h
    · cases hstep
  | enterCloser i => exact h.enterCloser hstep
  | notifyAll i => exact h.notifyAll hstep
  | wakeNotFull woken =>
    obtain ⟨notFull,hwake,rfl⟩ := Option.map_eq_some_iff.mp hstep
    have hfull := h.notFull_sole.wake hwake
    exact ⟨.inl hfull,h.notEmpty_sole,CondVar.noLostWakeup_of_empty hfull _ _,h.notEmpty⟩
  | wakeNotEmpty woken =>
    obtain ⟨notEmpty,hwake,rfl⟩ := Option.map_eq_some_iff.mp hstep
    have hempty := h.notEmpty_sole.wake hwake
    exact ⟨h.notFull_sole,.inl hempty,h.notFull,CondVar.noLostWakeup_of_empty hempty _ _⟩

end Wakeful
end QueueMonitor

namespace QueueMonitor

variable {α ι : Type*} {s s' : QueueMonitor α ι}

theorem enterPush_queue {value : α} (hstep : s.enterPush value = some s') :
    s'.queue = s.queue ∨ ∃ op r, s.queue.perform op = some (s'.queue,r) := by
  unfold QueueMonitor.enterPush at hstep
  split at hstep
  · split at hstep
    · rename_i hpush
      obtain rfl := Option.some.inj hstep
      exact .inr ⟨.push value,_,by rw [SPSCQueue.perform,hpush]; rfl⟩
    · rename_i hpush
      obtain rfl := Option.some.inj hstep
      exact .inr ⟨.push value,_,by rw [SPSCQueue.perform,hpush]; rfl⟩
    · cases hstep
  · obtain rfl := Option.some.inj hstep
    exact .inl rfl

theorem enterPop_queue (hstep : s.enterPop = some s') :
    s'.queue = s.queue ∨ ∃ op r, s.queue.perform op = some (s'.queue,r) := by
  unfold QueueMonitor.enterPop at hstep
  split at hstep
  · split at hstep
    · rename_i hpop
      obtain rfl := Option.some.inj hstep
      exact .inr ⟨.pop,_,by rw [SPSCQueue.perform,hpop]; rfl⟩
    · rename_i hpop
      obtain rfl := Option.some.inj hstep
      exact .inr ⟨.pop,_,by rw [SPSCQueue.perform,hpop]; rfl⟩
    · cases hstep
  · obtain rfl := Option.some.inj hstep
    exact .inl rfl

variable [DecidableEq ι]

theorem enterCloser_queue {i : ι} (hstep : s.enterCloser i = some s') :
    s'.queue = s.queue ∨ ∃ op r, s.queue.perform op = some (s'.queue,r) := by
  unfold QueueMonitor.enterCloser at hstep
  split at hstep
  · obtain rfl := Option.some.inj hstep
    exact .inr ⟨.close,_,rfl⟩
  · rename_i failure hplace
    split at hstep
    · obtain rfl := Option.some.inj hstep
      exact .inl rfl
    · rename_i hfail _
      obtain rfl := Option.some.inj hstep
      exact .inr ⟨.fail (some failure),_,by rw [SPSCQueue.perform,hfail]⟩
    · cases hstep
  · cases hstep

/-- A step is at most one call on the queue. -/
theorem step_queue {action : QueueAction α ι} (hstep : s.step action = some s') :
    s'.queue = s.queue ∨ ∃ op r, s.queue.perform op = some (s'.queue,r) := by
  cases action with
  | enterPush =>
    simp only [QueueMonitor.step] at hstep
    split at hstep
    · split at hstep
      · cases hstep
      · exact enterPush_queue hstep
    · cases hstep
  | enterPop =>
    simp only [QueueMonitor.step] at hstep
    split at hstep
    · split at hstep
      · cases hstep
      · exact enterPop_queue hstep
    · cases hstep
  | enterCloser i => exact enterCloser_queue hstep
  | notifyNotEmpty | notifyNotFull =>
    simp only [QueueMonitor.step] at hstep
    split at hstep
    · obtain ⟨_,-,rfl⟩ := Option.map_eq_some_iff.mp hstep
      exact .inl rfl
    · cases hstep
  | wakeNotFull | wakeNotEmpty =>
    obtain ⟨_,-,rfl⟩ := Option.map_eq_some_iff.mp hstep
    exact .inl rfl
  | callPush | callPop | callClose | callFail | notifyAll =>
    simp only [QueueMonitor.step] at hstep
    split at hstep <;> first
      | (obtain rfl := Option.some.inj hstep; exact .inl rfl)
      | cases hstep

end QueueMonitor

/-- Whoever is parked and could go on is about to be notified; the notification can be made, and
a thread that is not parked can go on with its call. -/
structure WakeupContract {α ι : Type*} [DecidableEq ι] (s : QueueMonitor α ι) : Prop where
  notFull : ∀ t ∈ s.notFull.parked, s.queue.NotFullReady → s.PendingNotFull
  notEmpty : ∀ t ∈ s.notEmpty.parked, s.queue.NotEmptyReady → s.PendingNotEmpty
  producer_notifies : s.producer = .notifying → ∃ woken s',
    s.step (.notifyNotEmpty woken) = some s' ∧ s'.notEmpty.parked = []
  consumer_notifies : s.consumer = .notifying → ∃ woken s',
    s.step (.notifyNotFull woken) = some s' ∧ s'.notFull.parked = []
  closer_notifies : ∀ i, s.closers i = .notifyingNotEmpty ∨ s.closers i = .notifyingNotFull →
    ∃ s', s.step (.notifyAll i) = some s'
  push_enters : s.ProducerInside → .producer ∉ s.notFull.parked →
    ∃ s', s.step .enterPush = some s'
  pop_enters : s.consumer = .inside → .consumer ∉ s.notEmpty.parked →
    ∃ s', s.step .enterPop = some s'

namespace QueueMonitor

variable {α ι : Type*} [DecidableEq ι] {s : QueueMonitor α ι}

theorem Wakeful.contract (h : s.Wakeful) {peak : ℕ} (hqueue : s.queue.WellFormed peak) :
    WakeupContract s where
  notFull := h.notFull
  notEmpty := h.notEmpty
  producer_notifies := by
    intro hplace
    obtain ⟨woken,notEmpty,hnotify⟩ := h.notEmpty_sole.exists_notifyOne
    exact ⟨woken,{ s with notEmpty := notEmpty, producer := .idle },
      by simp [QueueMonitor.step,hplace,hnotify],h.notEmpty_sole.notifyOne hnotify⟩
  consumer_notifies := by
    intro hplace
    obtain ⟨woken,notFull,hnotify⟩ := h.notFull_sole.exists_notifyOne
    exact ⟨woken,{ s with notFull := notFull, consumer := .idle },
      by simp [QueueMonitor.step,hplace,hnotify],h.notFull_sole.notifyOne hnotify⟩
  closer_notifies := by
    rintro i (hplace | hplace)
    · exact ⟨_,by simp only [QueueMonitor.step,hplace]; rfl⟩
    · exact ⟨_,by simp only [QueueMonitor.step,hplace]; rfl⟩
  push_enters := by
    rintro ⟨value,hplace⟩ hunparked
    simp only [QueueMonitor.step,hplace,if_neg hunparked,QueueMonitor.enterPush]
    split
    · rename_i hready
      split
      · exact ⟨_,rfl⟩
      · exact ⟨_,rfl⟩
      · rename_i hnone
        exact absurd hnone (hqueue.push_ready hready value)
    · exact ⟨_,rfl⟩
  pop_enters := by
    intro hplace hunparked
    simp only [QueueMonitor.step,hplace,if_neg hunparked,QueueMonitor.enterPop]
    split
    · rename_i hready
      split
      · exact ⟨_,rfl⟩
      · exact ⟨_,rfl⟩
      · rename_i hnone
        exact absurd hnone (hqueue.pop_ready hready)
    · exact ⟨_,rfl⟩

end QueueMonitor

/-- In no interleaving does a thread of the queue sleep through what it waits for. -/
theorem no_lost_wakeup {α ι : Type*} [DecidableEq ι] [SlotSize α] {capacity : ℕ}
    {depth : Option Gauge}
    {queue : SPSCQueue α} (hqueue : SPSCQueue.make α capacity depth = .ok queue)
    {s : QueueMonitor α ι} (hs : (queueMonitorSystem α ι).Reachable (.start ι queue) s) :
    WakeupContract s := by
  have hwakeful := hs.invariant (I := QueueMonitor.Wakeful)
    (fun _ _ _ h hstep => h.step hstep) (.start ι queue)
  obtain ⟨peak,hpeak⟩ := hs.invariant (I := fun t => ∃ peak, t.queue.WellFormed peak)
    (fun _ t u ⟨peak,h⟩ hstep => by
      rcases QueueMonitor.step_queue hstep with hsame | ⟨op,r,hperform⟩
      · exact ⟨peak,hsame ▸ h⟩
      · exact ⟨_,h.perform_wellFormed hperform⟩) ⟨0,(SPSCQueue.make_wellFormed hqueue).1⟩
  exact hwakeful.contract hpeak

/-- The producer waits for space, and the consumer takes the only value. -/
def QueueAction.waitForSpace : List (QueueAction ℕ Unit) :=
  [.callPush 7,.enterPush,.notifyNotEmpty none,.callPush 8,.enterPush,.callPop,.enterPop]

theorem no_lost_wakeup_waitForSpace : ∃ s,
    (queueMonitorSystem ℕ Unit).exec (.start Unit ⟨[none],0,0,0,.opened,none⟩)
      QueueAction.waitForSpace = some s ∧
    s.notFull.parked = [.producer] ∧ s.consumer = .notifying ∧ WakeupContract s :=
  ⟨_,rfl,rfl,rfl,@no_lost_wakeup ℕ Unit _ _ 1 none ⟨[none],0,0,0,.opened,none⟩ rfl _
    ⟨QueueAction.waitForSpace,rfl⟩⟩

end AsyncDataLoader
