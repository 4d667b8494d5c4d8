import AsyncDataLoader.RunAccounting
import AsyncDataLoader.RunFileSafety
import AsyncDataLoader.QueueRefinement

/-!
# The metrics of a run

What the twelve metrics of an instrumented run show at every point of it, and once `run` has
returned.
-/

namespace AsyncDataLoader

open FileIO

namespace CheckedQueue

variable {α : Type*} {q q' : CheckedQueue α}

structure SameShape (q q' : CheckedQueue α) : Prop where
  capacity : q'.capacity = q.capacity
  metric : q'.queue.depthMetric.isSome = q.queue.depthMetric.isSome

theorem SameShape.refl (q : CheckedQueue α) : q.SameShape q := ⟨rfl,rfl⟩

theorem sameShape_push {v : α} {r : Except Failure Bool} (h : q.push v = some (q',r)) :
    q.SameShape q' := by
  constructor
  · rcases push_cases h with ⟨-,-,-,-,hcapacity⟩ | ⟨-,-,hqueue⟩ | ⟨failure,-,-,hqueue⟩
    · exact hcapacity
    · exact congrArg BoundedFifo.capacity hqueue
    · exact congrArg BoundedFifo.capacity hqueue
  · unfold push at h
    split at h
    · cases h
    · rename_i p r' hpush
      obtain ⟨rfl,rfl⟩ := Prod.mk.inj (Option.some.inj h)
      exact @SPSCQueue.depthMetric_step α _ p (.push v) (.pushed r')
        (by rw [SPSCQueue.perform,hpush]; rfl)

theorem sameShape_pop {r : Except Failure (Option α)} (h : q.pop = some (q',r)) :
    q.SameShape q' := by
  constructor
  · rcases pop_cases h with ⟨v,-,-,-,hcapacity⟩ | ⟨-,-,-,hqueue⟩ | ⟨failure,-,-,hqueue⟩
    · exact hcapacity
    · exact congrArg BoundedFifo.capacity hqueue
    · exact congrArg BoundedFifo.capacity hqueue
  · unfold pop at h
    split at h
    · cases h
    · rename_i p r' hpop
      obtain ⟨rfl,rfl⟩ := Prod.mk.inj (Option.some.inj h)
      exact @SPSCQueue.depthMetric_step α _ p .pop (.popped r')
        (by rw [SPSCQueue.perform,hpop]; rfl)

theorem sameShape_close (q : CheckedQueue α) : q.SameShape q.close :=
  ⟨q.close_capacity,@SPSCQueue.depthMetric_step α _ _ .close .closed rfl⟩

theorem sameShape_fail (q : CheckedQueue α) (failure : Failure) :
    q.SameShape (q.fail failure).1 := by
  obtain ⟨p,dropped,hfail,hfifo,-,-⟩ := q.wellFormed.fail_simulates failure
  have hqueue : (q.fail failure).1.queue = p := by
    unfold fail
    split
    · rename_i herr
      rw [hfail] at herr
      cases herr
    · rename_i r hok
      obtain rfl := Except.ok.inj (hfail.symm.trans hok)
      rfl
  refine ⟨?_,?_⟩
  · have hcapacity := congrArg BoundedFifo.capacity hfifo
    rw [capacity,hqueue]
    refine hcapacity.trans ?_
    simp only [BoundedFifo.fail]
    split <;> rfl
  · rw [hqueue]
    exact @SPSCQueue.depthMetric_step α _ p (.fail (some failure)) (.failed true)
      (by rw [SPSCQueue.perform,hfail])

end CheckedQueue

variable {σ : Type*}

structure Shared.SameShape (sh sh' : Shared σ) : Prop where
  readToProcess : sh.readToProcess.SameShape sh'.readToProcess
  processToWrite : sh.processToWrite.SameShape sh'.processToWrite
  counters : sh'.counters.isSome = sh.counters.isSome

namespace Shared.SameShape

variable {sh sh' : Shared σ}

theorem refl (sh : Shared σ) : sh.SameShape sh := ⟨.refl _,.refl _,rfl⟩

theorem count (h : sh.SameShape sh') (f : RunCounters → RunCounters) :
    sh.SameShape (sh'.count f) :=
  ⟨h.readToProcess,h.processToWrite,by
    rw [Shared.count,Option.isSome_map]
    exact h.counters⟩

end Shared.SameShape

theorem FailMove.sameShape {sh sh' : Shared σ} {place : FailAll} {next : Option FailAll}
    (h : FailMove sh place sh' next) : sh.SameShape sh' := by
  cases h with
  | store failure => exact ⟨.refl _,.refl _,rfl⟩
  | failRead canonical hpool => exact ⟨CheckedQueue.sameShape_fail _ _,.refl _,rfl⟩
  | failWrite canonical hpool => exact ⟨.refl _,CheckedQueue.sameShape_fail _ _,rfl⟩

-- A move of a worker does not say what becomes of the gauge of a queue, so the steps are opened
-- once more.
namespace RunCall

variable {call : RunCall σ} {sh sh' : Shared σ}

theorem sameShape_readerStep {r r' : Reader} (h : call.readerStep sh r = some (r',sh')) :
    sh.SameShape sh' := by
  cases r with
  | notStarted | terminated => cases h
  | acquire k o =>
    obtain ⟨⟨pool,buffer⟩,-,heq⟩ := Option.map_eq_some_iff.mp h
    obtain ⟨rfl,rfl⟩ := Prod.mk.inj heq
    exact ⟨.refl _,.refl _,rfl⟩
  | read k o buffer =>
    have htimed : sh.SameShape (sh.count .timeRead) := (Shared.SameShape.refl sh).count _
    have hfilled : ∀ pool f, sh.SameShape (({ sh.count .timeRead with pool := pool }).count f) :=
      fun pool f => @Shared.SameShape.count σ sh { sh.count .timeRead with pool := pool }
        ⟨htimed.readToProcess,htimed.processToWrite,htimed.counters⟩ f
    simp only [readerStep] at h
    split at h
    · obtain ⟨rfl,rfl⟩ := Prod.mk.inj (Option.some.inj h)
      exact htimed
    · obtain ⟨rfl,rfl⟩ := Prod.mk.inj (Option.some.inj h)
      exact htimed
    · split at h
      · obtain ⟨rfl,rfl⟩ := Prod.mk.inj (Option.some.inj h)
        exact hfilled _ _
      · obtain ⟨rfl,rfl⟩ := Prod.mk.inj (Option.some.inj h)
        exact hfilled _ _
  | push item =>
    obtain ⟨⟨queue,r⟩,hpush,heq⟩ := Option.map_eq_some_iff.mp h
    have hshape := CheckedQueue.sameShape_push hpush
    rcases r with failure | pushed
    · obtain ⟨rfl,rfl⟩ := Prod.mk.inj heq
      exact ⟨hshape,.refl _,rfl⟩
    · cases pushed <;> obtain ⟨rfl,rfl⟩ := Prod.mk.inj heq
      · exact ⟨hshape,.refl _,rfl⟩
      · exact ⟨hshape,.refl _,rfl⟩
  | close buffer =>
    obtain ⟨rfl,rfl⟩ := Prod.mk.inj (Option.some.inj h)
    exact ⟨CheckedQueue.sameShape_close _,.refl _,rfl⟩
  | release buffer | unwind buffer failure =>
    obtain ⟨pool,-,heq⟩ := Option.map_eq_some_iff.mp h
    obtain ⟨rfl,rfl⟩ := Prod.mk.inj heq
    exact ⟨.refl _,.refl _,rfl⟩
  | failing place =>
    obtain ⟨⟨sh'',next⟩,hfail,heq⟩ := Option.map_eq_some_iff.mp h
    obtain ⟨rfl,rfl⟩ := Prod.mk.inj heq
    exact (failAll_move hfail).sameShape

theorem sameShape_processorStep {p p' : Processor} (h : processorStep sh p = some (p',sh')) :
    sh.SameShape sh' := by
  cases p with
  | notStarted | terminated => cases h
  | pop =>
    obtain ⟨⟨queue,r⟩,hpop,heq⟩ := Option.map_eq_some_iff.mp h
    have hshape := CheckedQueue.sameShape_pop hpop
    rcases r with failure | item
    · obtain ⟨rfl,rfl⟩ := Prod.mk.inj heq
      exact ⟨hshape,.refl _,rfl⟩
    · cases item <;> obtain ⟨rfl,rfl⟩ := Prod.mk.inj heq
      · exact ⟨hshape,.refl _,rfl⟩
      · exact ⟨hshape,.refl _,rfl⟩
  | process item =>
    have hprocessed : ∀ stages pool, sh.SameShape
        (({ sh with stages := stages, pool := pool }).count .timeProcess) := fun stages pool =>
      @Shared.SameShape.count σ sh { sh with stages := stages, pool := pool }
        ⟨.refl _,.refl _,rfl⟩ _
    simp only [processorStep] at h
    split at h
    · obtain ⟨rfl,rfl⟩ := Prod.mk.inj (Option.some.inj h)
      exact hprocessed _ _
    · obtain ⟨rfl,rfl⟩ := Prod.mk.inj (Option.some.inj h)
      exact (hprocessed _ _).count _
  | push item =>
    obtain ⟨⟨queue,r⟩,hpush,heq⟩ := Option.map_eq_some_iff.mp h
    have hshape := CheckedQueue.sameShape_push hpush
    rcases r with failure | pushed
    · obtain ⟨rfl,rfl⟩ := Prod.mk.inj heq
      exact ⟨.refl _,hshape,rfl⟩
    · cases pushed <;> obtain ⟨rfl,rfl⟩ := Prod.mk.inj heq
      · exact ⟨.refl _,hshape,rfl⟩
      · exact ⟨.refl _,hshape,rfl⟩
  | close =>
    obtain ⟨rfl,rfl⟩ := Prod.mk.inj (Option.some.inj h)
    exact ⟨.refl _,CheckedQueue.sameShape_close _,rfl⟩
  | unwind buffer failure =>
    obtain ⟨pool,-,heq⟩ := Option.map_eq_some_iff.mp h
    obtain ⟨rfl,rfl⟩ := Prod.mk.inj heq
    exact ⟨.refl _,.refl _,rfl⟩
  | failing place =>
    obtain ⟨⟨sh'',next⟩,hfail,heq⟩ := Option.map_eq_some_iff.mp h
    obtain ⟨rfl,rfl⟩ := Prod.mk.inj heq
    exact (failAll_move hfail).sameShape

theorem sameShape_writerStep {w w' : Writer} (h : call.writerStep sh w = some (w',sh')) :
    sh.SameShape sh' := by
  cases w with
  | notStarted | terminated => cases h
  | pop =>
    obtain ⟨⟨queue,r⟩,hpop,heq⟩ := Option.map_eq_some_iff.mp h
    have hshape := CheckedQueue.sameShape_pop hpop
    rcases r with failure | item
    · obtain ⟨rfl,rfl⟩ := Prod.mk.inj heq
      exact ⟨.refl _,hshape,rfl⟩
    · cases item <;> obtain ⟨rfl,rfl⟩ := Prod.mk.inj heq
      · exact ⟨.refl _,hshape,rfl⟩
      · exact ⟨.refl _,hshape,rfl⟩
  | write item writtenCount =>
    cases writerStep_move h with
    | wrote hwrite => exact ⟨.refl _,.refl _,rfl⟩
    | finished hwrite herror hcount =>
      exact ⟨.refl _,.refl _,by simp [Shared.written,Shared.count]⟩
    | writeFailed hwrite hcause => exact ⟨.refl _,.refl _,by simp [Shared.count]⟩
  | release buffer | unwind buffer failure =>
    obtain ⟨pool,-,heq⟩ := Option.map_eq_some_iff.mp h
    obtain ⟨rfl,rfl⟩ := Prod.mk.inj heq
    exact ⟨.refl _,.refl _,rfl⟩
  | failing place =>
    obtain ⟨⟨sh'',next⟩,hfail,heq⟩ := Option.map_eq_some_iff.mp h
    obtain ⟨rfl,rfl⟩ := Prod.mk.inj heq
    exact (failAll_move hfail).sameShape

theorem sameShape_step {s s' : RunState σ} {t : Thread} (h : call.system.step t s = some s') :
    s.shared.SameShape s'.shared := by
  cases t with
  | worker w =>
    cases w with
    | reader =>
      obtain ⟨r,hstep,rfl⟩ := Option.map_eq_some_iff.mp h
      exact sameShape_readerStep hstep
    | processor =>
      obtain ⟨r,hstep,rfl⟩ := Option.map_eq_some_iff.mp h
      exact sameShape_processorStep hstep
    | writer =>
      obtain ⟨r,hstep,rfl⟩ := Option.map_eq_some_iff.mp h
      exact sameShape_writerStep hstep
  | caller =>
    cases callerStep_move h with
    | failing hcaller hfail => exact hfail.sameShape
    | writerStarted | processorStarted | readerStarted | startFailed | joined => exact .refl _

end RunCall

def RuntimeMetrics.fresh : RuntimeMetrics :=
  ⟨.zero,.zero,.zero,⟨⟨0⟩,⟨0⟩,⟨0⟩,⟨0⟩,⟨0⟩,⟨0⟩,⟨0⟩,⟨0⟩,⟨0⟩⟩⟩

/-- The depth gauge of a queue of the run; its destructor has run when `run` is over. -/
def RunState.depth (s : RunState σ) (q : CheckedQueue BlockWorkItem) : Option Gauge :=
  match s.caller with
  | .done _ => q.queue.destroy
  | _ => q.queue.depthMetric

def RunState.metrics (s : RunState σ) : Option RuntimeMetrics :=
  match s.shared.pool.inflightMetric,s.depth s.shared.readToProcess,
      s.depth s.shared.processToWrite,s.shared.counters with
  | some inflight,some read,some write,some counters => some ⟨inflight,read,write,counters⟩
  | _,_,_,_ => none

/-- The value and the high watermark are between zero and the bound. -/
structure Gauge.Within (g : Gauge) (bound : ℕ) : Prop where
  current_nonneg : 0 ≤ g.current
  current_le : g.current ≤ bound
  highWatermark_nonneg : 0 ≤ g.highWatermark
  highWatermark_le : g.highWatermark ≤ bound

theorem Gauge.Shows.within {g : Gauge} {depth peak bound : ℕ} (h : g.Shows depth peak)
    (hdepth : depth ≤ bound) (hpeak : peak ≤ bound) : g.Within bound := by
  obtain ⟨hc,hw⟩ := h
  exact ⟨by omega,by omega,by omega,by omega⟩

/-- No counter overflows in the run: what the reader adds does not wrap around, and the other
counters stay below. The size of a read is a `std::size_t`. -/
structure NoOverflow (call : RunCall σ) (s₀ : RunState σ) (ts : List Thread) : Prop where
  size : ∀ offset length data, call.readAt offset length = .ok data → data.length < 2^64
  grows : ∀ u t v c c', call.system.Takes s₀ ts u t → call.system.step t u = some v →
    u.shared.counters = some c → v.shared.counters = some c' → c.Grows c'

/-- The invariant of an instrumented run. -/
structure RunState.Instrumented (call : RunCall σ) (s : RunState σ) (c : RunCounters) : Prop where
  sound : s.Sound call
  flows : ∃ m p q w, s.Flows call m p q w
  counters : s.shared.counters = some c
  accounts : ∀ x, (c.tally x).Accounts x s
  timed : s.Clean → s.Timed c
  readToProcess : s.shared.readToProcess.capacity = call.config.queueDepth ∧
    s.shared.readToProcess.queue.depthMetric.isSome
  processToWrite : s.shared.processToWrite.capacity = call.config.queueDepth ∧
    s.shared.processToWrite.queue.depthMetric.isSome

/-- The conditions on an instrumented run: a fresh registry for it and for its stages. -/
structure RunCall.Instruments (call : RunCall σ) : Prop where
  metrics : call.metrics = some .fresh
  stages : Sampled call.stages 0

theorem start_shape {call : RunCall σ} {s₀ : RunState σ} (h : call.start = .ok s₀) :
    s₀.shared.counters = call.metrics.map (·.counters) ∧
    (s₀.shared.readToProcess.capacity = call.config.queueDepth ∧
      s₀.shared.readToProcess.queue.depthMetric = call.metrics.map (·.readProcessQueueDepth)) ∧
    s₀.shared.processToWrite.capacity = call.config.queueDepth ∧
      s₀.shared.processToWrite.queue.depthMetric = call.metrics.map (·.processWriteQueueDepth) := by
  unfold RunCall.start at h
  split_ifs at h
  split at h
  · cases h
  · split at h
    · cases h
    · rename_i readToProcess hread
      split at h
      · cases h
      · rename_i processToWrite hwrite
        obtain rfl := Except.ok.inj h
        obtain ⟨-,-,hreadCapacity,hreadMetric,-⟩ := CheckedQueue.make_cases hread
        obtain ⟨-,-,hwriteCapacity,hwriteMetric,-⟩ := CheckedQueue.make_cases hwrite
        exact ⟨rfl,⟨hreadCapacity,hreadMetric⟩,hwriteCapacity,hwriteMetric⟩

theorem instrumented_start {call : RunCall σ} {s₀ : RunState σ} (hfresh : call.Instruments)
    (h : call.start = .ok s₀) : s₀.Instrumented call RuntimeMetrics.fresh.counters := by
  have hinit := start_initial h
  obtain ⟨hcounters,⟨hreadCapacity,hreadMetric⟩,hwriteCapacity,hwriteMetric⟩ := start_shape h
  rw [hfresh.metrics] at hcounters hreadMetric hwriteMetric
  have hunprocessed : s₀.unprocessed = [] := by
    simp [RunState.unprocessed,hinit.reader,hinit.processor,hinit.readToProcess_contents,
      Reader.carried,Processor.unprocessed]
  have hunwritten : s₀.unwritten = [] := by
    simp [RunState.unwritten,hinit.writer,hinit.processor,hinit.processToWrite_contents,
      Writer.carried,Processor.unwritten]
  have htally : ∀ x, RuntimeMetrics.fresh.counters.tally x = ⟨0,0,0⟩ := by
    intro x
    cases x <;> rfl
  refine ⟨hinit.sound,⟨0,0,0,0,hinit.flows⟩,hcounters,fun x => ?_,fun _ => ?_,
    ⟨hreadCapacity,by rw [hreadMetric]; rfl⟩,hwriteCapacity,by rw [hwriteMetric]; rfl⟩
  · rw [htally]
    refine ⟨by decide,fun _ => rfl,?_,?_,fun _ => ?_⟩
    · rw [hunprocessed]
      exact le_refl _
    · rw [hunwritten]
      exact le_refl _
    · rw [hunprocessed,hunwritten]
      exact ⟨rfl,rfl⟩
  · refine ⟨?_,rfl,rfl,?_,?_,?_⟩
    · rw [hinit.reader]
      rfl
    · rw [hinit.stages]
      exact hfresh.stages
    · rw [hinit.runResult]
      rfl
    · rw [hinit.runResult]
      rfl

theorem instrumented_step {call : RunCall σ} {s s' : RunState σ} {t : Thread} {c : RunCounters}
    (hsize : ∀ offset length data, call.readAt offset length = .ok data → data.length < 2^64)
    (hgrows : ∀ c', s'.shared.counters = some c' → c.Grows c') (h : s.Instrumented call c)
    (hstep : call.system.step t s = some s') : ∃ c', s'.Instrumented call c' := by
  have hshape := RunCall.sameShape_step hstep
  obtain ⟨c',hc'⟩ : ∃ c', s'.shared.counters = some c' := by
    rw [← Option.isSome_iff_exists,hshape.counters,h.counters]
    rfl
  have hgrows' := hgrows c' hc'
  refine ⟨c',sound_step h.sound hstep,?_,hc',fun x => ?_,fun hclean' => ?_,?_,?_⟩
  · exact flows_step h.sound h.flows hstep
  · exact accounts_step hsize h.sound h.flows h.counters hc' hgrows' (h.accounts x) hstep
  · have hclean := hclean'.of_step h.sound.orderly hstep
    exact timed_step h.sound h.flows h.counters hc' hgrows' (h.accounts .blocks)
      (h.accounts .bytes) (h.timed hclean) hclean hclean' hstep
  · rw [hshape.readToProcess.capacity,hshape.readToProcess.metric]
    exact h.readToProcess
  · rw [hshape.processToWrite.capacity,hshape.processToWrite.metric]
    exact h.processToWrite

theorem instrumented_run {call : RunCall σ} {s₀ s : RunState σ} {ts : List Thread}
    (hfresh : call.Instruments) (h : call.start = .ok s₀)
    (hrun : call.system.exec s₀ ts = some s) (hno : NoOverflow call s₀ ts) :
    ∃ c, s.Instrumented call c := by
  have hvisits : call.system.Visits s₀ ts s := ⟨ts,[],(List.append_nil ts).symm,hrun⟩
  refine hvisits.invariant (C := fun u t => ∀ v, call.system.step t u = some v →
    ∀ c c', u.shared.counters = some c → v.shared.counters = some c' → c.Grows c')
    (I := fun u => ∃ c, u.Instrumented call c) ?_ ?_ ⟨_,instrumented_start hfresh h⟩
  · rintro t u v hC ⟨c,hu⟩ hstep
    exact instrumented_step hno.size (fun c' hc' => hC v hstep c c' hu.counters hc') hu hstep
  · exact fun u t htakes v hstep c c' hc hc' => hno.grows u t v c c' htakes hstep hc hc'

namespace RunState

variable {call : RunCall σ} {s : RunState σ}

theorem depth_within {q : CheckedQueue BlockWorkItem} {bound : ℕ}
    (hq : q.capacity = bound ∧ q.queue.depthMetric.isSome) : ∃ g, s.depth q = some g ∧
      g.Within bound ∧ ∀ outcome, s.caller = .done outcome → g.current = 0 := by
  obtain ⟨g,hg⟩ := Option.isSome_iff_exists.mp hq.2
  have hshows := q.wellFormed.gauge_shows g hg
  have hsize : q.queue.size ≤ bound := hq.1 ▸ q.wellFormed.size_le
  have hpeak : q.peak ≤ bound := hq.1 ▸ q.wellFormed.peak_le
  cases hcaller : s.caller with
  | done outcome =>
    refine ⟨g.set 0,?_,hshows.set_zero.within (Nat.zero_le _) hpeak,
      fun _ _ => hshows.set_zero.1⟩
    simp only [depth,hcaller,SPSCQueue.destroy,hg,Option.map_some]
  | startWriter | startProcessor | startReader | failing | join =>
    refine ⟨g,?_,hshows.within hsize hpeak,fun outcome hdone => by cases hdone⟩
    simp only [depth,hcaller,hg]

/-- Each block that is counted and not written holds a lease. -/
theorem carried_le_holders (s : RunState σ) :
    s.unprocessed.length+s.unwritten.length ≤ s.holders.length := by
  have hreader : s.reader.carried.length ≤ s.reader.held.length := by
    cases s.reader <;> simp [Reader.carried,Reader.held]
  have hprocessor : s.processor.unprocessed.length+s.processor.unwritten.length ≤
      s.processor.held.length := by
    cases s.processor <;> simp [Processor.unprocessed,Processor.unwritten,Processor.held]
  have hwriter : s.writer.carried.length ≤ s.writer.held.length := by
    cases s.writer <;> simp [Writer.carried,Writer.held]
  simp only [unprocessed,unwritten,holders,CheckedQueue.leases,List.length_append,List.length_map]
  omega

end RunState

def NoWorkerFailed (call : RunCall σ) (s₀ : RunState σ) (ts : List Thread) : Prop :=
  ∀ u, call.system.Visits s₀ ts u →
    u.reader.raised = [] ∧ u.processor.raised = [] ∧ u.writer.raised = []

/-- Nothing has failed, or the reader will never be started. -/
def RunState.Quiet (s : RunState σ) : Prop :=
  s.Clean ∨ s.reader = .notStarted ∧ ∀ w, s.caller ≠ .starting w

theorem quiet_step {call : RunCall σ} {s s' : RunState σ} {t : Thread} (hs : s.Sound call)
    (h : s.Quiet) (hraised : s'.reader.raised = [] ∧ s'.processor.raised = [] ∧
      s'.writer.raised = []) (hstep : call.system.step t s = some s') : s'.Quiet := by
  rcases h with hclean | ⟨hreader,hcaller⟩
  · have hfirst : s'.shared.firstFailure = none := by
      by_contra hsome
      obtain ⟨failure,hfailure⟩ := Option.ne_none_iff_exists'.mp hsome
      have hplace := first_stored hstep hclean.firstFailure hfailure
      rw [hclean.places_nil hs.agrees] at hplace
      cases hplace
    by_cases hquiet : s'.caller.raised = []
    · exact .inl ⟨by simp [RunState.raised,hraised,hquiet],hfirst⟩
    · have hfailing : ∃ place, s'.caller = .failing place := by
        cases hc : s'.caller with
        | failing place => exact ⟨place,rfl⟩
        | startWriter | startProcessor | startReader | join | done =>
          rw [hc] at hquiet
          exact absurd rfl hquiet
      obtain ⟨place,hplace⟩ := hfailing
      have hwaits := (sound_step hs hstep).orderly.readerWaits
      rw [hplace] at hwaits
      refine .inr ⟨hwaits trivial,fun w => ?_⟩
      rw [hplace]
      cases w <;> simp [Caller.starting]
  · right
    rcases RunCall.step_cases hstep with
      ⟨r,sh,hmove,rfl⟩ | ⟨p,sh,hmove,rfl⟩ | ⟨w,sh,hmove,rfl⟩ | hmove
    · rw [hreader] at hmove
      cases hmove
    · exact ⟨hreader,hcaller⟩
    · exact ⟨hreader,hcaller⟩
    · cases hmove with
      | writerStarted hc => exact absurd hc (hcaller .writer)
      | processorStarted hc => exact absurd hc (hcaller .processor)
      | readerStarted hc => exact absurd hc (hcaller .reader)
      | @startFailed w failure hc => exact absurd hc (hcaller w)
      | @failing place sh next hc hfail =>
        refine ⟨hreader,fun w => ?_⟩
        cases next <;> cases w <;> simp [Caller.starting]
      | joined hc hjoin =>
        refine ⟨hreader,fun w => ?_⟩
        cases w <;> simp [Caller.starting]

theorem quiet_run {call : RunCall σ} {s₀ s : RunState σ} {ts : List Thread}
    (h : call.start = .ok s₀) (hrun : call.system.exec s₀ ts = some s)
    (hworkers : NoWorkerFailed call s₀ ts) : s.Quiet := by
  have hvisits : call.system.Visits s₀ ts s := ⟨ts,[],(List.append_nil ts).symm,hrun⟩
  have hinit := start_initial h
  have hquiet : s₀.Quiet := by
    refine .inl ⟨?_,hinit.firstFailure⟩
    simp [RunState.raised,hinit.reader,hinit.processor,hinit.writer,hinit.caller,Reader.raised,
      Processor.raised,Writer.raised,Caller.raised]
  have hboth : s.Sound call ∧ s.Quiet := by
    refine @TransitionSystem.Visits.invariant _ _ call.system
      (fun u t => ∀ v, call.system.step t u = some v →
        v.reader.raised = [] ∧ v.processor.raised = [] ∧ v.writer.raised = [])
      (fun u => u.Sound call ∧ u.Quiet) ?_ _ _ _ ?_ ⟨hinit.sound,hquiet⟩ hvisits
    · rintro t u v hC ⟨hsound,hu⟩ hstep
      exact ⟨sound_step hsound hstep,quiet_step hsound hu (hC v hstep) hstep⟩
    · exact fun u t htakes v hstep => hworkers v (htakes.visits hstep)
  exact hboth.2

/-- What a run that has returned leaves in its metrics. -/
structure ReturnedMetrics (call : RunCall σ) (stages : List (StageEntry σ)) (m : RuntimeMetrics)
    (result : PipelineRunResult) : Prop where
  readBlocks : m.counters.readBlocks.value = result.blocksWritten
  processedBlocks : m.counters.processedBlocks.value = result.blocksWritten
  writtenBlocks : m.counters.writtenBlocks.value = result.blocksWritten
  readBytes : m.counters.readBytes.value = result.bytesWritten
  processedBytes : m.counters.processedBytes.value = result.bytesWritten
  writtenBytes : m.counters.writtenBytes.value = result.bytesWritten
  input : ∀ input, call.ReadsFrom input → result.bytesWritten = input.length
  gauges : m.inflightBuffers.current = 0 ∧ m.readProcessQueueDepth.current = 0 ∧
    m.processWriteQueueDepth.current = 0
  readLatency : m.counters.readLatency.value = result.blocksWritten+1
  processLatency : m.counters.processLatency.value = result.blocksWritten
  writeLatency : m.counters.writeLatency.value = result.blocksWritten
  stages : Sampled stages result.blocksWritten

/-- What the metrics of an instrumented run show after the steps `ts`. -/
structure MetricsContract (call : RunCall σ) (s₀ : RunState σ) (ts : List Thread)
    (s : RunState σ) (m : RuntimeMetrics) : Prop where
  blocks : m.counters.writtenBlocks.value ≤ m.counters.processedBlocks.value ∧
    m.counters.processedBlocks.value ≤ m.counters.readBlocks.value
  bytes : m.counters.writtenBytes.value ≤ m.counters.processedBytes.value ∧
    m.counters.processedBytes.value ≤ m.counters.readBytes.value
  inflightBuffers : m.inflightBuffers.Within call.config.maxInflightBuffers
  readProcessQueueDepth : m.readProcessQueueDepth.Within call.config.queueDepth
  processWriteQueueDepth : m.processWriteQueueDepth.Within call.config.queueDepth
  lead : NoWorkerFailed call s₀ ts → m.counters.readBlocks.value ≤
    m.counters.writtenBlocks.value+call.config.maxInflightBuffers
  returned : ∀ result, s.caller = .done (.ok result) →
    ReturnedMetrics call s.shared.stages m result

theorem RunCall.ReadsFrom.offset_le {call : RunCall σ} {input : Bytes}
    (h : call.ReadsFrom input) {k o : ℕ} (hk : call.offsetAt k = some o) : o ≤ input.length := by
  induction k generalizing o with
  | zero =>
    obtain rfl := Option.some.inj hk
    exact Nat.zero_le _
  | succ k ih =>
    obtain ⟨o',ho',hread,hne,-,-,rfl⟩ := offsetAt_succ hk
    have hlen := congrArg List.length (h.delivered _ _ _ hread)
    have hpos : 0 < (call.rawAt k).length := List.length_pos_iff.mpr hne
    have hbefore := ih ho'
    rw [List.length_take,List.length_drop] at hlen
    omega

theorem done_clean {call : RunCall σ} {s₀ s : RunState σ} (h : call.start = .ok s₀)
    (hs : call.system.Reachable s₀ s) {result : PipelineRunResult}
    (hdone : s.caller = .done (.ok result)) :
    s.Clean ∧ s.reader = .terminated ∧ s.shared.runResult = result := by
  have hsound := reachable_sound h hs
  obtain ⟨⟨hreader,-⟩,houtcome⟩ := hsound.orderly.finished _ hdone
  obtain ⟨hnone,hresult⟩ : s.shared.firstFailure = none ∧ s.shared.runResult = result := by
    unfold RunCall.outcome at houtcome
    split at houtcome
    · cases houtcome
    · rename_i hnone
      exact ⟨hnone,(Except.ok.inj houtcome).symm⟩
  have hclean : s.Clean := ⟨done_raised hsound.orderly hdone,hnone⟩
  refine ⟨hclean,?_,hresult⟩
  rcases hsound.orderly.started (by rw [hdone]; exact id) with hstarted | ⟨failure,hfailed⟩
  · exact hreader.resolve_left hstarted
  · exact absurd hfailed (hclean.not_failed hsound.agrees failure).2

theorem carried_nil {s : RunState σ} (ho : s.Orderly) (hjoin : RunCall.Joinable s) :
    s.unprocessed = [] ∧ s.unwritten = [] := by
  have hholders := (ho.holders_nil hjoin).2.2
  have hle := s.carried_le_holders
  rw [hholders,List.length_nil] at hle
  exact ⟨List.length_eq_zero_iff.mp (by omega),List.length_eq_zero_iff.mp (by omega)⟩

theorem RunState.Instrumented.agree {call : RunCall σ} {s : RunState σ} {c : RunCounters}
    (h : s.Instrumented call c) (hclean : s.Clean) (hjoin : RunCall.Joinable s) (x : Quantity) :
    (c.tally x).processed = (c.tally x).read ∧ (c.tally x).written = (c.tally x).read := by
  obtain ⟨hprocessed,hwritten⟩ := (h.accounts x).exact hclean
  obtain ⟨hun,hunw⟩ := carried_nil h.sound.orderly hjoin
  rw [hun] at hprocessed
  rw [hunw] at hwritten
  exact ⟨hprocessed,hwritten.trans hprocessed⟩

theorem RunState.Instrumented.returned {call : RunCall σ} {s₀ s : RunState σ} {c : RunCounters}
    {inflight read write : Gauge} (h : s.Instrumented call c) (hstart : call.start = .ok s₀)
    (hs : call.system.Reachable s₀ s) {result : PipelineRunResult}
    (hdone : s.caller = .done (.ok result))
    (hgauges : inflight.current = 0 ∧ read.current = 0 ∧ write.current = 0) :
    ReturnedMetrics call s.shared.stages ⟨inflight,read,write,c⟩ result := by
  obtain ⟨hclean,hterm,hresult⟩ := done_clean hstart hs hdone
  have hjoin := (h.sound.orderly.finished _ hdone).1
  have htimed := h.timed hclean
  obtain ⟨hprocessedBlocks,hwrittenBlocks⟩ := h.agree hclean hjoin .blocks
  obtain ⟨hprocessedBytes,hwrittenBytes⟩ := h.agree hclean hjoin .bytes
  have hblocks : c.writtenBlocks.value = result.blocksWritten := by
    rw [htimed.blocksWritten,hresult]
  have hbytes : c.writtenBytes.value = result.bytesWritten := by
    rw [htimed.bytesWritten,hresult]
  have hreadBlocks : c.readBlocks.value = result.blocksWritten := hwrittenBlocks.symm.trans hblocks
  have hprocessed : c.processedBlocks.value = result.blocksWritten :=
    hprocessedBlocks.trans hreadBlocks
  have hreadBytes : c.readBytes.value = result.bytesWritten := hwrittenBytes.symm.trans hbytes
  refine {
    readBlocks := hreadBlocks
    processedBlocks := hprocessed
    writtenBlocks := hblocks
    readBytes := hreadBytes
    processedBytes := hprocessedBytes.trans hreadBytes
    writtenBytes := hbytes
    input := fun input hreads => ?_
    gauges := hgauges
    readLatency := ?_
    processLatency := htimed.process.trans hprocessed
    writeLatency := htimed.write.trans hblocks
    stages := fun entry hentry samples hsamples => ?_ }
  · obtain ⟨hoffset,⟨o,ho,heof⟩,-,-⟩ := done_complete hstart hs hdone
    have hend := hreads.eof _ _ h.sound.valid.blockSize_pos heof
    obtain rfl := Option.some.inj (hoffset.symm.trans ho)
    exact Nat.le_antisymm (hreads.offset_le hoffset) hend
  · have hread := htimed.read
    rw [hterm,hreadBlocks] at hread
    exact hread
  · exact (htimed.stages entry hentry samples hsamples).trans hprocessed

/-- The metrics of an instrumented run, in every state and when it has returned. -/
theorem run_metrics (call : RunCall σ) (hfresh : call.Instruments) {s₀ s : RunState σ}
    {ts : List Thread} (h : call.start = .ok s₀) (hrun : call.system.exec s₀ ts = some s)
    (hno : NoOverflow call s₀ ts) :
    ∃ m, s.metrics = some m ∧ MetricsContract call s₀ ts s m := by
  have hs : call.system.Reachable s₀ s := ⟨ts,hrun⟩
  obtain ⟨c,hinstrumented⟩ := instrumented_run hfresh h hrun hno
  have hsound := hinstrumented.sound
  have howned : s.shared.pool.Leased s.holders := hsound.owned
  have hleases := leases_partitioned call h hs
  obtain ⟨read,hread,hreadWithin,hreadZero⟩ :=
    RunState.depth_within (s := s) hinstrumented.readToProcess
  obtain ⟨write,hwrite,hwriteWithin,hwriteZero⟩ :=
    RunState.depth_within (s := s) hinstrumented.processToWrite
  obtain ⟨inflight,hinflight⟩ : ∃ g, s.shared.pool.inflightMetric = some g := by
    rw [← Option.isSome_iff_exists,hsound.metric,hfresh.metrics]
    rfl
  obtain ⟨peak,hpeak,hshows⟩ := howned.gauge_shows inflight hinflight
  rw [hsound.buffers_length] at hpeak
  have hblocks := hinstrumented.accounts .blocks
  have hbytes := hinstrumented.accounts .bytes
  refine ⟨⟨inflight,read,write,c⟩,?_,?_⟩
  · simp only [RunState.metrics,hinflight,hread,hwrite,hinstrumented.counters]
  · refine ⟨⟨(Nat.le_add_right _ _).trans hblocks.written,
        (Nat.le_add_right _ _).trans hblocks.processed⟩,
      ⟨(Nat.le_add_right _ _).trans hbytes.written,
        (Nat.le_add_right _ _).trans hbytes.processed⟩,
      hshows.within hleases.bounded hpeak,hreadWithin,hwriteWithin,fun hworkers => ?_,
      fun result hdone => ?_⟩
    · rcases quiet_run h hrun hworkers with hclean | ⟨hidle,-⟩
      · obtain ⟨hprocessed,hwritten⟩ := hblocks.exact hclean
        rw [Quantity.load_blocks] at hprocessed hwritten
        have hcarried := s.carried_le_holders
        have hbounded := hleases.bounded
        change (c.tally .blocks).read ≤ (c.tally .blocks).written+call.config.maxInflightBuffers
        omega
      · have hzero : c.readBlocks.value = 0 := hblocks.idle hidle
        simp only [hzero]
        exact Nat.zero_le _
    · have hjoin := (hsound.orderly.finished _ hdone).1
      have hzero : inflight.current = 0 := by
        rw [hshows.1,(hsound.orderly.holders_nil hjoin).2.2]
        rfl
      exact hinstrumented.returned h hs hdone ⟨hzero,hreadZero _ hdone,hwriteZero _ hdone⟩

def growing (s t : RunState σ) : Bool :=
  match s.shared.counters,t.shared.counters with
  | some c,some c' => decide (c.Grows c')
  | _,_ => true

theorem NoOverflow.of_tests {call : RunCall σ} {s₀ : RunState σ} {ts : List Thread}
    (hsize : ∀ offset length data, call.readAt offset length = .ok data → data.length < 2^64)
    (h : call.system.tests growing s₀ ts = true) : NoOverflow call s₀ ts := by
  refine ⟨hsize,fun u t v c c' htakes hstep hc hc' => ?_⟩
  have htested := htakes.tested h hstep
  simp only [growing,hc,hc',decide_eq_true_eq] at htested
  exact htested

def RunCall.timed : RunCall Unit :=
  { RunCall.smallest [1,2,3] with stages := [⟨noOpStage,(),some ⟨0⟩⟩] }

def timedSteps : List Thread := [.caller,.caller,.caller,
  .worker .reader,.worker .reader,.worker .reader,
  .worker .processor,.worker .processor,.worker .processor,
  .worker .writer,.worker .writer,.worker .writer,.worker .writer,
  .worker .reader,.worker .reader,.worker .reader,.worker .reader,
  .worker .processor,.worker .processor,.worker .writer,.caller]

theorem run_metrics_timed : ∃ s₀ s m, RunCall.timed.start = .ok s₀ ∧
    RunCall.timed.system.exec s₀ timedSteps = some s ∧ s.caller = .done (.ok ⟨1,3⟩) ∧
    s.metrics = some m ∧ m.counters.readLatency.value = 2 ∧
    MetricsContract RunCall.timed s₀ timedSteps s m := by
  have hfresh : RunCall.timed.Instruments := by
    refine ⟨rfl,fun entry hentry samples hsamples => ?_⟩
    obtain rfl := List.mem_singleton.mp hentry
    obtain rfl := Option.some.inj hsamples
    rfl
  have hsize : ∀ offset length data, RunCall.timed.readAt offset length = .ok data →
      data.length < 2^64 := by
    intro offset length data hread
    obtain rfl := Except.ok.inj hread
    have hlen : ((([1,2,3] : Bytes).drop offset).take length).length ≤ 3 := by simp
    exact Nat.lt_of_le_of_lt hlen (by decide)
  obtain ⟨m,hm,hcontract⟩ := run_metrics RunCall.timed hfresh rfl
    (rfl : RunCall.timed.system.exec _ timedSteps = some _) (.of_tests hsize rfl)
  exact ⟨_,_,m,rfl,rfl,rfl,hm,by obtain rfl := Option.some.inj hm; rfl,hcontract⟩

end AsyncDataLoader
