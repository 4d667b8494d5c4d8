import AsyncDataLoader.Progress

/-!
# Every run ends

The work that is left, as a number: the part of the offset range that the reader has not
covered yet, the blocks on their way weighted by the place they have reached, and the
control steps to the end of each thread. Every step lowers it.
-/

namespace AsyncDataLoader

open FileIO

variable {σ : Type*}

def FailAll.work : FailAll → ℕ
  | .store _ => 3
  | .failRead _ => 2
  | .failWrite _ => 1

/-- A block of `n` bytes takes at most `n` writes, and a constant number of other steps. -/
def BlockWorkItem.work (item : BlockWorkItem) : ℕ := item.validBytes

def Reader.work : Reader → ℕ
  | .notStarted => 10*2^64+6
  | .acquire _ fileOffset => 10*(2^64-fileOffset)+6
  | .read _ fileOffset _ => 10*(2^64-fileOffset)+5
  | .push item => 10*(2^64-(item.fileOffset+item.validBytes))+item.work+13
  | .close _ => 2
  | .release _ => 1
  | .unwind _ _ => 4
  | .failing place => place.work
  | .terminated => 0

def Processor.work : Processor → ℕ
  | .notStarted => 6
  | .pop => 6
  | .process item => item.work+11
  | .push item => item.work+10
  | .close => 1
  | .unwind _ _ => 4
  | .failing place => place.work
  | .terminated => 0

def Writer.work : Writer → ℕ
  | .notStarted => 5
  | .pop => 5
  | .write item writtenCount => item.work-writtenCount+7
  | .release _ => 6
  | .unwind _ _ => 4
  | .failing place => place.work
  | .terminated => 0

def Caller.work : Caller → ℕ
  | .startWriter => 7
  | .startProcessor => 6
  | .startReader => 5
  | .failing place => place.work+1
  | .join => 1
  | .done _ => 0

def CheckedQueue.work (q : CheckedQueue BlockWorkItem) (steps : ℕ) : ℕ :=
  (q.contents.map fun item => item.work+steps).sum

def Shared.work (sh : Shared σ) : ℕ := sh.readToProcess.work 6+sh.processToWrite.work 3

def RunState.work (s : RunState σ) : ℕ :=
  s.reader.work+s.processor.work+s.writer.work+s.caller.work+s.shared.work

theorem CheckedQueue.work_of_toFifo {q r : CheckedQueue BlockWorkItem} (h : q.toFifo = r.toFifo)
    (steps : ℕ) : q.work steps = r.work steps := by
  rw [work,work,contents_of_toFifo h]

theorem CheckedQueue.work_push {q r : CheckedQueue BlockWorkItem} {item : BlockWorkItem}
    (h : r.contents = q.contents++[item]) (steps : ℕ) :
    r.work steps = q.work steps+(item.work+steps) := by
  simp [work,h]

theorem CheckedQueue.work_pop {q r : CheckedQueue BlockWorkItem} {item : BlockWorkItem}
    (h : q.contents = item::r.contents) (steps : ℕ) :
    q.work steps = item.work+steps+r.work steps := by
  simp [work,h]

theorem CheckedQueue.work_close (q : CheckedQueue BlockWorkItem) (steps : ℕ) :
    q.close.work steps = q.work steps := by
  rw [work,close_contents,work]

theorem CheckedQueue.work_fail (q : CheckedQueue BlockWorkItem) (failure : Failure) (steps : ℕ) :
    (q.fail failure).1.work steps = 0 := by
  obtain ⟨first,hfirst⟩ := q.fail_state_failed failure
  rw [work,contents_of_failed _ hfirst]
  rfl

theorem FailMove.work_lt {sh sh' : Shared σ} {place : FailAll} {next : Option FailAll}
    (h : FailMove sh place sh' next) :
    next.elim 0 FailAll.work < place.work ∧ sh'.work ≤ sh.work := by
  cases h with
  | store failure => exact ⟨by simp [FailAll.work],le_refl _⟩
  | failRead canonical hpool =>
    refine ⟨by simp [FailAll.work],?_⟩
    simp only [Shared.work,CheckedQueue.work_fail]
    omega
  | failWrite canonical hpool =>
    refine ⟨by simp [FailAll.work],?_⟩
    simp only [Shared.work,CheckedQueue.work_fail]
    omega

theorem ReaderMove.work_lt {call : RunCall σ} {sh sh' : Shared σ} {r r' : Reader}
    (h : ReaderMove call sh r r' sh') : r'.work+sh'.work < r.work+sh.work := by
  cases h with
  | @failing place sh' next hfail =>
    obtain ⟨hplace,hshared⟩ := hfail.work_lt
    cases next with
    | none => simp only [Option.elim,Reader.work] at *; omega
    | some next => simp only [Option.elim,Reader.work] at *; omega
  | acquired | readFailed | readEof | rejected =>
    simp only [Reader.work,Shared.work,Shared.count_readToProcess,Shared.count_processToWrite]
    omega
  | received hread hdata hitem =>
    obtain ⟨rfl,hpos,-,hoffset,-⟩ := RunCall.received_ok hitem
    simp only [Reader.work,Shared.work,Shared.count_readToProcess,Shared.count_processToWrite,
      BlockWorkItem.work,uint64Max] at *
    omega
  | @pushed item queue hopen hcontents hstate hcapacity =>
    have hwork := CheckedQueue.work_push hcontents 6
    simp only [Reader.work,Shared.work,hwork]
    omega
  | refused hstate hqueue =>
    have hwork := CheckedQueue.work_of_toFifo hqueue 6
    simp only [Reader.work,Shared.work,hwork]
    omega
  | closed =>
    simp only [Reader.work,Shared.work,CheckedQueue.work_close]
    omega
  | released | unwound =>
    simp only [Reader.work,Shared.work,FailAll.work]
    omega

theorem ProcessorMove.work_lt {sh sh' : Shared σ} {p p' : Processor}
    (h : ProcessorMove sh p p' sh') : p'.work+sh'.work < p.work+sh.work := by
  cases h with
  | @failing place sh' next hfail =>
    obtain ⟨hplace,hshared⟩ := hfail.work_lt
    cases next with
    | none => simp only [Option.elim,Processor.work] at *; omega
    | some next => simp only [Option.elim,Processor.work] at *; omega
  | popped hcontents hstate hcapacity =>
    have hwork := CheckedQueue.work_pop hcontents 6
    simp only [Processor.work,Shared.work,hwork]
    omega
  | ended hstate hcontents hqueue =>
    have hwork := CheckedQueue.work_of_toFifo hqueue 6
    simp only [Processor.work,Shared.work,hwork]
    omega
  | popFailed hstate hqueue =>
    have hwork := CheckedQueue.work_of_toFifo hqueue 6
    simp only [Processor.work,Shared.work,hwork,FailAll.work]
    omega
  | stageFailed | processed =>
    simp only [Processor.work,Shared.work,Shared.count_readToProcess,Shared.count_processToWrite]
    omega
  | @pushed item queue hopen hcontents hstate hcapacity =>
    have hwork := CheckedQueue.work_push hcontents 3
    simp only [Processor.work,Shared.work,hwork]
    omega
  | refused hstate hqueue =>
    have hwork := CheckedQueue.work_of_toFifo hqueue 3
    simp only [Processor.work,Shared.work,hwork]
    omega
  | closed =>
    simp only [Processor.work,Shared.work,CheckedQueue.work_close]
    omega
  | unwound =>
    simp only [Processor.work,Shared.work,FailAll.work]
    omega

theorem WriterMove.work_lt {call : RunCall σ} {sh sh' : Shared σ} {w w' : Writer}
    (h : WriterMove call sh w w' sh') : w'.work+sh'.work < w.work+sh.work := by
  cases h with
  | @failing place sh' next hfail =>
    obtain ⟨hplace,hshared⟩ := hfail.work_lt
    cases next with
    | none => simp only [Option.elim,Writer.work] at *; omega
    | some next => simp only [Option.elim,Writer.work] at *; omega
  | popped hcontents hstate hcapacity =>
    have hwork := CheckedQueue.work_pop hcontents 3
    simp only [Writer.work,Shared.work,hwork]
    omega
  | ended hstate hcontents hqueue =>
    have hwork := CheckedQueue.work_of_toFifo hqueue 3
    simp only [Writer.work,Shared.work,hwork]
    omega
  | popFailed hstate hqueue =>
    have hwork := CheckedQueue.work_of_toFifo hqueue 3
    simp only [Writer.work,Shared.work,hwork,FailAll.work]
    omega
  | @wrote item writtenCount next hwrite =>
    obtain ⟨hlt,hprogress⟩ := writeAttempt_progress hwrite
    have hvalid : (sh.validData item).length ≤ item.validBytes := by
      simp only [Shared.validData,List.length_take]
      omega
    simp only [Writer.work,Shared.work,BlockWorkItem.work]
    simp only at hlt hprogress
    omega
  | finished | writeFailed =>
    simp only [Writer.work,Shared.work,Shared.written,Shared.count_readToProcess,
      Shared.count_processToWrite]
    omega
  | released | unwound =>
    simp only [Writer.work,Shared.work,FailAll.work]
    omega

theorem CallerMove.work_lt {call : RunCall σ} {s s' : RunState σ} (hs : s.Orderly)
    (h : CallerMove call s s') : s'.work < s.work := by
  cases h with
  | writerStarted hcaller hstart =>
    have hw := hs.writerWaits hcaller
    simp only [RunState.work,hcaller,hw,Caller.work,Writer.work]
    omega
  | processorStarted hcaller hstart =>
    have hp := hs.processorWaits (.inr hcaller)
    simp only [RunState.work,hcaller,hp,Caller.work,Processor.work]
    omega
  | readerStarted hcaller hstart =>
    have hr := hs.readerWaits (by rw [hcaller]; trivial)
    simp only [RunState.work,hcaller,hr,Caller.work,Reader.work]
    omega
  | @startFailed w failure hcaller hstart =>
    cases w <;> simp only [RunState.work,hcaller,Caller.starting,Caller.work,FailAll.work] <;> omega
  | @failing place sh next hcaller hfail =>
    obtain ⟨hplace,hshared⟩ := hfail.work_lt
    cases next with
    | none => simp only [Option.elim,RunState.work,hcaller,Caller.work] at *; omega
    | some next => simp only [Option.elim,RunState.work,hcaller,Caller.work] at *; omega
  | joined hcaller hjoin =>
    simp only [RunState.work,hcaller,Caller.work]
    omega

/-- Every step of every thread leaves less work. -/
theorem work_step {call : RunCall σ} {s s' : RunState σ} {t : Thread} (hs : s.Orderly)
    (h : call.system.step t s = some s') : s'.work < s.work := by
  rcases RunCall.step_cases h with ⟨r,sh,hmove,rfl⟩ | ⟨p,sh,hmove,rfl⟩ | ⟨w,sh,hmove,rfl⟩ | hmove
  · have hlt := hmove.work_lt
    simp only [RunState.work]
    omega
  · have hlt := hmove.work_lt
    simp only [RunState.work]
    omega
  · have hlt := hmove.work_lt
    simp only [RunState.work]
    omega
  · exact hmove.work_lt hs

theorem reader_of_other {call : RunCall σ} {s s' : RunState σ} {t : Thread}
    (ht : t ≠ .worker .reader) (hs : s.reader ≠ .notStarted) (ho : s.Orderly)
    (h : call.system.step t s = some s') : s'.reader = s.reader := by
  cases t with
  | worker w =>
    cases w with
    | reader => exact absurd rfl ht
    | processor =>
      obtain ⟨r,-,rfl⟩ := Option.map_eq_some_iff.mp h
      rfl
    | writer =>
      obtain ⟨r,-,rfl⟩ := Option.map_eq_some_iff.mp h
      rfl
  | caller =>
    have hmove := RunCall.callerStep_move h
    cases hmove with
    | readerStarted hcaller hstart =>
      exact absurd (ho.readerWaits (by rw [hcaller]; trivial)) hs
    | _ => rfl

theorem reader_started {call : RunCall σ} {s s' : RunState σ} {t : Thread}
    (hs : s.Agrees ∧ s.Orderly) (hr : s.reader ≠ .notStarted)
    (h : call.system.step t s = some s') : s'.reader ≠ .notStarted := by
  by_cases ht : t = .worker .reader
  · subst ht
    obtain ⟨⟨r,sh⟩,hstep,rfl⟩ := Option.map_eq_some_iff.mp h
    have hplaces : ∀ place ∈ s.reader.places, s.shared.Canonical place := fun place hp =>
      hs.1.places place (by simp [RunState.places,hp])
    exact ((RunCall.readerStep_move hstep).queues hplaces).2.2.1
  · rw [reader_of_other ht hr hs.2 h]
    exact hr

theorem no_infinite_run {call : RunCall σ} {s₀ : RunState σ} (h : call.start = .ok s₀)
    (run : ℕ → RunState σ) : ¬ call.system.InfiniteRun s₀ run :=
  TransitionSystem.not_infiniteRun
    (fun _ _ _ hs hstep => work_step (reachable_sound h hs).orderly hstep) run

theorem run_ends {call : RunCall σ} {s₀ : RunState σ} (h : call.start = .ok s₀) :
    (∀ s, call.system.Reachable s₀ s → ∃ t, call.system.Reachable s t ∧ call.system.Stuck t) ∧
    ∀ s, call.system.Reachable s₀ s → call.system.Stuck s → ∃ outcome, s.caller = .done outcome :=
  ⟨fun _ hs => TransitionSystem.exists_stuck
      (fun _ _ _ hu hstep => work_step (reachable_sound h hu).orderly hstep) hs,
    fun _ hs => stuck_done (reachable_sound h hs)⟩

/-- Progress of all runs of `run`: the workers cannot wait for each other for ever. -/
structure ProgressContract (call : RunCall σ) (s₀ : RunState σ) : Prop where
  worker_enabled : ∀ s, call.system.Reachable s₀ s → ¬ RunCall.Joinable s →
    ¬ s.caller.BeforeReader → ∃ w, call.system.step (.worker w) s ≠ none
  caller_enabled : ∀ s, call.system.Reachable s₀ s → s.caller.BeforeReader →
    call.system.step .caller s ≠ none
  no_infinite_run : ∀ run, ¬ call.system.InfiniteRun s₀ run
  ends : ∀ s, call.system.Reachable s₀ s →
    ∃ t, call.system.Reachable s t ∧ call.system.Stuck t
  stuck_done : ∀ s, call.system.Reachable s₀ s → call.system.Stuck s →
    ∃ outcome, s.caller = .done outcome
  reader_released : ∀ s ts t, call.system.Reachable s₀ s →
    (∃ blockIndex fileOffset, s.reader = .acquire blockIndex fileOffset) →
    call.system.exec s ts = some t → call.system.Stuck t →
      t.reader = .terminated ∧ .worker .reader ∈ ts

theorem run_progresses (call : RunCall σ) {s₀ : RunState σ} (h : call.start = .ok s₀) :
    ProgressContract call s₀ := by
  refine ⟨fun s hs hjoin hcaller => ?_,fun s hs => caller_enabled (reachable_sound h hs),
    no_infinite_run h,(run_ends h).1,(run_ends h).2,fun s ts t hs hreader hrun hstuck => ?_⟩
  · have hsound := reachable_sound h hs
    cases hc : s.caller with
    | join => exact worker_enabled hsound hc hjoin
    | done outcome => exact absurd (hsound.orderly.finished outcome hc).1 hjoin
    | startWriter | startProcessor | startReader | failing =>
      rw [hc] at hcaller
      exact absurd trivial hcaller
  · obtain ⟨k,o,hacquire⟩ := hreader
    have ht := reachable_sound h (hs.trans ⟨ts,hrun⟩)
    obtain ⟨outcome,hdone⟩ := stuck_done ht hstuck
    have hsound : s.Sound call := reachable_sound h hs
    have hstart : s.reader ≠ .notStarted := by simp [hacquire]
    have hstarted : t.reader ≠ .notStarted ∧ t.Sound call :=
      @TransitionSystem.Reachable.invariant _ _ call.system
        (fun u => u.reader ≠ .notStarted ∧ u.Sound call)
        (fun _ _ _ hu hstep => ⟨reader_started ⟨hu.2.agrees,hu.2.orderly⟩ hu.1 hstep,
          sound_step hu.2 hstep⟩) _ _ ⟨hstart,hsound⟩ ⟨ts,hrun⟩
    have hterm : t.reader = .terminated := by
      rcases (ht.orderly.finished outcome hdone).1.1 with hidle | hterm
      · exact absurd hidle hstarted.1
      · exact hterm
    refine ⟨hterm,?_⟩
    by_contra hnot
    have hkept : t.reader = s.reader ∧ t.Sound call :=
      @TransitionSystem.exec_invariant _ _ call.system (fun l => l ≠ .worker .reader)
        (fun u => u.reader = s.reader ∧ u.Sound call)
        (fun l u v hl hu hstep =>
          ⟨(reader_of_other hl (by rw [hu.1]; exact hstart) hu.2.orderly hstep).trans hu.1,
            sound_step hu.2 hstep⟩) _ _ ts
        (fun l hl heq => hnot (heq ▸ hl)) ⟨rfl,hsound⟩ hrun
    rw [hterm,hacquire] at hkept
    cases hkept.1

theorem run_progresses_smallest : ∃ s₀, (RunCall.smallest [1,2,3]).start = .ok s₀ ∧
    ProgressContract (RunCall.smallest [1,2,3]) s₀ :=
  ⟨_,rfl,run_progresses _ rfl⟩

/-- While `run` has not yet told the queues that the reader could not be started, two
started workers wait and no worker has a step. -/
theorem workers_wait_for_caller : ∃ s₀ s, RunCall.withoutReader.start = .ok s₀ ∧
    RunCall.withoutReader.system.exec s₀ [.caller,.caller,.caller] = some s ∧
    s.writer = .pop ∧ s.processor = .pop ∧
    ∀ w, RunCall.withoutReader.system.step (.worker w) s = none :=
  ⟨_,_,rfl,rfl,rfl,rfl,fun w => by cases w <;> rfl⟩

end AsyncDataLoader
