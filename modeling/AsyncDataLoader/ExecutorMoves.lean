import AsyncDataLoader.PipelineExecutor

/-!
# What one step of a run can do

One inversion lemma for each thread. The queue operations appear by their effect on the
queued values, so that the invariants of a run never unfold a step.
-/

namespace AsyncDataLoader

open FileIO

variable {σ : Type*}

namespace Shared

@[simp] theorem count_pool (sh : Shared σ) (f : RunCounters → RunCounters) :
    (sh.count f).pool = sh.pool := rfl

@[simp] theorem count_readToProcess (sh : Shared σ) (f : RunCounters → RunCounters) :
    (sh.count f).readToProcess = sh.readToProcess := rfl

@[simp] theorem count_processToWrite (sh : Shared σ) (f : RunCounters → RunCounters) :
    (sh.count f).processToWrite = sh.processToWrite := rfl

@[simp] theorem count_firstFailure (sh : Shared σ) (f : RunCounters → RunCounters) :
    (sh.count f).firstFailure = sh.firstFailure := rfl

@[simp] theorem count_stages (sh : Shared σ) (f : RunCounters → RunCounters) :
    (sh.count f).stages = sh.stages := rfl

@[simp] theorem count_runResult (sh : Shared σ) (f : RunCounters → RunCounters) :
    (sh.count f).runResult = sh.runResult := rfl

@[simp] theorem count_output (sh : Shared σ) (f : RunCounters → RunCounters) :
    (sh.count f).output = sh.output := rfl

end Shared

theorem RunCall.received_ok {k o n buffer bufferSize : ℕ} {item : BlockWorkItem}
    (h : received k o n buffer bufferSize = .ok item) :
    item = ⟨k,o,n,buffer⟩ ∧ 0 < n ∧ n ≤ bufferSize ∧ n ≤ uint64Max-o ∧ k ≠ uint64Max := by
  unfold received checkedAdd BlockWorkItem.make at h
  split at h
  · cases h
  · rename_i sum hsum
    split at hsum
    · cases hsum
    · rename_i hoffset
      simp only at h
      split_ifs at h with hindex hzero hsize
      exact ⟨(Except.ok.inj h).symm,Nat.pos_of_ne_zero hzero,Nat.le_of_not_gt hsize,
        Nat.le_of_not_gt hoffset,hindex⟩

inductive FailMove (sh : Shared σ) : FailAll → Shared σ → Option FailAll → Prop
  | store (failure : Failure) : FailMove sh (.store failure)
      { sh with firstFailure := some (sh.firstFailure.getD failure) }
      (some (.failRead (sh.firstFailure.getD failure)))
  | failRead (canonical : Failure) {pool : AlignedBufferPool}
      (hpool : sh.pool.releaseAll
        ((sh.readToProcess.fail canonical).2.map BlockWorkItem.buffer) = some pool) :
      FailMove sh (.failRead canonical)
        { sh with pool := pool, readToProcess := (sh.readToProcess.fail canonical).1 }
        (some (.failWrite canonical))
  | failWrite (canonical : Failure) {pool : AlignedBufferPool}
      (hpool : sh.pool.releaseAll
        ((sh.processToWrite.fail canonical).2.map BlockWorkItem.buffer) = some pool) :
      FailMove sh (.failWrite canonical)
        { sh with pool := pool, processToWrite := (sh.processToWrite.fail canonical).1 } none

theorem failAll_move {sh sh' : Shared σ} {place : FailAll} {next : Option FailAll}
    (h : sh.failAll place = some (sh',next)) : FailMove sh place sh' next := by
  cases place with
  | store failure =>
    obtain ⟨rfl,rfl⟩ := Prod.mk.inj (Option.some.inj h)
    exact .store failure
  | failRead canonical =>
    obtain ⟨pool,hpool,heq⟩ := Option.map_eq_some_iff.mp h
    obtain ⟨rfl,rfl⟩ := Prod.mk.inj heq
    exact .failRead canonical hpool
  | failWrite canonical =>
    obtain ⟨pool,hpool,heq⟩ := Option.map_eq_some_iff.mp h
    obtain ⟨rfl,rfl⟩ := Prod.mk.inj heq
    exact .failWrite canonical hpool

/-- The reader, with what it shares after its step. -/
inductive ReaderMove (call : RunCall σ) (sh : Shared σ) : Reader → Reader → Shared σ → Prop
  | acquired {k o buffer : ℕ} {pool : AlignedBufferPool}
      (hpool : sh.pool.acquire = some (pool,buffer)) :
      ReaderMove call sh (.acquire k o) (.read k o buffer) { sh with pool := pool }
  | readFailed {k o buffer : ℕ} {failure : Failure}
      (hread : call.readAt o (sh.pool.bytes buffer).length = .error failure) :
      ReaderMove call sh (.read k o buffer) (.unwind buffer failure) (sh.count .timeRead)
  | readEof {k o buffer : ℕ} (hread : call.readAt o (sh.pool.bytes buffer).length = .ok []) :
      ReaderMove call sh (.read k o buffer) (.close buffer) (sh.count .timeRead)
  | rejected {k o buffer : ℕ} {data : Bytes} {failure : Failure}
      (hread : call.readAt o (sh.pool.bytes buffer).length = .ok data) (hdata : data ≠ [])
      (hitem : RunCall.received k o data.length buffer (sh.pool.bytes buffer).length =
        .error failure) :
      ReaderMove call sh (.read k o buffer) (.unwind buffer failure)
        ({ sh.count .timeRead with pool := sh.pool.storeBytes buffer data }.count
          (·.countRead data.length))
  | received {k o buffer : ℕ} {data : Bytes} {item : BlockWorkItem}
      (hread : call.readAt o (sh.pool.bytes buffer).length = .ok data) (hdata : data ≠ [])
      (hitem : RunCall.received k o data.length buffer (sh.pool.bytes buffer).length = .ok item) :
      ReaderMove call sh (.read k o buffer) (.push item)
        ({ sh.count .timeRead with pool := sh.pool.storeBytes buffer data }.count
          (·.countRead data.length))
  | pushed {item : BlockWorkItem} {queue : CheckedQueue BlockWorkItem}
      (hopen : sh.readToProcess.state = .opened)
      (hcontents : queue.contents = sh.readToProcess.contents++[item])
      (hstate : queue.state = .opened) (hcapacity : queue.capacity = sh.readToProcess.capacity) :
      ReaderMove call sh (.push item)
        (.acquire (item.blockIndex+1) (item.fileOffset+item.validBytes))
        { sh with readToProcess := queue }
  | refused {item : BlockWorkItem} {queue : CheckedQueue BlockWorkItem} {failure : Failure}
      (hstate : sh.readToProcess.state = .closed ∨ sh.readToProcess.state = .failed failure)
      (hqueue : queue.toFifo = sh.readToProcess.toFifo) :
      ReaderMove call sh (.push item) (.unwind item.buffer failure)
        { sh with readToProcess := queue }
  | closed {buffer : ℕ} : ReaderMove call sh (.close buffer) (.release buffer)
      { sh with readToProcess := sh.readToProcess.close }
  | released {buffer : ℕ} {pool : AlignedBufferPool} (hpool : sh.pool.release buffer = some pool) :
      ReaderMove call sh (.release buffer) .terminated { sh with pool := pool }
  | unwound {buffer : ℕ} {failure : Failure} {pool : AlignedBufferPool}
      (hpool : sh.pool.release buffer = some pool) :
      ReaderMove call sh (.unwind buffer failure) (.failing (.store failure))
        { sh with pool := pool }
  | failing {place : FailAll} {sh' : Shared σ} {next : Option FailAll}
      (hfail : FailMove sh place sh' next) :
      ReaderMove call sh (.failing place) (next.elim .terminated .failing) sh'

inductive ProcessorMove (sh : Shared σ) : Processor → Processor → Shared σ → Prop
  | popped {item : BlockWorkItem} {queue : CheckedQueue BlockWorkItem}
      (hcontents : sh.readToProcess.contents = item::queue.contents)
      (hstate : queue.state = sh.readToProcess.state)
      (hcapacity : queue.capacity = sh.readToProcess.capacity) :
      ProcessorMove sh .pop (.process item) { sh with readToProcess := queue }
  | ended {queue : CheckedQueue BlockWorkItem} (hstate : sh.readToProcess.state = .closed)
      (hcontents : sh.readToProcess.contents = [])
      (hqueue : queue.toFifo = sh.readToProcess.toFifo) :
      ProcessorMove sh .pop .close { sh with readToProcess := queue }
  | popFailed {queue : CheckedQueue BlockWorkItem} {failure : Failure}
      (hstate : sh.readToProcess.state = .failed failure)
      (hqueue : queue.toFifo = sh.readToProcess.toFifo) :
      ProcessorMove sh .pop (.failing (.store failure)) { sh with readToProcess := queue }
  | stageFailed {item : BlockWorkItem} {failure : Failure}
      (hstage : (Pipeline.process sh.stages (sh.validData item)).failure = some failure) :
      ProcessorMove sh (.process item) (.unwind item.buffer failure)
        ({ sh with
          stages := (Pipeline.process sh.stages (sh.validData item)).stages
          pool := sh.pool.storeBytes item.buffer
            (Pipeline.process sh.stages (sh.validData item)).block }.count .timeProcess)
  | processed {item : BlockWorkItem}
      (hstage : (Pipeline.process sh.stages (sh.validData item)).failure = none) :
      ProcessorMove sh (.process item) (.push item)
        (({ sh with
          stages := (Pipeline.process sh.stages (sh.validData item)).stages
          pool := sh.pool.storeBytes item.buffer
            (Pipeline.process sh.stages (sh.validData item)).block }.count .timeProcess).count
            (·.countProcessed item.validBytes))
  | pushed {item : BlockWorkItem} {queue : CheckedQueue BlockWorkItem}
      (hopen : sh.processToWrite.state = .opened)
      (hcontents : queue.contents = sh.processToWrite.contents++[item])
      (hstate : queue.state = .opened) (hcapacity : queue.capacity = sh.processToWrite.capacity) :
      ProcessorMove sh (.push item) .pop { sh with processToWrite := queue }
  | refused {item : BlockWorkItem} {queue : CheckedQueue BlockWorkItem} {failure : Failure}
      (hstate : sh.processToWrite.state = .closed ∨ sh.processToWrite.state = .failed failure)
      (hqueue : queue.toFifo = sh.processToWrite.toFifo) :
      ProcessorMove sh (.push item) (.unwind item.buffer failure)
        { sh with processToWrite := queue }
  | closed : ProcessorMove sh .close .terminated
      { sh with processToWrite := sh.processToWrite.close }
  | unwound {buffer : ℕ} {failure : Failure} {pool : AlignedBufferPool}
      (hpool : sh.pool.release buffer = some pool) :
      ProcessorMove sh (.unwind buffer failure) (.failing (.store failure))
        { sh with pool := pool }
  | failing {place : FailAll} {sh' : Shared σ} {next : Option FailAll}
      (hfail : FailMove sh place sh' next) :
      ProcessorMove sh (.failing place) (next.elim .terminated .failing) sh'

def Shared.written (sh : Shared σ) (bytes : ℕ) : Shared σ :=
  ({ sh with runResult := ⟨sh.runResult.blocksWritten+1,sh.runResult.bytesWritten+bytes⟩ } :
    Shared σ).count (·.countWritten bytes)

inductive WriterMove (call : RunCall σ) (sh : Shared σ) : Writer → Writer → Shared σ → Prop
  | popped {item : BlockWorkItem} {queue : CheckedQueue BlockWorkItem}
      (hcontents : sh.processToWrite.contents = item::queue.contents)
      (hstate : queue.state = sh.processToWrite.state)
      (hcapacity : queue.capacity = sh.processToWrite.capacity) :
      WriterMove call sh .pop (.write item 0) { sh with processToWrite := queue }
  | ended {queue : CheckedQueue BlockWorkItem} (hstate : sh.processToWrite.state = .closed)
      (hcontents : sh.processToWrite.contents = [])
      (hqueue : queue.toFifo = sh.processToWrite.toFifo) :
      WriterMove call sh .pop .terminated { sh with processToWrite := queue }
  | popFailed {queue : CheckedQueue BlockWorkItem} {failure : Failure}
      (hstate : sh.processToWrite.state = .failed failure)
      (hqueue : queue.toFifo = sh.processToWrite.toFifo) :
      WriterMove call sh .pop (.failing (.store failure)) { sh with processToWrite := queue }
  | wrote {item : BlockWorkItem} {writtenCount : ℕ} {next : WriteProgress}
      (hwrite : writeAttempt call.writeAt (sh.validData item) item.fileOffset
        ⟨writtenCount,sh.output⟩ = .inr next) :
      WriterMove call sh (.write item writtenCount) (.write item next.writtenCount)
        { sh with output := next.file }
  | finished {item : BlockWorkItem} {writtenCount : ℕ} {result : WriteAtResult}
      (hwrite : writeAttempt call.writeAt (sh.validData item) item.fileOffset
        ⟨writtenCount,sh.output⟩ = .inl result)
      (herror : result.errorNumber = 0)
      (hcount : result.bytesWritten = (sh.validData item).length) :
      WriterMove call sh (.write item writtenCount) (.release item.buffer)
        ((sh.count .timeWrite).written (sh.validData item).length)
  | writeFailed {item : BlockWorkItem} {writtenCount : ℕ} {result : WriteAtResult}
      {failure : Failure} {bytesWritten : ℕ}
      (hwrite : writeAttempt call.writeAt (sh.validData item) item.fileOffset
        ⟨writtenCount,sh.output⟩ = .inl result)
      (hcause : result.errorNumber ≠ 0 ∨ result.bytesWritten ≠ (sh.validData item).length ∨
        uint64Max < sh.runResult.bytesWritten+(sh.validData item).length ∨
        uint64Max < sh.runResult.blocksWritten+1) :
      WriterMove call sh (.write item writtenCount) (.unwind item.buffer failure)
        { sh.count .timeWrite with runResult := ⟨sh.runResult.blocksWritten,bytesWritten⟩ }
  | released {buffer : ℕ} {pool : AlignedBufferPool} (hpool : sh.pool.release buffer = some pool) :
      WriterMove call sh (.release buffer) .pop { sh with pool := pool }
  | unwound {buffer : ℕ} {failure : Failure} {pool : AlignedBufferPool}
      (hpool : sh.pool.release buffer = some pool) :
      WriterMove call sh (.unwind buffer failure) (.failing (.store failure))
        { sh with pool := pool }
  | failing {place : FailAll} {sh' : Shared σ} {next : Option FailAll}
      (hfail : FailMove sh place sh' next) :
      WriterMove call sh (.failing place) (next.elim .terminated .failing) sh'

def Caller.starting : Worker → Caller
  | .writer => .startWriter
  | .processor => .startProcessor
  | .reader => .startReader

inductive CallerMove (call : RunCall σ) (s : RunState σ) : RunState σ → Prop
  | writerStarted (hcaller : s.caller = .startWriter) (hstart : call.startThread .writer = none) :
      CallerMove call s { s with caller := .startProcessor, writer := .pop }
  | processorStarted (hcaller : s.caller = .startProcessor)
      (hstart : call.startThread .processor = none) :
      CallerMove call s { s with caller := .startReader, processor := .pop }
  | readerStarted (hcaller : s.caller = .startReader) (hstart : call.startThread .reader = none) :
      CallerMove call s { s with caller := .join, reader := .acquire 0 0 }
  | startFailed {w : Worker} {failure : Failure} (hcaller : s.caller = .starting w)
      (hstart : call.startThread w = some failure) :
      CallerMove call s { s with caller := .failing (.store failure) }
  | failing {place : FailAll} {sh' : Shared σ} {next : Option FailAll}
      (hcaller : s.caller = .failing place) (hfail : FailMove s.shared place sh' next) :
      CallerMove call s { s with caller := next.elim .join .failing, shared := sh' }
  | joined (hcaller : s.caller = .join) (hjoin : RunCall.Joinable s) :
      CallerMove call s { s with caller := .done (RunCall.outcome s.shared) }

namespace RunCall

variable {call : RunCall σ} {s s' : RunState σ}

theorem readerStep_move {sh sh' : Shared σ} {r r' : Reader}
    (h : call.readerStep sh r = some (r',sh')) : ReaderMove call sh r r' sh' := by
  cases r with
  | notStarted => cases h
  | terminated => cases h
  | acquire k o =>
    obtain ⟨⟨pool,buffer⟩,hpool,heq⟩ := Option.map_eq_some_iff.mp h
    obtain ⟨rfl,rfl⟩ := Prod.mk.inj heq
    exact .acquired hpool
  | read k o buffer =>
    simp only [readerStep] at h
    split at h
    · rename_i failure hread
      obtain ⟨rfl,rfl⟩ := Prod.mk.inj (Option.some.inj h)
      exact .readFailed hread
    · rename_i hread
      obtain ⟨rfl,rfl⟩ := Prod.mk.inj (Option.some.inj h)
      exact .readEof hread
    · rename_i data hdata hread
      split at h
      · rename_i failure hitem
        obtain ⟨rfl,rfl⟩ := Prod.mk.inj (Option.some.inj h)
        exact .rejected hread (fun hnil => hdata hnil) hitem
      · rename_i item hitem
        obtain ⟨rfl,rfl⟩ := Prod.mk.inj (Option.some.inj h)
        exact .received hread (fun hnil => hdata hnil) hitem
  | push item =>
    obtain ⟨⟨queue,r⟩,hpush,heq⟩ := Option.map_eq_some_iff.mp h
    rcases CheckedQueue.push_cases hpush with
      ⟨rfl,hopen,hcontents,hstate,hcap⟩ | ⟨rfl,hstate,hqueue⟩ | ⟨failure,rfl,hstate,hqueue⟩
    · obtain ⟨rfl,rfl⟩ := Prod.mk.inj heq
      exact .pushed hopen hcontents hstate hcap
    · obtain ⟨rfl,rfl⟩ := Prod.mk.inj heq
      exact .refused (.inl hstate) hqueue
    · obtain ⟨rfl,rfl⟩ := Prod.mk.inj heq
      exact .refused (.inr hstate) hqueue
  | close buffer =>
    obtain ⟨rfl,rfl⟩ := Prod.mk.inj (Option.some.inj h)
    exact .closed
  | release buffer =>
    obtain ⟨pool,hpool,heq⟩ := Option.map_eq_some_iff.mp h
    obtain ⟨rfl,rfl⟩ := Prod.mk.inj heq
    exact .released hpool
  | unwind buffer failure =>
    obtain ⟨pool,hpool,heq⟩ := Option.map_eq_some_iff.mp h
    obtain ⟨rfl,rfl⟩ := Prod.mk.inj heq
    exact .unwound hpool
  | failing place =>
    obtain ⟨⟨sh'',next⟩,hfail,heq⟩ := Option.map_eq_some_iff.mp h
    obtain ⟨rfl,rfl⟩ := Prod.mk.inj heq
    exact .failing (failAll_move hfail)

theorem processorStep_move {sh sh' : Shared σ} {p p' : Processor}
    (h : processorStep sh p = some (p',sh')) : ProcessorMove sh p p' sh' := by
  cases p with
  | notStarted => cases h
  | terminated => cases h
  | pop =>
    obtain ⟨⟨queue,r⟩,hpop,heq⟩ := Option.map_eq_some_iff.mp h
    rcases CheckedQueue.pop_cases hpop with
      ⟨item,rfl,hcontents,hstate,hcap⟩ | ⟨rfl,hstate,hcontents,hqueue⟩ |
        ⟨failure,rfl,hstate,hqueue⟩
    · obtain ⟨rfl,rfl⟩ := Prod.mk.inj heq
      exact .popped hcontents hstate hcap
    · obtain ⟨rfl,rfl⟩ := Prod.mk.inj heq
      exact .ended hstate hcontents hqueue
    · obtain ⟨rfl,rfl⟩ := Prod.mk.inj heq
      exact .popFailed hstate hqueue
  | process item =>
    simp only [processorStep] at h
    split at h
    · rename_i failure hstage
      obtain ⟨rfl,rfl⟩ := Prod.mk.inj (Option.some.inj h)
      exact .stageFailed hstage
    · rename_i hstage
      obtain ⟨rfl,rfl⟩ := Prod.mk.inj (Option.some.inj h)
      exact .processed hstage
  | push item =>
    obtain ⟨⟨queue,r⟩,hpush,heq⟩ := Option.map_eq_some_iff.mp h
    rcases CheckedQueue.push_cases hpush with
      ⟨rfl,hopen,hcontents,hstate,hcap⟩ | ⟨rfl,hstate,hqueue⟩ | ⟨failure,rfl,hstate,hqueue⟩
    · obtain ⟨rfl,rfl⟩ := Prod.mk.inj heq
      exact .pushed hopen hcontents hstate hcap
    · obtain ⟨rfl,rfl⟩ := Prod.mk.inj heq
      exact .refused (.inl hstate) hqueue
    · obtain ⟨rfl,rfl⟩ := Prod.mk.inj heq
      exact .refused (.inr hstate) hqueue
  | close =>
    obtain ⟨rfl,rfl⟩ := Prod.mk.inj (Option.some.inj h)
    exact .closed
  | unwind buffer failure =>
    obtain ⟨pool,hpool,heq⟩ := Option.map_eq_some_iff.mp h
    obtain ⟨rfl,rfl⟩ := Prod.mk.inj heq
    exact .unwound hpool
  | failing place =>
    obtain ⟨⟨sh'',next⟩,hfail,heq⟩ := Option.map_eq_some_iff.mp h
    obtain ⟨rfl,rfl⟩ := Prod.mk.inj heq
    exact .failing (failAll_move hfail)

theorem writeReturned_move {sh sh' : Shared σ} {item : BlockWorkItem} {writtenCount : ℕ}
    {result : WriteAtResult} {w' : Writer}
    (hwrite : writeAttempt call.writeAt (sh.validData item) item.fileOffset
      ⟨writtenCount,sh.output⟩ = .inl result)
    (h : writeReturned (sh.count .timeWrite) item (sh.validData item).length result = (w',sh')) :
    WriterMove call sh (.write item writtenCount) w' sh' := by
  unfold writeReturned at h
  split at h
  · rename_i herror
    obtain ⟨rfl,rfl⟩ := Prod.mk.inj h
    exact .writeFailed hwrite (.inl herror)
  · rename_i herror
    split at h
    · rename_i hcount
      obtain ⟨rfl,rfl⟩ := Prod.mk.inj h
      exact .writeFailed hwrite (.inr (.inl hcount))
    · rename_i hcount
      simp only [Shared.count_runResult] at h
      split at h
      · rename_i failure hbytes
        obtain ⟨rfl,rfl⟩ := Prod.mk.inj h
        exact .writeFailed hwrite (.inr (.inr (.inl (checkedAdd_error hbytes))))
      · rename_i bytesWritten hbytes
        split at h
        · rename_i failure hblocks
          obtain ⟨rfl,rfl⟩ := Prod.mk.inj h
          exact .writeFailed hwrite (.inr (.inr (.inr (checkedAdd_error hblocks))))
        · rename_i blocksWritten hblocks
          obtain ⟨rfl,rfl⟩ := Prod.mk.inj h
          obtain rfl := checkedAdd_ok hbytes
          obtain rfl := checkedAdd_ok hblocks
          exact .finished hwrite (not_not.mp herror) (not_not.mp hcount)

theorem writerStep_move {sh sh' : Shared σ} {w w' : Writer}
    (h : call.writerStep sh w = some (w',sh')) : WriterMove call sh w w' sh' := by
  cases w with
  | notStarted => cases h
  | terminated => cases h
  | pop =>
    obtain ⟨⟨queue,r⟩,hpop,heq⟩ := Option.map_eq_some_iff.mp h
    rcases CheckedQueue.pop_cases hpop with
      ⟨item,rfl,hcontents,hstate,hcap⟩ | ⟨rfl,hstate,hcontents,hqueue⟩ |
        ⟨failure,rfl,hstate,hqueue⟩
    · obtain ⟨rfl,rfl⟩ := Prod.mk.inj heq
      exact .popped hcontents hstate hcap
    · obtain ⟨rfl,rfl⟩ := Prod.mk.inj heq
      exact .ended hstate hcontents hqueue
    · obtain ⟨rfl,rfl⟩ := Prod.mk.inj heq
      exact .popFailed hstate hqueue
  | write item writtenCount =>
    simp only [writerStep] at h
    split at h
    · rename_i next hwrite
      obtain ⟨rfl,rfl⟩ := Prod.mk.inj (Option.some.inj h)
      exact .wrote hwrite
    · rename_i result hwrite
      exact writeReturned_move hwrite (Option.some.inj h)
  | release buffer =>
    obtain ⟨pool,hpool,heq⟩ := Option.map_eq_some_iff.mp h
    obtain ⟨rfl,rfl⟩ := Prod.mk.inj heq
    exact .released hpool
  | unwind buffer failure =>
    obtain ⟨pool,hpool,heq⟩ := Option.map_eq_some_iff.mp h
    obtain ⟨rfl,rfl⟩ := Prod.mk.inj heq
    exact .unwound hpool
  | failing place =>
    obtain ⟨⟨sh'',next⟩,hfail,heq⟩ := Option.map_eq_some_iff.mp h
    obtain ⟨rfl,rfl⟩ := Prod.mk.inj heq
    exact .failing (failAll_move hfail)

theorem callerStep_move (h : call.callerStep s = some s') : CallerMove call s s' := by
  cases hcaller : s.caller with
  | startWriter =>
    simp only [callerStep,hcaller] at h
    split at h
    · rename_i failure hstart
      obtain rfl := Option.some.inj h
      exact @CallerMove.startFailed _ _ _ .writer _ hcaller hstart
    · rename_i hstart
      obtain rfl := Option.some.inj h
      exact .writerStarted hcaller hstart
  | startProcessor =>
    simp only [callerStep,hcaller] at h
    split at h
    · rename_i failure hstart
      obtain rfl := Option.some.inj h
      exact @CallerMove.startFailed _ _ _ .processor _ hcaller hstart
    · rename_i hstart
      obtain rfl := Option.some.inj h
      exact .processorStarted hcaller hstart
  | startReader =>
    simp only [callerStep,hcaller] at h
    split at h
    · rename_i failure hstart
      obtain rfl := Option.some.inj h
      exact @CallerMove.startFailed _ _ _ .reader _ hcaller hstart
    · rename_i hstart
      obtain rfl := Option.some.inj h
      exact .readerStarted hcaller hstart
  | failing place =>
    simp only [callerStep,hcaller] at h
    obtain ⟨⟨sh',next⟩,hfail,heq⟩ := Option.map_eq_some_iff.mp h
    obtain rfl := heq
    exact .failing hcaller (failAll_move hfail)
  | join =>
    simp only [callerStep,hcaller] at h
    split at h
    · rename_i hjoin
      obtain rfl := Option.some.inj h
      exact .joined hcaller hjoin
    · cases h
  | done outcome =>
    simp only [callerStep,hcaller] at h
    cases h

theorem step_cases {t : Thread} (h : call.system.step t s = some s') :
    (∃ r sh, ReaderMove call s.shared s.reader r sh ∧ s' = { s with reader := r, shared := sh }) ∨
    (∃ p sh, ProcessorMove s.shared s.processor p sh ∧
      s' = { s with processor := p, shared := sh }) ∨
    (∃ w sh, WriterMove call s.shared s.writer w sh ∧ s' = { s with writer := w, shared := sh }) ∨
    CallerMove call s s' := by
  cases t with
  | worker w =>
    cases w with
    | reader =>
      obtain ⟨⟨r,sh⟩,hstep,rfl⟩ := Option.map_eq_some_iff.mp h
      exact .inl ⟨r,sh,readerStep_move hstep,rfl⟩
    | processor =>
      obtain ⟨⟨p,sh⟩,hstep,rfl⟩ := Option.map_eq_some_iff.mp h
      exact .inr (.inl ⟨p,sh,processorStep_move hstep,rfl⟩)
    | writer =>
      obtain ⟨⟨w,sh⟩,hstep,rfl⟩ := Option.map_eq_some_iff.mp h
      exact .inr (.inr (.inl ⟨w,sh,writerStep_move hstep,rfl⟩))
  | caller => exact .inr (.inr (.inr (callerStep_move h)))

end RunCall
end AsyncDataLoader
