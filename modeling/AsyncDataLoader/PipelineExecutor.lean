import AsyncDataLoader.TransitionSystem
import AsyncDataLoader.CheckedQueue
import AsyncDataLoader.AlignedBufferPool
import AsyncDataLoader.Stage

/-!
# The pipeline executor

`PipelineExecutor::run` and its three worker loops as one transition system. A thread is
the place where it stands in its loop, with its local variables. A step of a thread runs
to its next critical section, system call or stage call; a step that would wait is not
enabled, and neither is one whose assertion fails.
-/

namespace AsyncDataLoader

open FileIO

/-- One block on its way through the pipeline; `buffer` is the lease it owns. -/
structure BlockWorkItem where
  blockIndex : ℕ
  fileOffset : ℕ
  validBytes : ℕ
  buffer : ℕ
  deriving DecidableEq, Repr

instance : SlotSize BlockWorkItem := ⟨48⟩

/-- The constructor; a moved-from handle is `none`. -/
def BlockWorkItem.make (blockIndex fileOffset validBytes : ℕ) (buffer : Option ℕ)
    (bufferSize : ℕ) : Except Failure BlockWorkItem :=
  match buffer with
  | none => .error (.invalidArgument "BlockWorkItem requires a valid BufferHandle")
  | some index =>
    if validBytes = 0 then
      .error (.invalidArgument "BlockWorkItem valid_bytes must be greater than zero")
    else if validBytes > bufferSize then
      .error (.invalidArgument "BlockWorkItem valid_bytes exceeds buffer capacity")
    else .ok ⟨blockIndex,fileOffset,validBytes,index⟩

structure PipelineRunResult where
  blocksWritten : ℕ
  bytesWritten : ℕ
  deriving DecidableEq, Repr

/-- The counters of a run, and the number of samples of its latency histograms. -/
structure RunCounters where
  readBlocks : Counter
  readBytes : Counter
  processedBlocks : Counter
  processedBytes : Counter
  writtenBlocks : Counter
  writtenBytes : Counter
  readLatency : Counter
  processLatency : Counter
  writeLatency : Counter
  deriving DecidableEq, Repr

namespace RunCounters

def timeRead (c : RunCounters) : RunCounters := { c with readLatency := c.readLatency.increment 1 }

def timeProcess (c : RunCounters) : RunCounters :=
  { c with processLatency := c.processLatency.increment 1 }

def timeWrite (c : RunCounters) : RunCounters :=
  { c with writeLatency := c.writeLatency.increment 1 }

def countRead (c : RunCounters) (bytes : ℕ) : RunCounters :=
  { c with readBlocks := c.readBlocks.increment 1, readBytes := c.readBytes.increment bytes }

def countProcessed (c : RunCounters) (bytes : ℕ) : RunCounters :=
  { c with
    processedBlocks := c.processedBlocks.increment 1
    processedBytes := c.processedBytes.increment bytes }

def countWritten (c : RunCounters) (bytes : ℕ) : RunCounters :=
  { c with
    writtenBlocks := c.writtenBlocks.increment 1
    writtenBytes := c.writtenBytes.increment bytes }

end RunCounters

structure RuntimeMetrics where
  inflightBuffers : Gauge
  readProcessQueueDepth : Gauge
  processWriteQueueDepth : Gauge
  counters : RunCounters
  deriving DecidableEq, Repr

inductive Worker
  | reader
  | processor
  | writer
  deriving DecidableEq, Repr

/-- An executor, the arguments of its `run`, and what the world outside answers: the bytes
that the backend delivers for an offset and a length, the results of `pwrite` at an offset
and a length, and the exceptions of the thread constructors. No offset is read twice. -/
structure RunCall (σ : Type*) where
  config : PipelineConfig
  stages : List (StageEntry σ)
  metrics : Option RuntimeMetrics
  started : Bool
  inputFd : ℤ
  outputFd : ℤ
  memory : ℕ → ℕ → UInt8
  readAt : ℕ → ℕ → Except Failure Bytes
  writeAt : ℕ → ℕ → SyscallScript
  startThread : Worker → Option Failure

/-- Where a thread stands in `fail_all`. -/
inductive FailAll
  | store (failure : Failure)
  | failRead (canonical : Failure)
  | failWrite (canonical : Failure)
  deriving DecidableEq, Repr

/-- Where the reader stands; `unwind` destroys its handle before the exception is caught. -/
inductive Reader
  | notStarted
  | acquire (blockIndex fileOffset : ℕ)
  | read (blockIndex fileOffset buffer : ℕ)
  | push (item : BlockWorkItem)
  | close (buffer : ℕ)
  | release (buffer : ℕ)
  | unwind (buffer : ℕ) (failure : Failure)
  | failing (place : FailAll)
  | terminated
  deriving DecidableEq, Repr

inductive Processor
  | notStarted
  | pop
  | process (item : BlockWorkItem)
  | push (item : BlockWorkItem)
  | close
  | unwind (buffer : ℕ) (failure : Failure)
  | failing (place : FailAll)
  | terminated
  deriving DecidableEq, Repr

inductive Writer
  | notStarted
  | pop
  | write (item : BlockWorkItem) (writtenCount : ℕ)
  | release (buffer : ℕ)
  | unwind (buffer : ℕ) (failure : Failure)
  | failing (place : FailAll)
  | terminated
  deriving DecidableEq, Repr

/-- Where the thread that called `run` stands. -/
inductive Caller
  | startWriter
  | startProcessor
  | startReader
  | failing (place : FailAll)
  | join
  | done (outcome : Except Failure PipelineRunResult)

/-- What the threads share, with the file behind `output_fd`. -/
structure Shared (σ : Type*) where
  pool : AlignedBufferPool
  readToProcess : CheckedQueue BlockWorkItem
  processToWrite : CheckedQueue BlockWorkItem
  firstFailure : Option Failure
  stages : List (StageEntry σ)
  runResult : PipelineRunResult
  output : Bytes
  counters : Option RunCounters

structure RunState (σ : Type*) where
  reader : Reader
  processor : Processor
  writer : Writer
  caller : Caller
  shared : Shared σ

namespace Shared

variable {σ : Type*}

def count (sh : Shared σ) (f : RunCounters → RunCounters) : Shared σ :=
  { sh with counters := sh.counters.map f }

def validData (sh : Shared σ) (item : BlockWorkItem) : Bytes :=
  (sh.pool.bytes item.buffer).take item.validBytes

def failAll (sh : Shared σ) : FailAll → Option (Shared σ × Option FailAll)
  | .store failure =>
    let canonical := sh.firstFailure.getD failure
    some ({ sh with firstFailure := some canonical },some (.failRead canonical))
  | .failRead canonical =>
    let (queue,dropped) := sh.readToProcess.fail canonical
    (sh.pool.releaseAll (dropped.map BlockWorkItem.buffer)).map fun pool =>
      ({ sh with pool := pool, readToProcess := queue },some (.failWrite canonical))
  | .failWrite canonical =>
    let (queue,dropped) := sh.processToWrite.fail canonical
    (sh.pool.releaseAll (dropped.map BlockWorkItem.buffer)).map fun pool =>
      ({ sh with pool := pool, processToWrite := queue },none)

end Shared

namespace RunCall

variable {σ : Type*} (call : RunCall σ)

/-- The checks of `reader_loop` on a non-empty read, and the item it makes. -/
def received (blockIndex fileOffset bytesRead buffer bufferSize : ℕ) :
    Except Failure BlockWorkItem :=
  match checkedAdd fileOffset bytesRead "pipeline file offset overflow" with
  | .error failure => .error failure
  | .ok _ =>
    if blockIndex = uint64Max then .error (.overflowError "pipeline block index overflow")
    else BlockWorkItem.make blockIndex fileOffset bytesRead (some buffer) bufferSize

/-- One step of `reader_loop` in `run_guarded`. -/
def readerStep (sh : Shared σ) : Reader → Option (Reader × Shared σ)
  | .notStarted => none
  | .acquire blockIndex fileOffset =>
    sh.pool.acquire.map fun (pool,buffer) =>
      (.read blockIndex fileOffset buffer,{ sh with pool := pool })
  | .read blockIndex fileOffset buffer =>
    let bufferSize := (sh.pool.bytes buffer).length
    let timed := sh.count .timeRead
    match call.readAt fileOffset bufferSize with
    | .error failure => some (.unwind buffer failure,timed)
    | .ok [] => some (.close buffer,timed)
    | .ok data =>
      let filled := { timed with pool := sh.pool.storeBytes buffer data }.count (·.countRead data.length)
      match received blockIndex fileOffset data.length buffer bufferSize with
      | .error failure => some (.unwind buffer failure,filled)
      | .ok item => some (.push item,filled)
  | .push item =>
    (sh.readToProcess.push item).map fun (queue,r) =>
      let sh' := { sh with readToProcess := queue }
      match r with
      | .ok true => (.acquire (item.blockIndex+1) (item.fileOffset+item.validBytes),sh')
      | .ok false => (.unwind item.buffer
          (.logicError "read-to-process queue closed before reader reached EOF"),sh')
      | .error failure => (.unwind item.buffer failure,sh')
  | .close buffer => some (.release buffer,{ sh with readToProcess := sh.readToProcess.close })
  | .release buffer => (sh.pool.release buffer).map fun pool => (.terminated,{ sh with pool := pool })
  | .unwind buffer failure => (sh.pool.release buffer).map fun pool =>
      (.failing (.store failure),{ sh with pool := pool })
  | .failing place => (sh.failAll place).map fun (sh',next) =>
      (next.elim .terminated .failing,sh')
  | .terminated => none

def processorStep (sh : Shared σ) : Processor → Option (Processor × Shared σ)
  | .notStarted => none
  | .pop =>
    sh.readToProcess.pop.map fun (queue,r) =>
      let sh' := { sh with readToProcess := queue }
      match r with
      | .ok (some item) => (.process item,sh')
      | .ok none => (.close,sh')
      | .error failure => (.failing (.store failure),sh')
  | .process item =>
    let r := Pipeline.process sh.stages (sh.validData item)
    let processed := { sh with
      stages := r.stages
      pool := sh.pool.storeBytes item.buffer r.block }.count .timeProcess
    match r.failure with
    | some failure => some (.unwind item.buffer failure,processed)
    | none => some (.push item,processed.count (·.countProcessed item.validBytes))
  | .push item =>
    (sh.processToWrite.push item).map fun (queue,r) =>
      let sh' := { sh with processToWrite := queue }
      match r with
      | .ok true => (.pop,sh')
      | .ok false => (.unwind item.buffer
          (.logicError "process-to-write queue closed before processor finished"),sh')
      | .error failure => (.unwind item.buffer failure,sh')
  | .close => some (.terminated,{ sh with processToWrite := sh.processToWrite.close })
  | .unwind buffer failure => (sh.pool.release buffer).map fun pool =>
      (.failing (.store failure),{ sh with pool := pool })
  | .failing place => (sh.failAll place).map fun (sh',next) =>
      (next.elim .terminated .failing,sh')
  | .terminated => none

def writeReturned (sh : Shared σ) (item : BlockWorkItem) (bytes : ℕ) (result : WriteAtResult) :
    Writer × Shared σ :=
  if result.errorNumber ≠ 0 then
    (.unwind item.buffer (.systemError result.errorNumber "pipeline writer pwrite"),sh)
  else if result.bytesWritten ≠ bytes then
    (.unwind item.buffer
      (.runtimeError "write_all_at returned success without writing the full block"),sh)
  else
    match checkedAdd sh.runResult.bytesWritten bytes "pipeline written-byte count overflow" with
    | .error failure => (.unwind item.buffer failure,sh)
    | .ok bytesWritten =>
      let sh' := { sh with runResult := { sh.runResult with bytesWritten := bytesWritten } }
      match checkedAdd sh.runResult.blocksWritten 1 "pipeline written-block count overflow" with
      | .error failure => (.unwind item.buffer failure,sh')
      | .ok blocksWritten =>
        (.release item.buffer,{ sh' with runResult := ⟨blocksWritten,bytesWritten⟩ }.count
          (·.countWritten bytes))

/-- One step of `writer_loop` in `run_guarded`; each `pwrite` is a step of its own. -/
def writerStep (sh : Shared σ) : Writer → Option (Writer × Shared σ)
  | .notStarted => none
  | .pop =>
    sh.processToWrite.pop.map fun (queue,r) =>
      let sh' := { sh with processToWrite := queue }
      match r with
      | .ok (some item) => (.write item 0,sh')
      | .ok none => (.terminated,sh')
      | .error failure => (.failing (.store failure),sh')
  | .write item writtenCount =>
    let bytes := sh.validData item
    match writeAttempt call.writeAt bytes item.fileOffset ⟨writtenCount,sh.output⟩ with
    | .inr next => some (.write item next.writtenCount,{ sh with output := next.file })
    | .inl result => some (writeReturned (sh.count .timeWrite) item bytes.length result)
  | .release buffer => (sh.pool.release buffer).map fun pool => (.pop,{ sh with pool := pool })
  | .unwind buffer failure => (sh.pool.release buffer).map fun pool =>
      (.failing (.store failure),{ sh with pool := pool })
  | .failing place => (sh.failAll place).map fun (sh',next) =>
      (next.elim .terminated .failing,sh')
  | .terminated => none

def Joinable (s : RunState σ) : Prop :=
  (s.reader = .notStarted ∨ s.reader = .terminated) ∧
  (s.processor = .notStarted ∨ s.processor = .terminated) ∧
  (s.writer = .notStarted ∨ s.writer = .terminated)

instance (s : RunState σ) : Decidable (Joinable s) := by
  unfold Joinable; infer_instance

/-- The end of `run`: rethrow the first failure, or return the result. -/
def outcome (sh : Shared σ) : Except Failure PipelineRunResult :=
  match sh.firstFailure with
  | some failure => .error failure
  | none => .ok sh.runResult

/-- One step of the thread that called `run`: consumers are started first. -/
def callerStep (s : RunState σ) : Option (RunState σ) :=
  match s.caller with
  | .startWriter =>
    match call.startThread .writer with
    | some failure => some { s with caller := .failing (.store failure) }
    | none => some { s with caller := .startProcessor, writer := .pop }
  | .startProcessor =>
    match call.startThread .processor with
    | some failure => some { s with caller := .failing (.store failure) }
    | none => some { s with caller := .startReader, processor := .pop }
  | .startReader =>
    match call.startThread .reader with
    | some failure => some { s with caller := .failing (.store failure) }
    | none => some { s with caller := .join, reader := .acquire 0 0 }
  | .failing place => (s.shared.failAll place).map fun (sh',next) =>
      { s with caller := next.elim .join .failing, shared := sh' }
  | .join => if Joinable s then some { s with caller := .done (outcome s.shared) } else none
  | .done _ => none

/-- The prologue of `run`, up to the first thread. The output file is empty. -/
def start : Except Failure (RunState σ) :=
  if call.inputFd < 0 ∨ call.outputFd < 0 then
    .error (.invalidArgument "pipeline input and output descriptors must be valid")
  else if call.inputFd = call.outputFd then
    .error (.invalidArgument "pipeline input and output descriptors must be different")
  else if call.stages.length = 0 then
    .error (.invalidArgument "pipeline executor requires at least one processing stage")
  else if call.started then
    .error (.logicError "PipelineExecutor may only run once")
  else
    match AlignedBufferPool.make call.config (call.metrics.map (·.inflightBuffers)) call.memory with
    | .error failure => .error failure
    | .ok pool =>
      match CheckedQueue.make BlockWorkItem call.config.queueDepth
          (call.metrics.map (·.readProcessQueueDepth)) with
      | .error failure => .error failure
      | .ok readToProcess =>
        match CheckedQueue.make BlockWorkItem call.config.queueDepth
            (call.metrics.map (·.processWriteQueueDepth)) with
        | .error failure => .error failure
        | .ok processToWrite => .ok {
            reader := .notStarted
            processor := .notStarted
            writer := .notStarted
            caller := .startWriter
            shared := {
              pool := pool
              readToProcess := readToProcess
              processToWrite := processToWrite
              firstFailure := none
              stages := call.stages
              runResult := ⟨0,0⟩
              output := []
              counters := call.metrics.map (·.counters) } }

end RunCall

inductive Thread
  | worker (w : Worker)
  | caller
  deriving DecidableEq, Repr

def RunCall.system {σ : Type*} (call : RunCall σ) : TransitionSystem Thread (RunState σ) where
  step
    | .worker .reader,s => (call.readerStep s.shared s.reader).map fun r =>
        { s with reader := r.1, shared := r.2 }
    | .worker .processor,s => (RunCall.processorStep s.shared s.processor).map fun r =>
        { s with processor := r.1, shared := r.2 }
    | .worker .writer,s => (call.writerStep s.shared s.writer).map fun r =>
        { s with writer := r.1, shared := r.2 }
    | .caller,s => call.callerStep s

/-- The smallest instrumented run: one buffer of eight bytes, queues of one place, a stage
that changes nothing, and system calls that transfer as much as they are asked to. -/
def RunCall.smallest (input : Bytes) : RunCall Unit where
  config := ⟨8,1,1,8⟩
  stages := [⟨noOpStage,(),none⟩]
  metrics := some ⟨.zero,.zero,.zero,⟨⟨0⟩,⟨0⟩,⟨0⟩,⟨0⟩,⟨0⟩,⟨0⟩,⟨0⟩,⟨0⟩,⟨0⟩⟩⟩
  started := false
  inputFd := 3
  outputFd := 4
  memory := fun _ _ => 0
  readAt := fun offset length => .ok ((input.drop offset).take length)
  writeAt := fun _ length => .counting 0 length
  startThread := fun _ => none

def RunCall.withoutReader : RunCall Unit := { RunCall.smallest [1,2,3] with
  startThread := fun w => if w = .reader then some (.systemError EAGAIN "thread") else none }

end AsyncDataLoader
