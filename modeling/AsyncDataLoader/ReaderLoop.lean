import AsyncDataLoader.CompleteRead
import AsyncDataLoader.PipelineExecutor

/-!
# The reader and its backend

`reader_loop` with `complete_read` taken apart: the task is started, `wait_one` is called until
it is done, and an exception in between destroys the task and then the buffer handle. The
kernel or the workers of the backend go on at any time, also after the reader has ended.
-/

namespace AsyncDataLoader

open FileIO

inductive Backend
  | sync
  | threadPool (pool : ThreadPool)
  | uring (ring : Ring)

/-- What starting a task leads to. -/
inductive Started
  | suspended (awaiter : ReadAwaiter)
  | completed (result : Except Failure ℕ)

/-- What a call of `wait_one` leads to. -/
inductive Waited
  | threw (failure : Failure)
  | completed (result : Except Failure ℕ)

/-- What a backend does on its own. -/
inductive BackendAction
  | kernel (index : ℕ) (res : ℤ)
  | take
  | publish (index : ℕ) (result : ReadAtResult)

namespace Backend

def start (backend : Backend) (arguments : ReadArguments) (self : ℕ) (script : SyscallScript)
    (sqeAvailable : Bool) (submitResult : SubmitResult) : Option (Backend × Started) :=
  match backend with
  | .sync => (SyncBackend.completeRead script).map fun result => (.sync,.completed result)
  | .threadPool pool =>
    match ThreadPool.makeAwaiter arguments with
    | .error failure => some (.threadPool pool,.completed (.error failure))
    | .ok awaiter =>
      match pool.awaitSuspend awaiter self with
      | .error failure => some (.threadPool pool,.completed (.error failure))
      | .ok (awaiter',pool',suspends) => some (.threadPool pool',
          if suspends then .suspended awaiter' else .completed (ThreadPool.awaitResume awaiter'))
  | .uring ring =>
    match ReadAwaiter.make arguments with
    | .error failure => some (.uring ring,.completed (.error failure))
    | .ok awaiter =>
      (awaiter.awaitSuspend self ring sqeAvailable submitResult).map fun (awaiter',ring',suspends) =>
        (.uring ring',
          if suspends then .suspended awaiter' else .completed awaiter'.awaitResume)

/-- `complete` on the request of a task, which resumes it. It is not defined for any other task
than the suspended one: those are gone. -/
def resume (awaiter : ReadAwaiter) (self coroutine : ℕ) (res : ℤ) (what : String) : Option Waited :=
  if coroutine = self then
    match awaiter.request.complete res fun _ => false with
    | .error failure => some (.threw failure)
    | .ok (request,_) => some (.completed ({ awaiter with request := request }.resumeWith what))
  else none

def waitOne (backend : Backend) (awaiter : ReadAwaiter) (self : ℕ) (waitResult : SyscallScript) :
    Option (Backend × Waited) :=
  match backend with
  | .sync => some (.sync,.threw (.logicError "SyncBackend has no pending asynchronous completion"))
  | .threadPool pool =>
    match pool.waitOne with
    | none => none
    | some (pool',.error failure) => some (.threadPool pool',.threw failure)
    | some (pool',.ok request) =>
      (resume awaiter self request.coroutine request.completionResult "thread-pool read").map
        fun waited => (.threadPool pool',waited)
  | .uring ring =>
    match retryInterrupted waitResult.results with
    | none => none
    | some (.error errorNumber) =>
      some (.uring ring,.threw (.systemError errorNumber "io_uring_wait_cqe"))
    | some (.count _) =>
      match ring.completed with
      | [] => none
      | cqe::completed =>
        match cqe.userData with
        | none => some (.uring { ring with completed := completed },
            .threw (.runtimeError "io_uring CQE has no CompletionRequest"))
        | some coroutine => (resume awaiter self coroutine cqe.res "io_uring read").map
            fun waited => (.uring { ring with completed := completed },waited)

def progress : Backend → BackendAction → Option Backend
  | .threadPool pool,.take => pool.take.map .threadPool
  | .threadPool pool,.publish index result => (pool.publish index result).map .threadPool
  | .uring ring,.kernel index res => (ring.complete index res).map fun (ring',_) => .uring ring'
  | _,_ => none

end Backend

/-- Where `reader_loop` stands; while it waits, `task` is alive and suspended. -/
inductive ReaderPlace
  | acquire (blockIndex fileOffset : ℕ)
  | start (blockIndex fileOffset buffer : ℕ)
  | waiting (blockIndex fileOffset buffer task : ℕ) (awaiter : ReadAwaiter)
  | completed (blockIndex fileOffset buffer : ℕ) (result : Except Failure ℕ)
  | push (item : BlockWorkItem)
  | close (buffer : ℕ)
  | unwind (buffer : ℕ) (failure : Failure)
  | ended (failure : Option Failure)

def Started.place (started : Started) (blockIndex fileOffset buffer task : ℕ) : ReaderPlace :=
  match started with
  | .suspended awaiter => .waiting blockIndex fileOffset buffer task awaiter
  | .completed result => .completed blockIndex fileOffset buffer result

/-- After `read_backend.wait_one()`: an exception destroys the task. -/
def Waited.place (waited : Waited) (blockIndex fileOffset buffer : ℕ) : ReaderPlace :=
  match waited with
  | .threw failure => .unwind buffer failure
  | .completed result => .completed blockIndex fileOffset buffer result

/-- `tasks` counts the tasks so far; `handedOver` are the buffers of the items that the reader
has pushed and the other workers have not yet released. -/
structure ReaderState where
  place : ReaderPlace
  pool : AlignedBufferPool
  backend : Backend
  tasks : ℕ
  handedOver : List ℕ

/-- A step of the reader with what its calls return, of the backend, or of another worker that
releases the buffer of an item. -/
inductive ReaderAction
  | proceed
  | start (script : SyscallScript) (sqeAvailable : Bool) (submitResult : SubmitResult)
  | waitOne (waitResult : SyscallScript)
  | push (result : Except Failure Bool)
  | backend (action : BackendAction)
  | release (buffer : ℕ)

namespace ReaderState

def proceed (s : ReaderState) : Option ReaderState :=
  match s.place with
  | .acquire blockIndex fileOffset => s.pool.acquire.map fun (pool,buffer) =>
      { s with place := .start blockIndex fileOffset buffer, pool := pool }
  | .completed blockIndex fileOffset buffer result =>
    match result with
    | .error failure => some { s with place := .unwind buffer failure }
    | .ok bytesRead =>
      if bytesRead = 0 then some { s with place := .close buffer }
      else
        match RunCall.received blockIndex fileOffset bytesRead buffer (s.pool.bytes buffer).length with
        | .error failure => some { s with place := .unwind buffer failure }
        | .ok item => some { s with place := .push item }
  | .close buffer => (s.pool.release buffer).map fun pool =>
      { s with place := .ended none, pool := pool }
  | .unwind buffer failure => (s.pool.release buffer).map fun pool =>
      { s with place := .ended (some failure), pool := pool }
  | _ => none

def start (inputFd : ℤ) (s : ReaderState) (script : SyscallScript) (sqeAvailable : Bool)
    (submitResult : SubmitResult) : Option ReaderState :=
  match s.place with
  | .start blockIndex fileOffset buffer =>
    (s.backend.start ⟨inputFd,some buffer,(s.pool.bytes buffer).length,fileOffset⟩ s.tasks script
      sqeAvailable submitResult).map fun (backend,started) => { s with
        place := started.place blockIndex fileOffset buffer s.tasks
        backend := backend
        tasks := s.tasks+1 }
  | _ => none

def waitOne (s : ReaderState) (waitResult : SyscallScript) : Option ReaderState :=
  match s.place with
  | .waiting blockIndex fileOffset buffer task awaiter =>
    (s.backend.waitOne awaiter task waitResult).map fun (backend,waited) => { s with
      place := waited.place blockIndex fileOffset buffer
      backend := backend }
  | _ => none

def push (s : ReaderState) (result : Except Failure Bool) : Option ReaderState :=
  match s.place with
  | .push item =>
    match result with
    | .ok true => some { s with
        place := .acquire (item.blockIndex+1) (item.fileOffset+item.validBytes)
        handedOver := item.buffer::s.handedOver }
    | .ok false =>
      let failure := .logicError "read-to-process queue closed before reader reached EOF"
      some { s with place := .unwind item.buffer failure }
    | .error failure => some { s with place := .unwind item.buffer failure }
  | _ => none

def release (s : ReaderState) (buffer : ℕ) : Option ReaderState :=
  if buffer ∈ s.handedOver then
    (s.pool.release buffer).map fun pool =>
      { s with pool := pool, handedOver := s.handedOver.erase buffer }
  else none

end ReaderState

def ReaderLoop.system (inputFd : ℤ) : TransitionSystem ReaderAction ReaderState where
  step
    | .proceed,s => s.proceed
    | .start script sqeAvailable submitResult,s => s.start inputFd script sqeAvailable submitResult
    | .waitOne waitResult,s => s.waitOne waitResult
    | .push result,s => s.push result
    | .backend action,s => (s.backend.progress action).map fun backend => { s with backend := backend }
    | .release buffer,s => s.release buffer

end AsyncDataLoader
