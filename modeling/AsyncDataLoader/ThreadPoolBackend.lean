import AsyncDataLoader.UringContext

/-!
# Reads over a thread pool

The queues of `ThreadPoolBackend` and its `ReadAwaiter`. A worker takes a request from the
work queue, reads with `pread` and publishes the result; `wait_one` takes a published one.
-/

namespace AsyncDataLoader

open FileIO

abbrev intMax : ℕ := 2^31-1

def castInt (value : ℕ) : ℤ :=
  if value%2^32 ≤ intMax then (value%2^32 : ℕ) else (value%2^32 : ℕ)-2^32

/-- A request of the awaiter in the coroutine with this number. -/
structure ReadRequest where
  coroutine : ℕ
  arguments : ReadArguments
  completionResult : ℤ
  deriving DecidableEq, Repr

/-- The queues grow and shrink at their ends; `executing` are the requests that a worker has
taken and not yet published. -/
structure ThreadPool where
  maxInflight : ℕ
  workQueue : List ReadRequest
  executing : List ReadRequest
  completionQueue : List ReadRequest
  inflightCount : ℕ
  stopping : Bool
  deriving DecidableEq, Repr

namespace ThreadPool

def idle (maxInflight : ℕ) : ThreadPool := ⟨maxInflight,[],[],[],0,false⟩

def trySubmit (pool : ThreadPool) (request : ReadRequest) : ThreadPool × ℤ :=
  if pool.stopping then (pool,-ECANCELED)
  else if pool.inflightCount ≥ pool.maxInflight then (pool,-EAGAIN)
  else ({ pool with
    workQueue := pool.workQueue++[request]
    inflightCount := pool.inflightCount+1 },0)

def take (pool : ThreadPool) : Option ThreadPool :=
  pool.workQueue.getLast?.map fun request => { pool with
    workQueue := pool.workQueue.dropLast
    executing := pool.executing++[request] }

/-- The int that `worker_loop` makes of the result of its read. -/
def encode (result : ReadAtResult) : ℤ :=
  if result.errorNumber ≠ 0 then -result.errorNumber else castInt result.bytesRead

def publish (pool : ThreadPool) (index : ℕ) (result : ReadAtResult) : Option ThreadPool :=
  pool.executing[index]?.map fun request => { pool with
    executing := pool.executing.eraseIdx index
    completionQueue := pool.completionQueue++[{ request with completionResult := encode result }] }

/-- The request that `wait_one` completes; `none` while it waits for one. -/
def waitOne (pool : ThreadPool) : Option (ThreadPool × Except Failure ReadRequest) :=
  if pool.inflightCount = 0 then
    some (pool,.error (.logicError "ThreadPoolBackend has no pending completion"))
  else pool.completionQueue.getLast?.map fun request => ({ pool with
    completionQueue := pool.completionQueue.dropLast
    inflightCount := pool.inflightCount-1 },.ok request)

def makeAwaiter (arguments : ReadArguments) : Except Failure ReadAwaiter :=
  if arguments.buffer = none ∧ arguments.byteCount ≠ 0 then
    .error (.invalidArgument "read buffer must not be null")
  else if arguments.byteCount > intMax then
    .error (.lengthError "thread-pool read byte count exceeds completion limit")
  else .ok ⟨arguments,.new,0,false⟩

/-- `await_suspend` in the coroutine `self`, and whether it suspends. -/
def awaitSuspend (pool : ThreadPool) (awaiter : ReadAwaiter) (self : ℕ) :
    Except Failure (ReadAwaiter × ThreadPool × Bool) :=
  match awaiter.request.setContinuation (some self) with
  | .error failure => .error failure
  | .ok request =>
    let (pool',submitResult) := pool.trySubmit ⟨self,awaiter.arguments,0⟩
    if submitResult < 0 then
      .ok ({ awaiter with request := request }.immediate submitResult,pool',false)
    else .ok ({ awaiter with request := request },pool',true)

def awaitResume (awaiter : ReadAwaiter) : Except Failure ℕ := awaiter.resumeWith "thread-pool read"

theorem makeAwaiter_eq {arguments : ReadArguments} {awaiter : ReadAwaiter}
    (h : makeAwaiter arguments = .ok awaiter) : awaiter = ⟨arguments,.new,0,false⟩ := by
  unfold makeAwaiter at h
  split_ifs at h
  exact (Except.ok.inj h).symm

theorem makeAwaiter_limit {arguments : ReadArguments} {awaiter : ReadAwaiter}
    (h : makeAwaiter arguments = .ok awaiter) : arguments.byteCount ≤ intMax := by
  unfold makeAwaiter at h
  split_ifs at h with hnull hlimit
  omega

theorem trySubmit_cases (pool : ThreadPool) (request : ReadRequest) :
    (pool.stopping = false ∧ pool.inflightCount < pool.maxInflight ∧
      pool.trySubmit request = ({ pool with
        workQueue := pool.workQueue++[request]
        inflightCount := pool.inflightCount+1 },0)) ∨
    ((pool.stopping = true ∨ pool.maxInflight ≤ pool.inflightCount) ∧
      (pool.trySubmit request).1 = pool ∧ (pool.trySubmit request).2 < 0) := by
  unfold trySubmit
  by_cases hstop : pool.stopping = true
  · rw [if_pos hstop]
    exact .inr ⟨.inl hstop,rfl,by simp only; decide⟩
  · by_cases hfull : pool.inflightCount ≥ pool.maxInflight
    · rw [if_neg hstop,if_pos hfull]
      exact .inr ⟨.inr hfull,rfl,by simp only; decide⟩
    · rw [if_neg hstop,if_neg hfull]
      exact .inl ⟨by simpa using hstop,by omega,rfl⟩

end ThreadPool
end AsyncDataLoader
