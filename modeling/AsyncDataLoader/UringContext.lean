import AsyncDataLoader.TransitionSystem
import AsyncDataLoader.FileIO
import AsyncDataLoader.CompletionRequest

/-!
# Reads over an io_uring

`UringContext`, its `ReadAwaiter` and the coroutines that await reads, driven by one thread.
What liburing and the kernel answer is free: a ring only keeps where an entry is, prepared
and not yet consumed, in the kernel, or completed and not yet seen.
-/

namespace AsyncDataLoader

open FileIO

abbrev unsignedMax : ℕ := 2^32-1

/-- The arguments of a read; a null buffer is `none`. -/
structure ReadArguments where
  fd : ℤ
  buffer : Option ℕ
  byteCount : ℕ
  offset : ℕ
  deriving DecidableEq, Repr

/-- A submission queue entry that `io_uring_prep_read` has filled. -/
structure Sqe where
  fd : ℤ
  buffer : Option ℕ
  length : ℕ
  offset : ℕ
  userData : Option ℕ
  deriving DecidableEq, Repr

/-- A completion queue entry. -/
structure Cqe where
  userData : Option ℕ
  res : ℤ
  deriving DecidableEq, Repr

structure Ring where
  pending : List Sqe
  inflight : List Sqe
  completed : List Cqe
  deriving DecidableEq, Repr

/-- What `io_uring_submit` returns: a negative error number, or how many of the pending
entries it has consumed. -/
inductive SubmitResult
  | failed (errorNumber : ℕ)
  | consumed (count : ℕ)
  deriving DecidableEq, Repr

namespace Ring

def empty : Ring := ⟨[],[],[]⟩

/-- A failing `io_uring_submit` leaves the prepared entries pending. -/
def submit (ring : Ring) : SubmitResult → Option (Ring × ℤ)
  | .failed errorNumber => if 0 < errorNumber then some (ring,-errorNumber) else none
  | .consumed count =>
    if count ≤ ring.pending.length then
      some ({ ring with
        pending := ring.pending.drop count
        inflight := ring.inflight++ring.pending.take count },count)
    else none

def complete (ring : Ring) (index : ℕ) (res : ℤ) : Option (Ring × Sqe) :=
  ring.inflight[index]?.map fun sqe => ({ ring with
    inflight := ring.inflight.eraseIdx index
    completed := ring.completed++[⟨sqe.userData,res⟩] },sqe)

end Ring

structure ReadAwaiter where
  arguments : ReadArguments
  request : CompletionRequest
  immediateResult : ℤ
  hasImmediateResult : Bool
  deriving DecidableEq, Repr

namespace ReadAwaiter

def make (arguments : ReadArguments) : Except Failure ReadAwaiter :=
  if arguments.fd < 0 then .error (.invalidArgument "read fd must be valid")
  else if arguments.buffer = none ∧ arguments.byteCount ≠ 0 then
    .error (.invalidArgument "read buffer must not be null")
  else if arguments.byteCount > unsignedMax then
    .error (.lengthError "read byte count exceeds io_uring limit")
  else .ok ⟨arguments,.new,0,false⟩

/-- `io_uring_prep_read` and `io_uring_sqe_set_data` -/
def prepare (awaiter : ReadAwaiter) (self : ℕ) : Sqe where
  fd := awaiter.arguments.fd
  buffer := awaiter.arguments.buffer
  length := awaiter.arguments.byteCount%2^32
  offset := awaiter.arguments.offset
  userData := some self

/-- The return from `await_suspend` without suspension. -/
def immediate (awaiter : ReadAwaiter) (result : ℤ) : ReadAwaiter :=
  { awaiter with immediateResult := result, hasImmediateResult := true }

/-- `await_suspend` in the coroutine `self`, and whether it suspends. `sqeAvailable` tells
whether `io_uring_get_sqe` returns an entry. -/
def awaitSuspend (awaiter : ReadAwaiter) (self : ℕ) (ring : Ring) (sqeAvailable : Bool)
    (submitResult : SubmitResult) : Option (ReadAwaiter × Ring × Bool) :=
  if sqeAvailable then
    let prepared := { ring with pending := ring.pending++[awaiter.prepare self] }
    match prepared.submit submitResult with
    | none => none
    | some (ring',result) =>
      if result < 0 then some (awaiter.immediate result,ring',false)
      else if result ≠ 1 then some (awaiter.immediate (- EIO),ring',false)
      else
        match awaiter.request.setContinuation (some self) with
        | .error _ => none -- not reached: the request is new
        | .ok request => some ({ awaiter with request := request },ring',true)
  else some (awaiter.immediate (-EAGAIN),ring,false)

def resumeWith (awaiter : ReadAwaiter) (what : String) : Except Failure ℕ :=
  match if awaiter.hasImmediateResult then .ok awaiter.immediateResult
    else awaiter.request.result with
  | .error failure => .error failure
  | .ok result =>
    if result < 0 then .error (.systemError (-result).toNat what) else .ok result.toNat

def awaitResume (awaiter : ReadAwaiter) : Except Failure ℕ := awaiter.resumeWith "io_uring read"

end ReadAwaiter

/-- A coroutine that awaits a read: its awaiter lives until the await returns. The owner may
then drop the task, the buffer and the descriptor. -/
inductive ReadCoroutine
  | suspended (awaiter : ReadAwaiter)
  | returned (result : Except Failure ℕ)
  | dropped

structure UringState where
  ring : Ring
  coroutines : List ReadCoroutine
  memory : ℕ → Bytes

/-- What happens on a context: an await of a read begins, the kernel completes an entry and
stores bytes, `wait_one` is called, or the owner drops a task that has completed. -/
inductive UringAction
  | read (arguments : ReadArguments) (sqeAvailable : Bool) (submitResult : SubmitResult)
  | kernel (index : ℕ) (res : ℤ) (data : Bytes)
  | waitOne (waitResult : SyscallScript)
  | drop (coroutine : ℕ)

namespace UringState

def initial (memory : ℕ → Bytes) : UringState := ⟨.empty,[],memory⟩

/-- `co_await context.read_at(...)` up to its suspension or its return. -/
def read (s : UringState) (arguments : ReadArguments) (sqeAvailable : Bool)
    (submitResult : SubmitResult) : Option UringState :=
  match ReadAwaiter.make arguments with
  | .error failure => some { s with coroutines := s.coroutines++[.returned (.error failure)] }
  | .ok awaiter =>
    (awaiter.awaitSuspend s.coroutines.length s.ring sqeAvailable submitResult).map
      fun (awaiter',ring',suspends) => { s with
        ring := ring'
        coroutines := s.coroutines++
          [if suspends then .suspended awaiter' else .returned awaiter'.awaitResume] }

/-- The kernel stores into the buffer of the entry when it completes it. -/
def kernel (s : UringState) (index : ℕ) (res : ℤ) (data : Bytes) : Option UringState :=
  (s.ring.complete index res).map fun (ring',sqe) => { s with
    ring := ring'
    memory := fun buffer =>
      if sqe.buffer = some buffer then ByteFile.store (s.memory buffer) 0 (data.take res.toNat)
      else s.memory buffer }

/-- `request->complete(res)` after the entry has been seen. It is not defined when the await
of the request has returned: the request is then gone. -/
def resume (s : UringState) (cqe : Cqe) : Option UringState :=
  match cqe.userData with
  | none => some s -- throws: io_uring CQE has no CompletionRequest
  | some coroutine =>
    match s.coroutines[coroutine]? with
    | some (.suspended awaiter) =>
      match awaiter.request.complete cqe.res fun _ => false with
      | .error _ => some s -- rethrown by `wait_one`
      | .ok (request,resumed) => some { s with
          coroutines := s.coroutines.set resumed
            (.returned { awaiter with request := request }.awaitResume) }
    | _ => none

/-- `wait_one` waits while no entry is completed; a failing wait only throws. -/
def waitOne (s : UringState) (waitResult : SyscallScript) : Option UringState :=
  match retryInterrupted waitResult.results with
  | none => none
  | some (.error _) => some s
  | some (.count _) =>
    match s.ring.completed with
    | [] => none
    | cqe::completed => resume { s with ring := { s.ring with completed := completed } } cqe

def drop (s : UringState) (coroutine : ℕ) : Option UringState :=
  match s.coroutines[coroutine]? with
  | some (.returned _) => some { s with coroutines := s.coroutines.set coroutine .dropped }
  | _ => none

end UringState

def UringContext.system : TransitionSystem UringAction UringState where
  step
    | .read arguments sqeAvailable submitResult,s => s.read arguments sqeAvailable submitResult
    | .kernel index res data,s => s.kernel index res data
    | .waitOne waitResult,s => s.waitOne waitResult
    | .drop coroutine,s => s.drop coroutine

namespace ReadAwaiter

variable {awaiter awaiter' : ReadAwaiter} {self : ℕ} {ring ring' : Ring}

theorem make_eq {arguments : ReadArguments} (h : make arguments = .ok awaiter) :
    awaiter = ⟨arguments,.new,0,false⟩ := by
  unfold make at h
  split_ifs at h
  exact (Except.ok.inj h).symm

theorem resumeWith_immediate (awaiter : ReadAwaiter) {result : ℤ} (hneg : result < 0)
    (what : String) :
    (awaiter.immediate result).resumeWith what = .error (.systemError (-result).toNat what) := by
  simp [resumeWith,immediate,hneg]

/-- The ways through `await_suspend` of a new awaiter. -/
inductive Suspension (awaiter : ReadAwaiter) (self : ℕ) (ring : Ring) :
    Bool → SubmitResult → ReadAwaiter → Ring → Bool → Prop
  | noEntry (submitResult : SubmitResult) :
      Suspension awaiter self ring false submitResult (awaiter.immediate (-EAGAIN)) ring false
  | refused (errorNumber : ℕ) (hpos : 0 < errorNumber) :
      Suspension awaiter self ring true (.failed errorNumber) (awaiter.immediate (-errorNumber))
        { ring with pending := ring.pending++[awaiter.prepare self] } false
  | miscounted (count : ℕ) (hcount : count ≤ ring.pending.length+1) (hne : count ≠ 1) :
      Suspension awaiter self ring true (.consumed count) (awaiter.immediate (- EIO))
        { ring with
          pending := (ring.pending++[awaiter.prepare self]).drop count
          inflight := ring.inflight++(ring.pending++[awaiter.prepare self]).take count } false
  | submitted : Suspension awaiter self ring true (.consumed 1)
        { awaiter with request := ⟨some self,0,false⟩ }
        { ring with
          pending := (ring.pending++[awaiter.prepare self]).drop 1
          inflight := ring.inflight++(ring.pending++[awaiter.prepare self]).take 1 } true

theorem suspension {sqeAvailable suspends : Bool} {submitResult : SubmitResult}
    (hnew : awaiter.request = .new)
    (h : awaiter.awaitSuspend self ring sqeAvailable submitResult = some (awaiter',ring',suspends)) :
    Suspension awaiter self ring sqeAvailable submitResult awaiter' ring' suspends := by
  cases sqeAvailable with
  | false =>
    obtain ⟨rfl,rfl,rfl⟩ := Prod.mk.inj (Option.some.inj h) |>.imp id Prod.mk.inj
    exact .noEntry submitResult
  | true =>
    cases submitResult with
    | failed errorNumber =>
      by_cases hpos : 0 < errorNumber
      · have hneg : -(errorNumber : ℤ) < 0 := by omega
        simp only [awaitSuspend,Ring.submit,hpos,hneg,if_true] at h
        obtain ⟨rfl,rfl,rfl⟩ := Prod.mk.inj (Option.some.inj h) |>.imp id Prod.mk.inj
        exact .refused errorNumber hpos
      · simp [awaitSuspend,Ring.submit,hpos] at h
    | consumed count =>
      by_cases hcount : count ≤ ring.pending.length+1
      · have hnonneg : ¬ (count : ℤ) < 0 := by omega
        simp only [awaitSuspend,Ring.submit,List.length_append,List.length_singleton,hcount,
          hnonneg,if_true,if_false,hnew,CompletionRequest.setContinuation_new] at h
        by_cases hone : count = 1
        · subst hone
          obtain ⟨rfl,rfl,rfl⟩ := Prod.mk.inj (Option.some.inj h) |>.imp id Prod.mk.inj
          exact .submitted
        · rw [if_pos (by omega)] at h
          obtain ⟨rfl,rfl,rfl⟩ := Prod.mk.inj (Option.some.inj h) |>.imp id Prod.mk.inj
          exact .miscounted count hcount hone
      · simp [awaitSuspend,Ring.submit,hcount] at h

end ReadAwaiter
end AsyncDataLoader
