import AsyncDataLoader.InFlightReads
import AsyncDataLoader.Task

/-!
# The contract of a backend

`IOBackend` as an interface, what its callers may rely on, and the three backends as
implementations of it.
-/

namespace AsyncDataLoader

open FileIO

/-- An event is what the world answers in a call, or what happens outside of the calls. A call that
does not return with this event has no result. -/
structure IOBackend where
  State : Type
  Event : Type
  Awaiter : Type
  /-- The body of `read_at`, until it suspends or ends. -/
  readAt : State → Event → ReadArguments → Option (State × BodyStep ℕ Awaiter)
  /-- `wait_one` while a coroutine is suspended: an exception, or where it then leaves it. -/
  waitOne : State → Event → Awaiter → Option (State × Except Failure (BodyStep ℕ Awaiter))
  progress : State → Event → Option State

/-- A read is pending, has returned no more than was asked for, or has thrown. -/
def BodyStep.Outcome {S A : Type} (idle : S → Prop) (pending : S → ReadArguments → A → Prop)
    (s : S) (arguments : ReadArguments) : BodyStep ℕ A → Prop
  | .suspends awaiter => pending s arguments awaiter
  | .returns n => n ≤ arguments.byteCount ∧ idle s
  | .throws _ => True

/-- What a backend keeps to, for one read after the other: the predicates are its own. -/
structure IOBackend.Contract (β : IOBackend) where
  Idle : β.State → Prop
  Pending : β.State → ReadArguments → β.Awaiter → Prop
  readAt_outcome : ∀ {s s' event arguments step}, Idle s →
    β.readAt s event arguments = some (s',step) → step.Outcome Idle Pending s' arguments
  waitOne_outcome : ∀ {s s' event arguments awaiter step}, Pending s arguments awaiter →
    β.waitOne s event awaiter = some (s',.ok step) → step.Outcome Idle Pending s' arguments
  progress_idle : ∀ {s s' event}, Idle s → β.progress s event = some s' → Idle s'
  progress_pending : ∀ {s s' event arguments awaiter}, Pending s arguments awaiter →
    β.progress s event = some s' → Pending s' arguments awaiter

structure BackendState where
  backend : Backend
  tasks : ℕ

inductive BackendEvent
  | start (script : SyscallScript) (sqeAvailable : Bool) (submitResult : SubmitResult)
  | waitOne (waitResult : SyscallScript)
  | progress (action : BackendAction)

def BodyStep.ofResult {A : Type} : Except Failure ℕ → BodyStep ℕ A
  | .ok n => .returns n
  | .error failure => .throws failure

def Started.step (started : Started) (task : ℕ) : BodyStep ℕ (ℕ × ReadAwaiter) :=
  match started with
  | .suspended awaiter => .suspends (task,awaiter)
  | .completed result => .ofResult result

def Waited.step : Waited → Except Failure (BodyStep ℕ (ℕ × ReadAwaiter))
  | .threw failure => .error failure
  | .completed result => .ok (.ofResult result)

def FileIO.SyscallScript.Fits (script : SyscallScript) (byteCount : ℕ) : Bool :=
  match script.outcome with
  | .count n => n ≤ byteCount
  | .error _ => true

def Backend.Delivers (backend : Backend) (action : BackendAction) : Bool :=
  match backend,action with
  | .threadPool pool,.publish index result =>
    pool.executing[index]?.all fun request => result.bytesRead ≤ request.arguments.byteCount
  | .uring ring,.kernel index res => ring.inflight[index]?.all fun sqe => res ≤ sqe.length
  | _,_ => true

abbrev Backend.ioBackend : IOBackend where
  State := BackendState
  Event := BackendEvent
  Awaiter := ℕ × ReadAwaiter
  readAt
    | s,.start script sqeAvailable submitResult,arguments =>
      if script.Fits arguments.byteCount then
        (s.backend.start arguments s.tasks script sqeAvailable submitResult).map
          fun (backend,started) => (⟨backend,s.tasks+1⟩,started.step s.tasks)
      else none
    | _,_,_ => none
  waitOne
    | s,.waitOne waitResult,(task,awaiter) =>
      (s.backend.waitOne awaiter task waitResult).map fun (backend,waited) =>
        (⟨backend,s.tasks⟩,waited.step)
    | _,_,_ => none
  progress
    | s,.progress action =>
      if s.backend.Delivers action then
        (s.backend.progress action).map fun backend => ⟨backend,s.tasks⟩
      else none
    | _,_ => none

namespace Backend

/-- The only read in flight is that of the task `self`. -/
inductive Serves (arguments : ReadArguments) (self : ℕ) : Backend → Prop
  | queued (maxInflight : ℕ) (result : ℤ) (stopping : Bool) :
      Serves arguments self (.threadPool ⟨maxInflight,[⟨self,arguments,result⟩],[],[],1,stopping⟩)
  | executing (maxInflight : ℕ) (result : ℤ) (stopping : Bool) :
      Serves arguments self (.threadPool ⟨maxInflight,[],[⟨self,arguments,result⟩],[],1,stopping⟩)
  | published (maxInflight : ℕ) {result : ℤ} (hfits : result ≤ arguments.byteCount)
      (stopping : Bool) :
      Serves arguments self (.threadPool ⟨maxInflight,[],[],[⟨self,arguments,result⟩],1,stopping⟩)
  | inflight {sqe : Sqe} (huser : sqe.userData = some self) (hlength : sqe.length ≤ arguments.byteCount) :
      Serves arguments self (.uring ⟨[],[sqe],[]⟩)
  | completed {res : ℤ} (hfits : res ≤ arguments.byteCount) :
      Serves arguments self (.uring ⟨[],[],[⟨some self,res⟩]⟩)

def suspendedAwaiter (arguments : ReadArguments) (self : ℕ) : ReadAwaiter :=
  ⟨arguments,⟨some self,0,false⟩,0,false⟩

variable {backend backend' : Backend} {arguments : ReadArguments} {self : ℕ}

theorem encode_le {result : ReadAtResult} {byteCount : ℕ} (h : result.bytesRead ≤ byteCount) :
    ThreadPool.encode result ≤ byteCount := by
  unfold ThreadPool.encode castInt
  split_ifs <;> omega

theorem Serves.progress (h : backend.Serves arguments self) {action : BackendAction}
    (hdelivers : backend.Delivers action = true) (hstep : backend.progress action = some backend') :
    backend'.Serves arguments self := by
  cases h with
  | queued maxInflight result stopping =>
    cases action with
    | take =>
      obtain rfl := Option.some.inj hstep
      exact .executing maxInflight result stopping
    | kernel | publish => cases hstep
  | executing maxInflight result stopping =>
    cases action with
    | publish index read =>
      cases index with
      | zero =>
        obtain rfl := Option.some.inj hstep
        exact .published maxInflight (encode_le (by simpa [Delivers] using hdelivers)) stopping
      | succ => cases hstep
    | kernel | take => cases hstep
  | published => cases action <;> cases hstep
  | @inflight sqe huser hlength =>
    cases action with
    | kernel index res =>
      cases index with
      | zero =>
        obtain rfl := Option.some.inj hstep
        have hres : res ≤ sqe.length := by simpa [Delivers] using hdelivers
        show Serves arguments self (.uring ⟨[],[],[⟨_,res⟩]⟩)
        rw [huser]
        exact .completed (hres.trans (by exact_mod_cast hlength))
      | succ => cases hstep
    | take | publish => cases hstep
  | completed => cases action <;> cases hstep

def Idle (s : BackendState) : Prop := s.backend.Ready

def Pending (s : BackendState) (arguments : ReadArguments) (awaiter : ℕ × ReadAwaiter) : Prop :=
  s.backend.Serves arguments awaiter.1 ∧ awaiter.2 = suspendedAwaiter arguments awaiter.1

theorem Ready.outcome_ofResult (h : backend.Ready) (tasks : ℕ) {result : Except Failure ℕ}
    (hfits : ∀ n, result = .ok n → n ≤ arguments.byteCount) :
    (BodyStep.ofResult result).Outcome Idle Pending ⟨backend,tasks⟩ arguments := by
  cases result with
  | ok n => exact ⟨hfits n rfl,h⟩
  | error failure => trivial

theorem sync_fits {script : SyscallScript} {byteCount n : ℕ} (hfits : script.Fits byteCount = true)
    (h : SyncBackend.completeRead script = some (.ok n)) : n ≤ byteCount := by
  cases houtcome : script.outcome with
  | count m =>
    simp only [SyncBackend.completeRead,readAtWith_count houtcome] at h
    obtain rfl := Except.ok.inj (Option.some.inj h)
    simpa [SyscallScript.Fits,houtcome] using hfits
  | error e =>
    simp only [SyncBackend.completeRead,readAtWith_error houtcome] at h
    split_ifs at h
    · cases h
    · obtain rfl := Except.ok.inj (Option.some.inj h)
      exact Nat.zero_le _

theorem Ready.start_outcome (h : backend.Ready) {script : SyscallScript}
    (hfits : script.Fits arguments.byteCount = true) {sqeAvailable : Bool}
    {submitResult : SubmitResult} {started : Started}
    (hstart : backend.start arguments self script sqeAvailable submitResult =
      some (backend',started)) (tasks : ℕ) :
    (started.step self).Outcome Idle Pending ⟨backend',tasks⟩ arguments := by
  cases h with
  | sync =>
    obtain ⟨result,hresult,heq⟩ := Option.map_eq_some_iff.mp hstart
    obtain ⟨rfl,rfl⟩ := Prod.mk.inj heq
    exact Ready.sync.outcome_ofResult tasks fun n hn => sync_fits hfits (hn ▸ hresult)
  | threadPool maxInflight stopping =>
    simp only [Backend.start] at hstart
    split at hstart
    · obtain ⟨rfl,rfl⟩ := Prod.mk.inj (Option.some.inj hstart)
      trivial
    · rename_i awaiter hmake
      obtain rfl := ThreadPool.makeAwaiter_eq hmake
      cases stopping with
      | true =>
        obtain ⟨rfl,rfl⟩ := Prod.mk.inj (Option.some.inj hstart)
        trivial
      | false =>
        cases maxInflight with
        | zero =>
          obtain ⟨rfl,rfl⟩ := Prod.mk.inj (Option.some.inj hstart)
          trivial
        | succ n =>
          obtain ⟨rfl,rfl⟩ := Prod.mk.inj (Option.some.inj hstart)
          exact ⟨.queued (n+1) 0 false,rfl⟩
  | uring =>
    simp only [Backend.start] at hstart
    split at hstart
    · obtain ⟨rfl,rfl⟩ := Prod.mk.inj (Option.some.inj hstart)
      trivial
    · rename_i awaiter hmake
      obtain rfl := ReadAwaiter.make_eq hmake
      obtain ⟨⟨awaiter',ring',suspends⟩,hsuspend,heq⟩ := Option.map_eq_some_iff.mp hstart
      obtain ⟨rfl,rfl⟩ := Prod.mk.inj heq
      have hfails : ∀ (ring : Ring) (result : ℤ), result < 0 →
          (Started.completed (ReadAwaiter.immediate ⟨arguments,.new,0,false⟩ result).awaitResume
            |>.step self).Outcome Idle Pending ⟨.uring ring,tasks⟩ arguments := by
        intro ring result hneg
        rw [ReadAwaiter.awaitResume,ReadAwaiter.resumeWith_immediate _ hneg]
        trivial
      cases ReadAwaiter.suspension rfl hsuspend with
      | noEntry => exact hfails _ _ (by decide)
      | refused errorNumber hpos => exact hfails _ _ (by omega)
      | miscounted count hcount hne => exact hfails _ _ (by decide)
      | submitted => exact ⟨.inflight rfl (Nat.mod_le _ _),rfl⟩

theorem resume_suspended (res : ℤ) (what : String) :
    resume (suspendedAwaiter arguments self) self self res what = some (.completed
      (if res < 0 then .error (.systemError (-res).toNat what) else .ok res.toNat)) := by
  have harmed : (suspendedAwaiter arguments self).request.Armed self := ⟨rfl,rfl⟩
  rw [resume,if_pos rfl,harmed.complete (fun _ => false) rfl,
    ← resumeWith_completed (suspendedAwaiter arguments self) rfl]

theorem ofResult_fits {res : ℤ} {what : String} {byteCount : ℕ} (hfits : res ≤ byteCount) {n : ℕ}
    (h : (if res < 0 then .error (.systemError (-res).toNat what) else .ok res.toNat :
      Except Failure ℕ) = .ok n) : n ≤ byteCount := by
  split_ifs at h
  obtain rfl := Except.ok.inj h
  omega

theorem Serves.waitOne_outcome (h : backend.Serves arguments self) {waitResult : SyscallScript}
    {waited : Waited} {step : BodyStep ℕ (ℕ × ReadAwaiter)}
    (hwait : backend.waitOne (suspendedAwaiter arguments self) self waitResult =
      some (backend',waited)) (hstep : waited.step = .ok step) (tasks : ℕ) :
    step.Outcome Idle Pending ⟨backend',tasks⟩ arguments := by
  cases h with
  | queued | executing => cases hwait
  | @published maxInflight result hfits stopping =>
    have heq : some (Backend.threadPool ⟨maxInflight,[],[],[],0,stopping⟩,Waited.completed
        (if result < 0 then .error (.systemError (-result).toNat "thread-pool read")
          else .ok result.toNat)) = some (backend',waited) := by
      rw [← hwait]
      simp [Backend.waitOne,ThreadPool.waitOne,resume_suspended]
    obtain ⟨rfl,rfl⟩ := Prod.mk.inj (Option.some.inj heq)
    obtain rfl := Except.ok.inj hstep
    exact (Ready.threadPool maxInflight stopping).outcome_ofResult tasks
      fun n hn => ofResult_fits hfits hn
  | inflight =>
    cases houtcome : waitResult.outcome with
    | error errorNumber =>
      simp only [Backend.waitOne,retryInterrupted_results,houtcome] at hwait
      obtain ⟨-,rfl⟩ := Prod.mk.inj (Option.some.inj hwait)
      cases hstep
    | count n => simp [Backend.waitOne,houtcome] at hwait
  | @completed res hfits =>
    cases houtcome : waitResult.outcome with
    | error errorNumber =>
      simp only [Backend.waitOne,retryInterrupted_results,houtcome] at hwait
      obtain ⟨-,rfl⟩ := Prod.mk.inj (Option.some.inj hwait)
      cases hstep
    | count n =>
      simp only [Backend.waitOne,retryInterrupted_results,houtcome,resume_suspended,
        Option.map_some] at hwait
      obtain ⟨rfl,rfl⟩ := Prod.mk.inj (Option.some.inj hwait)
      obtain rfl := Except.ok.inj hstep
      exact Ready.uring.outcome_ofResult tasks fun n hn => ofResult_fits hfits hn

def contract : ioBackend.Contract where
  Idle := Idle
  Pending := Pending
  readAt_outcome := by
    intro s s' event arguments step hidle hread
    cases event with
    | start script sqeAvailable submitResult =>
      obtain ⟨hfits,hmap⟩ := Option.ite_none_right_eq_some.mp hread
      obtain ⟨⟨backend,started⟩,hstart,heq⟩ := Option.map_eq_some_iff.mp hmap
      obtain ⟨rfl,rfl⟩ := Prod.mk.inj heq
      exact Ready.start_outcome hidle hfits hstart _
    | waitOne | progress => cases hread
  waitOne_outcome := by
    rintro s s' event arguments ⟨task,awaiter⟩ step ⟨hserves,hawaiter⟩ hwait
    cases event with
    | waitOne waitResult =>
      obtain ⟨⟨backend,waited⟩,hwaited,heq⟩ := Option.map_eq_some_iff.mp hwait
      obtain ⟨rfl,hstep⟩ := Prod.mk.inj heq
      change awaiter = suspendedAwaiter arguments task at hawaiter
      subst hawaiter
      exact hserves.waitOne_outcome hwaited hstep _
    | start | progress => cases hwait
  progress_idle := by
    intro s s' event hidle hprogress
    cases event with
    | progress action =>
      obtain ⟨-,hmap⟩ := Option.ite_none_right_eq_some.mp hprogress
      obtain ⟨backend,hstep,rfl⟩ := Option.map_eq_some_iff.mp hmap
      rw [Drained.progress_eq_none (.ready hidle)] at hstep
      cases hstep
    | start | waitOne => cases hprogress
  progress_pending := by
    rintro s s' event arguments awaiter ⟨hserves,hawaiter⟩ hprogress
    cases event with
    | progress action =>
      obtain ⟨hdelivers,hmap⟩ := Option.ite_none_right_eq_some.mp hprogress
      obtain ⟨backend,hstep,rfl⟩ := Option.map_eq_some_iff.mp hmap
      exact ⟨hserves.progress hdelivers hstep,hawaiter⟩
    | start | waitOne => cases hprogress

theorem Serves.inflightCount (h : backend.Serves arguments self) {pool : ThreadPool}
    (hpool : backend = .threadPool pool) : pool.inflightCount ≠ 0 := by
  cases h <;> cases hpool <;> exact Nat.one_ne_zero

end Backend
end AsyncDataLoader
