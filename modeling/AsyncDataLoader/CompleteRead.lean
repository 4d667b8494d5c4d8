import AsyncDataLoader.ThreadPoolBackend

/-!
# One read over the three backends

`complete_read` for one read, over each backend: the inline `pread`, a worker of the thread
pool, and a submission to the ring. The first two retry an interrupted read; a completion of
the ring carries the interruption to the caller.
-/

namespace AsyncDataLoader

open FileIO

/-- The `res` that a completion carries for the first result of the kernel. -/
def FileIO.SyscallScript.cqeResult (script : SyscallScript) : ℤ :=
  match script.results.head? with
  | some (.count n) => n
  | some (.error errorNumber) => -errorNumber
  | none => 0 -- not reached: a script has an outcome

def SyncBackend.completeRead (script : SyscallScript) : Option (Except Failure ℕ) :=
  let result := readAtWith script
  if result.errorNumber ≠ 0 then
    some (.error (.systemError result.errorNumber "SyncBackend::read_at"))
  else some (.ok result.bytesRead)

/-- While `wait_one` waits, a worker takes, executes and publishes the request. -/
def ThreadPool.completeRead (pool : ThreadPool) (arguments : ReadArguments)
    (script : SyscallScript) : Option (Except Failure ℕ) :=
  match makeAwaiter arguments with
  | .error failure => some (.error failure)
  | .ok awaiter =>
    match pool.awaitSuspend awaiter 0 with
    | .error failure => some (.error failure)
    | .ok (awaiter',_,false) => some (awaitResume awaiter')
    | .ok (awaiter',pool',true) =>
      (pool'.take.bind fun pool' => (pool'.publish 0 (readAtWith script)).bind waitOne).map
        fun (_,completed) =>
          match completed with
          | .error failure => .error failure
          | .ok request =>
            match awaiter'.request.complete request.completionResult fun _ => false with
            | .error failure => .error failure
            | .ok (request',_) => awaitResume { awaiter' with request := request' }

def UringState.resultOf (s : UringState) (coroutine : ℕ) : Option (Except Failure ℕ) :=
  match s.coroutines[coroutine]? with
  | some (.returned result) => some result
  | _ => none

/-- The submission succeeds, the kernel completes the entry, and then `wait_one` returns after
so many interruptions of its own. -/
def UringContext.completeRead (arguments : ReadArguments) (script : SyscallScript)
    (waitInterrupts : ℕ) : Option (Except Failure ℕ) :=
  ((UringState.initial fun _ => []).read arguments true (.consumed 1)).bind fun s =>
    match s.resultOf 0 with
    | some result => some result
    | none => (s.kernel 0 script.cqeResult []).bind fun s =>
      (s.waitOne (.counting waitInterrupts 0)).bind fun s => s.resultOf 0

/-- What `complete_read` gives its caller: a byte count, or the error number of a
`std::system_error`. Any other exception is not one of the kernel. -/
def observe : Option (Except Failure ℕ) → Option (Except ℕ ℕ)
  | some (.ok n) => some (.ok n)
  | some (.error (.systemError errorNumber _)) => some (.error errorNumber)
  | _ => none

/-- A read that the callers of a backend may ask for, and what the kernel may answer. -/
structure WellFormedRead (arguments : ReadArguments) (script : SyscallScript) : Prop where
  fd : 0 ≤ arguments.fd
  buffer : arguments.buffer ≠ none
  byteCount : arguments.byteCount ≤ intMax
  count : ∀ n, script.outcome = .count n → n ≤ arguments.byteCount
  errorNumber : ∀ e, script.outcome = .error e → 0 < e

def finalResult (script : SyscallScript) : Except ℕ ℕ :=
  match script.outcome with
  | .count n => .ok n
  | .error errorNumber => .error errorNumber

variable {arguments : ReadArguments} {script : SyscallScript}

theorem sync_observe (h : WellFormedRead arguments script) :
    observe (SyncBackend.completeRead script) = some (finalResult script) := by
  cases houtcome : script.outcome with
  | count n => simp [SyncBackend.completeRead,readAtWith_count houtcome,observe,finalResult,houtcome]
  | error e =>
    have hpos := h.errorNumber e houtcome
    simp [SyncBackend.completeRead,readAtWith_error houtcome,observe,finalResult,houtcome,
      Nat.ne_of_gt hpos]

theorem resumeWith_completed (awaiter : ReadAwaiter) (himmediate : awaiter.hasImmediateResult = false)
    (res : ℤ) (what : String) :
    ({ awaiter with request := ⟨none,res,true⟩ } : ReadAwaiter).resumeWith what =
      if res < 0 then .error (.systemError (-res).toNat what) else .ok res.toNat := by
  simp [ReadAwaiter.resumeWith,himmediate,CompletionRequest.result]

theorem castInt_of_le {n : ℕ} (h : n ≤ intMax) : castInt n = n := by
  have hmod : n%2^32 = n := Nat.mod_eq_of_lt (by simp only [intMax] at h; omega)
  simp only [castInt,hmod,if_pos h]

theorem observe_completed {res : ℤ} {what : String} :
    observe (some (if res < 0 then .error (.systemError (-res).toNat what) else .ok res.toNat)) =
      some (if res < 0 then .error (-res).toNat else .ok res.toNat) := by
  by_cases hneg : res < 0
  · simp [hneg,observe]
  · simp [hneg,observe]

theorem threadPool_completeRead (maxInflight : ℕ) {awaiter : ReadAwaiter}
    (hmake : ThreadPool.makeAwaiter arguments = .ok awaiter) :
    (ThreadPool.idle (maxInflight+1)).completeRead arguments script =
      some (if ThreadPool.encode (readAtWith script) < 0 then
        .error (.systemError (-ThreadPool.encode (readAtWith script)).toNat "thread-pool read")
      else .ok (ThreadPool.encode (readAtWith script)).toNat) := by
  obtain rfl : awaiter = ⟨arguments,.new,0,false⟩ := by
    unfold ThreadPool.makeAwaiter at hmake
    split_ifs at hmake
    exact (Except.ok.inj hmake).symm
  have hsuspend : (ThreadPool.idle (maxInflight+1)).awaitSuspend ⟨arguments,.new,0,false⟩ 0 =
      .ok (⟨arguments,⟨some 0,0,false⟩,0,false⟩,
        ⟨maxInflight+1,[⟨0,arguments,0⟩],[],[],1,false⟩,true) := by
    simp [ThreadPool.awaitSuspend,CompletionRequest.setContinuation_new,ThreadPool.trySubmit,
      ThreadPool.idle]
  unfold ThreadPool.completeRead
  simp only [hmake,hsuspend]
  rw [← resumeWith_completed ⟨arguments,.new,0,false⟩ rfl]
  rfl

theorem threadPool_observe (h : WellFormedRead arguments script) (maxInflight : ℕ) :
    observe ((ThreadPool.idle (maxInflight+1)).completeRead arguments script) =
      some (finalResult script) := by
  have hmake : ThreadPool.makeAwaiter arguments = .ok ⟨arguments,.new,0,false⟩ := by
    rw [ThreadPool.makeAwaiter,if_neg fun hnull => h.buffer hnull.1,if_neg (Nat.not_lt.mpr h.byteCount)]
  rw [threadPool_completeRead maxInflight hmake,observe_completed]
  cases houtcome : script.outcome with
  | count n =>
    have hcast : castInt n = n := castInt_of_le (Nat.le_trans (h.count n houtcome) h.byteCount)
    simp [readAtWith_count houtcome,ThreadPool.encode,hcast,finalResult,houtcome]
  | error e =>
    have hpos := h.errorNumber e houtcome
    simp [readAtWith_error houtcome,ThreadPool.encode,Nat.ne_of_gt hpos,finalResult,houtcome,hpos]

theorem uring_completeRead (waitInterrupts : ℕ) {awaiter : ReadAwaiter}
    (hmake : ReadAwaiter.make arguments = .ok awaiter) :
    UringContext.completeRead arguments script waitInterrupts =
      some (if script.cqeResult < 0 then
        .error (.systemError (-script.cqeResult).toNat "io_uring read")
      else .ok script.cqeResult.toNat) := by
  obtain rfl : awaiter = ⟨arguments,.new,0,false⟩ := by
    unfold ReadAwaiter.make at hmake
    split_ifs at hmake
    exact (Except.ok.inj hmake).symm
  unfold UringContext.completeRead UringState.read
  rw [hmake,← resumeWith_completed ⟨arguments,.new,0,false⟩ rfl]
  simp only [UringState.waitOne,retryInterrupted_results]
  rfl

theorem uring_observe (h : WellFormedRead arguments script) (waitInterrupts : ℕ) :
    observe (UringContext.completeRead arguments script waitInterrupts) =
      some (if script.interrupts = 0 then finalResult script else .error EINTR) := by
  have hmake : ReadAwaiter.make arguments = .ok ⟨arguments,.new,0,false⟩ := by
    have hfd := h.fd
    have hsize := h.byteCount
    rw [ReadAwaiter.make,if_neg (by omega),if_neg fun hnull => h.buffer hnull.1,
      if_neg (by simp only [intMax,unsignedMax] at hsize ⊢; omega)]
  rw [uring_completeRead waitInterrupts hmake,observe_completed]
  cases hinterrupts : script.interrupts with
  | zero =>
    cases houtcome : script.outcome with
    | count n =>
      simp [SyscallScript.cqeResult,SyscallScript.results,hinterrupts,houtcome,finalResult]
    | error e =>
      have hpos := h.errorNumber e houtcome
      simp [SyscallScript.cqeResult,SyscallScript.results,hinterrupts,houtcome,finalResult,hpos]
  | succ n =>
    simp [SyscallScript.cqeResult,SyscallScript.results,hinterrupts,List.replicate_succ]

def BackendsAgree (arguments : ReadArguments) (script : SyscallScript)
    (maxInflight waitInterrupts : ℕ) : Prop :=
  ∃ observed, observe (SyncBackend.completeRead script) = some observed ∧
    observe ((ThreadPool.idle (maxInflight+1)).completeRead arguments script) = some observed ∧
    observe (UringContext.completeRead arguments script waitInterrupts) = some observed

/-- The backends agree exactly when the kernel does not interrupt the read. -/
theorem backends_agree_iff (maxInflight waitInterrupts : ℕ) (h : WellFormedRead arguments script) :
    BackendsAgree arguments script maxInflight waitInterrupts ↔ script.interrupts = 0 := by
  rw [BackendsAgree,sync_observe h,threadPool_observe h maxInflight,uring_observe h waitInterrupts]
  constructor
  · rintro ⟨observed,hsync,-,huring⟩
    by_contra hinterrupts
    rw [if_neg hinterrupts,← hsync] at huring
    have hfinal := Option.some.inj huring
    unfold finalResult at hfinal
    split at hfinal
    · cases hfinal
    · rename_i e houtcome
      rw [← Except.error.inj hfinal] at houtcome
      exact script.outcome_ne houtcome
  · intro hinterrupts
    rw [if_pos hinterrupts]
    exact ⟨finalResult script,rfl,rfl,rfl⟩

theorem backends_agree_iff_short : WellFormedRead ⟨3,some 0,4096,0⟩ (.counting 0 100) ∧
    (BackendsAgree ⟨3,some 0,4096,0⟩ (.counting 0 100) 0 2 ↔ 0 = 0) := by
  have hread : WellFormedRead ⟨3,some 0,4096,0⟩ (.counting 0 100) := by
    refine ⟨by decide,by simp,by decide,fun n h => ?_,fun e h => by cases h⟩
    rw [← SyscallResult.count.inj h]
    decide
  exact ⟨hread,backends_agree_iff 0 2 hread⟩

theorem interrupted_read_differs :
    observe (SyncBackend.completeRead (.counting 1 100)) = some (.ok 100) ∧
    observe ((ThreadPool.idle 1).completeRead ⟨3,some 0,4096,0⟩ (.counting 1 100)) =
      some (.ok 100) ∧
    observe (UringContext.completeRead ⟨3,some 0,4096,0⟩ (.counting 1 100) 0) =
      some (.error EINTR) ∧
    ¬ BackendsAgree ⟨3,some 0,4096,0⟩ (.counting 1 100) 0 0 := by
  have hsync : observe (SyncBackend.completeRead (.counting 1 100)) = some (.ok 100) := rfl
  have huring : observe (UringContext.completeRead ⟨3,some 0,4096,0⟩ (.counting 1 100) 0) =
      some (.error EINTR) := rfl
  refine ⟨hsync,rfl,huring,?_⟩
  rintro ⟨observed,h₁,-,h₂⟩
  have heq := (hsync.symm.trans h₁).trans (h₂.symm.trans huring)
  cases heq

end AsyncDataLoader
