import AsyncDataLoader.ReaderLoop
import AsyncDataLoader.ExecutorMoves

/-!
# Buffers and tasks of the reads in flight

Until a task completes, its backend needs the task and the buffer. The reader keeps both while
it waits, and one exception makes it leave early: that of `wait_one` when the wait for a
completion fails. Nothing else separates a read in flight from its task and its lease.
-/

namespace AsyncDataLoader

open FileIO

namespace Backend

def targets : Backend → List (Option ℕ)
  | .sync => []
  | .threadPool pool =>
    (pool.workQueue++pool.executing++pool.completionQueue).map fun request => request.arguments.buffer
  | .uring ring => ring.inflight.map Sqe.buffer

/-- The tasks that the backend has yet to resume. -/
def awaited : Backend → List (Option ℕ)
  | .sync => []
  | .threadPool pool =>
    (pool.workQueue++pool.executing++pool.completionQueue).map fun request => some request.coroutine
  | .uring ring => ring.inflight.map Sqe.userData++ring.completed.map Cqe.userData

/-- Nothing was submitted, or all of it has been delivered. -/
inductive Ready : Backend → Prop
  | sync : Ready .sync
  | threadPool (maxInflight : ℕ) (stopping : Bool) :
      Ready (.threadPool ⟨maxInflight,[],[],[],0,stopping⟩)
  | uring : Ready (.uring .empty)

/-- The same, except for entries that were never consumed. -/
inductive Drained : Backend → Prop
  | ready {backend : Backend} (h : backend.Ready) : Drained backend
  | unconsumed (pending : List Sqe) : Drained (.uring ⟨pending,[],[]⟩)

/-- The only read in flight is that of the task `self` into the buffer. -/
inductive Carries (buffer self : ℕ) : Backend → Prop
  | queued {arguments : ReadArguments} (hbuffer : arguments.buffer = some buffer)
      (maxInflight : ℕ) (result : ℤ) (stopping : Bool) :
      Carries buffer self (.threadPool ⟨maxInflight,[⟨self,arguments,result⟩],[],[],1,stopping⟩)
  | executing {arguments : ReadArguments} (hbuffer : arguments.buffer = some buffer)
      (maxInflight : ℕ) (result : ℤ) (stopping : Bool) :
      Carries buffer self (.threadPool ⟨maxInflight,[],[⟨self,arguments,result⟩],[],1,stopping⟩)
  | published {arguments : ReadArguments} (hbuffer : arguments.buffer = some buffer)
      (maxInflight : ℕ) (result : ℤ) (stopping : Bool) :
      Carries buffer self (.threadPool ⟨maxInflight,[],[],[⟨self,arguments,result⟩],1,stopping⟩)
  | inflight {sqe : Sqe} (hbuffer : sqe.buffer = some buffer) (huser : sqe.userData = some self) :
      Carries buffer self (.uring ⟨[],[sqe],[]⟩)
  | completed (res : ℤ) : Carries buffer self (.uring ⟨[],[],[⟨some self,res⟩]⟩)

variable {backend backend' : Backend} {buffer self : ℕ}

theorem Drained.targets_eq (h : backend.Drained) : backend.targets = [] := by
  cases h with
  | ready h => cases h <;> rfl
  | unconsumed => rfl

theorem Drained.awaited_eq (h : backend.Drained) : backend.awaited = [] := by
  cases h with
  | ready h => cases h <;> rfl
  | unconsumed => rfl

theorem Carries.of_mem_targets (h : backend.Carries buffer self) {target : Option ℕ}
    (hmem : target ∈ backend.targets) : target = some buffer := by
  cases h with
  | queued hbuffer | executing hbuffer | published hbuffer =>
    simpa [targets,hbuffer] using hmem
  | inflight hbuffer => simpa [targets,hbuffer] using hmem
  | completed => simp [targets] at hmem

theorem Carries.awaited_eq (h : backend.Carries buffer self) : backend.awaited = [some self] := by
  cases h with
  | queued | executing | published | completed => rfl
  | inflight hbuffer huser => simp [awaited,huser]

theorem Drained.progress_eq_none (h : backend.Drained) (action : BackendAction) :
    backend.progress action = none := by
  cases h with
  | ready h => cases h <;> cases action <;> rfl
  | unconsumed => cases action <;> rfl

theorem Carries.progress (h : backend.Carries buffer self) {action : BackendAction}
    (hstep : backend.progress action = some backend') : backend'.Carries buffer self := by
  cases h with
  | queued hbuffer maxInflight result stopping =>
    cases action with
    | take =>
      obtain rfl := Option.some.inj hstep
      exact .executing hbuffer maxInflight result stopping
    | kernel | publish => cases hstep
  | executing hbuffer maxInflight result stopping =>
    cases action with
    | publish index read =>
      cases index with
      | zero =>
        obtain rfl := Option.some.inj hstep
        exact .published hbuffer maxInflight _ stopping
      | succ => cases hstep
    | kernel | take => cases hstep
  | published => cases action <;> cases hstep
  | inflight hbuffer huser =>
    cases action with
    | kernel index res =>
      cases index with
      | zero =>
        obtain rfl := Option.some.inj hstep
        show Carries buffer self (.uring ⟨[],[],[⟨_,res⟩]⟩)
        rw [huser]
        exact .completed res
      | succ => cases hstep
    | take | publish => cases hstep
  | completed => cases action <;> cases hstep

end Backend

def ReaderPlace.Fits (backend : Backend) : ReaderPlace → Prop
  | .waiting _ _ buffer task awaiter => backend.Carries buffer task ∧ awaiter.request.Armed task
  | .completed _ _ _ (.error _) | .unwind _ _ | .ended _ => backend.Drained
  | .acquire _ _ | .start _ _ _ | .completed _ _ _ (.ok _) | .push _ | .close _ => backend.Ready

namespace Backend

variable {backend backend' : Backend} {buffer self : ℕ}

theorem Ready.fits_completed (h : backend.Ready) (blockIndex fileOffset : ℕ)
    (result : Except Failure ℕ) :
    (ReaderPlace.completed blockIndex fileOffset buffer result).Fits backend := by
  cases result with
  | ok => exact h
  | error => exact .ready h

theorem Ready.start (h : backend.Ready) {arguments : ReadArguments}
    (hbuffer : arguments.buffer = some buffer) {script : SyscallScript} {sqeAvailable : Bool}
    {submitResult : SubmitResult} {started : Started}
    (hstart : backend.start arguments self script sqeAvailable submitResult =
      some (backend',started)) (blockIndex fileOffset : ℕ) :
    (started.place blockIndex fileOffset buffer self).Fits backend' := by
  cases h with
  | sync =>
    obtain ⟨result,-,heq⟩ := Option.map_eq_some_iff.mp hstart
    obtain ⟨rfl,rfl⟩ := Prod.mk.inj heq
    exact Ready.sync.fits_completed blockIndex fileOffset result
  | threadPool maxInflight stopping =>
    simp only [Backend.start] at hstart
    split at hstart
    · obtain ⟨rfl,rfl⟩ := Prod.mk.inj (Option.some.inj hstart)
      exact (Ready.threadPool maxInflight stopping).fits_completed blockIndex fileOffset _
    · rename_i awaiter hmake
      obtain rfl := ThreadPool.makeAwaiter_eq hmake
      cases stopping with
      | true =>
        obtain ⟨rfl,rfl⟩ := Prod.mk.inj (Option.some.inj hstart)
        exact (Ready.threadPool maxInflight true).fits_completed blockIndex fileOffset _
      | false =>
        cases maxInflight with
        | zero =>
          obtain ⟨rfl,rfl⟩ := Prod.mk.inj (Option.some.inj hstart)
          exact (Ready.threadPool 0 false).fits_completed blockIndex fileOffset _
        | succ n =>
          obtain ⟨rfl,rfl⟩ := Prod.mk.inj (Option.some.inj hstart)
          exact ⟨.queued hbuffer (n+1) 0 false,rfl,rfl⟩
  | uring =>
    simp only [Backend.start] at hstart
    split at hstart
    · obtain ⟨rfl,rfl⟩ := Prod.mk.inj (Option.some.inj hstart)
      exact Ready.uring.fits_completed blockIndex fileOffset _
    · rename_i awaiter hmake
      obtain rfl := ReadAwaiter.make_eq hmake
      obtain ⟨⟨awaiter',ring',suspends⟩,hsuspend,heq⟩ := Option.map_eq_some_iff.mp hstart
      obtain ⟨rfl,rfl⟩ := Prod.mk.inj heq
      have hfails : ∀ (pending : List Sqe) (result : ℤ), result < 0 →
          (ReaderPlace.completed blockIndex fileOffset buffer (ReadAwaiter.immediate
            ⟨arguments,.new,0,false⟩ result).awaitResume).Fits (.uring ⟨pending,[],[]⟩) := by
        intro pending result hneg
        rw [ReadAwaiter.awaitResume,ReadAwaiter.resumeWith_immediate _ hneg]
        exact .unconsumed pending
      cases ReadAwaiter.suspension rfl hsuspend with
      | noEntry => exact hfails [] _ (by decide)
      | refused errorNumber hpos => exact hfails _ _ (by omega)
      | miscounted count hcount hne =>
        obtain rfl : count = 0 := by simp only [Ring.empty,List.length_nil] at hcount; omega
        exact hfails _ _ (by decide)
      | submitted => exact ⟨.inflight hbuffer rfl,rfl,rfl⟩

theorem resume_armed {awaiter : ReadAwaiter} (h : awaiter.request.Armed self) (res : ℤ)
    (what : String) : ∃ result, resume awaiter self self res what = some (.completed result) :=
  ⟨_,by rw [resume,if_pos rfl,h.complete (fun _ => false) rfl]⟩

theorem Carries.waitOne (h : backend.Carries buffer self) {awaiter : ReadAwaiter}
    (harmed : awaiter.request.Armed self) {waitResult : SyscallScript} {waited : Waited}
    (hwaits : ∀ ring errorNumber, backend = .uring ring → waitResult.outcome ≠ .error errorNumber)
    (hwait : backend.waitOne awaiter self waitResult = some (backend',waited)) :
    backend'.Ready ∧ ∃ result, waited = .completed result := by
  cases h with
  | queued | executing => cases hwait
  | published hbuffer maxInflight res stopping =>
    obtain ⟨result,hresume⟩ := resume_armed harmed res "thread-pool read"
    have heq : some (Backend.threadPool ⟨maxInflight,[],[],[],0,stopping⟩,Waited.completed result) =
        some (backend',waited) := by
      rw [← hwait]
      simp [Backend.waitOne,ThreadPool.waitOne,hresume]
    obtain ⟨rfl,rfl⟩ := Prod.mk.inj (Option.some.inj heq)
    exact ⟨.threadPool maxInflight stopping,result,rfl⟩
  | inflight =>
    cases houtcome : waitResult.outcome with
    | error errorNumber => exact absurd houtcome (hwaits _ errorNumber rfl)
    | count n => simp [Backend.waitOne,houtcome] at hwait
  | completed res =>
    cases houtcome : waitResult.outcome with
    | error errorNumber => exact absurd houtcome (hwaits _ errorNumber rfl)
    | count n =>
      obtain ⟨result,hresume⟩ := resume_armed harmed res "io_uring read"
      simp only [Backend.waitOne,retryInterrupted_results,houtcome,hresume,Option.map_some] at hwait
      obtain ⟨rfl,rfl⟩ := Prod.mk.inj (Option.some.inj hwait)
      exact ⟨.uring,result,rfl⟩

end Backend

def ReaderPlace.held : ReaderPlace → List ℕ
  | .acquire _ _ | .ended _ => []
  | .start _ _ buffer | .waiting _ _ buffer _ _ | .completed _ _ buffer _ | .close buffer
  | .unwind buffer _ => [buffer]
  | .push item => [item.buffer]

theorem Started.held_place (started : Started) (blockIndex fileOffset buffer task : ℕ) :
    (started.place blockIndex fileOffset buffer task).held = [buffer] := by
  cases started <;> rfl

theorem Waited.held_place (waited : Waited) (blockIndex fileOffset buffer : ℕ) :
    (waited.place blockIndex fileOffset buffer).held = [buffer] := by
  cases waited <;> rfl

namespace ReaderState

def initial (pool : AlignedBufferPool) (backend : Backend) : ReaderState :=
  ⟨.acquire 0 0,pool,backend,0,[]⟩

def Alive (s : ReaderState) (task : ℕ) : Prop :=
  ∃ blockIndex fileOffset buffer awaiter,
    s.place = .waiting blockIndex fileOffset buffer task awaiter

/-- What `IOBackend` demands of its caller. -/
structure Protected (s : ReaderState) : Prop where
  leased : ∀ target ∈ s.backend.targets,
    ∃ buffer, target = some buffer ∧ s.pool.inUse[buffer]? = some true
  alive : ∀ task ∈ s.backend.awaited, ∃ self, task = some self ∧ s.Alive self

/-- The action is a call of `UringContext::wait_one` whose wait fails. -/
def WaitFails (s : ReaderState) (a : ReaderAction) : Prop :=
  ∃ ring waitResult errorNumber, s.backend = .uring ring ∧ a = .waitOne waitResult ∧
    waitResult.outcome = .error errorNumber

structure Sound (s : ReaderState) : Prop where
  leased : s.pool.Leased (s.place.held++s.handedOver)
  fits : s.place.Fits s.backend

variable {s s' : ReaderState}

theorem Sound.waiting_or_drained (h : s.Sound) : s.backend.Drained ∨
    ∃ k o buffer task awaiter, s.place = .waiting k o buffer task awaiter ∧
      s.backend.Carries buffer task := by
  have hfits := h.fits
  cases hplace : s.place with
  | waiting k o buffer task awaiter =>
    rw [hplace] at hfits
    exact .inr ⟨k,o,buffer,task,awaiter,rfl,hfits.1⟩
  | completed k o buffer result =>
    rw [hplace] at hfits
    cases result with
    | ok => exact .inl (.ready hfits)
    | error => exact .inl hfits
  | acquire | start | push | close =>
    rw [hplace] at hfits
    exact .inl (.ready hfits)
  | unwind | ended =>
    rw [hplace] at hfits
    exact .inl hfits

theorem Sound.protected (h : s.Sound) : s.Protected := by
  rcases h.waiting_or_drained with hdrained | ⟨k,o,buffer,task,awaiter,hplace,hcarries⟩
  · exact ⟨by simp [hdrained.targets_eq],by simp [hdrained.awaited_eq]⟩
  · refine ⟨fun target hmem => ⟨buffer,hcarries.of_mem_targets hmem,?_⟩,fun user hmem => ?_⟩
    · exact (h.leased.inUse_iff buffer).mpr (by simp [hplace,ReaderPlace.held])
    · rw [hcarries.awaited_eq,List.mem_singleton] at hmem
      exact ⟨task,hmem,k,o,buffer,awaiter,hplace⟩

theorem Sound.proceed (h : s.Sound) (hstep : s.proceed = some s') : s'.Sound := by
  obtain ⟨hleased,hfits⟩ := h
  unfold ReaderState.proceed at hstep
  split at hstep
  · rename_i k o hplace
    rw [hplace] at hleased hfits
    obtain ⟨⟨pool,buffer⟩,hacquire,rfl⟩ := Option.map_eq_some_iff.mp hstep
    exact ⟨(hleased.acquire hacquire).1,hfits⟩
  · rename_i k o buffer result hplace
    rw [hplace] at hleased hfits
    cases result with
    | error failure =>
      obtain rfl := Option.some.inj hstep
      exact ⟨hleased,hfits⟩
    | ok bytesRead =>
      simp only at hstep
      split_ifs at hstep
      · obtain rfl := Option.some.inj hstep
        exact ⟨hleased,hfits⟩
      · split at hstep
        · obtain rfl := Option.some.inj hstep
          exact ⟨hleased,.ready hfits⟩
        · rename_i item hitem
          obtain rfl := Option.some.inj hstep
          obtain ⟨rfl,-⟩ := RunCall.received_ok hitem
          exact ⟨hleased,hfits⟩
  · rename_i buffer hplace
    rw [hplace] at hleased hfits
    obtain ⟨pool,hrelease,rfl⟩ := Option.map_eq_some_iff.mp hstep
    exact ⟨hleased.released (.refl _) hrelease,.ready hfits⟩
  · rename_i buffer failure hplace
    rw [hplace] at hleased hfits
    obtain ⟨pool,hrelease,rfl⟩ := Option.map_eq_some_iff.mp hstep
    exact ⟨hleased.released (.refl _) hrelease,hfits⟩
  · cases hstep

theorem Sound.start (h : s.Sound) {inputFd : ℤ} {script : SyscallScript} {sqeAvailable : Bool}
    {submitResult : SubmitResult}
    (hstep : s.start inputFd script sqeAvailable submitResult = some s') : s'.Sound := by
  obtain ⟨hleased,hfits⟩ := h
  unfold ReaderState.start at hstep
  split at hstep
  · rename_i k o buffer hplace
    rw [hplace] at hleased hfits
    obtain ⟨⟨backend,started⟩,hstart,rfl⟩ := Option.map_eq_some_iff.mp hstep
    refine ⟨?_,Backend.Ready.start hfits rfl hstart k o⟩
    rw [Started.held_place]
    exact hleased
  · cases hstep

theorem Sound.waitOne (h : s.Sound) {waitResult : SyscallScript}
    (hwaits : ¬ s.WaitFails (.waitOne waitResult)) (hstep : s.waitOne waitResult = some s') :
    s'.Sound := by
  obtain ⟨hleased,hfits⟩ := h
  unfold ReaderState.waitOne at hstep
  split at hstep
  · rename_i k o buffer task awaiter hplace
    rw [hplace] at hleased hfits
    obtain ⟨⟨backend,waited⟩,hwait,rfl⟩ := Option.map_eq_some_iff.mp hstep
    obtain ⟨hready,result,rfl⟩ := hfits.1.waitOne hfits.2
      (fun ring errorNumber hring houtcome => hwaits ⟨ring,_,errorNumber,hring,rfl,houtcome⟩) hwait
    exact ⟨hleased,hready.fits_completed k o result⟩
  · cases hstep

theorem Sound.push (h : s.Sound) {result : Except Failure Bool} (hstep : s.push result = some s') :
    s'.Sound := by
  obtain ⟨hleased,hfits⟩ := h
  unfold ReaderState.push at hstep
  split at hstep
  · rename_i item hplace
    rw [hplace] at hleased hfits
    split at hstep <;> obtain rfl := Option.some.inj hstep
    · exact ⟨hleased,hfits⟩
    · exact ⟨hleased,.ready hfits⟩
    · exact ⟨hleased,.ready hfits⟩
  · cases hstep

theorem Sound.progress (h : s.Sound) {action : BackendAction} {backend : Backend}
    (hstep : s.backend.progress action = some backend) :
    Sound { s with backend := backend } := by
  refine ⟨h.leased,?_⟩
  rcases h.waiting_or_drained with hdrained | ⟨k,o,buffer,task,awaiter,hplace,hcarries⟩
  · rw [hdrained.progress_eq_none] at hstep
    cases hstep
  · have hfits := h.fits
    rw [hplace] at hfits
    show ReaderPlace.Fits backend s.place
    rw [hplace]
    exact ⟨hcarries.progress hstep,hfits.2⟩

theorem Sound.release (h : s.Sound) {buffer : ℕ} (hstep : s.release buffer = some s') :
    s'.Sound := by
  unfold ReaderState.release at hstep
  split_ifs at hstep with hmem
  obtain ⟨pool,hrelease,rfl⟩ := Option.map_eq_some_iff.mp hstep
  have hperm : List.Perm (s.place.held++s.handedOver)
      (buffer::(s.place.held++s.handedOver.erase buffer)) :=
    ((List.perm_cons_erase hmem).append_left _).trans List.perm_middle
  exact ⟨h.leased.released hperm hrelease,h.fits⟩

theorem Sound.step {inputFd : ℤ} {a : ReaderAction} (hwaits : ¬ s.WaitFails a) (h : s.Sound)
    (hstep : (ReaderLoop.system inputFd).step a s = some s') : s'.Sound := by
  cases a with
  | proceed => exact h.proceed hstep
  | start => exact h.start hstep
  | waitOne => exact h.waitOne hwaits hstep
  | push => exact h.push hstep
  | backend action =>
    obtain ⟨backend,hprogress,rfl⟩ := Option.map_eq_some_iff.mp hstep
    exact h.progress hprogress
  | release => exact h.release hstep

/-- The exception of a failing wait destroys the task while its read is in flight. -/
theorem Sound.not_protected {inputFd : ℤ} {a : ReaderAction} (h : s.Sound) (hfails : s.WaitFails a)
    (hstep : (ReaderLoop.system inputFd).step a s = some s') : ¬ s'.Protected := by
  obtain ⟨ring,waitResult,errorNumber,hring,rfl,houtcome⟩ := hfails
  replace hstep : s.waitOne waitResult = some s' := hstep
  have hfits := h.fits
  unfold ReaderState.waitOne at hstep
  split at hstep
  · rename_i k o buffer task awaiter hplace
    rw [hplace] at hfits
    have hwait : s.backend.waitOne awaiter task waitResult =
        some (s.backend,.threw (.systemError errorNumber "io_uring_wait_cqe")) := by
      simp [hring,Backend.waitOne,houtcome]
    rw [hwait] at hstep
    obtain rfl := Option.some.inj hstep
    intro hprotected
    obtain ⟨self,-,k',o',buffer',awaiter',halive⟩ :=
      hprotected.alive (some task) (by simp [hfits.1.awaited_eq])
    cases halive
  · cases hstep

end ReaderState

/-- Every read in flight has its lease and its task throughout a run exactly if no wait for a
completion fails in it. -/
theorem reads_protected_iff {inputFd : ℤ} {pool : AlignedBufferPool} {backend : Backend}
    {actions : List ReaderAction} {s : ReaderState} (hpool : pool.Leased [])
    (hbackend : backend.Ready)
    (hrun : (ReaderLoop.system inputFd).exec (.initial pool backend) actions = some s) :
    (∀ t, (ReaderLoop.system inputFd).Visits (.initial pool backend) actions t → t.Protected) ↔
      ∀ t a, (ReaderLoop.system inputFd).Takes (.initial pool backend) actions t a →
        ¬ t.WaitFails a := by
  have hinitial : (ReaderState.initial pool backend).Sound := ⟨hpool,hbackend⟩
  constructor
  · intro hprotected t a htakes
    refine @TransitionSystem.Takes.condition _ _ _ (fun t a => ¬ t.WaitFails a)
      ReaderState.Sound ReaderState.Protected (fun _ _ _ hwaits h hstep => h.step hwaits hstep)
      (fun a t t' h hstep hnext hfails => ?_) _ _ _ hinitial hrun hprotected _ _ htakes
    exact h.not_protected hfails hstep hnext
  · intro hwaits t hvisits
    refine ReaderState.Sound.protected ?_
    exact @TransitionSystem.Visits.invariant _ _ _ (fun t a => ¬ t.WaitFails a)
      ReaderState.Sound (fun _ _ _ hwaits h hstep => h.step hwaits hstep) _ _ _ hwaits hinitial
      hvisits

def AlignedBufferPool.single : AlignedBufferPool := ⟨[[0,0,0,0,0,0,0,0]],[0],[false],none⟩

theorem AlignedBufferPool.make_single : make ⟨8,1,1,8⟩ none (fun _ _ => 0) = .ok single := rfl

/-- A block is read and handed over after an interrupted wait; the next read fails. -/
def ReaderAction.interruptedWait : List ReaderAction :=
  [.proceed,.start (.counting 0 0) true (.consumed 1),.backend (.kernel 0 8),
    .waitOne (.counting 2 0),.proceed,.push (.ok true),.release 0,.proceed,
    .start (.counting 0 0) true (.failed EAGAIN),.proceed,.proceed]

theorem reads_protected_iff_interruptedWait : ∃ s,
    (ReaderLoop.system 3).exec (.initial .single (.uring .empty)) ReaderAction.interruptedWait =
      some s ∧
    ((∀ t, (ReaderLoop.system 3).Visits (.initial .single (.uring .empty))
        ReaderAction.interruptedWait t → t.Protected) ↔
      ∀ t a, (ReaderLoop.system 3).Takes (.initial .single (.uring .empty))
        ReaderAction.interruptedWait t a → ¬ t.WaitFails a) :=
  ⟨_,rfl,reads_protected_iff (AlignedBufferPool.make_leased AlignedBufferPool.make_single).1 .uring rfl⟩

/-- The wait for the first read fails, and the reader releases the buffer. -/
def ReaderAction.failedWait : List ReaderAction :=
  [.proceed,.start (.counting 0 0) true (.consumed 1),
    .waitOne ⟨0,.error EAGAIN,by decide⟩,.proceed]

theorem failed_wait_abandons_read : ∃ s,
    (ReaderLoop.system 3).exec (.initial .single (.uring .empty)) ReaderAction.failedWait = some s ∧
    s.place = .ended (some (.systemError EAGAIN "io_uring_wait_cqe")) ∧
    s.pool.inUse = [false] ∧ s.backend = .uring ⟨[],[⟨3,some 0,8,0,some 0⟩],[]⟩ ∧
    ¬ s.Protected := by
  refine ⟨_,rfl,rfl,rfl,rfl,fun hprotected => ?_⟩
  obtain ⟨buffer,hbuffer,hinUse⟩ := hprotected.leased (some 0) (by decide)
  obtain rfl := Option.some.inj hbuffer
  exact absurd hinUse (by decide)

end AsyncDataLoader
