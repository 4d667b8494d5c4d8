import AsyncDataLoader.CompleteRead
import Mathlib.Data.List.Perm.Basic
import Mathlib.Data.List.Nodup

/-!
# The workers of a thread pool

Any number of workers and one driver over the queues of `ThreadPoolBackend`. The driver starts
reads, calls `wait_one`, drops tasks that have completed, and destroys the backend in the end.
-/

namespace AsyncDataLoader

open FileIO

/-- Where the driver stands: `waiting` is the wait in `wait_one`, `joining` the destructor after
it has set `stopping_`. -/
inductive DriverPlace
  | running
  | waiting
  | joining
  | ended
  deriving DecidableEq, Repr

/-- `idle` workers are in the loop without a request. `calls` are the arguments of all reads;
the last three fields record the requests that were accepted, those that were executed with what
`read_at` returned, and the coroutines that were resumed with what they returned. -/
structure ThreadPoolState where
  pool : ThreadPool
  idle : ℕ
  exited : ℕ
  driver : DriverPlace
  coroutines : List ReadCoroutine
  calls : List ReadArguments
  submitted : List ReadRequest
  executed : List (ReadRequest × ReadAtResult)
  resumed : List (ℕ × Except Failure ℕ)

/-- A worker publishes the result of the request that it executes; the calls of `pread` for it
return what the script says. -/
inductive ThreadPoolAction
  | read (arguments : ReadArguments)
  | waitOne
  | resume
  | drop (coroutine : ℕ)
  | destroy
  | join
  | take
  | publish (index : ℕ) (script : SyscallScript)
  | exit

/-- What the kernel may answer to a read of so many bytes. -/
def FileIO.SyscallScript.answers (script : SyscallScript) (byteCount : ℕ) : Bool :=
  match script.outcome with
  | .count n => n ≤ byteCount
  | .error errorNumber => 0 < errorNumber

namespace ThreadPoolState

/-- The constructor; `resources` is what the allocation of the queues or the start of a thread
throws. The threads that were started are then joined. -/
def make (workerCount maxInflight : ℕ) (resources : Option Failure) :
    Except Failure ThreadPoolState :=
  if workerCount = 0 then
    .error (.invalidArgument "thread-pool worker count must be positive")
  else if maxInflight = 0 then
    .error (.invalidArgument "thread-pool max_inflight must be positive")
  else
    match resources with
    | some failure => .error failure
    | none => .ok ⟨.idle maxInflight,workerCount,0,.running,[],[],[],[],[]⟩

/-- `co_await backend.read_at(...)` up to its suspension or its return. -/
def read (s : ThreadPoolState) (arguments : ReadArguments) : Option ThreadPoolState :=
  let called := { s with calls := s.calls++[arguments] }
  match ThreadPool.makeAwaiter arguments with
  | .error failure =>
    some { called with coroutines := s.coroutines++[.returned (.error failure)] }
  | .ok awaiter =>
    match s.pool.awaitSuspend awaiter s.coroutines.length with
    | .error _ => none -- not reached: the request is new
    | .ok (awaiter',pool,true) => some { called with
        pool := pool
        coroutines := s.coroutines++[.suspended awaiter']
        submitted := s.submitted++[⟨s.coroutines.length,arguments,0⟩] }
    | .ok (awaiter',pool,false) => some { called with
        pool := pool
        coroutines := s.coroutines++[.returned (ThreadPool.awaitResume awaiter')] }

/-- `wait_one` up to its wait, or to its exception. -/
def waitOne (s : ThreadPoolState) : ThreadPoolState :=
  if s.pool.inflightCount = 0 then s -- ThreadPoolBackend has no pending completion
  else { s with driver := .waiting }

/-- `wait_one` from the end of its wait on. It is not defined when the frame of the coroutine is
gone. -/
def resume (s : ThreadPoolState) : Option ThreadPoolState :=
  match s.pool.waitOne with
  | some (pool,.ok request) =>
    match s.coroutines[request.coroutine]? with
    | some (.suspended awaiter) =>
      match awaiter.request.complete request.completionResult fun _ => false with
      | .error _ => none -- not reached: the request is armed
      | .ok (completed,coroutine) =>
        let result := ThreadPool.awaitResume { awaiter with request := completed }
        some { s with
          pool := pool
          driver := .running
          coroutines := s.coroutines.set coroutine (.returned result)
          resumed := s.resumed++[(coroutine,result)] }
    | _ => none
  | _ => none

def drop (s : ThreadPoolState) (coroutine : ℕ) : Option ThreadPoolState :=
  match s.coroutines[coroutine]? with
  | some (.returned _) => some { s with coroutines := s.coroutines.set coroutine .dropped }
  | _ => none

def publish (s : ThreadPoolState) (index : ℕ) (script : SyscallScript) : Option ThreadPoolState :=
  match s.pool.executing[index]? with
  | none => none
  | some request =>
    if script.answers request.arguments.byteCount then
      (s.pool.publish index (readAtWith script)).map fun pool => { s with
        pool := pool
        idle := s.idle+1
        executed := s.executed++[(request,readAtWith script)] }
    else none

def step (s : ThreadPoolState) : ThreadPoolAction → Option ThreadPoolState
  | .read arguments => if s.driver = .running then s.read arguments else none
  | .waitOne => if s.driver = .running then some s.waitOne else none
  | .resume => if s.driver = .waiting then s.resume else none
  | .drop coroutine => if s.driver = .running then s.drop coroutine else none
  | .destroy =>
    if s.driver = .running then
      some { s with driver := .joining, pool := { s.pool with stopping := true } }
    else none
  | .join =>
    if s.driver = .joining ∧ s.idle = 0 ∧ s.pool.executing = [] then
      some { s with driver := .ended }
    else none
  | .take =>
    if 0 < s.idle then
      s.pool.take.map fun pool => { s with pool := pool, idle := s.idle-1 }
    else none
  | .publish index script => s.publish index script
  | .exit =>
    if 0 < s.idle ∧ s.pool.stopping ∧ s.pool.workQueue = [] then
      some { s with idle := s.idle-1, exited := s.exited+1 }
    else none

end ThreadPoolState

def threadPoolSystem : TransitionSystem ThreadPoolAction ThreadPoolState where
  step action s := s.step action

namespace ThreadPoolState

def outstanding (s : ThreadPoolState) : List ReadRequest :=
  s.pool.workQueue++s.pool.executing++s.pool.completionQueue

/-- What `await_resume` makes of a result of `read_at`. -/
def readOutcome (result : ReadAtResult) : Except Failure ℕ :=
  if result.errorNumber ≠ 0 then .error (.systemError result.errorNumber "thread-pool read")
  else .ok result.bytesRead

def awaiting (request : ReadRequest) : ReadAwaiter :=
  ⟨request.arguments,⟨some request.coroutine,0,false⟩,0,false⟩

/-- Where the requests, the workers and the driver are. -/
structure Sound (workerCount maxInflight : ℕ) (s : ThreadPoolState) : Prop where
  maxInflight_eq : s.pool.maxInflight = maxInflight
  count_eq : s.pool.inflightCount = s.outstanding.length
  count_le : s.pool.inflightCount ≤ maxInflight
  workers : s.idle+s.pool.executing.length+s.exited = workerCount
  calls_length : s.calls.length = s.coroutines.length
  alive : ∀ r ∈ s.outstanding, s.coroutines[r.coroutine]? = some (.suspended (awaiting r))
  called : ∀ r ∈ s.submitted, s.calls[r.coroutine]? = some r.arguments ∧
    r.arguments.byteCount ≤ intMax
  submitted_nodup : (s.submitted.map (·.coroutine)).Nodup
  ledger : s.submitted.Perm (s.pool.workQueue++s.pool.executing++s.executed.map Prod.fst)
  completions : (s.executed.map fun e => e.1.coroutine).Perm
    (s.pool.completionQueue.map (·.coroutine)++s.resumed.map Prod.fst)
  completed : ∀ r ∈ s.pool.completionQueue, ∃ e ∈ s.executed,
    r = { e.1 with completionResult := ThreadPool.encode e.2 }
  fits : ∀ e ∈ s.executed, e.2.bytesRead ≤ e.1.arguments.byteCount
  delivered : ∀ d ∈ s.resumed, ∃ e ∈ s.executed, d = (e.1.coroutine,readOutcome e.2)
  stopping_iff : s.pool.stopping = true ↔ s.driver = .joining ∨ s.driver = .ended
  exits : 0 < s.exited → s.pool.stopping = true ∧ s.pool.workQueue = []
  waits : s.driver = .waiting → 0 < s.pool.inflightCount
  joined : s.driver = .ended → s.idle = 0 ∧ s.pool.executing = []

variable {workerCount maxInflight : ℕ} {s s' : ThreadPoolState}

theorem sound_make {resources : Option Failure}
    (h : make workerCount maxInflight resources = .ok s) : Sound workerCount maxInflight s := by
  unfold make at h
  split_ifs at h
  split at h
  · cases h
  · obtain rfl := Except.ok.inj h
    refine ⟨rfl,rfl,Nat.zero_le _,?_,rfl,nofun,nofun,List.nodup_nil,.nil,.nil,nofun,nofun,nofun,
      ?_,nofun,nofun,nofun⟩
    · simp [ThreadPool.idle]
    · simp [ThreadPool.idle]

/-- The coroutines of all accepted requests, each where its request is. -/
theorem Sound.places (h : Sound workerCount maxInflight s) :
    (s.submitted.map (·.coroutine)).Perm
      (s.outstanding.map (·.coroutine)++s.resumed.map Prod.fst) := by
  have hledger := h.ledger.map (·.coroutine)
  refine hledger.trans ?_
  simp only [outstanding,List.map_append,List.map_map,List.append_assoc]
  exact ((h.completions).append_left _).append_left _

theorem Sound.places_nodup (h : Sound workerCount maxInflight s) :
    (s.outstanding.map (·.coroutine)++s.resumed.map Prod.fst).Nodup :=
  h.places.nodup_iff.mp h.submitted_nodup

theorem Sound.mem_submitted (h : Sound workerCount maxInflight s) {e : ReadRequest × ReadAtResult}
    (he : e ∈ s.executed) : e.1 ∈ s.submitted :=
  h.ledger.mem_iff.mpr (List.mem_append_right _ (List.mem_map_of_mem he))

theorem getElem?_concat {α : Type*} {l : List α} {i : ℕ} {a b : α} (h : l[i]? = some a) :
    (l++[b])[i]? = some a := by
  rw [List.getElem?_append_left (List.getElem?_eq_some_iff.mp h).1]
  exact h

theorem Sound.returned (h : Sound workerCount maxInflight s) (arguments : ReadArguments)
    (result : Except Failure ℕ) :
    Sound workerCount maxInflight { s with
      calls := s.calls++[arguments]
      coroutines := s.coroutines++[.returned result] } :=
  { h with
    calls_length := by simp [h.calls_length]
    alive := fun r hr => getElem?_concat (h.alive r hr)
    called := fun r hr => ⟨getElem?_concat (h.called r hr).1,(h.called r hr).2⟩ }

theorem Sound.lt_of_submitted (h : Sound workerCount maxInflight s) {r : ReadRequest}
    (hr : r ∈ s.submitted) : r.coroutine < s.coroutines.length := by
  rw [← h.calls_length]
  exact (List.getElem?_eq_some_iff.mp (h.called r hr).1).1

theorem Sound.accepted (h : Sound workerCount maxInflight s) {arguments : ReadArguments}
    (hlimit : arguments.byteCount ≤ intMax) (hlt : s.pool.inflightCount < s.pool.maxInflight)
    (hrunning : s.driver = .running) :
    Sound workerCount maxInflight { s with
      calls := s.calls++[arguments]
      pool := { s.pool with
        workQueue := s.pool.workQueue++[⟨s.coroutines.length,arguments,0⟩]
        inflightCount := s.pool.inflightCount+1 }
      coroutines := s.coroutines++
        [.suspended ⟨arguments,⟨some s.coroutines.length,0,false⟩,0,false⟩]
      submitted := s.submitted++[⟨s.coroutines.length,arguments,0⟩] } := by
  have hcount := h.count_eq
  simp only [outstanding,List.length_append] at hcount
  refine {
    maxInflight_eq := h.maxInflight_eq
    count_eq := by simp only [outstanding,List.length_append,List.length_singleton]; omega
    count_le := by rw [h.maxInflight_eq] at hlt; exact hlt
    workers := h.workers
    calls_length := by simp [h.calls_length]
    alive := fun r hr => ?_
    called := fun r hr => ?_
    submitted_nodup := ?_
    ledger := ?_
    completions := h.completions
    completed := h.completed
    fits := h.fits
    delivered := h.delivered
    stopping_iff := h.stopping_iff
    exits := fun hexit => ?_
    waits := fun hwait => ?_
    joined := fun hended => ?_ }
  · have hmem : r ∈ s.outstanding ∨ r = ⟨s.coroutines.length,arguments,0⟩ := by
      simp only [outstanding,List.mem_append,List.mem_singleton] at hr ⊢
      tauto
    rcases hmem with hold | rfl
    · exact getElem?_concat (h.alive r hold)
    · simp [awaiting]
  · rcases List.mem_append.mp hr with hold | hnew
    · exact ⟨getElem?_concat (h.called r hold).1,(h.called r hold).2⟩
    · obtain rfl := List.mem_singleton.mp hnew
      exact ⟨by simp [← h.calls_length],hlimit⟩
  · rw [List.map_append,List.map_singleton]
    refine h.submitted_nodup.append (List.nodup_singleton _) fun c hc hnew => ?_
    obtain ⟨r,hr,rfl⟩ := List.mem_map.mp hc
    have hless := h.lt_of_submitted hr
    rw [List.mem_singleton.mp hnew] at hless
    exact Nat.lt_irrefl _ hless
  · refine List.perm_iff_count.mpr fun r => ?_
    have hledger := h.ledger.count_eq r
    simp only [List.count_append] at hledger ⊢
    omega
  · have hstop := h.stopping_iff.mp (h.exits hexit).1
    rw [hrunning] at hstop
    rcases hstop with hstop | hstop <;> cases hstop
  · rw [hrunning] at hwait
    cases hwait
  · rw [hrunning] at hended
    cases hended

theorem Sound.read (h : Sound workerCount maxInflight s) (hrunning : s.driver = .running)
    {arguments : ReadArguments} (hstep : s.read arguments = some s') :
    Sound workerCount maxInflight s' := by
  unfold ThreadPoolState.read at hstep
  split at hstep
  · obtain rfl := Option.some.inj hstep
    exact h.returned arguments _
  · rename_i awaiter hmake
    have hlimit := ThreadPool.makeAwaiter_limit hmake
    obtain rfl := ThreadPool.makeAwaiter_eq hmake
    simp only [ThreadPool.awaitSuspend,CompletionRequest.setContinuation_new] at hstep
    rcases s.pool.trySubmit_cases ⟨s.coroutines.length,arguments,0⟩ with
      ⟨-,hlt,haccepted⟩ | ⟨-,hsame,hneg⟩
    · rw [haccepted] at hstep
      obtain rfl := Option.some.inj hstep
      exact h.accepted hlimit hlt hrunning
    · simp only [hneg,if_true,hsame] at hstep
      obtain rfl := Option.some.inj hstep
      exact h.returned arguments _

theorem Sound.waitOne (h : Sound workerCount maxInflight s) (hrunning : s.driver = .running) :
    Sound workerCount maxInflight s.waitOne := by
  unfold ThreadPoolState.waitOne
  split
  · exact h
  · rename_i hpending
    refine { h with
      stopping_iff := ?_
      waits := fun _ => Nat.pos_of_ne_zero hpending
      joined := nofun }
    have hstopping := h.stopping_iff
    rw [hrunning] at hstopping
    simpa using hstopping

theorem decode_encode {result : ReadAtResult} (h : result.bytesRead ≤ intMax) :
    (if ThreadPool.encode result < 0 then
      .error (.systemError (-ThreadPool.encode result).toNat "thread-pool read")
    else .ok (ThreadPool.encode result).toNat) = readOutcome result := by
  unfold ThreadPool.encode readOutcome
  by_cases herror : result.errorNumber = 0
  · simp [herror,castInt_of_le h]
  · simp [herror]

theorem Sound.apart (h : Sound workerCount maxInflight s) {request : ReadRequest}
    {queue : List ReadRequest} (hqueue : queue++[request] = s.pool.completionQueue)
    {r : ReadRequest} (hr : r ∈ s.pool.workQueue++s.pool.executing++queue) :
    r ∈ s.outstanding ∧ r.coroutine ≠ request.coroutine := by
  have hnodup := h.places_nodup.of_append_left
  rw [outstanding,← hqueue,← List.append_assoc,List.map_append] at hnodup
  refine ⟨?_,fun heq => ?_⟩
  · rw [outstanding,← hqueue,← List.append_assoc]
    exact List.mem_append_left _ hr
  · exact (List.disjoint_of_nodup_append hnodup) (List.mem_map_of_mem hr)
      (by rw [heq]; exact List.mem_singleton_self _)

theorem Sound.resume (h : Sound workerCount maxInflight s) (hwaiting : s.driver = .waiting)
    (hstep : s.resume = some s') : Sound workerCount maxInflight s' := by
  unfold ThreadPoolState.resume at hstep
  have hpositive : s.pool.inflightCount ≠ 0 := Nat.ne_of_gt (h.waits hwaiting)
  simp only [ThreadPool.waitOne,if_neg hpositive] at hstep
  cases hlast : s.pool.completionQueue.getLast? with
  | none =>
    rw [hlast] at hstep
    cases hstep
  | some request =>
    have hqueue : s.pool.completionQueue.dropLast++[request] = s.pool.completionQueue :=
      List.dropLast_append_getLast? request hlast
    have hmem : request ∈ s.pool.completionQueue := List.mem_of_getLast? hlast
    have halive := h.alive request (List.mem_append_right _ hmem)
    have harmed : CompletionRequest.complete ⟨some request.coroutine,0,false⟩
        request.completionResult (fun _ => false) =
        .ok (⟨none,request.completionResult,true⟩,request.coroutine) :=
      CompletionRequest.Armed.complete ⟨rfl,rfl⟩ _ rfl _
    simp only [hlast,Option.map_some,halive,awaiting,harmed] at hstep
    obtain rfl := Option.some.inj hstep
    obtain ⟨e,he,hrequest⟩ := h.completed request hmem
    have hlimit := (h.called e.1 (h.mem_submitted he)).2
    have hresult : ThreadPool.awaitResume ⟨request.arguments,
        ⟨none,request.completionResult,true⟩,0,false⟩ = readOutcome e.2 := by
      have hdecode := decode_encode ((h.fits e he).trans hlimit)
      have hresume := resumeWith_completed ⟨request.arguments,.new,0,false⟩ rfl
        request.completionResult "thread-pool read"
      rw [show request.completionResult = ThreadPool.encode e.2 by rw [hrequest]] at hresume ⊢
      exact hresume.trans hdecode
    have hcount := h.count_eq
    have hlength := congrArg List.length hqueue
    simp only [outstanding,List.length_append,List.length_singleton] at hcount hlength
    have hstopping := h.stopping_iff
    rw [hwaiting] at hstopping
    refine { h with
      count_eq := by simp only [outstanding,List.length_append]; omega
      count_le := (Nat.sub_le _ _).trans h.count_le
      calls_length := by simp [h.calls_length]
      alive := fun r hr => ?_
      completions := ?_
      completed := fun r hr => h.completed r (by rw [← hqueue]; exact List.mem_append_left _ hr)
      delivered := fun d hd => ?_
      stopping_iff := by simpa using hstopping
      waits := nofun
      joined := nofun }
    · obtain ⟨hmem,hne⟩ := h.apart hqueue hr
      simp only [List.getElem?_set_ne (Ne.symm hne)]
      exact h.alive r hmem
    · refine List.perm_iff_count.mpr fun c => ?_
      have hcompletions := h.completions.count_eq c
      rw [← hqueue] at hcompletions
      simp only [List.map_append,List.map_singleton,List.count_append] at hcompletions ⊢
      omega
    · rcases List.mem_append.mp hd with hold | hnew
      · exact h.delivered d hold
      · obtain rfl := List.mem_singleton.mp hnew
        exact ⟨e,he,by rw [hresult,hrequest]⟩

theorem Sound.drop (h : Sound workerCount maxInflight s) {coroutine : ℕ}
    (hstep : s.drop coroutine = some s') : Sound workerCount maxInflight s' := by
  unfold ThreadPoolState.drop at hstep
  split at hstep
  · rename_i result hreturned
    obtain rfl := Option.some.inj hstep
    refine { h with
      calls_length := by simp [h.calls_length]
      alive := fun r hr => ?_ }
    have halive := h.alive r hr
    have hne : coroutine ≠ r.coroutine := by
      rintro rfl
      rw [hreturned] at halive
      cases halive
    simp only [List.getElem?_set_ne hne]
    exact halive
  · cases hstep

theorem Sound.destroy (h : Sound workerCount maxInflight s) (hrunning : s.driver = .running) :
    Sound workerCount maxInflight
      { s with driver := .joining, pool := { s.pool with stopping := true } } := by
  refine { h with
    stopping_iff := by simp
    exits := fun hexit => ?_
    waits := nofun
    joined := nofun }
  have hstop := h.stopping_iff.mp (h.exits hexit).1
  rw [hrunning] at hstop
  rcases hstop with hstop | hstop <;> cases hstop

theorem Sound.take (h : Sound workerCount maxInflight s) (hidle : 0 < s.idle)
    {pool : ThreadPool} (htake : s.pool.take = some pool) :
    Sound workerCount maxInflight { s with pool := pool, idle := s.idle-1 } := by
  obtain ⟨request,hlast,rfl⟩ := Option.map_eq_some_iff.mp htake
  have hqueue : s.pool.workQueue.dropLast++[request] = s.pool.workQueue :=
    List.dropLast_append_getLast? request hlast
  have hmoved : (s.pool.workQueue++s.pool.executing).Perm
      (s.pool.workQueue.dropLast++(s.pool.executing++[request])) := by
    conv_lhs => rw [← hqueue,List.append_assoc]
    exact List.perm_append_comm.append_left _
  have hperm := hmoved.append_right s.pool.completionQueue
  have hcount := h.count_eq
  have hworkers := h.workers
  have hlength := hperm.length_eq
  refine { h with
    count_eq := hcount.trans hlength
    workers := by simp only [List.length_append,List.length_singleton]; omega
    alive := fun r hr => h.alive r (hperm.mem_iff.mpr hr)
    ledger := h.ledger.trans (hmoved.append_right _)
    exits := fun hexit => ?_
    joined := fun hended => ?_ }
  · have hempty := (h.exits hexit).2
    rw [hempty] at hlast
    cases hlast
  · have hnone := (h.joined hended).1
    omega

theorem bytesRead_le_of_answers {script : SyscallScript} {byteCount : ℕ}
    (h : script.answers byteCount = true) : (readAtWith script).bytesRead ≤ byteCount := by
  unfold SyscallScript.answers at h
  cases houtcome : script.outcome with
  | count n =>
    rw [readAtWith_count houtcome]
    simpa [houtcome] using h
  | error e =>
    rw [readAtWith_error houtcome]
    exact Nat.zero_le _

theorem Sound.publish (h : Sound workerCount maxInflight s) {index : ℕ} {script : SyscallScript}
    (hstep : s.publish index script = some s') : Sound workerCount maxInflight s' := by
  unfold ThreadPoolState.publish at hstep
  split at hstep
  · cases hstep
  · rename_i request hrequest
    split at hstep
    · rename_i hanswers
      obtain ⟨pool,hpublish,rfl⟩ := Option.map_eq_some_iff.mp hstep
      simp only [ThreadPool.publish,hrequest,Option.map_some] at hpublish
      obtain rfl := Option.some.inj hpublish
      obtain ⟨hindex,hget⟩ := List.getElem?_eq_some_iff.mp hrequest
      have htaken : s.pool.executing.Perm (request::s.pool.executing.eraseIdx index) := by
        rw [← hget]
        exact (List.getElem_cons_eraseIdx_perm hindex).symm
      have hmem : request ∈ s.pool.executing := List.mem_of_getElem? hrequest
      have hcount := h.count_eq
      have hworkers := h.workers
      have hlength := htaken.length_eq
      simp only [outstanding,List.length_append,List.length_cons] at hcount hlength
      refine { h with
        count_eq := by simp only [outstanding,List.length_append,List.length_singleton]; omega
        workers := by simp only; omega
        alive := fun r hr => ?_
        ledger := ?_
        completions := ?_
        completed := fun r hr => ?_
        fits := fun e he => ?_
        delivered := fun d hd => ?_
        joined := fun hended => ?_ }
      · have hcases : r ∈ s.outstanding ∨
            r = { request with completionResult := ThreadPool.encode (readAtWith script) } := by
          simp only [outstanding,List.mem_append,List.mem_singleton] at hr ⊢
          have hold : r ∈ s.pool.executing.eraseIdx index → r ∈ s.pool.executing :=
            List.mem_of_mem_eraseIdx
          tauto
        rcases hcases with hold | rfl
        · exact h.alive r hold
        · exact h.alive request (List.mem_append_left _ (List.mem_append_right _ hmem))
      · refine List.perm_iff_count.mpr fun r => ?_
        have hledger := h.ledger.count_eq r
        have hrest := htaken.count_eq r
        simp only [List.map_append,List.map_singleton,List.count_append,List.count_cons,
          List.count_nil] at hledger hrest ⊢
        omega
      · refine List.perm_iff_count.mpr fun c => ?_
        have hcompletions := h.completions.count_eq c
        simp only [List.map_append,List.map_singleton,List.count_append] at hcompletions ⊢
        omega
      · rcases List.mem_append.mp hr with hold | hnew
        · obtain ⟨e,he,hr⟩ := h.completed r hold
          exact ⟨e,List.mem_append_left _ he,hr⟩
        · exact ⟨_,List.mem_append_right _ (List.mem_singleton_self _),List.mem_singleton.mp hnew⟩
      · rcases List.mem_append.mp he with hold | hnew
        · exact h.fits e hold
        · obtain rfl := List.mem_singleton.mp hnew
          exact bytesRead_le_of_answers hanswers
      · obtain ⟨e,he,hd⟩ := h.delivered d hd
        exact ⟨e,List.mem_append_left _ he,hd⟩
      · have hnone := (h.joined hended).2
        rw [hnone] at hmem
        cases hmem
    · cases hstep

theorem Sound.exit (h : Sound workerCount maxInflight s) (hidle : 0 < s.idle)
    (hstop : s.pool.stopping = true) (hempty : s.pool.workQueue = []) :
    Sound workerCount maxInflight { s with idle := s.idle-1, exited := s.exited+1 } := by
  have hworkers := h.workers
  exact { h with
    workers := by simp only; omega
    exits := fun _ => ⟨hstop,hempty⟩
    joined := fun hended => ⟨by have hnone := (h.joined hended).1; simp only; omega,(h.joined hended).2⟩ }

theorem Sound.join (h : Sound workerCount maxInflight s) (hjoining : s.driver = .joining)
    (hidle : s.idle = 0) (hexecuting : s.pool.executing = []) :
    Sound workerCount maxInflight { s with driver := .ended } := by
  have hstopping := h.stopping_iff
  rw [hjoining] at hstopping
  exact { h with
    stopping_iff := by simpa using hstopping
    waits := nofun
    joined := fun _ => ⟨hidle,hexecuting⟩ }

theorem Sound.step (h : Sound workerCount maxInflight s) {action : ThreadPoolAction}
    (hstep : s.step action = some s') : Sound workerCount maxInflight s' := by
  cases action with
  | read arguments =>
    simp only [ThreadPoolState.step] at hstep
    split at hstep
    · rename_i hrunning
      exact h.read hrunning hstep
    · cases hstep
  | waitOne =>
    simp only [ThreadPoolState.step] at hstep
    split at hstep
    · rename_i hrunning
      obtain rfl := Option.some.inj hstep
      exact h.waitOne hrunning
    · cases hstep
  | resume =>
    simp only [ThreadPoolState.step] at hstep
    split at hstep
    · rename_i hwaiting
      exact h.resume hwaiting hstep
    · cases hstep
  | drop coroutine =>
    simp only [ThreadPoolState.step] at hstep
    split at hstep
    · exact h.drop hstep
    · cases hstep
  | destroy =>
    simp only [ThreadPoolState.step] at hstep
    split at hstep
    · rename_i hrunning
      obtain rfl := Option.some.inj hstep
      exact h.destroy hrunning
    · cases hstep
  | join =>
    simp only [ThreadPoolState.step] at hstep
    split at hstep
    · rename_i hjoin
      obtain rfl := Option.some.inj hstep
      exact h.join hjoin.1 hjoin.2.1 hjoin.2.2
    · cases hstep
  | take =>
    simp only [ThreadPoolState.step] at hstep
    split at hstep
    · rename_i hidle
      obtain ⟨pool,htake,rfl⟩ := Option.map_eq_some_iff.mp hstep
      exact h.take hidle htake
    · cases hstep
  | publish index script => exact h.publish hstep
  | exit =>
    simp only [ThreadPoolState.step] at hstep
    split at hstep
    · rename_i hexit
      obtain rfl := Option.some.inj hstep
      exact h.exit hexit.1 hexit.2.1 hexit.2.2
    · cases hstep

theorem Sound.resumes (h : Sound workerCount maxInflight s) (hwaiting : s.driver = .waiting)
    (hcompleted : s.pool.completionQueue ≠ []) : ∃ s', s.step .resume = some s' := by
  obtain ⟨request,hlast⟩ : ∃ request, s.pool.completionQueue.getLast? = some request :=
    ⟨_,List.getLast?_eq_some_getLast hcompleted⟩
  have hpositive : s.pool.inflightCount ≠ 0 := Nat.ne_of_gt (h.waits hwaiting)
  have halive := h.alive request (List.mem_append_right _ (List.mem_of_getLast? hlast))
  have harmed : CompletionRequest.complete ⟨some request.coroutine,0,false⟩
      request.completionResult (fun _ => false) =
      .ok (⟨none,request.completionResult,true⟩,request.coroutine) :=
    CompletionRequest.Armed.complete ⟨rfl,rfl⟩ _ rfl _
  simp only [ThreadPoolState.step,if_pos hwaiting,ThreadPoolState.resume,ThreadPool.waitOne,
    if_neg hpositive,hlast,Option.map_some,halive,awaiting,harmed]
  exact ⟨_,rfl⟩

/-- As long as requests are queued, no worker has exited. -/
theorem Sound.takes (h : Sound workerCount maxInflight s) (hworkers : 0 < workerCount)
    (hqueued : s.pool.workQueue ≠ []) (hexecuting : s.pool.executing = []) :
    ∃ s', s.step .take = some s' := by
  have hnone : s.exited = 0 := by
    by_contra hexit
    exact hqueued (h.exits (Nat.pos_of_ne_zero hexit)).2
  have hcount := h.workers
  rw [hexecuting,List.length_nil] at hcount
  have hidle : 0 < s.idle := by omega
  obtain ⟨request,hlast⟩ : ∃ request, s.pool.workQueue.getLast? = some request :=
    ⟨_,List.getLast?_eq_some_getLast hqueued⟩
  simp only [ThreadPoolState.step,if_pos hidle,ThreadPool.take,hlast,Option.map_some]
  exact ⟨_,rfl⟩

def remaining (s : ThreadPoolState) : ℕ :=
  3*s.pool.workQueue.length+2*s.pool.executing.length+s.idle+(if s.driver = .joining then 1 else 0)

/-- The destructor has begun, or is over. -/
def Stopped (s : ThreadPoolState) : Prop := s.driver = .joining ∨ s.driver = .ended

theorem Stopped.step (h : s.Stopped) {action : ThreadPoolAction}
    (hstep : s.step action = some s') : s'.Stopped ∧ s'.remaining < s.remaining := by
  have hrunning : s.driver ≠ .running := by
    rintro hrunning
    rw [Stopped,hrunning] at h
    rcases h with h | h <;> cases h
  have hwaiting : s.driver ≠ .waiting := by
    rintro hwaiting
    rw [Stopped,hwaiting] at h
    rcases h with h | h <;> cases h
  cases action with
  | read | waitOne | drop | destroy =>
    simp only [ThreadPoolState.step,if_neg hrunning] at hstep
    cases hstep
  | resume =>
    simp only [ThreadPoolState.step,if_neg hwaiting] at hstep
    cases hstep
  | join =>
    simp only [ThreadPoolState.step] at hstep
    split at hstep
    · rename_i hjoin
      obtain rfl := Option.some.inj hstep
      exact ⟨.inr rfl,by simp [remaining,hjoin.1]⟩
    · cases hstep
  | take =>
    simp only [ThreadPoolState.step] at hstep
    split at hstep
    · rename_i hidle
      obtain ⟨pool,htake,rfl⟩ := Option.map_eq_some_iff.mp hstep
      obtain ⟨request,hlast,rfl⟩ := Option.map_eq_some_iff.mp htake
      have hlength := congrArg List.length (List.dropLast_append_getLast? request hlast)
      simp only [List.length_append,List.length_singleton] at hlength
      refine ⟨h,?_⟩
      simp only [remaining,List.length_append,List.length_singleton]
      omega
    · cases hstep
  | publish index script =>
    simp only [ThreadPoolState.step,ThreadPoolState.publish] at hstep
    split at hstep
    · cases hstep
    · rename_i request hrequest
      split at hstep
      · obtain ⟨pool,hpublish,rfl⟩ := Option.map_eq_some_iff.mp hstep
        simp only [ThreadPool.publish,hrequest,Option.map_some] at hpublish
        obtain rfl := Option.some.inj hpublish
        have hindex := (List.getElem?_eq_some_iff.mp hrequest).1
        have hlength := List.length_eraseIdx_of_lt hindex
        refine ⟨h,?_⟩
        simp only [remaining]
        omega
      · cases hstep
  | exit =>
    simp only [ThreadPoolState.step] at hstep
    split at hstep
    · rename_i hexit
      obtain rfl := Option.some.inj hstep
      refine ⟨h,?_⟩
      simp only [remaining]
      omega
    · cases hstep

end ThreadPoolState

open ThreadPoolState in
/-- What holds of a thread pool, its driver and its reads at every point. -/
structure ThreadPoolContract (workerCount maxInflight : ℕ) (s : ThreadPoolState) : Prop where
  inflight : s.pool.inflightCount =
    s.pool.workQueue.length+s.pool.executing.length+s.pool.completionQueue.length
  disjoint : (s.outstanding.map (·.coroutine)).Nodup
  bounded : s.pool.inflightCount ≤ maxInflight ∧ s.pool.workQueue.length ≤ maxInflight ∧
    s.pool.completionQueue.length ≤ maxInflight
  accepts : ∀ request, (s.pool.trySubmit request).2 = 0 ↔
    s.pool.stopping = false ∧ s.pool.inflightCount < maxInflight
  refuses : ∀ request, (s.pool.trySubmit request).2 ≠ 0 → (s.pool.trySubmit request).1 = s.pool
  executed : s.submitted.Perm (s.pool.workQueue++s.pool.executing++s.executed.map Prod.fst)
  executed_once : (s.executed.map fun e => e.1.coroutine).Nodup
  executed_own : ∀ e ∈ s.executed, s.calls[e.1.coroutine]? = some e.1.arguments
  resumed_once : (s.resumed.map Prod.fst).Nodup
  delivered : ∀ coroutine result, (coroutine,result) ∈ s.resumed →
    ∃ e ∈ s.executed, e.1.coroutine = coroutine ∧ result = readOutcome e.2
  suspended : ∀ r ∈ s.outstanding, s.coroutines[r.coroutine]? = some (.suspended (awaiting r))
  waits : s.driver = .waiting → s.outstanding ≠ [] ∧ ((∃ s', s.step .resume = some s') ∨
    (∃ s', s.step .take = some s') ∨ s.pool.executing ≠ [])
  exits : 0 < s.exited → s.pool.stopping = true ∧ s.pool.workQueue = []
  joins : s.driver = .joining → (∃ s', s.step .join = some s') ∨ (∃ s', s.step .take = some s') ∨
    (∃ s', s.step .exit = some s') ∨ s.pool.executing ≠ []
  joined : s.driver = .ended → s.exited = workerCount ∧ s.submitted.Perm (s.executed.map Prod.fst)

namespace ThreadPoolState

variable {workerCount maxInflight : ℕ} {s : ThreadPoolState}

theorem Sound.contract (h : Sound workerCount maxInflight s) (hworkers : 0 < workerCount) :
    ThreadPoolContract workerCount maxInflight s := by
  have hcount := h.count_eq
  have hle := h.count_le
  have hbusy := h.workers
  simp only [outstanding,List.length_append] at hcount
  refine {
    inflight := hcount
    disjoint := h.places_nodup.of_append_left
    bounded := ⟨hle,by omega,by omega⟩
    accepts := fun request => ?_
    refuses := fun request hne => ?_
    executed := h.ledger
    executed_once := ?_
    executed_own := fun e he => (h.called _ (h.mem_submitted he)).1
    resumed_once := h.places_nodup.of_append_right
    delivered := fun coroutine result hmem => ?_
    suspended := h.alive
    waits := fun hwaiting => ?_
    exits := h.exits
    joins := fun hjoining => ?_
    joined := fun hended => ?_ }
  · rw [← h.maxInflight_eq]
    rcases s.pool.trySubmit_cases request with ⟨hopen,hlt,haccepted⟩ | ⟨hrefused,-,hneg⟩
    · rw [haccepted]
      exact ⟨fun _ => ⟨hopen,hlt⟩,fun _ => rfl⟩
    · constructor
      · intro hzero
        omega
      · rintro ⟨hopen,hlt⟩
        rcases hrefused with hstop | hfull
        · rw [hopen] at hstop
          cases hstop
        · omega
  · rcases s.pool.trySubmit_cases request with ⟨-,-,haccepted⟩ | ⟨-,hsame,-⟩
    · rw [haccepted] at hne
      exact absurd rfl hne
    · exact hsame
  · have hnodup := (h.ledger.map (·.coroutine)).nodup_iff.mp h.submitted_nodup
    rw [List.map_append,List.map_map] at hnodup
    exact hnodup.of_append_right
  · obtain ⟨e,he,hd⟩ := h.delivered _ hmem
    obtain ⟨rfl,rfl⟩ := Prod.mk.inj hd
    exact ⟨e,he,rfl,rfl⟩
  · have hpositive := h.waits hwaiting
    have hsome : s.outstanding ≠ [] := by
      intro hnil
      rw [h.count_eq,hnil] at hpositive
      cases hpositive
    refine ⟨hsome,?_⟩
    by_cases hcompleted : s.pool.completionQueue = []
    · by_cases hexecuting : s.pool.executing = []
      · have hqueued : s.pool.workQueue ≠ [] := by
          rintro hnil
          simp [outstanding,hcompleted,hexecuting,hnil] at hsome
        exact .inr (.inl (h.takes hworkers hqueued hexecuting))
      · exact .inr (.inr hexecuting)
    · exact .inl (h.resumes hwaiting hcompleted)
  · by_cases hexecuting : s.pool.executing = []
    · by_cases hqueued : s.pool.workQueue = []
      · have hstop := h.stopping_iff.mpr (.inl hjoining)
        by_cases hidle : s.idle = 0
        · exact .inl ⟨_,if_pos ⟨hjoining,hidle,hexecuting⟩⟩
        · exact .inr (.inr (.inl ⟨_,if_pos ⟨Nat.pos_of_ne_zero hidle,hstop,hqueued⟩⟩))
      · exact .inr (.inl (h.takes hworkers hqueued hexecuting))
    · exact .inr (.inr (.inr hexecuting))
  · obtain ⟨hidle,hexecuting⟩ := h.joined hended
    rw [hidle,hexecuting,List.length_nil] at hbusy
    have hledger := h.ledger
    rw [hexecuting,(h.exits (by omega)).2] at hledger
    exact ⟨by omega,hledger⟩

end ThreadPoolState

/-- The contract of a thread pool, and the end of its destructor. -/
theorem thread_pool_contract (workerCount maxInflight : ℕ) (hworkers : 0 < workerCount)
    (hinflight : 0 < maxInflight) :
    ∃ s₀, ThreadPoolState.make workerCount maxInflight none = .ok s₀ ∧
      ∀ s, threadPoolSystem.Reachable s₀ s → ThreadPoolContract workerCount maxInflight s ∧
        (s.driver = .joining → ∀ actions t, threadPoolSystem.exec s actions = some t →
          actions.length ≤ s.remaining) := by
  have hmake : ThreadPoolState.make workerCount maxInflight none =
      .ok ⟨.idle maxInflight,workerCount,0,.running,[],[],[],[],[]⟩ := by
    unfold ThreadPoolState.make
    rw [if_neg (Nat.ne_of_gt hworkers),if_neg (Nat.ne_of_gt hinflight)]
  refine ⟨_,hmake,fun s hs => ⟨?_,fun hjoining actions t hexec => ?_⟩⟩
  · have hsound : ThreadPoolState.Sound workerCount maxInflight s :=
      hs.invariant (fun _ _ _ h hstep => h.step hstep) (ThreadPoolState.sound_make hmake)
    exact hsound.contract hworkers
  · have hstopped : s.Stopped := .inl hjoining
    exact TransitionSystem.exec_length_le (fun _ _ _ h hstep => h.step hstep) hstopped hexec

theorem error_ne_interrupted : SyscallResult.error EIO ≠ .error EINTR := by decide

/-- Two reads over a worker that takes the later one first, with an interrupted call, a short
count and an error. -/
def twoReads : List ThreadPoolAction :=
  [.read ⟨3,some 0,8,0⟩,.read ⟨3,some 1,8,8⟩,.take,.publish 0 (.counting 1 5),.waitOne,.resume,
    .drop 1,.take,.waitOne,.publish 0 ⟨0,.error EIO,error_ne_interrupted⟩,.resume,.destroy,.exit,.join]

theorem thread_pool_contract_twoReads : ∃ s₀ s, ThreadPoolState.make 1 2 none = .ok s₀ ∧
    threadPoolSystem.exec s₀ twoReads = some s ∧ s.driver = .ended ∧
    s.resumed = [(1,.ok 5),(0,.error (.systemError EIO "thread-pool read"))] ∧
    ThreadPoolContract 1 2 s := by
  obtain ⟨s₀,hmake,hcontract⟩ := thread_pool_contract 1 2 (by decide) (by decide)
  obtain rfl := Except.ok.inj hmake
  exact ⟨_,_,rfl,rfl,rfl,rfl,(hcontract _ ⟨twoReads,rfl⟩).1⟩

end AsyncDataLoader
