import AsyncDataLoader.IOBackend
import AsyncDataLoader.LeaseOwnership

/-!
# A run over a backend

`PipelineExecutor::run` with the `complete_read` of its reader taken apart into the task, the calls
of a backend, and the loop that waits for the task. The other threads and the backend go on between
any two of these steps.
-/

namespace AsyncDataLoader

open FileIO

inductive CompleteRead (A : Type)
  | create -- read_backend.read_at(...)
  | start (arguments : ReadArguments) (task : Task ℕ A)
  | test (task : Task ℕ A) -- while (!read_task.done())
  | wait (task : Task ℕ A)
  | result (task : Task ℕ A)

structure BackedState (β : IOBackend) (σ : Type*) where
  run : RunState σ
  backend : β.State
  read : CompleteRead β.Awaiter

/-- `readAt` may throw before there is a task; `data` is what the backend has stored. -/
inductive BackedAction (β : IOBackend)
  | thread (t : Thread)
  | readAt (failure : Option Failure)
  | start (event : β.Event)
  | test
  | waitOne (event : β.Event)
  | result (data : Bytes)
  | progress (event : β.Event)

def Reader.isReading : Reader → Bool
  | .read _ _ _ => true
  | _ => false

namespace RunCall

variable {σ : Type*} (call : RunCall σ) {β : IOBackend}

/-- The answer of the backend takes the place of the one that the call has for its reads. -/
def answering (r : Except Failure Bytes) : RunCall σ := { call with readAt := fun _ _ => r }

/-- `input_fd`, `buffer.bytes()` and `file_offset` -/
def readArguments (sh : Shared σ) (fileOffset buffer : ℕ) : ReadArguments :=
  ⟨call.inputFd,some buffer,(sh.pool.bytes buffer).length,fileOffset⟩

/-- The step of the reader in which `complete_read` returns, or throws. -/
def completed (s : BackedState β σ) (r : Except Failure Bytes) : Option (BackedState β σ) :=
  ((call.answering r).readerStep s.run.shared s.run.reader).map fun (reader,shared) =>
    { s with run := { s.run with reader := reader, shared := shared }, read := .create }

def backedStep (s : BackedState β σ) : BackedAction β → Option (BackedState β σ)
  | .thread t =>
    if t = .worker .reader ∧ s.run.reader.isReading then none
    else (call.system.step t s.run).map fun run => { s with run := run }
  | .readAt failure =>
    match s.run.reader,s.read with
    | .read _ fileOffset buffer,.create =>
      match failure with
      | some failure => call.completed s (.error failure)
      | none =>
        let arguments := call.readArguments s.run.shared fileOffset buffer
        some { s with read := .start arguments (.create ℕ β.Awaiter) }
    | _,_ => none
  | .start event =>
    match s.read with
    | .start arguments task =>
      match task.start with
      | .error failure => call.completed s (.error failure)
      | .ok task => (β.readAt s.backend event arguments).map fun (backend,step) =>
          { s with backend := backend, read := .test (task.resume step) }
    | _ => none
  | .test =>
    match s.read with
    | .test task => some { s with read := if task.done then .result task else .wait task }
    | _ => none
  | .waitOne event =>
    match s.read with
    | .wait task =>
      match task.handle with
      | some ⟨.suspended awaiter,_⟩ =>
        (β.waitOne s.backend event awaiter).bind fun (backend,r) =>
          match r with
          | .error failure => call.completed { s with backend := backend } (.error failure)
          | .ok step => some { s with backend := backend, read := .test (task.resume step) }
      | _ => none -- not reached: a started task that is not done is suspended
    | _ => none
  | .result data =>
    match s.read with
    | .result task =>
      match task.result with
      | .error failure => call.completed s (.error failure)
      | .ok (.error failure,_) => call.completed s (.error failure)
      | .ok (.ok n,_) => if data.length = n then call.completed s (.ok data) else none
    | _ => none
  | .progress event => (β.progress s.backend event).map fun backend => { s with backend := backend }

def backedSystem (β : IOBackend) : TransitionSystem (BackedAction β) (BackedState β σ) where
  step action s := call.backedStep s action

end RunCall

variable {σ : Type*} {call : RunCall σ} {β : IOBackend}

/-- What the task and the backend are for the arguments of the read. -/
def CompleteRead.Fits (contract : β.Contract) (b : β.State) (arguments : ReadArguments) :
    CompleteRead β.Awaiter → Prop
  | .create => contract.Idle b
  | .start copied task => copied = arguments ∧ task = .create ℕ β.Awaiter ∧ contract.Idle b
  | .test task => ∃ step, task = .ran step ∧
      step.Outcome contract.Idle contract.Pending b arguments
  | .wait task => ∃ awaiter, task = .ran (.suspends awaiter) ∧
      contract.Pending b arguments awaiter
  | .result task => task.done = true ∧ ∃ step, task = .ran step ∧
      step.Outcome contract.Idle contract.Pending b arguments

def Reader.MayRead : Reader → Prop
  | .notStarted => True
  | .acquire _ _ => True
  | .push _ => True
  | _ => False

structure Served (call : RunCall σ) (contract : β.Contract) (s : BackedState β σ) : Prop where
  sound : s.run.Sound call
  inside : ∀ k o buffer, s.run.reader = .read k o buffer →
    s.read.Fits contract s.backend (call.readArguments s.run.shared o buffer)
  outside : (∀ k o buffer, s.run.reader ≠ .read k o buffer) → s.read = .create
  idle : s.run.reader.MayRead → contract.Idle s.backend

theorem RunState.Sound.answering {s : RunState σ} (h : s.Sound call) (r : Except Failure Bytes) :
    s.Sound (call.answering r) :=
  ⟨h.agrees,h.orderly,h.owned,h.valid,h.buffers_length,h.bytes_length,h.metric⟩

theorem RunState.Sound.of_answering {s : RunState σ} {r : Except Failure Bytes}
    (h : s.Sound (call.answering r)) : s.Sound call :=
  ⟨h.agrees,h.orderly,h.owned,h.valid,h.buffers_length,h.bytes_length,h.metric⟩

theorem RunCall.reader_of_other {s s' : RunState σ} {t : Thread} (ht : t ≠ .worker .reader)
    (horderly : s.Orderly) (h : call.system.step t s = some s') :
    s'.reader = s.reader ∨ s.reader = .notStarted ∧ s'.reader = .acquire 0 0 := by
  cases t with
  | worker w =>
    cases w with
    | reader => exact absurd rfl ht
    | processor | writer =>
      obtain ⟨_,-,rfl⟩ := Option.map_eq_some_iff.mp h
      exact .inl rfl
  | caller =>
    cases RunCall.callerStep_move h with
    | readerStarted hcaller hstart =>
      exact .inr ⟨horderly.readerWaits (by rw [hcaller]; trivial),rfl⟩
    | writerStarted | processorStarted | startFailed | failing | joined => exact .inl rfl

namespace Served

variable {contract : β.Contract} {s s' : BackedState β σ}

theorem reading (h : Served call contract s) (hread : s.read ≠ .create) :
    ∃ k o buffer, s.run.reader = .read k o buffer := by
  by_contra hnone
  push Not at hnone
  exact hread (h.outside hnone)

theorem thread (h : Served call contract s) {t : Thread}
    (hstep : call.backedStep s (.thread t) = some s') : Served call contract s' := by
  obtain ⟨hguard,hmap⟩ := Option.ite_none_left_eq_some.mp hstep
  obtain ⟨run,hrun,rfl⟩ := Option.map_eq_some_iff.mp hmap
  have hsound := sound_step h.sound hrun
  by_cases ht : t = .worker .reader
  · subst ht
    have hnot : s.run.reader.isReading ≠ true := fun hreading => hguard ⟨rfl,hreading⟩
    obtain ⟨⟨reader,shared⟩,hreader,rfl⟩ := Option.map_eq_some_iff.mp hrun
    have hmove := RunCall.readerStep_move hreader
    have houtside : s.read = .create := h.outside fun k o buffer heq => by
      rw [heq] at hnot
      exact hnot rfl
    have hidle := h.idle
    generalize s.run.reader = place at hmove hnot hidle
    cases hmove with
    | acquired hpool =>
      refine ⟨hsound,fun k o buffer _ => ?_,fun _ => houtside,nofun⟩
      change s.read.Fits contract s.backend _
      rw [houtside]
      exact hidle trivial
    | pushed => exact ⟨hsound,nofun,fun _ => houtside,fun _ => hidle trivial⟩
    | readFailed | readEof | rejected | received => exact absurd rfl hnot
    | refused | closed | released | unwound =>
      exact ⟨hsound,nofun,fun _ => houtside,fun hmay => hmay.elim⟩
    | @failing place sh' next hfail =>
      cases next <;> exact ⟨hsound,nofun,fun _ => houtside,fun hmay => hmay.elim⟩
  · have hshape := shape_step hrun
    rcases RunCall.reader_of_other ht h.sound.orderly hrun with hsame | ⟨hbefore,hafter⟩
    · refine ⟨hsound,fun k o buffer hreader => ?_,fun hnone => h.outside ?_,fun hmay => h.idle ?_⟩
      · have hfits := h.inside k o buffer (hsame.symm.trans hreader)
        rw [RunCall.readArguments] at hfits ⊢
        rwa [hshape.bytes_length buffer]
      · rwa [← hsame]
      · rwa [← hsame]
    · have houtside : s.read = .create := h.outside fun k o buffer heq => by
        rw [hbefore] at heq
        cases heq
      refine ⟨hsound,fun k o buffer hreader => ?_,fun _ => houtside,fun _ => h.idle ?_⟩
      · rw [hafter] at hreader
        cases hreader
      · rw [hbefore]
        trivial

/-- When `complete_read` returns, the backend is idle again; after an exception the reader does not
read again. -/
theorem completed (h : Served call contract s) {k o buffer : ℕ}
    (hreading : s.run.reader = .read k o buffer) {b : β.State} {r : Except Failure Bytes}
    (hidle : ∀ data, r = .ok data → contract.Idle b)
    (hstep : call.completed { s with backend := b } r = some s') : Served call contract s' := by
  obtain ⟨⟨reader,shared⟩,hreader,rfl⟩ := Option.map_eq_some_iff.mp hstep
  have hrun : (call.answering r).system.step (.worker .reader) s.run =
      some { s.run with reader := reader, shared := shared } :=
    Option.map_eq_some_iff.mpr ⟨_,hreader,rfl⟩
  have hsound := (sound_step (h.sound.answering r) hrun).of_answering
  have hmove := RunCall.readerStep_move hreader
  rw [hreading] at hmove
  cases hmove with
  | readFailed | readEof | rejected =>
    exact ⟨hsound,nofun,fun _ => rfl,fun hmay => hmay.elim⟩
  | received hread => exact ⟨hsound,nofun,fun _ => rfl,fun _ => hidle _ hread⟩

theorem within (h : Served call contract s) {k o buffer : ℕ}
    (hreading : s.run.reader = .read k o buffer) {b : β.State} {read : CompleteRead β.Awaiter}
    (hfits : read.Fits contract b (call.readArguments s.run.shared o buffer)) :
    Served call contract { s with backend := b, read := read } := by
  refine ⟨h.sound,fun k' o' buffer' heq => ?_,fun hnone => absurd hreading (hnone k o buffer),
    fun hmay => ?_⟩
  · obtain ⟨-,rfl,rfl⟩ := Reader.read.inj (hreading.symm.trans heq)
    exact hfits
  · change s.run.reader.MayRead at hmay
    rw [hreading] at hmay
    exact hmay.elim

theorem readAt (h : Served call contract s) {failure : Option Failure}
    (hstep : call.backedStep s (.readAt failure) = some s') : Served call contract s' := by
  simp only [RunCall.backedStep] at hstep
  split at hstep
  · rename_i k o buffer hreading hread
    split at hstep
    · exact h.completed (b := s.backend) (r := .error _) hreading nofun hstep
    · obtain rfl := Option.some.inj hstep
      have hfits := h.inside k o buffer hreading
      rw [hread] at hfits
      exact h.within (b := s.backend) hreading ⟨rfl,rfl,hfits⟩
  · cases hstep

theorem start (h : Served call contract s) {event : β.Event}
    (hstep : call.backedStep s (.start event) = some s') : Served call contract s' := by
  simp only [RunCall.backedStep] at hstep
  split at hstep
  · rename_i arguments task hread
    obtain ⟨k,o,buffer,hreading⟩ := h.reading (by rw [hread]; nofun)
    have hfits := h.inside k o buffer hreading
    rw [hread] at hfits
    obtain ⟨rfl,rfl,hidle⟩ := hfits
    rw [Task.start_create] at hstep
    obtain ⟨⟨b,step⟩,hbody,rfl⟩ := Option.map_eq_some_iff.mp hstep
    exact h.within hreading ⟨step,Task.resume_started step,contract.readAt_outcome hidle hbody⟩
  · cases hstep

theorem test (h : Served call contract s) (hstep : call.backedStep s .test = some s') :
    Served call contract s' := by
  simp only [RunCall.backedStep] at hstep
  split at hstep
  · rename_i task hread
    obtain ⟨k,o,buffer,hreading⟩ := h.reading (by rw [hread]; nofun)
    have hfits := h.inside k o buffer hreading
    rw [hread] at hfits
    obtain ⟨step,rfl,houtcome⟩ := hfits
    obtain rfl := Option.some.inj hstep
    cases hdone : (Task.ran step).done with
    | true => exact h.within (b := s.backend) hreading ⟨hdone,step,rfl,houtcome⟩
    | false =>
      obtain ⟨awaiter,rfl⟩ := Task.suspends_of_not_done hdone
      exact h.within (b := s.backend) hreading ⟨awaiter,rfl,houtcome⟩
  · cases hstep

theorem waitOne (h : Served call contract s) {event : β.Event}
    (hstep : call.backedStep s (.waitOne event) = some s') : Served call contract s' := by
  simp only [RunCall.backedStep] at hstep
  split at hstep
  · rename_i task hread
    obtain ⟨k,o,buffer,hreading⟩ := h.reading (by rw [hread]; nofun)
    have hfits := h.inside k o buffer hreading
    rw [hread] at hfits
    obtain ⟨awaiter,rfl,hpending⟩ := hfits
    obtain ⟨⟨b,r⟩,hwait,hr⟩ := Option.bind_eq_some_iff.mp hstep
    cases r with
    | error failure => exact h.completed (r := .error _) hreading nofun hr
    | ok step =>
      obtain rfl := Option.some.inj hr
      exact h.within hreading
        ⟨step,Task.resume_ran awaiter step,contract.waitOne_outcome hpending hwait⟩
  · cases hstep

theorem result (h : Served call contract s) {data : Bytes}
    (hstep : call.backedStep s (.result data) = some s') : Served call contract s' := by
  simp only [RunCall.backedStep] at hstep
  split at hstep
  · rename_i task hread
    obtain ⟨k,o,buffer,hreading⟩ := h.reading (by rw [hread]; nofun)
    have hfits := h.inside k o buffer hreading
    rw [hread] at hfits
    obtain ⟨hdone,step,rfl,houtcome⟩ := hfits
    rcases Task.result_ran hdone with ⟨n,task,rfl,hresult⟩ | ⟨failure,rfl,hresult⟩
    · rw [hresult] at hstep
      obtain ⟨-,hcompleted⟩ := Option.ite_none_right_eq_some.mp hstep
      exact h.completed (b := s.backend) hreading (fun _ _ => houtcome.2) hcompleted
    · rw [hresult] at hstep
      exact h.completed (b := s.backend) (r := .error _) hreading nofun hstep
  · cases hstep

theorem progress (h : Served call contract s) {event : β.Event}
    (hstep : call.backedStep s (.progress event) = some s') : Served call contract s' := by
  obtain ⟨b,hprogress,rfl⟩ := Option.map_eq_some_iff.mp hstep
  refine ⟨h.sound,fun k o buffer hreading => ?_,h.outside,
    fun hmay => contract.progress_idle (h.idle hmay) hprogress⟩
  have hfits := h.inside k o buffer hreading
  have houtcome : ∀ {step arguments}, BodyStep.Outcome contract.Idle contract.Pending s.backend
      arguments step → step.Outcome contract.Idle contract.Pending b arguments := by
    intro step arguments h
    cases step with
    | suspends awaiter => exact contract.progress_pending h hprogress
    | returns n => exact ⟨h.1,contract.progress_idle h.2 hprogress⟩
    | throws failure => trivial
  change s.read.Fits contract b _
  cases hread : s.read with
  | create =>
    rw [hread] at hfits
    exact contract.progress_idle hfits hprogress
  | start arguments task =>
    rw [hread] at hfits
    exact ⟨hfits.1,hfits.2.1,contract.progress_idle hfits.2.2 hprogress⟩
  | test task =>
    rw [hread] at hfits
    obtain ⟨step,hran,hkept⟩ := hfits
    exact ⟨step,hran,houtcome hkept⟩
  | wait task =>
    rw [hread] at hfits
    obtain ⟨awaiter,hran,hpending⟩ := hfits
    exact ⟨awaiter,hran,contract.progress_pending hpending hprogress⟩
  | result task =>
    rw [hread] at hfits
    obtain ⟨hdone,step,hran,hkept⟩ := hfits
    exact ⟨hdone,step,hran,houtcome hkept⟩

theorem step (h : Served call contract s) {action : BackedAction β}
    (hstep : (call.backedSystem β).step action s = some s') : Served call contract s' := by
  cases action with
  | thread t => exact h.thread hstep
  | readAt failure => exact h.readAt hstep
  | start event => exact h.start hstep
  | test => exact h.test hstep
  | waitOne event => exact h.waitOne hstep
  | result data => exact h.result hstep
  | progress event => exact h.progress hstep

end Served
namespace RunCall

variable {s s' : BackedState β σ}

theorem completed_run {r : Except Failure Bytes} (hstep : call.completed s r = some s') :
    ({ call with readAt := fun _ _ => r }.system.step (.worker .reader) s.run) = some s'.run := by
  obtain ⟨⟨reader,shared⟩,hreader,rfl⟩ := Option.map_eq_some_iff.mp hstep
  exact Option.map_eq_some_iff.mpr ⟨_,hreader,rfl⟩

/-- A step over a backend is none of the run, or is one with the answer that the backend gives. -/
theorem backedStep_run {action : BackedAction β} (hstep : call.backedStep s action = some s') :
    s'.run = s.run ∨
      ∃ readAt t, { call with readAt := readAt }.system.step t s.run = some s'.run := by
  have hcompleted : ∀ {b : β.State} {r : Except Failure Bytes},
      call.completed { s with backend := b } r = some s' →
      ∃ readAt t, { call with readAt := readAt }.system.step t s.run = some s'.run :=
    fun {b _} h => ⟨_,_,@completed_run _ call β { s with backend := b } s' _ h⟩
  cases action with
  | thread t =>
    obtain ⟨-,hmap⟩ := Option.ite_none_left_eq_some.mp hstep
    obtain ⟨run,hrun,rfl⟩ := Option.map_eq_some_iff.mp hmap
    exact .inr ⟨call.readAt,t,hrun⟩
  | readAt failure =>
    simp only [backedStep] at hstep
    split at hstep
    · split at hstep
      · exact .inr (hcompleted hstep)
      · obtain rfl := Option.some.inj hstep
        exact .inl rfl
    · cases hstep
  | start event =>
    simp only [backedStep] at hstep
    split at hstep
    · split at hstep
      · exact .inr (hcompleted hstep)
      · obtain ⟨_,-,rfl⟩ := Option.map_eq_some_iff.mp hstep
        exact .inl rfl
    · cases hstep
  | test =>
    simp only [backedStep] at hstep
    split at hstep
    · obtain rfl := Option.some.inj hstep
      exact .inl rfl
    · cases hstep
  | waitOne event =>
    simp only [backedStep] at hstep
    split at hstep
    · split at hstep
      · obtain ⟨⟨b,r⟩,-,hr⟩ := Option.bind_eq_some_iff.mp hstep
        cases r with
        | error failure => exact .inr (hcompleted hr)
        | ok step =>
          obtain rfl := Option.some.inj hr
          exact .inl rfl
      · cases hstep
    · cases hstep
  | result data =>
    simp only [backedStep] at hstep
    split at hstep
    · split at hstep
      · exact .inr (hcompleted hstep)
      · exact .inr (hcompleted hstep)
      · obtain ⟨-,h⟩ := Option.ite_none_right_eq_some.mp hstep
        exact .inr (hcompleted h)
    · cases hstep
  | progress event =>
    obtain ⟨_,-,rfl⟩ := Option.map_eq_some_iff.mp hstep
    exact .inl rfl

theorem backed_invariant {I : RunState σ → Prop}
    (hI : ∀ {readAt t u u'}, I u → { call with readAt := readAt }.system.step t u = some u' → I u')
    {s₀ : BackedState β σ} (h₀ : I s₀.run) (hs : (call.backedSystem β).Reachable s₀ s) : I s.run := by
  refine @TransitionSystem.Reachable.invariant _ _ (call.backedSystem β) (fun s => I s.run)
    (fun action u u' hu hstep => ?_) s₀ s h₀ hs
  rcases backedStep_run hstep with hsame | ⟨readAt,t,hrun⟩
  · rw [hsame]
    exact hu
  · exact hI hu hrun

end RunCall

/-- The writer has not written more of a block than there is. -/
def RunState.WritesInside (s : RunState σ) : Prop :=
  ∀ item count, s.writer = .write item count → count ≤ (s.shared.validData item).length

theorem Shared.validData_length {sh sh' : Shared σ} (h : sh.pool.SameShape sh'.pool)
    (item : BlockWorkItem) : (sh'.validData item).length = (sh.validData item).length := by
  rw [Shared.validData,Shared.validData,List.length_take,List.length_take,h.bytes_length]

theorem RunState.WritesInside.step {s s' : RunState σ} {t : Thread} (h : s.WritesInside)
    (hwrites : WritesWithin call.writeAt) (hstep : call.system.step t s = some s') :
    s'.WritesInside := by
  intro item count hwriter
  rw [Shared.validData_length (shape_step hstep)]
  rcases RunCall.step_cases hstep with ⟨r,sh,-,rfl⟩ | ⟨p,sh,-,rfl⟩ | ⟨w,sh,hmove,rfl⟩ | hmove
  · exact h item count hwriter
  · exact h item count hwriter
  · have hw : w = .write item count := hwriter
    generalize s.writer = place at h hmove
    cases hmove with
    | popped =>
      obtain ⟨-,rfl⟩ := Writer.write.inj hw
      exact Nat.zero_le _
    | wrote hwrite =>
      obtain ⟨rfl,rfl⟩ := Writer.write.inj hw
      exact hwrites.next_le hwrite
    | @failing place sh' next hfail => cases next <;> cases hw
    | ended | popFailed | finished | writeFailed | released | unwound => cases hw
  · cases hmove with
    | writerStarted => cases hwriter
    | processorStarted | readerStarted | startFailed | failing | joined => exact h item count hwriter

/-- None of the branches for an inconsistency of the program itself is taken next: a push that is
told that its queue is closed, a write that is short without an error, a block that is no item, a
task that is misused, a slot that is not as asserted. -/
structure Consistent (call : RunCall σ) (s : BackedState β σ) : Prop where
  reader_push : ∀ item queue result, s.run.reader = .push item →
    s.run.shared.readToProcess.push item = some (queue,result) → result ≠ .ok false
  processor_push : ∀ item queue result, s.run.processor = .push item →
    s.run.shared.processToWrite.push item = some (queue,result) → result ≠ .ok false
  write_full : ∀ item count result, s.run.writer = .write item count →
    writeAttempt call.writeAt (s.run.shared.validData item) item.fileOffset
      ⟨count,s.run.shared.output⟩ = .inl result →
    result.errorNumber = 0 → result.bytesWritten = (s.run.shared.validData item).length
  item_made : ∀ k o buffer task task' n, s.run.reader = .read k o buffer →
    s.read = .result task → task.result = .ok (.ok n,task') → n ≠ 0 →
    ∃ item, BlockWorkItem.make k o n (some buffer) (s.run.shared.pool.bytes buffer).length = .ok item
  task_start : ∀ arguments task, s.read = .start arguments task → ∃ started, task.start = .ok started
  task_result : ∀ task, s.read = .result task → ∃ result, task.result = .ok result
  read_slots : s.run.shared.readToProcess.queue.SlotsAsserted
  write_slots : s.run.shared.processToWrite.queue.SlotsAsserted

theorem Served.consistent {contract : β.Contract} {s : BackedState β σ}
    (h : Served call contract s) (hwriter : s.run.WritesInside)
    (hwrites : WritesWithin call.writeAt) : Consistent call s := by
  have hfits : ∀ {read}, s.read = read → read ≠ .create → ∃ k o buffer,
      s.run.reader = .read k o buffer ∧
      read.Fits contract s.backend (call.readArguments s.run.shared o buffer) := by
    rintro read rfl hread
    obtain ⟨k,o,buffer,hreading⟩ := h.reading hread
    exact ⟨k,o,buffer,hreading,h.inside k o buffer hreading⟩
  refine ⟨fun item queue result hreader hpush => ?_,fun item queue result hprocessor hpush => ?_,
    fun item count result hplace hattempt hdone =>
      hwrites.complete (hwriter item count hplace) hattempt hdone,
    fun k o buffer task task' n hreading hread hresult hn => ?_,fun arguments task hread => ?_,
    fun task hread => ?_,s.run.shared.readToProcess.wellFormed.slotsAsserted,
    s.run.shared.processToWrite.wellFormed.slotsAsserted⟩
  · -- Only the reader closes its queue, and it does so when it has ended.
    rintro rfl
    rcases CheckedQueue.push_cases hpush with ⟨hr,-⟩ | ⟨-,hclosed,-⟩ | ⟨_,hr,-⟩
    · cases hr
    · have hended := h.sound.orderly.readClosed hclosed
      rw [hreader] at hended
      exact hended
    · cases hr
  · rintro rfl
    rcases CheckedQueue.push_cases hpush with ⟨hr,-⟩ | ⟨-,hclosed,-⟩ | ⟨_,hr,-⟩
    · cases hr
    · have hended := h.sound.orderly.writeClosed hclosed
      rw [hprocessor] at hended
      cases hended
    · cases hr
  · have hresultFits := h.inside k o buffer hreading
    rw [hread] at hresultFits
    obtain ⟨hdone,step,rfl,houtcome⟩ := hresultFits
    rcases Task.result_ran hdone with ⟨m,consumed,rfl,hm⟩ | ⟨failure,rfl,hm⟩
    · obtain ⟨heq,-⟩ := Prod.mk.inj (Except.ok.inj (hresult.symm.trans hm))
      obtain rfl := Except.ok.inj heq
      have hle : n ≤ (s.run.shared.pool.bytes buffer).length := houtcome.1
      refine ⟨⟨k,o,n,buffer⟩,?_⟩
      rw [BlockWorkItem.make,if_neg hn,if_neg (Nat.not_lt.mpr hle)]
    · obtain ⟨heq,-⟩ := Prod.mk.inj (Except.ok.inj (hresult.symm.trans hm))
      cases heq
  · obtain ⟨k,o,buffer,-,-,rfl,-⟩ := hfits hread nofun
    exact ⟨_,Task.start_create⟩
  · obtain ⟨k,o,buffer,-,hdone,step,rfl,-⟩ := hfits hread nofun
    rcases Task.result_ran hdone with ⟨_,_,-,hresult⟩ | ⟨_,-,hresult⟩
    · exact ⟨_,hresult⟩
    · exact ⟨_,hresult⟩

theorem reachable_served (contract : β.Contract) {s₀ : RunState σ} (hstart : call.start = .ok s₀)
    {b : β.State} (hb : contract.Idle b) {s : BackedState β σ}
    (hs : (call.backedSystem β).Reachable ⟨s₀,b,.create⟩ s) : Served call contract s := by
  have hinitial := start_initial hstart
  refine @TransitionSystem.Reachable.invariant _ _ (call.backedSystem β) (Served call contract)
    (fun _ _ _ h hstep => h.step hstep) ⟨s₀,b,.create⟩ s
    ⟨hinitial.sound,fun k o buffer hreading => ?_,fun _ => rfl,fun _ => hb⟩ hs
  rw [hinitial.reader] at hreading
  cases hreading

/-- No branch for an inconsistency of the program itself is reached, over any backend that keeps
to its contract, in any interleaving, and whatever fails; and nobody waits for a thread pool that
has no request. -/
theorem no_internal_error (call : RunCall σ) {s₀ : RunState σ} (hstart : call.start = .ok s₀)
    (hwrites : WritesWithin call.writeAt) :
    (∀ (β : IOBackend) (contract : β.Contract) (b : β.State) (s : BackedState β σ),
      contract.Idle b → (call.backedSystem β).Reachable ⟨s₀,b,.create⟩ s → Consistent call s) ∧
    ∀ (b : BackendState) (s : BackedState Backend.ioBackend σ), b.backend.Ready →
      (call.backedSystem Backend.ioBackend).Reachable ⟨s₀,b,.create⟩ s →
      ∀ task pool, s.read = .wait task → s.backend.backend = .threadPool pool →
        pool.inflightCount ≠ 0 := by
  constructor
  · intro β contract b s hb hs
    have hwriter : s.run.WritesInside := by
      refine RunCall.backed_invariant (I := RunState.WritesInside)
        (fun {readAt _ _ _} hu hstep => @RunState.WritesInside.step _ { call with readAt := readAt }
          _ _ _ hu hwrites hstep) (fun item count hplace => ?_) hs
      change s₀.writer = _ at hplace
      rw [(start_initial hstart).writer] at hplace
      cases hplace
    exact (reachable_served contract hstart hb hs).consistent hwriter hwrites
  · intro b s hb hs task pool hread hpool
    have hserved := reachable_served Backend.contract hstart hb hs
    obtain ⟨k,o,buffer,hreading⟩ := hserved.reading (by rw [hread]; nofun)
    have hfits := hserved.inside k o buffer hreading
    rw [hread] at hfits
    obtain ⟨awaiter,-,hpending⟩ := hfits
    exact hpending.1.inflightCount hpool

def BackedAction.toWait : List (BackedAction Backend.ioBackend) :=
  [.thread .caller,.thread .caller,.thread .caller,.thread (.worker .reader),.readAt none,
    .start (.start (.counting 0 3) true (.consumed 1)),.test]

theorem no_internal_error_toWait : ∃ s₀ s, (RunCall.smallest [1,2,3]).start = .ok s₀ ∧
    ((RunCall.smallest [1,2,3]).backedSystem Backend.ioBackend).exec
      ⟨s₀,⟨.threadPool (.idle 1),0⟩,.create⟩ BackedAction.toWait = some s ∧
    Consistent (RunCall.smallest [1,2,3]) s ∧
    ∃ task pool, s.read = .wait task ∧ s.backend.backend = .threadPool pool ∧
      pool.inflightCount ≠ 0 := by
  have hwrites : WritesWithin (RunCall.smallest [1,2,3]).writeAt :=
    ⟨fun _ _ _ h => Nat.le_of_eq (SyscallResult.count.inj h).symm,nofun⟩
  have hready : (Backend.threadPool (.idle 1)).Ready := .threadPool 1 false
  refine ⟨_,_,rfl,rfl,?_,_,_,rfl,rfl,?_⟩
  · exact (no_internal_error (RunCall.smallest [1,2,3]) rfl hwrites).1 Backend.ioBackend
      Backend.contract ⟨.threadPool (.idle 1),0⟩ _ hready ⟨BackedAction.toWait,rfl⟩
  · exact (no_internal_error (RunCall.smallest [1,2,3]) rfl hwrites).2 ⟨.threadPool (.idle 1),0⟩ _
      hready ⟨BackedAction.toWait,rfl⟩ _ _ rfl rfl

end AsyncDataLoader
