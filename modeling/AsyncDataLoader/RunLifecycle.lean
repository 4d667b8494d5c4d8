import AsyncDataLoader.FailurePropagation

/-!
# The life of the threads and of their queues

Which thread can have closed which queue, in which order the workers are started, and what
a thread that has ended leaves behind.
-/

namespace AsyncDataLoader

variable {σ : Type*}

def Reader.Ended : Reader → Prop
  | .release _ => True
  | .terminated => True
  | _ => False

def Processor.Drained : Processor → Prop
  | .close => True
  | .terminated => True
  | _ => False

/-- The calling thread has not yet started the reader, and may never do so. -/
def Caller.BeforeReader : Caller → Prop
  | .join => False
  | .done _ => False
  | _ => True

structure RunState.Orderly (s : RunState σ) : Prop where
  readClosed : s.shared.readToProcess.state = .closed → s.reader.Ended
  readerEnded : s.reader.Ended → s.shared.readToProcess.state ≠ .opened
  processorDrained : s.processor.Drained →
    s.shared.readToProcess.state ≠ .opened ∧ s.shared.readToProcess.contents = []
  writeClosed : s.shared.processToWrite.state = .closed → s.processor = .terminated
  processorEnded : s.processor = .terminated → s.shared.processToWrite.state ≠ .opened
  writerEnded : s.writer = .terminated →
    s.shared.processToWrite.state ≠ .opened ∧ s.shared.processToWrite.contents = []
  processorIdle : s.processor = .notStarted →
    s.reader = .notStarted ∧ s.shared.readToProcess.contents = []
  writerIdle : s.writer = .notStarted →
    s.processor = .notStarted ∧ s.shared.processToWrite.contents = []
  readerWaits : s.caller.BeforeReader → s.reader = .notStarted
  processorWaits : s.caller = .startWriter ∨ s.caller = .startProcessor →
    s.processor = .notStarted
  writerWaits : s.caller = .startWriter → s.writer = .notStarted
  writerUp : s.caller = .startProcessor → s.writer ≠ .notStarted
  processorUp : s.caller = .startReader → s.processor ≠ .notStarted
  started : ¬ s.caller.BeforeReader →
    s.reader ≠ .notStarted ∨ ∃ failure, s.shared.processToWrite.state = .failed failure
  finished : ∀ o, s.caller = .done o → RunCall.Joinable s ∧ o = RunCall.outcome s.shared

def CheckedQueue.KeptOrFailed {α : Type*} (q q' : CheckedQueue α) : Prop :=
  q'.toFifo = q.toFifo ∨ ∃ failure, q'.state = .failed failure

namespace CheckedQueue.KeptOrFailed

variable {α : Type*} {q q' : CheckedQueue α}

theorem refl (q : CheckedQueue α) : q.KeptOrFailed q := .inl rfl

theorem fail (q : CheckedQueue α) (failure : Failure) : q.KeptOrFailed (q.fail failure).1 :=
  .inr (q.fail_state_failed failure)

theorem closed (h : q.KeptOrFailed q') (hq : q'.state = .closed) : q.state = .closed := by
  rcases h with hsame | ⟨failure,hfailed⟩
  · exact (state_of_toFifo hsame).symm.trans hq
  · rw [hq] at hfailed; cases hfailed

theorem ne_opened (h : q.KeptOrFailed q') (hq : q.state ≠ .opened) : q'.state ≠ .opened := by
  rcases h with hsame | ⟨failure,hfailed⟩
  · rwa [state_of_toFifo hsame]
  · simp [hfailed]

theorem contents_nil (h : q.KeptOrFailed q') (hq : q.contents = []) : q'.contents = [] := by
  rcases h with hsame | ⟨failure,hfailed⟩
  · rwa [contents_of_toFifo hsame]
  · exact q'.contents_of_failed hfailed

theorem failed (h : q.KeptOrFailed q') (hq : ∃ failure, q.state = .failed failure) :
    ∃ failure, q'.state = .failed failure := by
  rcases h with hsame | hfailed
  · obtain ⟨failure,hf⟩ := hq
    exact ⟨failure,(state_of_toFifo hsame).trans hf⟩
  · exact hfailed

end CheckedQueue.KeptOrFailed

theorem FailMove.queues {sh sh' : Shared σ} {place : FailAll} {next : Option FailAll}
    (h : FailMove sh place sh' next) (hplace : sh.Canonical place) :
    sh.readToProcess.KeptOrFailed sh'.readToProcess ∧
    sh.processToWrite.KeptOrFailed sh'.processToWrite ∧
    (next = none → (∃ failure, sh'.readToProcess.state = .failed failure) ∧
      ∃ failure, sh'.processToWrite.state = .failed failure) := by
  cases h with
  | store failure => exact ⟨.refl _,.refl _,by simp⟩
  | failRead canonical hpool => exact ⟨.fail _ _,.refl _,by simp⟩
  | failWrite canonical hpool =>
    exact ⟨.refl _,.fail _ _,
      fun _ => ⟨⟨canonical,hplace.2⟩,CheckedQueue.fail_state_failed _ _⟩⟩

theorem ReaderMove.queues {call : RunCall σ} {sh sh' : Shared σ} {r r' : Reader}
    (h : ReaderMove call sh r r' sh') (hplaces : ∀ place ∈ r.places, sh.Canonical place) :
    r ≠ .notStarted ∧ r ≠ .terminated ∧ r' ≠ .notStarted ∧
    sh.processToWrite.KeptOrFailed sh'.processToWrite ∧
    ((sh.readToProcess.KeptOrFailed sh'.readToProcess ∧ (r.Ended → r'.Ended) ∧
        (r'.Ended → r.Ended ∨ ∃ failure, sh'.readToProcess.state = .failed failure)) ∨
      (sh.readToProcess.state = .opened ∧ sh'.readToProcess.state = .opened ∧ ¬ r'.Ended) ∨
      (sh'.readToProcess = sh.readToProcess.close ∧ r'.Ended)) := by
  cases h with
  | @failing place sh' next hfail =>
    have hplace := hplaces place (by simp [Reader.places])
    obtain ⟨hread,hwrite,hend⟩ := hfail.queues hplace
    cases next with
    | none =>
      exact ⟨by simp,by simp,by simp,hwrite,.inl ⟨hread,fun _ => trivial,fun _ => .inr (hend rfl).1⟩⟩
    | some next =>
      exact ⟨by simp,by simp,by simp,hwrite,.inl ⟨hread,fun h => h.elim,fun h => h.elim⟩⟩
  | pushed hopen hcontents hstate hcapacity =>
    exact ⟨by simp,by simp,by simp,.refl _,.inr (.inl ⟨hopen,hstate,id⟩)⟩
  | refused hstate hqueue =>
    exact ⟨by simp,by simp,by simp,.refl _,.inl ⟨.inl hqueue,fun h => h.elim,fun h => h.elim⟩⟩
  | closed => exact ⟨by simp,by simp,by simp,.refl _,.inr (.inr ⟨rfl,trivial⟩)⟩
  | released hpool =>
    exact ⟨by simp,by simp,by simp,.refl _,.inl ⟨.refl _,fun _ => trivial,fun _ => .inl trivial⟩⟩
  | acquired | readFailed | readEof | rejected | received | unwound =>
    exact ⟨by simp,by simp,by simp,.refl _,.inl ⟨.refl _,fun h => h.elim,fun h => h.elim⟩⟩

theorem orderly_reader {call : RunCall σ} {s : RunState σ} {r : Reader} {sh : Shared σ}
    (hagrees : s.Agrees) (h : s.Orderly) (hmove : ReaderMove call s.shared s.reader r sh) :
    RunState.Orderly { s with reader := r, shared := sh } := by
  have hplaces : ∀ place ∈ s.reader.places, s.shared.Canonical place := fun place hp =>
    hagrees.places place (by simp [RunState.places,hp])
  obtain ⟨hstarted,hrunning,hr,hwrite,hread⟩ := hmove.queues hplaces
  have hprocessor : s.processor ≠ .notStarted := fun hidle => hstarted (h.processorIdle hidle).1
  refine ⟨?_,?_,?_,fun hc => h.writeClosed (hwrite.closed hc),
    fun hp => hwrite.ne_opened (h.processorEnded hp),
    fun hw => ⟨hwrite.ne_opened (h.writerEnded hw).1,hwrite.contents_nil (h.writerEnded hw).2⟩,
    fun hp => absurd hp hprocessor,fun hw => absurd (h.writerIdle hw).1 hprocessor,
    fun hc => absurd (h.readerWaits hc) hstarted,h.processorWaits,h.writerWaits,h.writerUp,
    h.processorUp,fun _ => .inl hr,?_⟩
  · intro hclosed
    rcases hread with ⟨hkept,hended,-⟩ | ⟨-,hopen,-⟩ | ⟨-,hended⟩
    · exact hended (h.readClosed (hkept.closed hclosed))
    · rw [hopen] at hclosed; cases hclosed
    · exact hended
  · intro hended
    rcases hread with ⟨hkept,-,hwas⟩ | ⟨-,-,hnot⟩ | ⟨hclose,-⟩
    · rcases hwas hended with hwas | ⟨failure,hfailed⟩
      · exact hkept.ne_opened (h.readerEnded hwas)
      · simp [hfailed]
    · exact absurd hended hnot
    · simp only [hclose]
      exact CheckedQueue.close_ne_opened _
  · intro hdrained
    obtain ⟨hne,hnil⟩ := h.processorDrained hdrained
    rcases hread with ⟨hkept,-⟩ | ⟨hopen,-⟩ | ⟨hclose,-⟩
    · exact ⟨hkept.ne_opened hne,hkept.contents_nil hnil⟩
    · exact absurd hopen hne
    · simp only [hclose,CheckedQueue.close_contents]
      exact ⟨CheckedQueue.close_ne_opened _,hnil⟩
  · intro o hdone
    rcases (h.finished o hdone).1.1 with hns | hterm
    · exact absurd hns hstarted
    · exact absurd hterm hrunning

/-- A consumer's queue after a step: it does not close, does not open, and what it held
is not more. -/
structure CheckedQueue.Consumed {α : Type*} (q q' : CheckedQueue α) : Prop where
  closed : q'.state = .closed → q.state = .closed
  ne_opened : q.state ≠ .opened → q'.state ≠ .opened
  contents_nil : q.contents = [] → q'.contents = []

namespace CheckedQueue

variable {α : Type*} {q q' : CheckedQueue α}

theorem Consumed.refl (q : CheckedQueue α) : q.Consumed q := ⟨id,id,id⟩

theorem KeptOrFailed.consumed (h : q.KeptOrFailed q') : q.Consumed q' :=
  ⟨h.closed,h.ne_opened,h.contents_nil⟩

theorem Consumed.of_pop {v : α} (hcontents : q.contents = v::q'.contents)
    (hstate : q'.state = q.state) : q.Consumed q' :=
  ⟨fun h => hstate.symm.trans h,fun h => by rwa [hstate],fun h => by rw [h] at hcontents; cases hcontents⟩

end CheckedQueue

structure ProcessorQueues (sh sh' : Shared σ) (p p' : Processor) : Prop where
  started : p ≠ .notStarted
  running : p ≠ .terminated
  started' : p' ≠ .notStarted
  consumed : sh.readToProcess.Consumed sh'.readToProcess
  drained : p'.Drained → p.Drained ∨
    sh'.readToProcess.state ≠ .opened ∧ sh'.readToProcess.contents = []
  closed : sh'.processToWrite.state = .closed →
    sh.processToWrite.state = .closed ∨ p' = .terminated
  ended : p' = .terminated → sh'.processToWrite.state ≠ .opened
  rested : sh.processToWrite.state ≠ .opened → sh.processToWrite.contents = [] →
    sh'.processToWrite.state ≠ .opened ∧ sh'.processToWrite.contents = []

theorem ProcessorMove.queues {sh sh' : Shared σ} {p p' : Processor}
    (h : ProcessorMove sh p p' sh') (hplaces : ∀ place ∈ p.places, sh.Canonical place) :
    ProcessorQueues sh sh' p p' := by
  cases h with
  | @failing place sh' next hfail =>
    have hplace := hplaces place (by simp [Processor.places])
    obtain ⟨hread,hwrite,hend⟩ := hfail.queues hplace
    refine ⟨by simp,by simp,by cases next <;> simp,hread.consumed,fun hd => ?_,
      fun hc => .inl (hwrite.closed hc),fun ht => ?_,
      fun hne hnil => ⟨hwrite.ne_opened hne,hwrite.contents_nil hnil⟩⟩
    · cases next with
      | none =>
        obtain ⟨failure,hfailed⟩ := (hend rfl).1
        exact .inr ⟨by simp [hfailed],CheckedQueue.contents_of_failed _ hfailed⟩
      | some next => exact hd.elim
    · cases next with
      | none =>
        obtain ⟨failure,hfailed⟩ := (hend rfl).2
        simp [hfailed]
      | some next => cases ht
  | popped hcontents hstate hcapacity =>
    exact ⟨by simp,by simp,by simp,.of_pop hcontents hstate,fun h => h.elim,.inl,by simp,
      fun hne hnil => ⟨hne,hnil⟩⟩
  | ended hstate hcontents hqueue =>
    have hstate' := (CheckedQueue.state_of_toFifo hqueue).trans hstate
    have hcontents' := (CheckedQueue.contents_of_toFifo hqueue).trans hcontents
    exact ⟨by simp,by simp,by simp,CheckedQueue.KeptOrFailed.consumed (.inl hqueue),
      fun _ => .inr ⟨by simp [hstate'],hcontents'⟩,.inl,by simp,fun hne hnil => ⟨hne,hnil⟩⟩
  | popFailed hstate hqueue =>
    exact ⟨by simp,by simp,by simp,CheckedQueue.KeptOrFailed.consumed (.inl hqueue),fun h => h.elim,
      .inl,by simp,fun hne hnil => ⟨hne,hnil⟩⟩
  | pushed hopen hcontents hstate hcapacity =>
    exact ⟨by simp,by simp,by simp,.refl _,fun h => h.elim,fun hc => by simp [hstate] at hc,by simp,
      fun hne => absurd hopen hne⟩
  | refused hstate hqueue =>
    have hkept : CheckedQueue.KeptOrFailed sh.processToWrite _ := .inl hqueue
    exact ⟨by simp,by simp,by simp,.refl _,fun h => h.elim,fun hc => .inl (hkept.closed hc),by simp,
      fun hne hnil => ⟨hkept.ne_opened hne,hkept.contents_nil hnil⟩⟩
  | closed =>
    exact ⟨by simp,by simp,by simp,.refl _,fun _ => .inl trivial,fun _ => .inr rfl,
      fun _ => CheckedQueue.close_ne_opened _,
      fun _ hnil => ⟨CheckedQueue.close_ne_opened _,by simpa using hnil⟩⟩
  | stageFailed | processed | unwound =>
    exact ⟨by simp,by simp,by simp,.refl _,fun h => h.elim,.inl,by simp,fun hne hnil => ⟨hne,hnil⟩⟩

theorem orderly_processor {s : RunState σ} {p : Processor} {sh : Shared σ} (hagrees : s.Agrees)
    (h : s.Orderly) (hext : s.shared.Extends sh) (hmove : ProcessorMove s.shared s.processor p sh) :
    RunState.Orderly { s with processor := p, shared := sh } := by
  have hplaces : ∀ place ∈ s.processor.places, s.shared.Canonical place := fun place hp =>
    hagrees.places place (by simp [RunState.places,hp])
  have hq := hmove.queues hplaces
  refine ⟨fun hc => h.readClosed (hq.consumed.closed hc),
    fun he => hq.consumed.ne_opened (h.readerEnded he),fun hd => ?_,fun hc => ?_,hq.ended,
    fun hw => hq.rested (h.writerEnded hw).1 (h.writerEnded hw).2,
    fun hp => absurd hp hq.started',fun hw => absurd (h.writerIdle hw).1 hq.started,h.readerWaits,
    fun hc => absurd (h.processorWaits hc) hq.started,h.writerWaits,h.writerUp,
    fun _ => hq.started',fun hc => ?_,fun o ho => ?_⟩
  · rcases hq.drained hd with hbefore | hnow
    · obtain ⟨hne,hnil⟩ := h.processorDrained hbefore
      exact ⟨hq.consumed.ne_opened hne,hq.consumed.contents_nil hnil⟩
    · exact hnow
  · rcases hq.closed hc with hbefore | hnow
    · exact absurd (h.writeClosed hbefore) hq.running
    · exact hnow
  · rcases h.started hc with hr | ⟨failure,hf⟩
    · exact .inl hr
    · exact .inr ⟨failure,hext.processToWrite failure hf⟩
  · rcases (h.finished o ho).1.2.1 with hns | hterm
    · exact absurd hns hq.started
    · exact absurd hterm hq.running

structure WriterQueues (sh sh' : Shared σ) (w w' : Writer) : Prop where
  started : w ≠ .notStarted
  running : w ≠ .terminated
  started' : w' ≠ .notStarted
  readToProcess : sh.readToProcess.KeptOrFailed sh'.readToProcess
  consumed : sh.processToWrite.Consumed sh'.processToWrite
  ended : w' = .terminated → sh'.processToWrite.state ≠ .opened ∧ sh'.processToWrite.contents = []

theorem WriterMove.queues {call : RunCall σ} {sh sh' : Shared σ} {w w' : Writer}
    (h : WriterMove call sh w w' sh') (hplaces : ∀ place ∈ w.places, sh.Canonical place) :
    WriterQueues sh sh' w w' := by
  cases h with
  | @failing place sh' next hfail =>
    have hplace := hplaces place (by simp [Writer.places])
    obtain ⟨hread,hwrite,hend⟩ := hfail.queues hplace
    refine ⟨by simp,by simp,by cases next <;> simp,hread,hwrite.consumed,fun ht => ?_⟩
    cases next with
    | none =>
      obtain ⟨failure,hfailed⟩ := (hend rfl).2
      exact ⟨by simp [hfailed],CheckedQueue.contents_of_failed _ hfailed⟩
    | some next => cases ht
  | popped hcontents hstate hcapacity =>
    exact ⟨by simp,by simp,by simp,.refl _,.of_pop hcontents hstate,by simp⟩
  | ended hstate hcontents hqueue =>
    have hstate' := (CheckedQueue.state_of_toFifo hqueue).trans hstate
    have hcontents' := (CheckedQueue.contents_of_toFifo hqueue).trans hcontents
    exact ⟨by simp,by simp,by simp,.refl _,CheckedQueue.KeptOrFailed.consumed (.inl hqueue),
      fun _ => ⟨by simp [hstate'],hcontents'⟩⟩
  | popFailed hstate hqueue =>
    exact ⟨by simp,by simp,by simp,.refl _,CheckedQueue.KeptOrFailed.consumed (.inl hqueue),by simp⟩
  | wrote | finished | writeFailed | released | unwound =>
    exact ⟨by simp,by simp,by simp,.refl _,.refl _,by simp⟩

theorem orderly_writer {call : RunCall σ} {s : RunState σ} {w : Writer} {sh : Shared σ}
    (hagrees : s.Agrees) (h : s.Orderly) (hext : s.shared.Extends sh)
    (hmove : WriterMove call s.shared s.writer w sh) :
    RunState.Orderly { s with writer := w, shared := sh } := by
  have hplaces : ∀ place ∈ s.writer.places, s.shared.Canonical place := fun place hp =>
    hagrees.places place (by simp [RunState.places,hp])
  have hq := hmove.queues hplaces
  have hread := hq.readToProcess.consumed
  refine ⟨fun hc => h.readClosed (hread.closed hc),fun he => hread.ne_opened (h.readerEnded he),
    fun hd => ?_,fun hc => h.writeClosed (hq.consumed.closed hc),
    fun hp => hq.consumed.ne_opened (h.processorEnded hp),hq.ended,fun hp => ?_,
    fun hw => absurd hw hq.started',h.readerWaits,h.processorWaits,
    fun hc => absurd (h.writerWaits hc) hq.started,fun _ => hq.started',h.processorUp,
    fun hc => ?_,fun o ho => ?_⟩
  · obtain ⟨hne,hnil⟩ := h.processorDrained hd
    exact ⟨hread.ne_opened hne,hread.contents_nil hnil⟩
  · obtain ⟨hr,hnil⟩ := h.processorIdle hp
    exact ⟨hr,hread.contents_nil hnil⟩
  · rcases h.started hc with hr | ⟨failure,hf⟩
    · exact .inl hr
    · exact .inr ⟨failure,hext.processToWrite failure hf⟩
  · rcases (h.finished o ho).1.2.2 with hns | hterm
    · exact absurd hns hq.started
    · exact absurd hterm hq.running

theorem orderly_caller {call : RunCall σ} {s s' : RunState σ} (hagrees : s.Agrees) (h : s.Orderly)
    (hmove : CallerMove call s s') : s'.Orderly := by
  cases hmove with
  | writerStarted hcaller hstart =>
    have hr := h.readerWaits (by rw [hcaller]; trivial)
    have hp := h.processorWaits (.inl hcaller)
    exact { h with
      writerEnded := by simp
      writerIdle := by simp
      readerWaits := fun _ => hr
      processorWaits := fun _ => hp
      writerWaits := by simp
      writerUp := by simp
      processorUp := by simp
      started := fun hc => absurd trivial hc
      finished := by simp }
  | processorStarted hcaller hstart =>
    have hr := h.readerWaits (by rw [hcaller]; trivial)
    have hp := h.processorWaits (.inr hcaller)
    exact { h with
      processorDrained := fun hd => hd.elim
      writeClosed := fun hc => by rw [h.writeClosed hc] at hp; cases hp
      processorEnded := by simp
      processorIdle := by simp
      writerIdle := fun hw => absurd hw (h.writerUp hcaller)
      readerWaits := fun _ => hr
      processorWaits := by simp
      writerWaits := by simp
      writerUp := by simp
      processorUp := by simp
      started := fun hc => absurd trivial hc
      finished := by simp }
  | readerStarted hcaller hstart =>
    have hr := h.readerWaits (by rw [hcaller]; trivial)
    exact { h with
      readClosed := fun hc => by
        have hended := h.readClosed hc
        rw [hr] at hended
        exact hended.elim
      readerEnded := fun he => he.elim
      processorIdle := fun hp => absurd hp (h.processorUp hcaller)
      readerWaits := fun hc => hc.elim
      processorWaits := by simp
      writerWaits := by simp
      writerUp := by simp
      processorUp := by simp
      started := fun _ => .inl (by simp)
      finished := by simp }
  | @startFailed w failure hcaller hstart =>
    have hr := h.readerWaits (by rw [hcaller]; cases w <;> trivial)
    exact { h with
      readerWaits := fun _ => hr
      processorWaits := by simp
      writerWaits := by simp
      writerUp := by simp
      processorUp := by simp
      started := fun hc => absurd trivial hc
      finished := by simp }
  | @failing place sh next hcaller hfail =>
    have hplace := hagrees.places place (by simp [RunState.places,hcaller,Caller.places])
    obtain ⟨hread,hwrite,hend⟩ := hfail.queues hplace
    have hr := h.readerWaits (by rw [hcaller]; trivial)
    refine ⟨fun hc => h.readClosed (hread.closed hc),fun he => hread.ne_opened (h.readerEnded he),
      fun hd => ⟨hread.ne_opened (h.processorDrained hd).1,
        hread.contents_nil (h.processorDrained hd).2⟩,
      fun hc => h.writeClosed (hwrite.closed hc),fun hp => hwrite.ne_opened (h.processorEnded hp),
      fun hw => ⟨hwrite.ne_opened (h.writerEnded hw).1,hwrite.contents_nil (h.writerEnded hw).2⟩,
      fun hp => ⟨hr,hread.contents_nil (h.processorIdle hp).2⟩,
      fun hw => ⟨(h.writerIdle hw).1,hwrite.contents_nil (h.writerIdle hw).2⟩,fun _ => hr,
      by cases next <;> simp,by cases next <;> simp,by cases next <;> simp,
      by cases next <;> simp,fun hc => ?_,by cases next <;> simp⟩
    cases next with
    | none => exact .inr (hend rfl).2
    | some next => exact absurd trivial hc
  | joined hcaller hjoin =>
    exact { h with
      readerWaits := fun hc => hc.elim
      processorWaits := by simp
      writerWaits := by simp
      writerUp := by simp
      processorUp := by simp
      started := fun _ => h.started (by rw [hcaller]; exact id)
      finished := fun o ho => ⟨hjoin,(Caller.done.inj ho).symm⟩ }

/-- The failures agree and the threads are in order, in every state of a run. -/
theorem orderly_step {call : RunCall σ} {s s' : RunState σ} {t : Thread}
    (hs : s.Agrees ∧ s.Orderly) (h : call.system.step t s = some s') : s'.Agrees ∧ s'.Orderly := by
  refine ⟨agrees_step hs.1 h,?_⟩
  have hext := step_extends h
  rcases RunCall.step_cases h with ⟨r,sh,hmove,rfl⟩ | ⟨p,sh,hmove,rfl⟩ | ⟨w,sh,hmove,rfl⟩ | hmove
  · exact orderly_reader hs.1 hs.2 hmove
  · exact orderly_processor hs.1 hs.2 hext hmove
  · exact orderly_writer hs.1 hs.2 hext hmove
  · exact orderly_caller hs.1 hs.2 hmove

/-- What `run` has built before it starts the first thread. -/
structure Initial (call : RunCall σ) (s : RunState σ) : Prop where
  reader : s.reader = .notStarted
  processor : s.processor = .notStarted
  writer : s.writer = .notStarted
  caller : s.caller = .startWriter
  valid : call.config.Valid
  leased : s.shared.pool.Leased []
  buffers_length : s.shared.pool.buffers.length = call.config.maxInflightBuffers
  bytes_length : ∀ i < call.config.maxInflightBuffers,
    (s.shared.pool.bytes i).length = call.config.blockSize
  metric : s.shared.pool.inflightMetric.isSome = call.metrics.isSome
  readToProcess_state : s.shared.readToProcess.state = .opened
  readToProcess_contents : s.shared.readToProcess.contents = []
  processToWrite_state : s.shared.processToWrite.state = .opened
  processToWrite_contents : s.shared.processToWrite.contents = []
  firstFailure : s.shared.firstFailure = none
  stages : s.shared.stages = call.stages
  runResult : s.shared.runResult = ⟨0,0⟩
  output : s.shared.output = []

theorem start_initial {call : RunCall σ} {s : RunState σ} (h : call.start = .ok s) :
    Initial call s := by
  unfold RunCall.start at h
  split_ifs at h
  split at h
  · cases h
  · rename_i pool hpool
    split at h
    · cases h
    · rename_i readToProcess hread
      split at h
      · cases h
      · rename_i processToWrite hwrite
        obtain rfl := Except.ok.inj h
        obtain ⟨hleased,hlen,hvalid,hbytes,hmetric⟩ := AlignedBufferPool.make_leased hpool
        obtain ⟨hreadContents,hreadState,-⟩ := CheckedQueue.make_cases hread
        obtain ⟨hwriteContents,hwriteState,-⟩ := CheckedQueue.make_cases hwrite
        exact ⟨rfl,rfl,rfl,rfl,hvalid,hleased,hlen,hbytes,by rw [hmetric,Option.isSome_map],
          hreadState,hreadContents,hwriteState,hwriteContents,rfl,rfl,rfl,rfl⟩

/-- A fresh executor whose threads start and whose allocations succeed. -/
structure RunCall.Fresh (call : RunCall σ) : Prop where
  started : call.started = false
  gauges : ∀ metrics, call.metrics = some metrics → metrics.inflightBuffers = .zero ∧
    metrics.readProcessQueueDepth = .zero ∧ metrics.processWriteQueueDepth = .zero
  allocated : call.config.queueDepth ≤ SPSCQueue.maxCapacity BlockWorkItem
  threads : ∀ w, call.startThread w = none

structure RunCall.Accepted (call : RunCall σ) : Prop where
  config : call.config.validate = .ok ()
  inputFd : 0 ≤ call.inputFd
  outputFd : 0 ≤ call.outputFd
  separate : call.inputFd ≠ call.outputFd
  stages : call.stages ≠ []

theorem RunCall.start_ok {call : RunCall σ} (hfresh : call.Fresh) (h : call.Accepted) :
    ∃ s₀, call.start = .ok s₀ := by
  have hvalid := PipelineConfig.valid_of_validate h.config
  have hpool : ∃ pool, AlignedBufferPool.make call.config
      (call.metrics.map (·.inflightBuffers)) call.memory = .ok pool := by
    refine AlignedBufferPool.make_eq_ok call.memory h.config fun g hg => ?_
    obtain ⟨metrics,hmetrics,rfl⟩ := Option.map_eq_some_iff.mp hg
    exact (hfresh.gauges metrics hmetrics).1
  have hread : ∃ q, CheckedQueue.make BlockWorkItem call.config.queueDepth
      (call.metrics.map (·.readProcessQueueDepth)) = .ok q := by
    refine CheckedQueue.make_eq_ok hvalid.queueDepth_pos hfresh.allocated fun g hg => ?_
    obtain ⟨metrics,hmetrics,rfl⟩ := Option.map_eq_some_iff.mp hg
    exact (hfresh.gauges metrics hmetrics).2.1
  have hwrite : ∃ q, CheckedQueue.make BlockWorkItem call.config.queueDepth
      (call.metrics.map (·.processWriteQueueDepth)) = .ok q := by
    refine CheckedQueue.make_eq_ok hvalid.queueDepth_pos hfresh.allocated fun g hg => ?_
    obtain ⟨metrics,hmetrics,rfl⟩ := Option.map_eq_some_iff.mp hg
    exact (hfresh.gauges metrics hmetrics).2.2
  obtain ⟨pool,hpool⟩ := hpool
  obtain ⟨readToProcess,hread⟩ := hread
  obtain ⟨processToWrite,hwrite⟩ := hwrite
  have hin := h.inputFd
  have hout := h.outputFd
  unfold RunCall.start
  rw [if_neg (by omega),if_neg h.separate,if_neg (by simpa using h.stages),hfresh.started,hpool,
    hread,hwrite]
  exact ⟨_,rfl⟩

theorem Initial.orderly {call : RunCall σ} {s : RunState σ} (h : Initial call s) :
    s.Agrees ∧ s.Orderly := by
  have hr := h.reader
  have hp := h.processor
  have hw := h.writer
  have hc := h.caller
  have hq₁ := h.readToProcess_state
  have hq₂ := h.processToWrite_state
  refine ⟨⟨⟨by simp [hq₁],by simp [hq₂]⟩,?_⟩,?_⟩
  · simp [RunState.places,hr,hp,hw,hc,Reader.places,Processor.places,Writer.places,Caller.places]
  · constructor <;> simp [hr,hp,hw,hc,hq₁,hq₂,h.readToProcess_contents,h.processToWrite_contents,
      Reader.Ended,Processor.Drained,Caller.BeforeReader]

end AsyncDataLoader
