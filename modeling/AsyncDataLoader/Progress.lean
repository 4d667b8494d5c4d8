import AsyncDataLoader.LeaseOwnership

/-!
# A run cannot get stuck, and it ends

A thread that has no step waits on a queue or on the pool. Two bounded queues and the pool
cannot wait for each other in a circle, and every step uses up some of the work left.
-/

namespace AsyncDataLoader

open FileIO

variable {σ : Type*}

/-- `fail_all` never waits: the leases it returns are outstanding. -/
theorem Shared.Balanced.failAll_ne_none {sh : Shared σ} {mine theirs : List ℕ}
    (h : sh.Balanced mine theirs) (place : FailAll) : sh.failAll place ≠ none := by
  have hreturn : ∀ q : CheckedQueue BlockWorkItem, ∀ rest canonical,
      sh.pool.Leased (q.leases++rest) →
        sh.pool.releaseAll ((q.fail canonical).2.map BlockWorkItem.buffer) ≠ none := by
    intro q rest canonical hleased
    have hperm := (q.leases_fail canonical).2
    obtain ⟨pool,hpool,-⟩ := (hleased.of_perm (hperm.symm.append_right rest)).releaseAll
    simp [hpool]
  cases place with
  | store failure => simp [Shared.failAll]
  | failRead canonical =>
    have hperm : (mine++sh.readToProcess.leases++sh.processToWrite.leases++theirs).Perm
        (sh.readToProcess.leases++(mine++sh.processToWrite.leases++theirs)) := by
      rw [List.perm_iff_count]
      intro a
      simp only [List.count_append]
      omega
    simpa [Shared.failAll] using hreturn _ _ canonical (h.of_perm hperm)
  | failWrite canonical =>
    have hperm : (mine++sh.readToProcess.leases++sh.processToWrite.leases++theirs).Perm
        (sh.processToWrite.leases++(mine++sh.readToProcess.leases++theirs)) := by
      rw [List.perm_iff_count]
      intro a
      simp only [List.count_append]
      omega
    simpa [Shared.failAll] using hreturn _ _ canonical (h.of_perm hperm)

theorem Shared.Balanced.release_ne_none {sh : Shared σ} {buffer : ℕ} {theirs : List ℕ}
    (h : sh.Balanced [buffer] theirs) : sh.pool.release buffer ≠ none := by
  obtain ⟨pool,hpool,-⟩ := AlignedBufferPool.Leased.release h
  simp [hpool]

inductive ReaderWaits (sh : Shared σ) : Reader → Prop
  | acquire {k o : ℕ} (hpool : sh.pool.acquire = none) : ReaderWaits sh (.acquire k o)
  | push {item : BlockWorkItem} (hopen : sh.readToProcess.state = .opened)
      (hfull : sh.readToProcess.capacity ≤ sh.readToProcess.contents.length) :
      ReaderWaits sh (.push item)

theorem reader_waits {call : RunCall σ} {sh : Shared σ} {r : Reader} {theirs : List ℕ}
    (hsh : sh.Balanced r.held theirs) (h : call.readerStep sh r = none) :
    r = .notStarted ∨ r = .terminated ∨ ReaderWaits sh r := by
  cases r with
  | notStarted => exact .inl rfl
  | terminated => exact .inr (.inl rfl)
  | acquire k o => exact .inr (.inr (.acquire (Option.map_eq_none_iff.mp h)))
  | read k o buffer =>
    exfalso
    simp only [RunCall.readerStep] at h
    split at h
    · cases h
    · cases h
    · split at h <;> cases h
  | push item =>
    obtain ⟨hopen,hfull⟩ := CheckedQueue.push_eq_none.mp (Option.map_eq_none_iff.mp h)
    exact .inr (.inr (.push hopen hfull))
  | close buffer => cases h
  | release buffer => exact absurd (Option.map_eq_none_iff.mp h) hsh.release_ne_none
  | unwind buffer failure => exact absurd (Option.map_eq_none_iff.mp h) hsh.release_ne_none
  | failing place => exact absurd (Option.map_eq_none_iff.mp h) (hsh.failAll_ne_none place)

inductive ProcessorWaits (sh : Shared σ) : Processor → Prop
  | pop (hopen : sh.readToProcess.state = .opened) (hempty : sh.readToProcess.contents = []) :
      ProcessorWaits sh .pop
  | push {item : BlockWorkItem} (hopen : sh.processToWrite.state = .opened)
      (hfull : sh.processToWrite.capacity ≤ sh.processToWrite.contents.length) :
      ProcessorWaits sh (.push item)

theorem processor_waits {sh : Shared σ} {p : Processor} {theirs : List ℕ}
    (hsh : sh.Balanced p.held theirs) (h : RunCall.processorStep sh p = none) :
    p = .notStarted ∨ p = .terminated ∨ ProcessorWaits sh p := by
  cases p with
  | notStarted => exact .inl rfl
  | terminated => exact .inr (.inl rfl)
  | pop =>
    obtain ⟨hopen,hempty⟩ := CheckedQueue.pop_eq_none.mp (Option.map_eq_none_iff.mp h)
    exact .inr (.inr (.pop hopen hempty))
  | process item =>
    exfalso
    simp only [RunCall.processorStep] at h
    split at h <;> cases h
  | push item =>
    obtain ⟨hopen,hfull⟩ := CheckedQueue.push_eq_none.mp (Option.map_eq_none_iff.mp h)
    exact .inr (.inr (.push hopen hfull))
  | close => cases h
  | unwind buffer failure => exact absurd (Option.map_eq_none_iff.mp h) hsh.release_ne_none
  | failing place => exact absurd (Option.map_eq_none_iff.mp h) (hsh.failAll_ne_none place)

inductive WriterWaits (sh : Shared σ) : Writer → Prop
  | pop (hopen : sh.processToWrite.state = .opened) (hempty : sh.processToWrite.contents = []) :
      WriterWaits sh .pop

theorem writer_waits {call : RunCall σ} {sh : Shared σ} {w : Writer} {theirs : List ℕ}
    (hsh : sh.Balanced w.held theirs) (h : call.writerStep sh w = none) :
    w = .notStarted ∨ w = .terminated ∨ WriterWaits sh w := by
  cases w with
  | notStarted => exact .inl rfl
  | terminated => exact .inr (.inl rfl)
  | pop =>
    obtain ⟨hopen,hempty⟩ := CheckedQueue.pop_eq_none.mp (Option.map_eq_none_iff.mp h)
    exact .inr (.inr (.pop hopen hempty))
  | write item writtenCount =>
    exfalso
    simp only [RunCall.writerStep] at h
    split at h <;> cases h
  | release buffer => exact absurd (Option.map_eq_none_iff.mp h) hsh.release_ne_none
  | unwind buffer failure => exact absurd (Option.map_eq_none_iff.mp h) hsh.release_ne_none
  | failing place => exact absurd (Option.map_eq_none_iff.mp h) (hsh.failAll_ne_none place)

theorem CheckedQueue.not_full {α : Type*} {q : CheckedQueue α} (hempty : q.contents = []) :
    ¬ q.capacity ≤ q.contents.length := by
  have hpos := q.capacity_pos
  rw [hempty,List.length_nil]
  omega

/-- The wait-for argument: while `run` joins its workers, one of those that have not ended
has a step. -/
theorem worker_enabled {call : RunCall σ} {s : RunState σ} (hs : s.Sound call)
    (hcaller : s.caller = .join) (hjoin : ¬ RunCall.Joinable s) :
    ∃ w, call.system.step (.worker w) s ≠ none := by
  by_contra hstuck
  simp only [not_exists,not_not] at hstuck
  have ho := hs.orderly
  obtain ⟨hbr,hbp,hbw,-⟩ := hs.owned.views
  have hr := reader_waits hbr (Option.map_eq_none_iff.mp (hstuck .reader))
  have hp := processor_waits hbp (Option.map_eq_none_iff.mp (hstuck .processor))
  have hw := writer_waits hbw (Option.map_eq_none_iff.mp (hstuck .writer))
  have hstarted := ho.started (by rw [hcaller]; exact id)
  -- a reader that waits for a buffer while nobody else holds one
  have hstarved : s.shared.readToProcess.contents = [] → s.shared.processToWrite.contents = [] →
      s.reader.held = [] → s.processor.held = [] → s.writer.held = [] →
        s.shared.pool.acquire ≠ none := by
    intro hq₁ hq₂ hhr hhp hhw
    have howned : s.shared.pool.Leased s.holders := hs.owned
    have hnil : s.holders = [] := by
      simp [RunState.holders,CheckedQueue.leases,hq₁,hq₂,hhr,hhp,hhw]
    rw [hnil] at howned
    exact howned.acquire_ne_none (by rw [hs.buffers_length]; exact hs.valid.maxInflightBuffers_pos)
  generalize hwriter : s.writer = writer at hw
  generalize hprocessor : s.processor = processor at hp
  generalize hreader : s.reader = reader at hr
  rcases hw with rfl | rfl | hw
  · have hidle := (ho.writerIdle hwriter).1
    exact hjoin ⟨.inl (ho.processorIdle hidle).1,.inl hidle,.inl hwriter⟩
  · obtain ⟨hq₂,hempty₂⟩ := ho.writerEnded hwriter
    rcases hp with rfl | rfl | hp
    · exact hjoin ⟨.inl (ho.processorIdle hprocessor).1,.inl hprocessor,.inr hwriter⟩
    · obtain ⟨hq₁,hempty₁⟩ := ho.processorDrained (by rw [hprocessor]; trivial)
      rcases hr with rfl | rfl | hr
      · exact hjoin ⟨.inl hreader,.inr hprocessor,.inr hwriter⟩
      · exact hjoin ⟨.inr hreader,.inr hprocessor,.inr hwriter⟩
      · cases hr with
        | acquire hpool =>
          exact hstarved hempty₁ hempty₂ (by rw [hreader]; rfl) (by rw [hprocessor]; rfl)
            (by rw [hwriter]; rfl) hpool
        | push hopen hfull => exact hq₁ hopen
    · cases hp with
      | pop hopen hempty =>
        -- the second queue can only have been closed by an ended processor
        cases hstate : s.shared.processToWrite.state with
        | opened => exact hq₂ hstate
        | closed =>
          have hterm := ho.writeClosed hstate
          rw [hprocessor] at hterm
          cases hterm
        | failed failure =>
          have hfailed := hs.agrees.shared.processToWrite failure hstate
          rw [hopen] at hfailed
          cases hfailed
      | push hopen hfull => exact hq₂ hopen
  · cases hw with
    | pop hopen₂ hempty₂ =>
      have hnotIdle : s.reader ≠ .notStarted := by
        rcases hstarted with hr' | ⟨failure,hfailed⟩
        · exact hr'
        · rw [hopen₂] at hfailed
          cases hfailed
      rcases hp with rfl | rfl | hp
      · exact hnotIdle (ho.processorIdle hprocessor).1
      · exact ho.processorEnded hprocessor hopen₂
      · cases hp with
        | pop hopen₁ hempty₁ =>
          rcases hr with rfl | rfl | hr
          · exact hnotIdle hreader
          · exact ho.readerEnded (by rw [hreader]; trivial) hopen₁
          · cases hr with
            | acquire hpool =>
              exact hstarved hempty₁ hempty₂ (by rw [hreader]; rfl) (by rw [hprocessor]; rfl)
                (by rw [hwriter]; rfl) hpool
            | push hopen hfull => exact CheckedQueue.not_full hempty₁ hfull
        | push hopen hfull => exact CheckedQueue.not_full hempty₂ hfull

theorem caller_enabled {call : RunCall σ} {s : RunState σ} (hs : s.Sound call)
    (hcaller : s.caller.BeforeReader) : call.system.step .caller s ≠ none := by
  change call.callerStep s ≠ none
  cases hc : s.caller with
  | startWriter =>
    cases hstart : call.startThread .writer <;> simp [RunCall.callerStep,hc,hstart]
  | startProcessor =>
    cases hstart : call.startThread .processor <;> simp [RunCall.callerStep,hc,hstart]
  | startReader =>
    cases hstart : call.startThread .reader <;> simp [RunCall.callerStep,hc,hstart]
  | failing place =>
    obtain ⟨-,-,-,hbalanced⟩ := hs.owned.views
    have hfail := hbalanced.failAll_ne_none place
    simpa [RunCall.callerStep,hc] using hfail
  | join => rw [hc] at hcaller; exact hcaller.elim
  | done outcome => rw [hc] at hcaller; exact hcaller.elim

/-- A run stops only when `run` has returned or thrown. -/
theorem stuck_done {call : RunCall σ} {s : RunState σ} (hs : s.Sound call)
    (hstuck : call.system.Stuck s) : ∃ outcome, s.caller = .done outcome := by
  cases hc : s.caller with
  | done outcome => exact ⟨outcome,rfl⟩
  | join =>
    exfalso
    by_cases hjoin : RunCall.Joinable s
    · have hnone : call.callerStep s = none := hstuck .caller
      simp [RunCall.callerStep,hc,hjoin] at hnone
    · obtain ⟨w,hw⟩ := worker_enabled hs hc hjoin
      exact hw (hstuck _)
  | startWriter | startProcessor | startReader | failing =>
    exact absurd (hstuck .caller) (caller_enabled hs (by rw [hc]; trivial))

end AsyncDataLoader
