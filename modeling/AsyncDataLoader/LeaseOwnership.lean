import AsyncDataLoader.RunLifecycle

/-!
# Who holds the leases

Every lease of the pool is held at one place: by a worker, or by an item in one of the two
queues. No step loses or duplicates one, and when the workers have ended all are back.
-/

namespace AsyncDataLoader

variable {σ : Type*}

def Reader.held : Reader → List ℕ
  | .read _ _ buffer => [buffer]
  | .push item => [item.buffer]
  | .close buffer => [buffer]
  | .release buffer => [buffer]
  | .unwind buffer _ => [buffer]
  | _ => []

def Processor.held : Processor → List ℕ
  | .process item => [item.buffer]
  | .push item => [item.buffer]
  | .unwind buffer _ => [buffer]
  | _ => []

def Writer.held : Writer → List ℕ
  | .write item _ => [item.buffer]
  | .release buffer => [buffer]
  | .unwind buffer _ => [buffer]
  | _ => []

def CheckedQueue.leases (q : CheckedQueue BlockWorkItem) : List ℕ :=
  q.contents.map BlockWorkItem.buffer

/-- The leases of the three workers and of the items in the two queues. -/
def RunState.holders (s : RunState σ) : List ℕ :=
  s.reader.held++s.shared.readToProcess.leases++s.processor.held++
    s.shared.processToWrite.leases++s.writer.held

theorem CheckedQueue.leases_of_toFifo {q r : CheckedQueue BlockWorkItem} (h : q.toFifo = r.toFifo) :
    q.leases = r.leases := by
  rw [leases,leases,contents_of_toFifo h]

theorem CheckedQueue.leases_close (q : CheckedQueue BlockWorkItem) : q.close.leases = q.leases := by
  rw [leases,close_contents,leases]

theorem CheckedQueue.leases_fail (q : CheckedQueue BlockWorkItem) (failure : Failure) :
    (q.fail failure).1.leases = [] ∧
      ((q.fail failure).2.map BlockWorkItem.buffer).Perm q.leases := by
  obtain ⟨first,hfirst⟩ := q.fail_state_failed failure
  exact ⟨by rw [leases,contents_of_failed _ hfirst]; rfl,(q.fail_dropped_perm failure).map _⟩

/-- The leases of one thread, of the two queues and of the other threads. -/
def Shared.Balanced (sh : Shared σ) (mine theirs : List ℕ) : Prop :=
  sh.pool.Leased (mine++sh.readToProcess.leases++sh.processToWrite.leases++theirs)

theorem Shared.Balanced.moves {sh sh' : Shared σ} {mine mine' theirs : List ℕ}
    (h : sh.Balanced mine theirs) (hpool : sh'.pool = sh.pool)
    (hcount : ∀ i, mine'.count i+sh'.readToProcess.leases.count i+sh'.processToWrite.leases.count i =
      mine.count i+sh.readToProcess.leases.count i+sh.processToWrite.leases.count i) :
    sh'.Balanced mine' theirs := by
  unfold Shared.Balanced
  rw [hpool]
  refine AlignedBufferPool.Leased.of_perm h (List.perm_iff_count.mpr fun i => ?_)
  simp only [List.count_append,hcount i]

theorem Shared.Balanced.queues {sh sh' : Shared σ} {mine theirs : List ℕ}
    (h : sh.Balanced mine theirs) (hpool : sh'.pool = sh.pool)
    (hread : sh'.readToProcess.leases = sh.readToProcess.leases)
    (hwrite : sh'.processToWrite.leases = sh.processToWrite.leases) : sh'.Balanced mine theirs :=
  h.moves hpool fun i => by rw [hread,hwrite]

/-- A step of `fail_all` returns exactly the leases of the queue it fails. -/
theorem FailMove.balanced {sh sh' : Shared σ} {place : FailAll} {next : Option FailAll}
    {mine theirs : List ℕ} (h : FailMove sh place sh' next) (hsh : sh.Balanced mine theirs) :
    sh'.Balanced mine theirs := by
  cases h with
  | store failure => exact hsh
  | failRead canonical hpool =>
    obtain ⟨hnil,hperm⟩ := sh.readToProcess.leases_fail canonical
    refine hsh.releasedAll ?_ hpool
    rw [List.perm_iff_count] at *
    intro a
    have ha := hperm a
    simp only [List.count_append,hnil,List.count_nil] at ha ⊢
    omega
  | failWrite canonical hpool =>
    obtain ⟨hnil,hperm⟩ := sh.processToWrite.leases_fail canonical
    refine hsh.releasedAll ?_ hpool
    rw [List.perm_iff_count] at *
    intro a
    have ha := hperm a
    simp only [List.count_append,hnil,List.count_nil] at ha ⊢
    omega

theorem ReaderMove.balanced {call : RunCall σ} {sh sh' : Shared σ} {r r' : Reader}
    {theirs : List ℕ} (h : ReaderMove call sh r r' sh') (hsh : sh.Balanced r.held theirs) :
    sh'.Balanced r'.held theirs := by
  cases h with
  | @failing place sh' next hfail =>
    have hnext := hfail.balanced hsh
    cases next <;> exact hnext
  | acquired hpool => exact (hsh.acquire hpool).1
  | readFailed | readEof => exact hsh
  | rejected => exact hsh.storeBytes _ _
  | received hread hdata hitem =>
    obtain ⟨rfl,-⟩ := RunCall.received_ok hitem
    exact hsh.storeBytes _ _
  | @pushed item queue hopen hcontents hstate hcapacity =>
    refine hsh.moves rfl fun i => ?_
    simp only [Reader.held,CheckedQueue.leases,hcontents,List.map_append,List.map_cons,
      List.map_nil,List.count_append,List.count_nil]
    omega
  | refused hstate hqueue =>
    exact hsh.queues rfl (CheckedQueue.leases_of_toFifo hqueue) rfl
  | closed => exact hsh.queues rfl (CheckedQueue.leases_close _) rfl
  | released hpool => exact hsh.released (.refl _) hpool
  | unwound hpool => exact hsh.released (.refl _) hpool

theorem ProcessorMove.balanced {sh sh' : Shared σ} {p p' : Processor} {theirs : List ℕ}
    (h : ProcessorMove sh p p' sh') (hsh : sh.Balanced p.held theirs) :
    sh'.Balanced p'.held theirs := by
  cases h with
  | @failing place sh' next hfail =>
    have hnext := hfail.balanced hsh
    cases next <;> exact hnext
  | @popped item queue hcontents hstate hcapacity =>
    refine hsh.moves rfl fun i => ?_
    simp only [Processor.held,CheckedQueue.leases,hcontents,List.map_cons,List.count_cons,
      List.count_nil]
    omega
  | ended hstate hcontents hqueue =>
    exact hsh.queues rfl (CheckedQueue.leases_of_toFifo hqueue) rfl
  | popFailed hstate hqueue =>
    exact hsh.queues rfl (CheckedQueue.leases_of_toFifo hqueue) rfl
  | stageFailed | processed => exact hsh.storeBytes _ _
  | @pushed item queue hopen hcontents hstate hcapacity =>
    refine hsh.moves rfl fun i => ?_
    simp only [Processor.held,CheckedQueue.leases,hcontents,List.map_append,List.map_cons,
      List.map_nil,List.count_append,List.count_nil]
    omega
  | refused hstate hqueue =>
    exact hsh.queues rfl rfl (CheckedQueue.leases_of_toFifo hqueue)
  | closed => exact hsh.queues rfl rfl (CheckedQueue.leases_close _)
  | unwound hpool => exact hsh.released (.refl _) hpool

theorem WriterMove.balanced {call : RunCall σ} {sh sh' : Shared σ} {w w' : Writer}
    {theirs : List ℕ} (h : WriterMove call sh w w' sh') (hsh : sh.Balanced w.held theirs) :
    sh'.Balanced w'.held theirs := by
  cases h with
  | @failing place sh' next hfail =>
    have hnext := hfail.balanced hsh
    cases next <;> exact hnext
  | @popped item queue hcontents hstate hcapacity =>
    refine hsh.moves rfl fun i => ?_
    simp only [Writer.held,CheckedQueue.leases,hcontents,List.map_cons,List.count_cons,
      List.count_nil]
    omega
  | ended hstate hcontents hqueue =>
    exact hsh.queues rfl rfl (CheckedQueue.leases_of_toFifo hqueue)
  | popFailed hstate hqueue =>
    exact hsh.queues rfl rfl (CheckedQueue.leases_of_toFifo hqueue)
  | wrote | finished | writeFailed => exact hsh
  | released hpool => exact hsh.released (.refl _) hpool
  | unwound hpool => exact hsh.released (.refl _) hpool

theorem holders_perm (s : RunState σ) (mine theirs : List ℕ)
    (h : (s.reader.held++s.processor.held++s.writer.held).Perm (mine++theirs)) :
    s.holders.Perm (mine++s.shared.readToProcess.leases++s.shared.processToWrite.leases++
      theirs) := by
  rw [List.perm_iff_count] at *
  intro a
  have ha := h a
  simp only [RunState.holders,List.count_append] at ha ⊢
  omega

def RunState.Owned (s : RunState σ) : Prop := s.shared.pool.Leased s.holders

theorem RunState.Owned.views {s : RunState σ} (h : s.Owned) :
    s.shared.Balanced s.reader.held (s.processor.held++s.writer.held) ∧
    s.shared.Balanced s.processor.held (s.reader.held++s.writer.held) ∧
    s.shared.Balanced s.writer.held (s.reader.held++s.processor.held) ∧
    s.shared.Balanced [] (s.reader.held++s.processor.held++s.writer.held) := by
  refine ⟨h.of_perm (holders_perm s _ _ (by rw [List.append_assoc])),
    h.of_perm (holders_perm s _ _ ?_),h.of_perm (holders_perm s _ _ List.perm_append_comm),
    h.of_perm (holders_perm s _ _ (.refl _))⟩
  rw [← List.append_assoc]
  exact List.perm_append_comm.append_right _

/-- No step of any thread loses or duplicates a lease. -/
theorem owned_step {call : RunCall σ} {s s' : RunState σ} {t : Thread} (horderly : s.Orderly)
    (hs : s.Owned) (h : call.system.step t s = some s') : s'.Owned := by
  rcases RunCall.step_cases h with ⟨r,sh,hmove,rfl⟩ | ⟨p,sh,hmove,rfl⟩ | ⟨w,sh,hmove,rfl⟩ | hmove
  · have hview := fun u : RunState σ =>
      holders_perm u u.reader.held (u.processor.held++u.writer.held) (by rw [List.append_assoc])
    exact AlignedBufferPool.Leased.of_perm (hmove.balanced (hs.of_perm (hview s)))
      (hview { s with reader := r, shared := sh }).symm
  · have hview := fun u : RunState σ =>
      holders_perm u u.processor.held (u.reader.held++u.writer.held)
        (by rw [← List.append_assoc]; exact List.perm_append_comm.append_right _)
    exact AlignedBufferPool.Leased.of_perm (hmove.balanced (hs.of_perm (hview s)))
      (hview { s with processor := p, shared := sh }).symm
  · have hview := fun u : RunState σ =>
      holders_perm u u.writer.held (u.reader.held++u.processor.held) List.perm_append_comm
    exact AlignedBufferPool.Leased.of_perm (hmove.balanced (hs.of_perm (hview s)))
      (hview { s with writer := w, shared := sh }).symm
  · have hheld : (s'.reader.held = s.reader.held ∧ s'.processor.held = s.processor.held ∧
        s'.writer.held = s.writer.held) ∧ (s'.shared = s.shared ∨
          ∃ place next, FailMove s.shared place s'.shared next) := by
      cases hmove with
      | writerStarted hcaller hstart =>
        have hw := horderly.writerWaits hcaller
        exact ⟨⟨rfl,rfl,by rw [hw]; rfl⟩,.inl rfl⟩
      | processorStarted hcaller hstart =>
        have hp := horderly.processorWaits (.inr hcaller)
        exact ⟨⟨rfl,by rw [hp]; rfl,rfl⟩,.inl rfl⟩
      | readerStarted hcaller hstart =>
        have hr := horderly.readerWaits (by rw [hcaller]; trivial)
        exact ⟨⟨by rw [hr]; rfl,rfl,rfl⟩,.inl rfl⟩
      | startFailed hcaller hstart => exact ⟨⟨rfl,rfl,rfl⟩,.inl rfl⟩
      | failing hcaller hfail => exact ⟨⟨rfl,rfl,rfl⟩,.inr ⟨_,_,hfail⟩⟩
      | joined hcaller hjoin => exact ⟨⟨rfl,rfl,rfl⟩,.inl rfl⟩
    obtain ⟨⟨hr,hp,hw⟩,hshared⟩ := hheld
    have hview := fun u : RunState σ => holders_perm u [] (u.reader.held++u.processor.held++u.writer.held)
      (.refl _)
    have hbefore : s.shared.Balanced [] (s'.reader.held++s'.processor.held++s'.writer.held) := by
      rw [hr,hp,hw]
      exact hs.of_perm (hview s)
    have hafter : s'.shared.Balanced [] (s'.reader.held++s'.processor.held++s'.writer.held) := by
      rcases hshared with hsame | ⟨place,next,hfail⟩
      · rw [hsame]; exact hbefore
      · exact hfail.balanced hbefore
    exact hafter.of_perm (hview s').symm

theorem shape_step {call : RunCall σ} {s s' : RunState σ} {t : Thread}
    (h : call.system.step t s = some s') : s.shared.pool.SameShape s'.shared.pool := by
  have hfail : ∀ {place : FailAll} {sh sh' : Shared σ} {next : Option FailAll},
      FailMove sh place sh' next → sh.pool.SameShape sh'.pool := by
    intro place sh sh' next hmove
    cases hmove with
    | store failure => exact .refl _
    | failRead canonical hpool => exact .of_buffers (AlignedBufferPool.releaseAll_buffers hpool)
    | failWrite canonical hpool => exact .of_buffers (AlignedBufferPool.releaseAll_buffers hpool)
  rcases RunCall.step_cases h with ⟨r,sh,hmove,rfl⟩ | ⟨p,sh,hmove,rfl⟩ | ⟨w,sh,hmove,rfl⟩ | hmove
  · generalize s.reader = r₀ at hmove
    cases hmove with
    | failing hmove => exact hfail hmove
    | acquired hpool => exact .of_buffers (AlignedBufferPool.acquire_buffers hpool)
    | released hpool => exact .of_buffers (AlignedBufferPool.release_buffers hpool)
    | unwound hpool => exact .of_buffers (AlignedBufferPool.release_buffers hpool)
    | rejected | received => exact .storeBytes _ _ _
    | readFailed | readEof | pushed | refused | closed => exact .refl _
  · generalize s.processor = p₀ at hmove
    cases hmove with
    | failing hmove => exact hfail hmove
    | unwound hpool => exact .of_buffers (AlignedBufferPool.release_buffers hpool)
    | stageFailed | processed => exact .storeBytes _ _ _
    | popped | ended | popFailed | pushed | refused | closed => exact .refl _
  · generalize s.writer = w₀ at hmove
    cases hmove with
    | failing hmove => exact hfail hmove
    | released hpool => exact .of_buffers (AlignedBufferPool.release_buffers hpool)
    | unwound hpool => exact .of_buffers (AlignedBufferPool.release_buffers hpool)
    | popped | ended | popFailed | wrote | finished | writeFailed => exact .refl _
  · cases hmove with
    | failing hcaller hmove => exact hfail hmove
    | writerStarted | processorStarted | readerStarted | startFailed | joined => exact .refl _

/-- The invariants of a run: failures agree, threads are in order, leases are owned. -/
structure RunState.Sound (call : RunCall σ) (s : RunState σ) : Prop where
  agrees : s.Agrees
  orderly : s.Orderly
  owned : s.Owned
  valid : call.config.Valid
  buffers_length : s.shared.pool.buffers.length = call.config.maxInflightBuffers
  bytes_length : ∀ i < call.config.maxInflightBuffers,
    (s.shared.pool.bytes i).length = call.config.blockSize
  metric : s.shared.pool.inflightMetric.isSome = call.metrics.isSome

theorem sound_step {call : RunCall σ} {s s' : RunState σ} {t : Thread} (hs : s.Sound call)
    (h : call.system.step t s = some s') : s'.Sound call := by
  obtain ⟨hagrees,horderly⟩ := orderly_step ⟨hs.agrees,hs.orderly⟩ h
  have hshape := shape_step h
  exact ⟨hagrees,horderly,owned_step hs.orderly hs.owned h,hs.valid,
    hshape.buffers_length.trans hs.buffers_length,
    fun i hi => (hshape.bytes_length i).trans (hs.bytes_length i hi),hshape.metric.trans hs.metric⟩

theorem Initial.sound {call : RunCall σ} {s : RunState σ} (h : Initial call s) : s.Sound call := by
  obtain ⟨hagrees,horderly⟩ := h.orderly
  refine ⟨hagrees,horderly,?_,h.valid,h.buffers_length,h.bytes_length,h.metric⟩
  have hholders : s.holders = [] := by
    simp [RunState.holders,h.reader,h.processor,h.writer,Reader.held,Processor.held,Writer.held,
      CheckedQueue.leases,h.readToProcess_contents,h.processToWrite_contents]
  rw [RunState.Owned,hholders]
  exact h.leased

theorem reachable_sound {call : RunCall σ} {s₀ s : RunState σ} (h : call.start = .ok s₀)
    (hs : call.system.Reachable s₀ s) : s.Sound call :=
  @TransitionSystem.Reachable.invariant _ _ call.system (fun u => u.Sound call)
    (fun _ _ _ hu hstep => sound_step hu hstep) _ _ (start_initial h).sound hs

theorem RunState.Orderly.holders_nil {s : RunState σ} (h : s.Orderly) (hjoin : RunCall.Joinable s) :
    s.shared.readToProcess.contents = [] ∧ s.shared.processToWrite.contents = [] ∧
      s.holders = [] := by
  obtain ⟨hreader,hprocessor,hwriter⟩ := hjoin
  have hread : s.shared.readToProcess.contents = [] := by
    rcases hprocessor with hp | hp
    · exact (h.processorIdle hp).2
    · exact (h.processorDrained (by rw [hp]; trivial)).2
  have hwrite : s.shared.processToWrite.contents = [] := by
    rcases hwriter with hw | hw
    · exact (h.writerIdle hw).2
    · exact (h.writerEnded hw).2
  have hr : s.reader.held = [] := by rcases hreader with hr | hr <;> rw [hr] <;> rfl
  have hp : s.processor.held = [] := by rcases hprocessor with hp | hp <;> rw [hp] <;> rfl
  have hw : s.writer.held = [] := by rcases hwriter with hw | hw <;> rw [hw] <;> rfl
  exact ⟨hread,hwrite,by simp [RunState.holders,CheckedQueue.leases,hread,hwrite,hr,hp,hw]⟩

/-- The leases of a run, and where they are when every started worker has ended. -/
structure LeaseContract (call : RunCall σ) (s : RunState σ) : Prop where
  distinct : s.holders.Nodup
  inUse_iff : ∀ i, s.shared.pool.inUse[i]? = some true ↔ i ∈ s.holders
  disjoint : s.holders.Disjoint s.shared.pool.availableIndices
  bounded : s.holders.length ≤ call.config.maxInflightBuffers
  gauge : s.shared.pool.inflightMetric.map Gauge.current =
    call.metrics.map fun _ => (s.holders.length : ℤ)
  returned : RunCall.Joinable s →
    s.shared.readToProcess.contents = [] ∧ s.shared.processToWrite.contents = [] ∧
    s.shared.pool.availableIndices.Perm (List.range call.config.maxInflightBuffers) ∧
    s.shared.pool.Destructible

theorem leases_partitioned (call : RunCall σ) {s₀ s : RunState σ} (h : call.start = .ok s₀)
    (hs : call.system.Reachable s₀ s) : LeaseContract call s := by
  have hsound := reachable_sound h hs
  have hbalanced := hsound.owned.balanced
  rw [hsound.buffers_length] at hbalanced
  refine ⟨hbalanced.nodup_held,hsound.owned.inUse_iff,hbalanced.disjoint,?_,?_,fun hjoin => ?_⟩
  · have hlen := hbalanced.length_eq
    omega
  · have hmetric := hsound.metric
    cases hg : s.shared.pool.inflightMetric with
    | none =>
      rw [hg] at hmetric
      rw [Option.isSome_eq_false_iff.mp hmetric.symm |> Option.isNone_iff_eq_none.mp]
      rfl
    | some g =>
      rw [hg] at hmetric
      obtain ⟨m,hm⟩ := Option.isSome_iff_exists.mp hmetric.symm
      obtain ⟨peak,-,hshows⟩ := hsound.owned.gauge_shows g hg
      rw [hm]
      exact congrArg some hshows.1
  · obtain ⟨hread,hwrite,hholders⟩ := hsound.orderly.holders_nil hjoin
    have howned : s.shared.pool.Leased s.holders := hsound.owned
    rw [hholders] at howned hbalanced
    exact ⟨hread,hwrite,hbalanced,howned.destructible⟩

theorem leases_partitioned_queued : ∃ s₀ s, (RunCall.smallest [1,2,3]).start = .ok s₀ ∧
    (RunCall.smallest [1,2,3]).system.exec s₀ [.caller,.caller,.caller,.worker .reader,
      .worker .reader,.worker .reader] = some s ∧
    s.holders = [0] ∧ LeaseContract (RunCall.smallest [1,2,3]) s :=
  ⟨_,_,rfl,rfl,rfl,leases_partitioned _ rfl ⟨[.caller,.caller,.caller,.worker .reader,
    .worker .reader,.worker .reader],rfl⟩⟩

end AsyncDataLoader
