import AsyncDataLoader.BlockSequence
import AsyncDataLoader.NumberedFifo
import AsyncDataLoader.LeaseOwnership

/-!
# How the blocks flow through a run

Each thread stands at a block of the sequence, and the items between the threads carry the
blocks in order: the raw bytes before the processor and the processed bytes after it. The
leases keep the bytes of an item in place while other threads store into other buffers.
-/

namespace AsyncDataLoader

open FileIO

variable {σ : Type*}

/-- The item is the `k`-th block, and its buffer holds the content. -/
structure BlockWorkItem.Holds (call : RunCall σ) (content : Bytes) (pool : AlignedBufferPool)
    (k : ℕ) (item : BlockWorkItem) : Prop where
  index : item.blockIndex = k
  offset : call.offsetAt k = some item.fileOffset
  next : call.offsetAt (k+1) = some (item.fileOffset+item.validBytes)
  fits : item.validBytes ≤ (pool.bytes item.buffer).length
  bytes : (pool.bytes item.buffer).take item.validBytes = content

def Raw (call : RunCall σ) (pool : AlignedBufferPool) (k : ℕ) (item : BlockWorkItem) : Prop :=
  item.Holds call (call.rawAt k) pool k

def Processed (call : RunCall σ) (pool : AlignedBufferPool) (k : ℕ) (item : BlockWorkItem) : Prop :=
  item.Holds call (call.processedAt k) pool k ∧ call.stagesAt (k+1) ≠ none

theorem BlockWorkItem.Holds.frame {call : RunCall σ} {content : Bytes}
    {pool pool' : AlignedBufferPool} {k : ℕ} {item : BlockWorkItem}
    (h : item.Holds call content pool k)
    (hbytes : pool'.bytes item.buffer = pool.bytes item.buffer) :
    item.Holds call content pool' k :=
  ⟨h.index,h.offset,h.next,by rw [hbytes]; exact h.fits,by rw [hbytes]; exact h.bytes⟩

theorem Raw.frame {call : RunCall σ} {pool pool' : AlignedBufferPool} {k : ℕ}
    {item : BlockWorkItem} (h : Raw call pool k item)
    (hbytes : pool'.bytes item.buffer = pool.bytes item.buffer) : Raw call pool' k item :=
  BlockWorkItem.Holds.frame h hbytes

theorem Processed.frame {call : RunCall σ} {pool pool' : AlignedBufferPool} {k : ℕ}
    {item : BlockWorkItem} (h : Processed call pool k item)
    (hbytes : pool'.bytes item.buffer = pool.bytes item.buffer) : Processed call pool' k item :=
  ⟨h.1.frame hbytes,h.2⟩

def Reader.At (call : RunCall σ) (sh : Shared σ) (m : ℕ) : Reader → Prop
  | .notStarted => m = 0
  | .acquire blockIndex fileOffset => blockIndex = m ∧ call.offsetAt m = some fileOffset
  | .read blockIndex fileOffset _ => blockIndex = m ∧ call.offsetAt m = some fileOffset
  | .push item => Raw call sh.pool m item
  | .close _ => call.EofAt m
  | _ => True

def Processor.At (call : RunCall σ) (sh : Shared σ) (p q : ℕ) : Processor → Prop
  | .notStarted => p = 0 ∧ q = 0 ∧ call.stagesAt 0 = some sh.stages
  | .pop => p = q ∧ call.stagesAt q = some sh.stages
  | .process item => p = q+1 ∧ call.stagesAt q = some sh.stages ∧ Raw call sh.pool q item
  | .push item => p = q+1 ∧ call.stagesAt (q+1) = some sh.stages ∧ Processed call sh.pool q item
  | .close => call.EofAt q
  | _ => True

def Written (call : RunCall σ) (sh : Shared σ) : Prop :=
  call.offsetAt sh.runResult.blocksWritten = some sh.runResult.bytesWritten ∧
  call.stagesAt sh.runResult.blocksWritten ≠ none ∧
  call.fileAt sh.runResult.blocksWritten = some sh.output

structure Writing (call : RunCall σ) (sh : Shared σ) (item : BlockWorkItem) (writtenCount : ℕ)
    (base : Bytes) : Prop where
  item : Processed call sh.pool sh.runResult.blocksWritten item
  offset : call.offsetAt sh.runResult.blocksWritten = some sh.runResult.bytesWritten
  file : call.fileAt sh.runResult.blocksWritten = some base
  progress : (⟨writtenCount,sh.output⟩ : WriteProgress).Extends base
    (call.processedAt sh.runResult.blocksWritten)
  same : writeAllAtWith call.writeAt (call.processedAt sh.runResult.blocksWritten) base.length
      ⟨writtenCount,sh.output⟩ =
    writeAllAtWith call.writeAt (call.processedAt sh.runResult.blocksWritten) base.length ⟨0,base⟩

def Writer.At (call : RunCall σ) (sh : Shared σ) (w : ℕ) : Writer → Prop
  | .notStarted => w = 0 ∧ sh.runResult.blocksWritten = 0 ∧ Written call sh
  | .pop => w = sh.runResult.blocksWritten ∧ Written call sh
  | .write item writtenCount => w = sh.runResult.blocksWritten+1 ∧
      ∃ base, Writing call sh item writtenCount base
  | .release _ => w = sh.runResult.blocksWritten ∧ Written call sh
  | .terminated => sh.firstFailure = none →
      Written call sh ∧ call.EofAt sh.runResult.blocksWritten
  | _ => True

def Partial (call : RunCall σ) (output : Bytes) : Prop :=
  ∃ k base, call.offsetAt k ≠ none ∧ call.stagesAt k ≠ none ∧ call.fileAt k = some base ∧
    (output = base ∨ call.offsetAt (k+1) ≠ none ∧ call.stagesAt (k+1) ≠ none ∧
      output <+: (writeAllAtWith call.writeAt (call.processedAt k) base.length ⟨0,base⟩).2)

/-- The threads and the queues agree on the numbers of the blocks. -/
structure RunState.Flows (call : RunCall σ) (s : RunState σ) (m p q w : ℕ) : Prop where
  reader : s.reader.At call s.shared m
  read : s.shared.readToProcess.toFifo.Carries (Raw call s.shared.pool) call.EofAt p m
  processor : s.processor.At call s.shared p q
  write : s.shared.processToWrite.toFifo.Carries (Processed call s.shared.pool) call.EofAt w q
  writer : s.writer.At call s.shared w
  output : Partial call s.shared.output

/-- Everything but the queues and the failures is as it was, except for the bytes of the
buffers in `mine`. -/
structure Shared.Frame (sh sh' : Shared σ) (mine : List ℕ) : Prop where
  bytes : ∀ i, i ∉ mine → sh'.pool.bytes i = sh.pool.bytes i
  stages : sh'.stages = sh.stages
  runResult : sh'.runResult = sh.runResult
  output : sh'.output = sh.output

theorem Shared.Frame.of_pool {sh sh' : Shared σ} {mine : List ℕ}
    (hpool : sh'.pool.buffers = sh.pool.buffers) (hstages : sh'.stages = sh.stages)
    (hresult : sh'.runResult = sh.runResult) (houtput : sh'.output = sh.output) :
    sh.Frame sh' mine :=
  ⟨fun i _ => by rw [AlignedBufferPool.bytes,AlignedBufferPool.bytes,hpool],hstages,hresult,houtput⟩

theorem FailMove.frame {sh sh' : Shared σ} {place : FailAll} {next : Option FailAll}
    (h : FailMove sh place sh' next) (mine : List ℕ) : sh.Frame sh' mine := by
  cases h with
  | store failure => exact .of_pool rfl rfl rfl rfl
  | failRead canonical hpool =>
    exact .of_pool (AlignedBufferPool.releaseAll_buffers hpool).1 rfl rfl rfl
  | failWrite canonical hpool =>
    exact .of_pool (AlignedBufferPool.releaseAll_buffers hpool).1 rfl rfl rfl

theorem ReaderMove.frame {call : RunCall σ} {sh sh' : Shared σ} {r r' : Reader}
    (h : ReaderMove call sh r r' sh') : sh.Frame sh' r.held := by
  cases h with
  | failing hfail => exact hfail.frame _
  | acquired hpool => exact .of_pool (AlignedBufferPool.acquire_buffers hpool).1 rfl rfl rfl
  | released hpool => exact .of_pool (AlignedBufferPool.release_buffers hpool).1 rfl rfl rfl
  | unwound hpool => exact .of_pool (AlignedBufferPool.release_buffers hpool).1 rfl rfl rfl
  | rejected | received =>
    refine ⟨fun i hi => AlignedBufferPool.bytes_storeBytes_of_ne ?_ _,rfl,rfl,rfl⟩
    simpa [Reader.held] using hi
  | readFailed | readEof | pushed | refused | closed => exact .of_pool rfl rfl rfl rfl

theorem Reader.At.frame {call : RunCall σ} {sh sh' : Shared σ} {m : ℕ} {r : Reader}
    (h : r.At call sh m) (hbytes : ∀ i ∈ r.held, sh'.pool.bytes i = sh.pool.bytes i) :
    r.At call sh' m := by
  cases r with
  | push item => exact Raw.frame h (hbytes _ (by simp [Reader.held]))
  | _ => exact h

theorem Processor.At.frame {call : RunCall σ} {sh sh' : Shared σ} {p q : ℕ} {r : Processor}
    (h : r.At call sh p q) (hbytes : ∀ i ∈ r.held, sh'.pool.bytes i = sh.pool.bytes i)
    (hstages : sh'.stages = sh.stages) : r.At call sh' p q := by
  cases r with
  | notStarted => rw [Processor.At,hstages]; exact h
  | pop => rw [Processor.At,hstages]; exact h
  | process item =>
    rw [Processor.At,hstages]
    exact ⟨h.1,h.2.1,h.2.2.frame (hbytes _ (by simp [Processor.held]))⟩
  | push item =>
    rw [Processor.At,hstages]
    exact ⟨h.1,h.2.1,h.2.2.frame (hbytes _ (by simp [Processor.held]))⟩
  | _ => exact h

theorem Writer.At.frame {call : RunCall σ} {sh sh' : Shared σ} {w : ℕ} {r : Writer}
    (h : r.At call sh w) (hbytes : ∀ i ∈ r.held, sh'.pool.bytes i = sh.pool.bytes i)
    (hresult : sh'.runResult = sh.runResult) (houtput : sh'.output = sh.output)
    (hfirst : sh'.firstFailure = none → sh.firstFailure = none) : r.At call sh' w := by
  cases r with
  | write item writtenCount =>
    obtain ⟨hw,base,hwriting⟩ := h
    have hitem := hwriting.item.frame (hbytes item.buffer (by simp [Writer.held]))
    refine ⟨by rw [hresult]; exact hw,base,⟨?_,?_,?_,?_,?_⟩⟩
    · rw [hresult]; exact hitem
    · rw [hresult]; exact hwriting.offset
    · rw [hresult]; exact hwriting.file
    · rw [hresult,houtput]; exact hwriting.progress
    · rw [hresult,houtput]; exact hwriting.same
  | terminated =>
    intro hnone
    have hdone := h (hfirst hnone)
    rw [Written,hresult,houtput]
    exact hdone
  | notStarted | pop | release =>
    simp only [Writer.At,Written,hresult,houtput]
    exact h
  | unwind | failing => trivial

theorem Shared.Extends.firstFailure_none {sh sh' : Shared σ} (h : sh.Extends sh')
    (hnone : sh'.firstFailure = none) : sh.firstFailure = none := by
  cases hfirst : sh.firstFailure with
  | none => rfl
  | some failure =>
    rw [h.firstFailure failure hfirst] at hnone
    cases hnone

theorem CheckedQueue.carries_frame {q : CheckedQueue BlockWorkItem}
    {P : AlignedBufferPool → ℕ → BlockWorkItem → Prop} {Last : ℕ → Prop} {lo hi : ℕ}
    {sh sh' : Shared σ} {mine : List ℕ}
    (hP : ∀ k item, sh'.pool.bytes item.buffer = sh.pool.bytes item.buffer →
      P sh.pool k item → P sh'.pool k item)
    (hframe : sh.Frame sh' mine) (hmine : ∀ i ∈ q.leases, i ∉ mine)
    (h : q.toFifo.Carries (P sh.pool) Last lo hi) : q.toFifo.Carries (P sh'.pool) Last lo hi := by
  refine h.imp fun k item hitem => hP k item (hframe.bytes _ (hmine _ ?_))
  exact List.mem_map_of_mem hitem

theorem CheckedQueue.KeptOrFailed.carries {q q' : CheckedQueue BlockWorkItem}
    {P : ℕ → BlockWorkItem → Prop} {Last : ℕ → Prop} {lo hi : ℕ} (hq : q.KeptOrFailed q')
    (h : q.toFifo.Carries P Last lo hi) : q'.toFifo.Carries P Last lo hi := by
  rcases hq with hsame | ⟨failure,hfailed⟩
  · rw [hsame]; exact h
  · exact .failed hfailed (q'.contents_of_failed hfailed)

theorem CheckedQueue.carries_pop {q q' : CheckedQueue BlockWorkItem} {item : BlockWorkItem}
    {P : ℕ → BlockWorkItem → Prop} {Last : ℕ → Prop} {lo hi : ℕ}
    (hcontents : q.contents = item::q'.contents) (hstate : q'.state = q.state)
    (h : q.toFifo.Carries P Last lo hi) : P lo item ∧ q'.toFifo.Carries P Last (lo+1) hi :=
  h.pop hcontents hstate

/-- The leases of one thread are not those of the queues or of the others. -/
theorem Shared.Balanced.apart {sh : Shared σ} {mine theirs : List ℕ} (h : sh.Balanced mine theirs) :
    (∀ i ∈ sh.readToProcess.leases, i ∉ mine) ∧ (∀ i ∈ sh.processToWrite.leases, i ∉ mine) ∧
      ∀ i ∈ theirs, i ∉ mine := by
  have hnodup := h.balanced.nodup_held
  rw [List.append_assoc,List.append_assoc] at hnodup
  have hdisjoint := List.disjoint_of_nodup_append hnodup
  exact ⟨fun i hi hm => hdisjoint hm (by simp [hi]),fun i hi hm => hdisjoint hm (by simp [hi]),
    fun i hi hm => hdisjoint hm (by simp [hi])⟩

/-- The buffers that a thread holds are buffers of the pool, of the size of a block. -/
def Sized (call : RunCall σ) (pool : AlignedBufferPool) (held : List ℕ) : Prop :=
  ∀ i ∈ held, i < pool.buffers.length ∧ (pool.bytes i).length = call.config.blockSize

theorem RunState.Sound.sized {call : RunCall σ} {s : RunState σ} (hs : s.Sound call) :
    Sized call s.shared.pool s.holders := by
  intro i hi
  have howned : s.shared.pool.Leased s.holders := hs.owned
  have hlt := howned.lt_of_mem hi
  exact ⟨hlt,hs.bytes_length i (by rw [← hs.buffers_length]; exact hlt)⟩

theorem ReaderMove.flows {call : RunCall σ} {sh sh' : Shared σ} {r r' : Reader} {m p : ℕ}
    (h : ReaderMove call sh r r' sh') (hsized : Sized call sh.pool r.held)
    (hmine : ∀ i ∈ sh.readToProcess.leases, i ∉ r.held) (hr : r.At call sh m)
    (hplaces : ∀ place ∈ r.places, sh.Canonical place)
    (hq : sh.readToProcess.toFifo.Carries (Raw call sh.pool) call.EofAt p m) :
    ∃ m', r'.At call sh' m' ∧
      sh'.readToProcess.toFifo.Carries (Raw call sh'.pool) call.EofAt p m' := by
  have hframe := h.frame
  have hstay : sh.readToProcess.toFifo.Carries (Raw call sh'.pool) call.EofAt p m :=
    CheckedQueue.carries_frame (fun _ _ hbytes hraw => hraw.frame hbytes) hframe hmine hq
  cases h with
  | @failing place sh' next hfail =>
    have hkept := (hfail.queues (hplaces place (by simp [Reader.places]))).1
    exact ⟨m,by cases next <;> trivial,hkept.carries hstay⟩
  | acquired hpool => exact ⟨m,hr,hstay⟩
  | readFailed hread => exact ⟨m,trivial,hstay⟩
  | @readEof k o buffer hread =>
    have hsize := (hsized buffer (by simp [Reader.held])).2
    rw [hsize] at hread
    exact ⟨m,⟨o,hr.2,hread⟩,hstay⟩
  | rejected hread hdata hitem => exact ⟨m,trivial,hstay⟩
  | @received k o buffer data item hread hdata hitem =>
    obtain ⟨rfl,hpos,hfit,hoffset,-⟩ := RunCall.received_ok hitem
    obtain ⟨hlt,hsize⟩ := hsized buffer (by simp [Reader.held])
    obtain ⟨rfl,hat⟩ := hr
    have hrange := (RunCall.offsetAt_le hat).2
    rw [hsize] at hread
    obtain ⟨hnext,hraw⟩ := RunCall.offsetAt_of_read hat hread hdata (by omega) (by omega)
    refine ⟨k,⟨rfl,hat,hnext,?_,?_⟩,hstay⟩
    · simpa using hfit
    · rw [hraw]
      exact AlignedBufferPool.take_bytes_storeBytes hlt hfit
  | @pushed item queue hopen hcontents hstate hcapacity =>
    have hnext : item.blockIndex+1 = m+1 := by rw [hr.index]
    exact ⟨m+1,⟨hnext,hr.next⟩,hstay.push hopen hr hcontents hstate⟩
  | refused hstate hqueue =>
    exact ⟨m,trivial,CheckedQueue.KeptOrFailed.carries (.inl hqueue) hstay⟩
  | closed =>
    refine ⟨m,trivial,?_⟩
    have hclose : sh.readToProcess.close.toFifo = sh.readToProcess.toFifo.close :=
      SPSCQueue.close_simulates _
    simp only [hclose]
    exact hstay.close hr
  | released hpool => exact ⟨m,trivial,hstay⟩
  | unwound hpool => exact ⟨m,trivial,hstay⟩

theorem flows_reader {call : RunCall σ} {s : RunState σ} {r : Reader} {sh : Shared σ}
    {m p q w : ℕ} (hs : s.Sound call) (h : s.Flows call m p q w) (hext : s.shared.Extends sh)
    (hmove : ReaderMove call s.shared s.reader r sh) :
    ∃ m', RunState.Flows call { s with reader := r, shared := sh } m' p q w := by
  have hplaces : ∀ place ∈ s.reader.places, s.shared.Canonical place := fun place hp =>
    hs.agrees.places place (by simp [RunState.places,hp])
  obtain ⟨hread,hwrite,htheirs⟩ := hs.owned.views.1.apart
  have hsized : Sized call s.shared.pool s.reader.held := fun i hi =>
    hs.sized i (by simp [RunState.holders,hi])
  have hframe := hmove.frame
  obtain ⟨m',hr,hq₁⟩ := hmove.flows hsized hread h.reader hplaces h.read
  refine ⟨m',hr,hq₁,h.processor.frame (fun i hi => hframe.bytes i (htheirs i (by simp [hi])))
    hframe.stages,(hmove.queues hplaces).2.2.2.1.carries
      (CheckedQueue.carries_frame (fun _ _ hbytes hitem => hitem.frame hbytes) hframe hwrite h.write),
    h.writer.frame (fun i hi => hframe.bytes i (htheirs i (by simp [hi]))) hframe.runResult
      hframe.output hext.firstFailure_none,?_⟩
  rw [show ({ s with reader := r, shared := sh } : RunState σ).shared.output = s.shared.output from
    hframe.output]
  exact h.output

theorem ProcessorMove.frame {sh sh' : Shared σ} {r r' : Processor} (h : ProcessorMove sh r r' sh') :
    (∀ i, i ∉ r.held → sh'.pool.bytes i = sh.pool.bytes i) ∧ sh'.runResult = sh.runResult ∧
      sh'.output = sh.output := by
  cases h with
  | failing hfail =>
    have hframe := hfail.frame []
    exact ⟨fun i _ => hframe.bytes i (by simp),hframe.runResult,hframe.output⟩
  | unwound hpool =>
    have hbuffers := (AlignedBufferPool.release_buffers hpool).1
    exact ⟨fun i _ => by simp only [AlignedBufferPool.bytes,hbuffers],rfl,rfl⟩
  | stageFailed | processed =>
    refine ⟨fun i hi => AlignedBufferPool.bytes_storeBytes_of_ne ?_ _,rfl,rfl⟩
    simpa [Processor.held] using hi
  | popped | ended | popFailed | pushed | refused | closed => exact ⟨fun _ _ => rfl,rfl,rfl⟩

theorem ProcessorMove.flows {call : RunCall σ} {sh sh' : Shared σ} {r r' : Processor}
    {m p q w : ℕ} (h : ProcessorMove sh r r' sh') (hsized : Sized call sh.pool r.held)
    (hmine₁ : ∀ i ∈ sh.readToProcess.leases, i ∉ r.held)
    (hmine₂ : ∀ i ∈ sh.processToWrite.leases, i ∉ r.held) (hr : r.At call sh p q)
    (hplaces : ∀ place ∈ r.places, sh.Canonical place)
    (hread : sh.readToProcess.toFifo.Carries (Raw call sh.pool) call.EofAt p m)
    (hwrite : sh.processToWrite.toFifo.Carries (Processed call sh.pool) call.EofAt w q) :
    ∃ p' q', r'.At call sh' p' q' ∧
      sh'.readToProcess.toFifo.Carries (Raw call sh'.pool) call.EofAt p' m ∧
      sh'.processToWrite.toFifo.Carries (Processed call sh'.pool) call.EofAt w q' := by
  have hbytes := h.frame.1
  have hstay₁ : sh.readToProcess.toFifo.Carries (Raw call sh'.pool) call.EofAt p m :=
    hread.imp fun k item hitem hraw =>
      hraw.frame (hbytes _ (hmine₁ _ (List.mem_map_of_mem hitem)))
  have hstay₂ : sh.processToWrite.toFifo.Carries (Processed call sh'.pool) call.EofAt w q :=
    hwrite.imp fun k item hitem hdone =>
      hdone.frame (hbytes _ (hmine₂ _ (List.mem_map_of_mem hitem)))
  cases h with
  | @failing place sh' next hfail =>
    obtain ⟨hkept₁,hkept₂,-⟩ := hfail.queues (hplaces place (by simp [Processor.places]))
    exact ⟨p,q,by cases next <;> trivial,hkept₁.carries hstay₁,hkept₂.carries hstay₂⟩
  | popped hcontents hstate hcapacity =>
    obtain ⟨hitem,hrest⟩ := CheckedQueue.carries_pop hcontents hstate hstay₁
    obtain ⟨rfl,hstages⟩ := hr
    exact ⟨p+1,p,⟨rfl,hstages,hitem⟩,hrest,hstay₂⟩
  | ended hstate hcontents hqueue =>
    obtain ⟨rfl,hstages⟩ := hr
    exact ⟨p,p,hstay₁.drained hstate hcontents,
      CheckedQueue.KeptOrFailed.carries (.inl hqueue) hstay₁,hstay₂⟩
  | popFailed hstate hqueue =>
    exact ⟨p,q,trivial,CheckedQueue.KeptOrFailed.carries (.inl hqueue) hstay₁,hstay₂⟩
  | stageFailed hstage => exact ⟨p,q,trivial,hstay₁,hstay₂⟩
  | @processed item hstage =>
    obtain ⟨hp,hstages,hraw⟩ := hr
    have hvalid : sh.validData item = call.rawAt q := hraw.bytes
    rw [hvalid] at hstage
    have hnext := RunCall.stagesAt_of_process hstages hstage
    have hblock : (Pipeline.process sh.stages (call.rawAt q)).block = call.processedAt q := by
      simp [RunCall.processedAt,hstages]
    have hlen : (call.processedAt q).length = item.validBytes := by
      rw [RunCall.processedAt_length (by simp [hstages]),← hraw.bytes,List.length_take]
      have hfits := hraw.fits
      omega
    obtain ⟨hlt,-⟩ := hsized item.buffer (by simp [Processor.held])
    refine ⟨p,q,⟨hp,?_,⟨hraw.index,hraw.offset,hraw.next,?_,?_⟩,by simp [hnext]⟩,hstay₁,hstay₂⟩
    · simpa [hvalid] using hnext
    · simpa using hraw.fits
    · simp only [Shared.count_pool,hvalid,hblock]
      rw [← hlen]
      exact AlignedBufferPool.take_bytes_storeBytes hlt (by rw [hlen]; exact hraw.fits)
  | pushed hopen hcontents hstate hcapacity =>
    obtain ⟨hp,hstages,hitem⟩ := hr
    exact ⟨p,q+1,⟨hp,hstages⟩,hstay₁,hstay₂.push hopen hitem hcontents hstate⟩
  | refused hstate hqueue =>
    exact ⟨p,q,trivial,hstay₁,CheckedQueue.KeptOrFailed.carries (.inl hqueue) hstay₂⟩
  | closed =>
    refine ⟨p,q,trivial,hstay₁,?_⟩
    have hclose : sh.processToWrite.close.toFifo = sh.processToWrite.toFifo.close :=
      SPSCQueue.close_simulates _
    simp only [hclose]
    exact hstay₂.close hr
  | unwound hpool => exact ⟨p,q,trivial,hstay₁,hstay₂⟩

theorem flows_processor {call : RunCall σ} {s : RunState σ} {r : Processor} {sh : Shared σ}
    {m p q w : ℕ} (hs : s.Sound call) (h : s.Flows call m p q w) (hext : s.shared.Extends sh)
    (hmove : ProcessorMove s.shared s.processor r sh) :
    ∃ p' q', RunState.Flows call { s with processor := r, shared := sh } m p' q' w := by
  have hplaces : ∀ place ∈ s.processor.places, s.shared.Canonical place := fun place hp =>
    hs.agrees.places place (by simp [RunState.places,hp])
  obtain ⟨hread,hwrite,htheirs⟩ := hs.owned.views.2.1.apart
  have hsized : Sized call s.shared.pool s.processor.held := fun i hi =>
    hs.sized i (by simp [RunState.holders,hi])
  obtain ⟨hbytes,hresult,houtput⟩ := hmove.frame
  obtain ⟨p',q',hr,hq₁,hq₂⟩ := hmove.flows hsized hread hwrite h.processor hplaces h.read h.write
  refine ⟨p',q',h.reader.frame fun i hi => hbytes i (htheirs i (by simp [hi])),hq₁,hr,hq₂,
    h.writer.frame (fun i hi => hbytes i (htheirs i (by simp [hi]))) hresult houtput
      hext.firstFailure_none,?_⟩
  rw [show ({ s with processor := r, shared := sh } : RunState σ).shared.output = s.shared.output
    from houtput]
  exact h.output

theorem WriterMove.frame {call : RunCall σ} {sh sh' : Shared σ} {r r' : Writer}
    (h : WriterMove call sh r r' sh') :
    (∀ i, sh'.pool.bytes i = sh.pool.bytes i) ∧ sh'.stages = sh.stages := by
  cases h with
  | failing hfail =>
    have hframe := hfail.frame []
    exact ⟨fun i => hframe.bytes i (by simp),hframe.stages⟩
  | released hpool =>
    have hbuffers := (AlignedBufferPool.release_buffers hpool).1
    exact ⟨fun i => by simp only [AlignedBufferPool.bytes,hbuffers],rfl⟩
  | unwound hpool =>
    have hbuffers := (AlignedBufferPool.release_buffers hpool).1
    exact ⟨fun i => by simp only [AlignedBufferPool.bytes,hbuffers],rfl⟩
  | popped | ended | popFailed | wrote | finished | writeFailed => exact ⟨fun _ => rfl,rfl⟩

theorem FailMove.firstFailure_ne {sh sh' : Shared σ} {place : FailAll} {next : Option FailAll}
    (h : FailMove sh place sh' next) (hplace : sh.Canonical place) : sh'.firstFailure ≠ none := by
  cases h with
  | store failure => simp
  | failRead canonical hpool => simp [show sh.firstFailure = _ from hplace]
  | failWrite canonical hpool => simp [hplace.1]

theorem Writing.geometry {call : RunCall σ} {sh : Shared σ} {item : BlockWorkItem}
    {writtenCount : ℕ} {base : Bytes} (h : Writing call sh item writtenCount base) :
    item.fileOffset = base.length ∧ item.fileOffset = sh.runResult.bytesWritten ∧
    (call.processedAt sh.runResult.blocksWritten).length = item.validBytes ∧
    base.length+item.validBytes ≤ uint64Max ∧
    sh.validData item = call.processedAt sh.runResult.blocksWritten := by
  have hstages := RunCall.stagesAt_mono (Nat.le_succ _) h.item.2
  obtain ⟨-,hlen⟩ := RunCall.fileAt_eq h.file h.item.1.offset hstages
  obtain ⟨offset,hoffset,-,-,-,hrange,hnext⟩ := RunCall.offsetAt_succ h.item.1.next
  obtain rfl := Option.some.inj (h.item.1.offset.symm.trans hoffset)
  have hbytes := Option.some.inj (h.item.1.offset.symm.trans h.offset)
  have hsize := RunCall.processedAt_length hstages
  exact ⟨hlen.symm,hbytes,by omega,by omega,h.item.1.bytes⟩

theorem WriterMove.flows {call : RunCall σ} {sh sh' : Shared σ} {r r' : Writer} {q w : ℕ}
    (h : WriterMove call sh r r' sh') (hr : r.At call sh w)
    (hplaces : ∀ place ∈ r.places, sh.Canonical place)
    (hwrite : sh.processToWrite.toFifo.Carries (Processed call sh.pool) call.EofAt w q)
    (hsofar : Partial call sh.output) :
    ∃ w', r'.At call sh' w' ∧
      sh'.processToWrite.toFifo.Carries (Processed call sh'.pool) call.EofAt w' q ∧
      Partial call sh'.output := by
  have hbytes := h.frame.1
  have hstay : sh.processToWrite.toFifo.Carries (Processed call sh'.pool) call.EofAt w q :=
    hwrite.imp fun k item _ hdone => hdone.frame (hbytes _)
  cases h with
  | @failing place sh' next hfail =>
    have hplace := hplaces place (by simp [Writer.places])
    have hne := hfail.firstFailure_ne hplace
    have houtput := (hfail.frame []).output
    refine ⟨w,?_,(hfail.queues hplace).2.1.carries hstay,by rw [houtput]; exact hsofar⟩
    cases next with
    | none => exact fun hnone => absurd hnone hne
    | some next => trivial
  | popped hcontents hstate hcapacity =>
    obtain ⟨hitem,hrest⟩ := CheckedQueue.carries_pop hcontents hstate hstay
    obtain ⟨rfl,hoffset,-,hfile⟩ := hr
    exact ⟨_,⟨rfl,sh.output,hitem,hoffset,hfile,by simp [WriteProgress.Extends],rfl⟩,hrest,hsofar⟩
  | ended hstate hcontents hqueue =>
    obtain ⟨rfl,hwritten⟩ := hr
    exact ⟨_,fun _ => ⟨hwritten,hstay.drained hstate hcontents⟩,
      CheckedQueue.KeptOrFailed.carries (.inl hqueue) hstay,hsofar⟩
  | popFailed hstate hqueue =>
    exact ⟨w,trivial,CheckedQueue.KeptOrFailed.carries (.inl hqueue) hstay,hsofar⟩
  | @wrote item writtenCount next hattempt =>
    obtain ⟨rfl,base,hwriting⟩ := hr
    obtain ⟨hoffset,-,hlen,hrange,hvalid⟩ := hwriting.geometry
    rw [hvalid,hoffset] at hattempt
    have hrange' : base.length+(call.processedAt sh.runResult.blocksWritten).length ≤ uint64Max := by
      omega
    have hprogress := hwriting.progress.attempt hrange' hattempt
    have hsame := (writeAllAtWith_next hattempt).symm.trans hwriting.same
    refine ⟨_,⟨rfl,base,hwriting.item,hwriting.offset,hwriting.file,hprogress,hsame⟩,hstay,
      ⟨sh.runResult.blocksWritten,base,by simp [hwriting.offset],
        RunCall.stagesAt_mono (Nat.le_succ _) hwriting.item.2,hwriting.file,
        .inr ⟨by simp [hwriting.item.1.next],hwriting.item.2,?_⟩⟩⟩
    rw [← hsame]
    exact prefix_writeAllAtWith hprogress hrange'
  | @finished item writtenCount result hattempt herror hcount =>
    obtain ⟨rfl,base,hwriting⟩ := hr
    obtain ⟨hoffset,hbytesWritten,hlen,hrange,hvalid⟩ := hwriting.geometry
    rw [hvalid,hoffset] at hattempt
    rw [hvalid] at hcount
    have hdone := hwriting.same.symm.trans (writeAllAtWith_done hattempt)
    have hfile := RunCall.fileAt_of_write hwriting.file hdone herror hcount
    refine ⟨_,⟨rfl,?_,hwriting.item.2,hfile⟩,hstay,hsofar⟩
    have hnext := hwriting.item.1.next
    rw [hbytesWritten] at hnext
    simpa [Shared.written,hvalid,hlen] using hnext
  | writeFailed hattempt hcause => exact ⟨w,trivial,hstay,hsofar⟩
  | released hpool =>
    obtain ⟨rfl,hwritten⟩ := hr
    exact ⟨_,⟨rfl,hwritten⟩,hstay,hsofar⟩
  | unwound hpool => exact ⟨w,trivial,hstay,hsofar⟩

theorem flows_writer {call : RunCall σ} {s : RunState σ} {r : Writer} {sh : Shared σ}
    {m p q w : ℕ} (hs : s.Sound call) (h : s.Flows call m p q w)
    (hmove : WriterMove call s.shared s.writer r sh) :
    ∃ w', RunState.Flows call { s with writer := r, shared := sh } m p q w' := by
  have hplaces : ∀ place ∈ s.writer.places, s.shared.Canonical place := fun place hp =>
    hs.agrees.places place (by simp [RunState.places,hp])
  obtain ⟨hbytes,hstages⟩ := hmove.frame
  obtain ⟨w',hr,hq₂,houtput⟩ := hmove.flows h.writer hplaces h.write h.output
  refine ⟨w',h.reader.frame fun i _ => hbytes i,?_,h.processor.frame (fun i _ => hbytes i) hstages,
    hq₂,hr,houtput⟩
  exact (hmove.queues hplaces).readToProcess.carries
    (h.read.imp fun k item _ hraw => hraw.frame (hbytes _))

theorem flows_caller {call : RunCall σ} {s s' : RunState σ} {m p q w : ℕ} (hs : s.Sound call)
    (h : s.Flows call m p q w) (hmove : CallerMove call s s') :
    s'.Flows call m p q w := by
  have ho := hs.orderly
  cases hmove with
  | writerStarted hcaller hstart =>
    have hw := h.writer
    rw [ho.writerWaits hcaller] at hw
    obtain ⟨rfl,hzero,hwritten⟩ := hw
    exact { h with writer := ⟨hzero.symm,hwritten⟩ }
  | processorStarted hcaller hstart =>
    have hp := h.processor
    rw [ho.processorWaits (.inr hcaller)] at hp
    obtain ⟨rfl,rfl,hstages⟩ := hp
    exact { h with processor := ⟨rfl,hstages⟩ }
  | readerStarted hcaller hstart =>
    have hr := h.reader
    rw [ho.readerWaits (by rw [hcaller]; trivial)] at hr
    obtain rfl := hr
    exact { h with reader := ⟨rfl,rfl⟩ }
  | startFailed hcaller hstart => exact { h with }
  | joined hcaller hjoin => exact { h with }
  | @failing place sh next hcaller hfail =>
    have hplace := hs.agrees.places place (by simp [RunState.places,hcaller,Caller.places])
    obtain ⟨hread,hwrite,-⟩ := hfail.queues hplace
    have hframe := hfail.frame []
    have hbytes := fun i => hframe.bytes i (by simp)
    refine ⟨h.reader.frame fun i _ => hbytes i,
      hread.carries (h.read.imp fun k item _ hraw => hraw.frame (hbytes _)),
      h.processor.frame (fun i _ => hbytes i) hframe.stages,
      hwrite.carries (h.write.imp fun k item _ hdone => hdone.frame (hbytes _)),
      h.writer.frame (fun i _ => hbytes i) hframe.runResult hframe.output
        hfail.extends.firstFailure_none,?_⟩
    rw [show ({ s with caller := next.elim .join .failing, shared := sh } : RunState σ).shared.output
      = s.shared.output from hframe.output]
    exact h.output

/-- The blocks flow in order in every reachable state. -/
theorem flows_step {call : RunCall σ} {s s' : RunState σ} {t : Thread} (hs : s.Sound call)
    (h : ∃ m p q w, s.Flows call m p q w) (hstep : call.system.step t s = some s') :
    ∃ m p q w, s'.Flows call m p q w := by
  obtain ⟨m,p,q,w,h⟩ := h
  have hext := step_extends hstep
  rcases RunCall.step_cases hstep with
    ⟨r,sh,hmove,rfl⟩ | ⟨r,sh,hmove,rfl⟩ | ⟨r,sh,hmove,rfl⟩ | hmove
  · obtain ⟨m',h'⟩ := flows_reader hs h hext hmove
    exact ⟨m',p,q,w,h'⟩
  · obtain ⟨p',q',h'⟩ := flows_processor hs h hext hmove
    exact ⟨m,p',q',w,h'⟩
  · obtain ⟨w',h'⟩ := flows_writer hs h hmove
    exact ⟨m,p,q,w',h'⟩
  · exact ⟨m,p,q,w,flows_caller hs h hmove⟩

theorem Initial.flows {call : RunCall σ} {s : RunState σ} (h : Initial call s) :
    s.Flows call 0 0 0 0 := by
  refine ⟨?_,⟨?_,?_,?_⟩,?_,⟨?_,?_,?_⟩,?_,0,[],by simp [RunCall.offsetAt],by simp [RunCall.stagesAt],rfl,
    .inl h.output⟩
  · rw [h.reader]; rfl
  · rw [show s.shared.readToProcess.toFifo.items = [] from h.readToProcess_contents]; trivial
  · intro _
    rw [show s.shared.readToProcess.toFifo.items = [] from h.readToProcess_contents]; rfl
  · intro hclosed
    rw [show s.shared.readToProcess.toFifo.life = _ from h.readToProcess_state] at hclosed
    cases hclosed
  · rw [h.processor]
    exact ⟨rfl,rfl,by rw [h.stages]; rfl⟩
  · rw [show s.shared.processToWrite.toFifo.items = [] from h.processToWrite_contents]; trivial
  · intro _
    rw [show s.shared.processToWrite.toFifo.items = [] from h.processToWrite_contents]; rfl
  · intro hclosed
    rw [show s.shared.processToWrite.toFifo.life = _ from h.processToWrite_state] at hclosed
    cases hclosed
  · rw [h.writer]
    refine ⟨rfl,by rw [h.runResult],?_⟩
    rw [Written,h.runResult,h.output]
    exact ⟨rfl,by simp [RunCall.stagesAt],rfl⟩

theorem reachable_flows {call : RunCall σ} {s₀ s : RunState σ} (h : call.start = .ok s₀)
    (hs : call.system.Reachable s₀ s) : ∃ m p q w, s.Flows call m p q w :=
  @TransitionSystem.Reachable.invariant_of_reachable _ _ call.system s₀
    (fun u => ∃ m p q w, u.Flows call m p q w) ⟨0,0,0,0,(start_initial h).flows⟩
    (fun _ _ _ hu hflow hstep => flows_step (reachable_sound h hu) hflow hstep) _ hs

/-- The result of a run that has returned, and the file it leaves behind. -/
def Complete (call : RunCall σ) (result : PipelineRunResult) (output : Bytes) : Prop :=
  call.offsetAt result.blocksWritten = some result.bytesWritten ∧
  call.EofAt result.blocksWritten ∧ call.stagesAt result.blocksWritten ≠ none ∧
  call.fileAt result.blocksWritten = some output

theorem done_complete {call : RunCall σ} {s₀ s : RunState σ} {result : PipelineRunResult}
    (h : call.start = .ok s₀) (hs : call.system.Reachable s₀ s)
    (hdone : s.caller = .done (.ok result)) : Complete call result s.shared.output := by
  obtain ⟨m,p,q,w,hflow⟩ := reachable_flows h hs
  have hsound := reachable_sound h hs
  have ho := hsound.orderly
  obtain ⟨⟨-,-,hwriter⟩,houtcome⟩ := ho.finished _ hdone
  have hnone : s.shared.firstFailure = none ∧ result = s.shared.runResult := by
    unfold RunCall.outcome at houtcome
    split at houtcome
    · cases houtcome
    · rename_i hnone
      exact ⟨hnone,Except.ok.inj houtcome⟩
  obtain ⟨hfirst,rfl⟩ := hnone
  have hterm : s.writer = .terminated := by
    rcases hwriter with hidle | hterm
    · exfalso
      have hreader := (ho.processorIdle (ho.writerIdle hidle).1).1
      rcases ho.started (by rw [hdone]; exact id) with hstarted | ⟨failure,hfailed⟩
      · exact hstarted hreader
      · have hread := hsound.agrees.shared.processToWrite failure hfailed
        have hstored := hsound.agrees.shared.readToProcess failure hread
        rw [hfirst] at hstored
        cases hstored
    · exact hterm
  have hat := hflow.writer
  rw [hterm] at hat
  obtain ⟨⟨hoffset,hstages,hfile⟩,heof⟩ := hat hfirst
  exact ⟨hoffset,heof,hstages,hfile⟩

end AsyncDataLoader
