import AsyncDataLoader.RunAccounting
import AsyncDataLoader.WorkItem

/-!
# The blocks that a run pushes

`reader_loop` checks each read before it pushes a block. The blocks that it has pushed are
numbered from zero, and cover the file from its start up to the offset where the reader stands,
whatever the backend answers.
-/

namespace AsyncDataLoader

open FileIO

variable {σ : Type*}

/-- The item that a step of the reader puts into its queue. -/
def Reader.pushed : Reader → Reader → List BlockWorkItem
  | .push item,.acquire _ _ => [item]
  | _,_ => []

def Writer.completed : Writer → Writer → List BlockWorkItem
  | .write item _,.release _ => [item]
  | _,_ => []

@[simp] theorem Reader.pushed_self (r : Reader) : r.pushed r = [] := by
  cases r <;> rfl

@[simp] theorem Writer.completed_self (w : Writer) : w.completed w = [] := by
  cases w <;> rfl

def RunCall.pushed (call : RunCall σ) (s₀ : RunState σ) (ts : List Thread) : List BlockWorkItem :=
  call.system.record (fun s t => s.reader.pushed t.reader) s₀ ts

def RunCall.finished (call : RunCall σ) (s₀ : RunState σ) (ts : List Thread) :
    List BlockWorkItem :=
  call.system.record (fun s t => s.writer.completed t.writer) s₀ ts

structure BlockWorkItem.Continues (call : RunCall σ) (before : List BlockWorkItem)
    (item : BlockWorkItem) : Prop where
  index : item.blockIndex = before.length
  offset : item.fileOffset = Quantity.bytes.load before
  nonempty : 0 < item.validBytes
  fits : item.validBytes ≤ call.config.blockSize
  range : item.fileOffset+item.validBytes ≤ uint64Max
  buffer : item.buffer < call.config.maxInflightBuffers

def Contiguous (call : RunCall σ) (items : List BlockWorkItem) : Prop :=
  ∀ before item after, items = before++item::after → item.Continues call before

namespace Contiguous

variable {call : RunCall σ} {items : List BlockWorkItem} {item : BlockWorkItem}

theorem nil : Contiguous call [] := by
  intro before item after heq
  simp at heq

theorem concat (h : Contiguous call items) (hitem : item.Continues call items) :
    Contiguous call (items++[item]) := by
  intro before other after heq
  rcases List.eq_nil_or_concat after with rfl | ⟨after,last,rfl⟩
  · obtain ⟨rfl,hlast⟩ := List.append_inj' heq rfl
    obtain rfl := List.singleton_inj.mp hlast
    exact hitem
  · rw [List.concat_eq_append,← List.cons_append,← List.append_assoc] at heq
    obtain ⟨rfl,-⟩ := List.append_inj' heq rfl
    exact h before other after rfl

theorem of_mem (h : Contiguous call items) (hitem : item ∈ items) :
    ∃ before after, items = before++item::after ∧ item.Continues call before := by
  obtain ⟨before,after,heq⟩ := List.append_of_mem hitem
  exact ⟨before,after,heq,h before item after heq⟩

theorem getElem?_blockIndex (h : Contiguous call items) (hitem : item ∈ items) :
    items[item.blockIndex]? = some item := by
  obtain ⟨before,after,rfl,hcontinues⟩ := h.of_mem hitem
  rw [hcontinues.index,List.getElem?_append_right (le_refl _),Nat.sub_self]
  rfl

theorem of_prefix (h : Contiguous call items) {first : List BlockWorkItem}
    (hfirst : first <+: items) : Contiguous call first := by
  obtain ⟨rest,rfl⟩ := hfirst
  intro before item after heq
  exact h before item (after++rest) (by rw [heq]; simp)

theorem length_le (h : Contiguous call items) : items.length ≤ Quantity.bytes.load items := by
  induction items using List.reverseRecOn with
  | nil => exact le_refl _
  | append_singleton items item ih =>
    have hitem := (h items item [] rfl).nonempty
    have hrest := ih (h.of_prefix (List.prefix_append _ _))
    simp only [List.length_append,List.length_singleton,Quantity.load_append,Quantity.load_cons,
      Quantity.load_nil,Quantity.amount]
    omega

theorem pairwise (h : Contiguous call items) :
    items.Pairwise fun a b => a.fileOffset+a.validBytes ≤ b.fileOffset := by
  induction items using List.reverseRecOn with
  | nil => exact .nil
  | append_singleton items item ih =>
    refine List.pairwise_append.mpr ⟨ih (h.of_prefix (List.prefix_append _ _)),
      List.pairwise_singleton _ _,fun a ha b hb => ?_⟩
    obtain rfl := List.mem_singleton.mp hb
    obtain ⟨before,after,rfl⟩ := List.append_of_mem ha
    have ha := h before a (after++[b]) (by simp)
    have hb := h _ b [] rfl
    rw [ha.offset,hb.offset,Quantity.load_append,Quantity.load_cons]
    simp only [Quantity.amount]
    omega

theorem covers (h : Contiguous call items) (n : ℕ) : n < Quantity.bytes.load items ↔
    ∃ item ∈ items, item.fileOffset ≤ n ∧ n < item.fileOffset+item.validBytes := by
  induction items using List.reverseRecOn with
  | nil => simp
  | append_singleton items item ih =>
    have hitem := (h items item [] rfl).offset
    have ih := ih (h.of_prefix (List.prefix_append _ _))
    simp only [Quantity.load_append,Quantity.load_cons,Quantity.load_nil,Quantity.amount,
      List.mem_append,List.mem_singleton]
    constructor
    · intro hn
      by_cases hlt : n < Quantity.bytes.load items
      · obtain ⟨other,hmem,hrange⟩ := ih.mp hlt
        exact ⟨other,.inl hmem,hrange⟩
      · exact ⟨item,.inr rfl,by omega,by omega⟩
    · rintro ⟨other,hmem | rfl,hlow,hhigh⟩
      · have hlt := ih.mpr ⟨other,hmem,hlow,hhigh⟩
        omega
      · omega

end Contiguous

/-- Where the reader stands behind these items. -/
def Reader.Follows (call : RunCall σ) (items : List BlockWorkItem) : Reader → Prop
  | .notStarted => items = []
  | .acquire blockIndex fileOffset =>
    blockIndex = items.length ∧ fileOffset = Quantity.bytes.load items
  | .read blockIndex fileOffset _ =>
    blockIndex = items.length ∧ fileOffset = Quantity.bytes.load items
  | .push item => item.Continues call items
  | _ => True

def RunState.passed (s : RunState σ) : List BlockWorkItem :=
  s.shared.readToProcess.contents++s.processor.unprocessed++s.unwritten

/-- What the items that were pushed and those that were written say of the state. -/
structure RunState.Tracked (call : RunCall σ) (items written : List BlockWorkItem)
    (s : RunState σ) : Prop where
  sound : s.Sound call
  flows : ∃ m p q w, s.Flows call m p q w
  contiguous : Contiguous call items
  reader : s.reader.Follows call items
  offset : call.offsetAt items.length = some (Quantity.bytes.load items)
  passed : ∀ item ∈ s.passed, item ∈ items
  isPrefix : written <+: items
  counted : s.shared.runResult = ⟨written.length,Quantity.bytes.load written⟩

theorem CheckedQueue.KeptOrFailed.mem {q q' : CheckedQueue BlockWorkItem} {item : BlockWorkItem}
    (h : q.KeptOrFailed q') (hitem : item ∈ q'.contents) : item ∈ q.contents := by
  rcases h with hsame | ⟨failure,hfailed⟩
  · rwa [contents_of_toFifo hsame] at hitem
  · rw [q'.contents_of_failed hfailed] at hitem
    cases hitem

theorem FailMove.mem_contents {sh sh' : Shared σ} {place : FailAll} {next : Option FailAll}
    (h : FailMove sh place sh' next) (hplace : sh.Canonical place) (item : BlockWorkItem) :
    (item ∈ sh'.readToProcess.contents → item ∈ sh.readToProcess.contents) ∧
      (item ∈ sh'.processToWrite.contents → item ∈ sh.processToWrite.contents) := by
  obtain ⟨hread,hwrite,-⟩ := h.queues hplace
  exact ⟨hread.mem,hwrite.mem⟩

/-- A step that pushes no item. -/
structure ReaderMove.Quiet (call : RunCall σ) (sh sh' : Shared σ) (r r' : Reader) : Prop where
  pushed : r.pushed r' = []
  follows : ∀ items, r.Follows call items → r'.Follows call items
  read : ∀ item ∈ sh'.readToProcess.contents, item ∈ sh.readToProcess.contents
  write : ∀ item ∈ sh'.processToWrite.contents, item ∈ sh.processToWrite.contents

theorem ReaderMove.push_or_quiet {call : RunCall σ} {sh sh' : Shared σ} {r r' : Reader}
    (h : ReaderMove call sh r r' sh') (hsized : Sized call sh.pool r.held)
    (hlength : sh.pool.buffers.length = call.config.maxInflightBuffers)
    (hplaces : ∀ place ∈ r.places, sh.Canonical place) :
    (∃ item, r = .push item ∧
      r' = .acquire (item.blockIndex+1) (item.fileOffset+item.validBytes) ∧
      sh'.readToProcess.contents = sh.readToProcess.contents++[item] ∧
      sh'.processToWrite = sh.processToWrite) ∨ ReaderMove.Quiet call sh sh' r r' := by
  cases h with
  | @pushed item queue hopen hcontents hstate hcapacity =>
    exact .inl ⟨item,rfl,rfl,hcontents,rfl⟩
  | acquired hpool => exact .inr ⟨rfl,fun _ hr => hr,fun _ hi => hi,fun _ hi => hi⟩
  | readFailed hread => exact .inr ⟨rfl,fun _ _ => trivial,fun _ hi => hi,fun _ hi => hi⟩
  | readEof hread => exact .inr ⟨rfl,fun _ _ => trivial,fun _ hi => hi,fun _ hi => hi⟩
  | rejected hread hdata hitem =>
    exact .inr ⟨rfl,fun _ _ => trivial,fun _ hi => hi,fun _ hi => hi⟩
  | @received k o buffer data item hread hdata hitem =>
    refine .inr ⟨rfl,fun items hr => ?_,fun _ hi => hi,fun _ hi => hi⟩
    obtain ⟨rfl,hpos,hfit,hoffset,-⟩ := RunCall.received_ok hitem
    obtain ⟨hlt,hsize⟩ := hsized buffer (by simp [Reader.held])
    obtain ⟨rfl,rfl⟩ := hr
    refine ⟨rfl,rfl,hpos,hfit.trans_eq hsize,?_,hlt.trans_eq hlength⟩
    simp only
    omega
  | refused hstate hqueue =>
    refine .inr ⟨rfl,fun _ _ => trivial,fun _ hi => ?_,fun _ hi => hi⟩
    exact CheckedQueue.KeptOrFailed.mem (.inl hqueue) hi
  | closed =>
    refine .inr ⟨rfl,fun _ _ => trivial,fun _ hi => ?_,fun _ hi => hi⟩
    rwa [CheckedQueue.close_contents] at hi
  | released hpool => exact .inr ⟨rfl,fun _ _ => trivial,fun _ hi => hi,fun _ hi => hi⟩
  | unwound hpool => exact .inr ⟨rfl,fun _ _ => trivial,fun _ hi => hi,fun _ hi => hi⟩
  | @failing place sh' next hfail =>
    have hqueues := hfail.mem_contents (hplaces place (by simp [Reader.places]))
    exact .inr ⟨by cases next <;> rfl,fun _ _ => by cases next <;> trivial,
      fun item => (hqueues item).1,fun item => (hqueues item).2⟩

namespace RunState.Tracked

variable {call : RunCall σ} {items written : List BlockWorkItem} {s s' : RunState σ}

theorem step_reader (h : s.Tracked call items written) {r : Reader} {sh : Shared σ}
    (hmove : ReaderMove call s.shared s.reader r sh)
    (hsound : RunState.Sound call { s with reader := r, shared := sh })
    (hflows : ∃ m p q w, RunState.Flows call { s with reader := r, shared := sh } m p q w) :
    RunState.Tracked call (items++s.reader.pushed r) written
      { s with reader := r, shared := sh } := by
  have hplaces : ∀ place ∈ s.reader.places, s.shared.Canonical place := fun place hp =>
    h.sound.agrees.places place (by simp [RunState.places,hp])
  have hsized : Sized call s.shared.pool s.reader.held := fun i hi =>
    h.sound.sized i (by simp [RunState.holders,hi])
  have hresult := hmove.frame.runResult
  obtain ⟨item,hpush,rfl,hcontents,hsame⟩ | hquiet :=
    hmove.push_or_quiet hsized h.sound.buffers_length hplaces
  · have hcontinues : item.Continues call items := by
      have hreader := h.reader
      rwa [hpush] at hreader
    have hpushed : s.reader.pushed
        (.acquire (item.blockIndex+1) (item.fileOffset+item.validBytes)) = [item] := by
      rw [hpush]; rfl
    have hnext : call.offsetAt (items.length+1) = some (item.fileOffset+item.validBytes) := by
      obtain ⟨m,p,q,w,hflow⟩ := h.flows
      have hat := hflow.reader
      rw [hpush] at hat
      have hindex := hat.index
      rw [hcontinues.index] at hindex
      rw [hindex]
      exact hat.next
    have hoffset := hcontinues.offset
    rw [hpushed]
    refine ⟨hsound,hflows,h.contiguous.concat hcontinues,?_,?_,fun other hother => ?_,
      h.isPrefix.trans (List.prefix_append _ _),?_⟩
    · simp [Reader.Follows,hcontinues.index,hoffset,Quantity.amount]
    · simpa [hoffset,Quantity.amount] using hnext
    · simp only [RunState.passed,RunState.unwritten,hcontents,hsame,List.mem_append] at hother
      have hpassed := h.passed other
      simp only [RunState.passed,RunState.unwritten,List.mem_append] at hpassed
      rw [List.mem_append]
      tauto
    · exact hresult.trans h.counted
  · rw [hquiet.pushed,List.append_nil]
    refine ⟨hsound,hflows,h.contiguous,hquiet.follows items h.reader,h.offset,fun other hother => ?_,
      h.isPrefix,hresult.trans h.counted⟩
    refine h.passed other ?_
    have hread := hquiet.read other
    have hwrite := hquiet.write other
    simp only [RunState.passed,RunState.unwritten,List.mem_append] at hother ⊢
    tauto

theorem step_quiet (h : s.Tracked call items written) (hsound : s'.Sound call)
    (hflows : ∃ m p q w, s'.Flows call m p q w) (hreader : s'.reader.Follows call items)
    (hpassed : ∀ item ∈ s'.passed, item ∈ s.passed)
    (hresult : s'.shared.runResult = s.shared.runResult) : s'.Tracked call items written :=
  ⟨hsound,hflows,h.contiguous,hreader,h.offset,fun item hitem => h.passed item (hpassed item hitem),
    h.isPrefix,hresult.trans h.counted⟩

end RunState.Tracked

theorem ProcessorMove.passed {sh sh' : Shared σ} {p p' : Processor} {item : BlockWorkItem}
    (h : ProcessorMove sh p p' sh') (hplaces : ∀ place ∈ p.places, sh.Canonical place)
    (hitem : item ∈ sh'.readToProcess.contents++p'.unprocessed++
      (p'.unwritten++sh'.processToWrite.contents)) :
    item ∈ sh.readToProcess.contents++p.unprocessed++
      (p.unwritten++sh.processToWrite.contents) := by
  cases h with
  | popped hcontents hstate hcapacity =>
    rw [hcontents]
    simp only [Processor.unprocessed,Processor.unwritten,List.mem_append,List.mem_cons,
      List.not_mem_nil,or_false] at hitem ⊢
    tauto
  | ended hstate hcontents hqueue | popFailed hstate hqueue =>
    rw [CheckedQueue.contents_of_toFifo hqueue] at hitem
    exact hitem
  | stageFailed hstage =>
    simp only [Processor.unprocessed,Processor.unwritten,List.mem_append,List.not_mem_nil,
      Shared.count_readToProcess,Shared.count_processToWrite] at hitem ⊢
    tauto
  | processed hstage =>
    simp only [Processor.unprocessed,Processor.unwritten,List.mem_append,List.not_mem_nil,
      Shared.count_readToProcess,Shared.count_processToWrite] at hitem ⊢
    tauto
  | pushed hopen hcontents hstate hcapacity =>
    simp only [hcontents,Processor.unprocessed,Processor.unwritten,List.mem_append,
      List.not_mem_nil] at hitem ⊢
    tauto
  | refused hstate hqueue =>
    simp only [CheckedQueue.contents_of_toFifo hqueue,Processor.unprocessed,Processor.unwritten,
      List.mem_append,List.not_mem_nil] at hitem ⊢
    tauto
  | closed => simpa [Processor.unprocessed,Processor.unwritten] using hitem
  | unwound hpool => exact hitem
  | @failing place sh' next hfail =>
    obtain ⟨hread,hwrite⟩ :=
      hfail.mem_contents (hplaces place (by simp [Processor.places])) item
    have hidle : (next.elim Processor.terminated Processor.failing).unprocessed = [] ∧
        (next.elim Processor.terminated Processor.failing).unwritten = [] := by
      cases next <;> exact ⟨rfl,rfl⟩
    rw [hidle.1,hidle.2] at hitem
    simp only [Processor.unprocessed,Processor.unwritten,List.mem_append,
      List.not_mem_nil] at hitem ⊢
    tauto

theorem WriterMove.passed {call : RunCall σ} {sh sh' : Shared σ} {w w' : Writer}
    {item : BlockWorkItem} (h : WriterMove call sh w w' sh')
    (hplaces : ∀ place ∈ w.places, sh.Canonical place)
    (hitem : item ∈ sh'.readToProcess.contents++(sh'.processToWrite.contents++w'.carried)) :
    item ∈ sh.readToProcess.contents++(sh.processToWrite.contents++w.carried) := by
  cases h with
  | popped hcontents hstate hcapacity =>
    rw [hcontents]
    simp only [Writer.carried,List.mem_append,List.mem_cons,List.not_mem_nil,or_false] at hitem ⊢
    tauto
  | ended hstate hcontents hqueue | popFailed hstate hqueue =>
    rw [CheckedQueue.contents_of_toFifo hqueue] at hitem
    exact hitem
  | wrote hwrite => exact hitem
  | finished hwrite herror hcount =>
    simp only [Writer.carried,List.mem_append,List.not_mem_nil,or_false] at hitem ⊢
    exact hitem.imp_right .inl
  | writeFailed hwrite hcause =>
    simp only [Writer.carried,List.mem_append,List.not_mem_nil,or_false] at hitem ⊢
    exact hitem.imp_right .inl
  | released hpool | unwound hpool => exact hitem
  | @failing place sh' next hfail =>
    obtain ⟨hread,hwrite⟩ := hfail.mem_contents (hplaces place (by simp [Writer.places])) item
    have hidle : (next.elim Writer.terminated Writer.failing).carried = [] := by
      cases next <;> rfl
    rw [hidle] at hitem
    simp only [Writer.carried,List.mem_append,List.not_mem_nil] at hitem ⊢
    tauto

theorem RunCall.writerStep_runResult {call : RunCall σ} {sh sh' : Shared σ} {w w' : Writer}
    (h : call.writerStep sh w = some (w',sh'))
    (hroom : ∀ item writtenCount, w = .write item writtenCount →
      sh.runResult.bytesWritten+(sh.validData item).length ≤ uint64Max ∧
        sh.runResult.blocksWritten+1 ≤ uint64Max) :
    sh'.runResult = sh.runResult ∧ w.completed w' = [] ∨
      ∃ item writtenCount, w = .write item writtenCount ∧ w.completed w' = [item] ∧
        sh'.runResult = ⟨sh.runResult.blocksWritten+1,
          sh.runResult.bytesWritten+(sh.validData item).length⟩ := by
  have hmove := writerStep_move h
  cases hmove with
  | finished hwrite herror hcount => exact .inr ⟨_,_,rfl,rfl,rfl⟩
  | @writeFailed item writtenCount result failure bytesWritten hwrite hcause =>
    obtain ⟨hbytes,hblocks⟩ := hroom item writtenCount rfl
    refine .inl ⟨?_,rfl⟩
    simp only [writerStep,hwrite,writeReturned,Shared.count_runResult] at h
    split_ifs at h
    · have heq := congrArg Shared.runResult (Prod.mk.inj (Option.some.inj h)).2
      exact heq.symm
    · have heq := congrArg Shared.runResult (Prod.mk.inj (Option.some.inj h)).2
      exact heq.symm
    · split at h
      · rename_i hoverflow
        have hlt := checkedAdd_error hoverflow
        omega
      · split at h
        · rename_i hoverflow
          have hlt := checkedAdd_error hoverflow
          omega
        · cases (Prod.mk.inj (Option.some.inj h)).1
  | failing hfail =>
    rename_i place next
    exact .inl ⟨(hfail.frame []).runResult,by cases next <;> rfl⟩
  | popped | ended | popFailed | wrote | released | unwound => exact .inl ⟨rfl,rfl⟩

namespace RunState.Tracked

variable {call : RunCall σ} {items written : List BlockWorkItem} {s s' : RunState σ}

theorem writing (h : s.Tracked call items written) {item : BlockWorkItem} {writtenCount : ℕ}
    (hwriter : s.writer = .write item writtenCount) :
    items[written.length]? = some item ∧ (s.shared.validData item).length = item.validBytes ∧
    item.fileOffset = Quantity.bytes.load written ∧ item.Continues call written := by
  have hmem : item ∈ items := h.passed item (by
    simp [RunState.passed,RunState.unwritten,hwriter,Writer.carried])
  obtain ⟨m,p,q,w,hflow⟩ := h.flows
  have hat := hflow.writer
  rw [hwriter] at hat
  obtain ⟨-,base,hwriting⟩ := hat
  obtain ⟨-,hoffset,hlength,-,hvalid⟩ := hwriting.geometry
  have hindex := hwriting.item.1.index
  rw [h.counted] at hindex hoffset
  have hgetElem := h.contiguous.getElem?_blockIndex hmem
  rw [hindex] at hgetElem
  refine ⟨hgetElem,by rw [hvalid,hlength],hoffset,?_⟩
  obtain ⟨before,after,heq,hcontinues⟩ := h.contiguous.of_mem hmem
  obtain ⟨rest,hrest⟩ := h.isPrefix
  have hlengths : before.length = written.length := by rw [← hcontinues.index,hindex]
  obtain ⟨rfl,-⟩ := List.append_inj (heq.symm.trans hrest.symm) hlengths
  exact hcontinues

theorem writtenUpTo (h : s.Tracked call items written) {item : BlockWorkItem}
    (hitem : items[written.length]? = some item) : written++[item] <+: items := by
  obtain ⟨rest,rfl⟩ := h.isPrefix
  rw [List.getElem?_append_right (le_refl _),Nat.sub_self] at hitem
  cases rest with
  | nil => cases hitem
  | cons first rest =>
    obtain rfl := Option.some.inj hitem
    exact ⟨rest,by simp⟩

theorem step_writer (h : s.Tracked call items written) {w : Writer} {sh : Shared σ}
    (hstep : call.writerStep s.shared s.writer = some (w,sh))
    (hsound : RunState.Sound call { s with writer := w, shared := sh })
    (hflows : ∃ m p q w', RunState.Flows call { s with writer := w, shared := sh } m p q w') :
    RunState.Tracked call items (written++s.writer.completed w)
      { s with writer := w, shared := sh } := by
  have hplaces : ∀ place ∈ s.writer.places, s.shared.Canonical place := fun place hp =>
    h.sound.agrees.places place (by simp [RunState.places,hp])
  have hmove := RunCall.writerStep_move hstep
  have hpassed : ∀ item ∈ ({ s with writer := w, shared := sh } : RunState σ).passed,
      item ∈ s.passed := by
    intro item hitem
    have hmoved := @WriterMove.passed σ call s.shared sh s.writer w item hmove hplaces
    simp only [RunState.passed,RunState.unwritten,List.mem_append] at hmoved hitem ⊢
    tauto
  have hroom : ∀ item writtenCount, s.writer = .write item writtenCount →
      s.shared.runResult.bytesWritten+(s.shared.validData item).length ≤ uint64Max ∧
        s.shared.runResult.blocksWritten+1 ≤ uint64Max := by
    intro item writtenCount hwriter
    obtain ⟨-,hlength,hoffset,hcontinues⟩ := h.writing hwriter
    have hrange := hcontinues.range
    have hpos := hcontinues.nonempty
    have hblocks := (h.contiguous.of_prefix h.isPrefix).length_le
    rw [h.counted,hlength]
    simp only
    omega
  obtain ⟨hresult,hnone⟩ | ⟨item,writtenCount,hwriter,hcompleted,hresult⟩ :=
    RunCall.writerStep_runResult hstep hroom
  · rw [hnone,List.append_nil]
    exact h.step_quiet hsound hflows h.reader hpassed hresult
  · obtain ⟨hitem,hlength,-,-⟩ := h.writing hwriter
    rw [hcompleted]
    refine ⟨hsound,hflows,h.contiguous,h.reader,h.offset,fun other hother =>
      h.passed other (hpassed other hother),h.writtenUpTo hitem,?_⟩
    change sh.runResult = _
    rw [hresult,h.counted,hlength]
    simp [Quantity.amount]

theorem step_caller (h : s.Tracked call items written) (hmove : CallerMove call s s')
    (hsound : s'.Sound call) (hflows : ∃ m p q w, s'.Flows call m p q w) :
    s'.Tracked call items written ∧ s.reader.pushed s'.reader = [] ∧
      s.writer.completed s'.writer = [] := by
  have ho := h.sound.orderly
  cases hmove with
  | writerStarted hcaller hstart =>
    refine ⟨h.step_quiet hsound hflows h.reader (fun item hitem => ?_) rfl,s.reader.pushed_self,?_⟩
    · simpa [RunState.passed,RunState.unwritten,ho.writerWaits hcaller,Writer.carried] using hitem
    · rw [ho.writerWaits hcaller]; rfl
  | processorStarted hcaller hstart =>
    refine ⟨h.step_quiet hsound hflows h.reader (fun item hitem => ?_) rfl,s.reader.pushed_self,s.writer.completed_self⟩
    simpa [RunState.passed,RunState.unwritten,ho.processorWaits (.inr hcaller),
      Processor.unprocessed,Processor.unwritten] using hitem
  | readerStarted hcaller hstart =>
    have hidle := ho.readerWaits (by rw [hcaller]; trivial)
    have hreader := h.reader
    rw [hidle] at hreader
    obtain rfl := hreader
    refine ⟨h.step_quiet hsound hflows ⟨rfl,rfl⟩ (fun _ hitem => hitem) rfl,?_,s.writer.completed_self⟩
    rw [hidle]; rfl
  | startFailed hcaller hstart | joined hcaller hjoin =>
    exact ⟨h.step_quiet hsound hflows h.reader (fun _ hitem => hitem) rfl,s.reader.pushed_self,s.writer.completed_self⟩
  | @failing place sh next hcaller hfail =>
    have hplace := h.sound.agrees.places place (by simp [RunState.places,hcaller,Caller.places])
    refine ⟨h.step_quiet hsound hflows h.reader (fun item hitem => ?_) (hfail.frame []).runResult,
      s.reader.pushed_self,s.writer.completed_self⟩
    obtain ⟨hread,hwrite⟩ := hfail.mem_contents hplace item
    simp only [RunState.passed,RunState.unwritten,List.mem_append] at hitem ⊢
    tauto

theorem step (h : s.Tracked call items written) {t : Thread}
    (hstep : call.system.step t s = some s') :
    s'.Tracked call (items++s.reader.pushed s'.reader)
      (written++s.writer.completed s'.writer) := by
  have hsound := sound_step h.sound hstep
  have hflows := flows_step h.sound h.flows hstep
  cases t with
  | caller =>
    obtain ⟨htracked,hpushed,hcompleted⟩ :=
      h.step_caller (RunCall.callerStep_move hstep) hsound hflows
    rw [hpushed,hcompleted,List.append_nil,List.append_nil]
    exact htracked
  | worker w =>
    cases w with
    | reader =>
      obtain ⟨r,hreader,rfl⟩ := Option.map_eq_some_iff.mp hstep
      rw [Writer.completed_self,List.append_nil]
      exact h.step_reader (RunCall.readerStep_move hreader) hsound hflows
    | processor =>
      obtain ⟨p,hprocessor,rfl⟩ := Option.map_eq_some_iff.mp hstep
      have hmove := RunCall.processorStep_move hprocessor
      have hplaces : ∀ place ∈ s.processor.places, s.shared.Canonical place := fun place hp =>
        h.sound.agrees.places place (by simp [RunState.places,hp])
      rw [Reader.pushed_self,Writer.completed_self,List.append_nil,List.append_nil]
      refine h.step_quiet hsound hflows h.reader (fun item hitem => ?_) hmove.frame.2.1
      have hmoved := @ProcessorMove.passed σ _ _ _ _ item hmove hplaces
      simp only [RunState.passed,RunState.unwritten,List.mem_append] at hmoved hitem ⊢
      tauto
    | writer =>
      obtain ⟨w,hwriter,rfl⟩ := Option.map_eq_some_iff.mp hstep
      rw [Reader.pushed_self,List.append_nil]
      exact h.step_writer hwriter hsound hflows

theorem start {s₀ : RunState σ} (hstart : call.start = .ok s₀) : s₀.Tracked call [] [] := by
  have hinit := start_initial hstart
  refine ⟨hinit.sound,⟨0,0,0,0,hinit.flows⟩,.nil,?_,rfl,?_,List.prefix_rfl,hinit.runResult⟩
  · rw [hinit.reader]; rfl
  · simp [RunState.passed,RunState.unwritten,hinit.readToProcess_contents,hinit.processor,
      hinit.processToWrite_contents,hinit.writer,Processor.unprocessed,Processor.unwritten,
      Writer.carried]

theorem run {s₀ : RunState σ} {ts : List Thread} (hstart : call.start = .ok s₀)
    (hrun : call.system.exec s₀ ts = some s) :
    s.Tracked call (call.pushed s₀ ts) (call.finished s₀ ts) := by
  have hboth : call.system.exec s₀ ts = some s ∧
      s.Tracked call (call.pushed s₀ ts) (call.finished s₀ ts) := by
    refine TransitionSystem.exec_history
      (I := fun ts u => call.system.exec s₀ ts = some u ∧
        u.Tracked call (call.pushed s₀ ts) (call.finished s₀ ts)) ⟨rfl,.start hstart⟩ ?_ hrun
    rintro before t u v ⟨hexec,hu⟩ hstep
    refine ⟨TransitionSystem.exec_concat hexec hstep,?_⟩
    rw [RunCall.pushed,RunCall.finished,TransitionSystem.record_concat hexec hstep,
      TransitionSystem.record_concat hexec hstep]
    exact hu.step hstep
  exact hboth.2

end RunState.Tracked

def Reader.Stopped : Reader → Prop
  | .unwind _ _ => True
  | .failing _ => True
  | .terminated => True
  | _ => False

theorem ReaderMove.stopped {call : RunCall σ} {sh sh' : Shared σ} {r r' : Reader}
    (h : ReaderMove call sh r r' sh') (hr : r.Stopped) : r'.Stopped ∧ r.pushed r' = [] := by
  cases h with
  | unwound hpool => exact ⟨trivial,rfl⟩
  | @failing place sh' next hfail => cases next <;> exact ⟨trivial,rfl⟩
  | acquired | readFailed | readEof | rejected | received | pushed | refused | closed | released =>
    exact hr.elim

theorem stopped_step {call : RunCall σ} {s s' : RunState σ} {t : Thread} (ho : s.Orderly)
    (hr : s.reader.Stopped) (hstep : call.system.step t s = some s') :
    s'.reader.Stopped ∧ s.reader.pushed s'.reader = [] := by
  have hsame : s.reader.Stopped ∧ s.reader.pushed s.reader = [] := ⟨hr,s.reader.pushed_self⟩
  rcases RunCall.step_cases hstep with
    ⟨r,sh,hmove,rfl⟩ | ⟨r,sh,hmove,rfl⟩ | ⟨r,sh,hmove,rfl⟩ | hmove
  · exact hmove.stopped hr
  · exact hsame
  · exact hsame
  · cases hmove with
    | readerStarted hcaller hstart =>
      rw [ho.readerWaits (by rw [hcaller]; trivial)] at hr
      exact hr.elim
    | writerStarted | processorStarted | startFailed | failing | joined => exact hsame

theorem stopped_run {call : RunCall σ} {s s' : RunState σ} {ts : List Thread} (hs : s.Sound call)
    (hr : s.reader.Stopped) (hrun : call.system.exec s ts = some s') : call.pushed s ts = [] := by
  induction ts generalizing s with
  | nil => rfl
  | cons t ts ih =>
    rw [TransitionSystem.exec_cons,Option.bind_eq_some_iff] at hrun
    obtain ⟨u,hstep,hrest⟩ := hrun
    obtain ⟨hu,hnone⟩ := stopped_step hs.orderly hr hstep
    simp only [RunCall.pushed,TransitionSystem.record,hstep,hnone,List.nil_append]
    exact ih (sound_step hs hstep) hu hrest

/-- What the checks of `reader_loop` and of the constructor make of a read. The block index cannot
overflow before the offset. -/
theorem RunCall.received_eq {blockIndex fileOffset bytesRead buffer bufferSize : ℕ}
    (hindex : blockIndex ≤ fileOffset) (hread : 0 < bytesRead) :
    received blockIndex fileOffset bytesRead buffer bufferSize =
      if uint64Max < fileOffset+bytesRead then
        .error (.overflowError "pipeline file offset overflow")
      else if bufferSize < bytesRead then
        .error (.invalidArgument "BlockWorkItem valid_bytes exceeds buffer capacity")
      else .ok ⟨blockIndex,fileOffset,bytesRead,buffer⟩ := by
  unfold received checkedAdd BlockWorkItem.make
  by_cases hoffset : uint64Max < fileOffset+bytesRead
  · rw [if_pos (by omega),if_pos hoffset]
  · rw [if_neg (by omega),if_neg hoffset]
    simp only
    rw [if_neg (by omega),if_neg (by omega)]

namespace RunState.Tracked

variable {call : RunCall σ} {items written : List BlockWorkItem} {s s' : RunState σ}
  {blockIndex fileOffset buffer : ℕ} {data : Bytes} {failure : Failure}

theorem read (h : s.Tracked call items written)
    (hreader : s.reader = .read blockIndex fileOffset buffer)
    (hread : call.readAt fileOffset call.config.blockSize = .ok data) (hdata : data ≠ [])
    (hstep : call.system.step (.worker .reader) s = some s') :
    s'.shared.readToProcess = s.shared.readToProcess ∧
    s'.reader =
      if uint64Max < fileOffset+data.length then
        .unwind buffer (.overflowError "pipeline file offset overflow")
      else if call.config.blockSize < data.length then
        .unwind buffer (.invalidArgument "BlockWorkItem valid_bytes exceeds buffer capacity")
      else .push ⟨blockIndex,fileOffset,data.length,buffer⟩ := by
  obtain ⟨⟨r,sh⟩,hreturned,rfl⟩ := Option.map_eq_some_iff.mp hstep
  have hat := h.reader
  rw [hreader] at hat hreturned
  obtain ⟨rfl,rfl⟩ := hat
  have hsize := (h.sound.sized buffer (by simp [RunState.holders,hreader,Reader.held])).2
  have hlength := h.contiguous.length_le
  have hpos : 0 < data.length := List.length_pos_iff.mpr hdata
  have hsame : ∀ answer, call.readAt (Quantity.bytes.load items)
      (s.shared.pool.bytes buffer).length = answer → answer = .ok data := by
    intro answer hanswer
    rw [← hanswer,hsize,hread]
  cases RunCall.readerStep_move hreturned with
  | readFailed hfailed => cases hsame _ hfailed
  | readEof hempty => exact absurd (Except.ok.inj (hsame _ hempty)).symm hdata
  | rejected hdelivered hne hitem =>
    obtain rfl := Except.ok.inj (hsame _ hdelivered)
    rw [hsize,RunCall.received_eq hlength hpos] at hitem
    refine ⟨rfl,?_⟩
    split_ifs at hitem ⊢ <;> obtain rfl := Except.error.inj hitem <;> rfl
  | received hdelivered hne hitem =>
    obtain rfl := Except.ok.inj (hsame _ hdelivered)
    rw [hsize,RunCall.received_eq hlength hpos] at hitem
    refine ⟨rfl,?_⟩
    split_ifs at hitem ⊢
    obtain rfl := Except.ok.inj hitem
    rfl

theorem unwind (h : s.Tracked call items written) (hreader : s.reader = .unwind buffer failure) :
    ∃ t, call.system.step (.worker .reader) s = some t ∧ t.reader = .failing (.store failure) ∧
      buffer ∈ t.shared.pool.availableIndices ∧
      t.shared.readToProcess = s.shared.readToProcess := by
  have howned := h.sound.owned.views.1
  rw [hreader] at howned
  obtain ⟨pool,hrelease,-⟩ := AlignedBufferPool.Leased.release howned
  refine ⟨{ s with reader := .failing (.store failure),
                   shared := { s.shared with pool := pool } },?_,rfl,?_,rfl⟩
  · simp [RunCall.system,hreader,RunCall.readerStep,hrelease]
  · unfold AlignedBufferPool.release at hrelease
    split_ifs at hrelease
    obtain rfl := Option.some.inj hrelease
    simp

theorem returned (h : s.Tracked call items written) {s₀ : RunState σ} {result : PipelineRunResult}
    (hstart : call.start = .ok s₀) (hs : call.system.Reachable s₀ s)
    (hdone : s.caller = .done (.ok result)) : written = items ∧ result = s.shared.runResult := by
  have hresult : result = s.shared.runResult := by
    have houtcome := (h.sound.orderly.finished _ hdone).2
    unfold RunCall.outcome at houtcome
    split at houtcome
    · cases houtcome
    · exact Except.ok.inj houtcome
  obtain ⟨-,heof,-⟩ := done_complete hstart hs hdone
  rw [hresult,h.counted] at heof
  have hle : items.length ≤ written.length := heof.le (by simp [h.offset])
  exact ⟨h.isPrefix.eq_of_length_le hle,hresult⟩

end RunState.Tracked

/-- What the checks of the reader come to in a run. -/
structure BlockContract (call : RunCall σ) (s₀ s : RunState σ) (ts : List Thread) : Prop where
  item : ∀ before item after, call.pushed s₀ ts = before++item::after →
    item.blockIndex = before.length ∧ item.fileOffset = Quantity.bytes.load before ∧
    0 < item.validBytes ∧ item.validBytes ≤ (s.shared.pool.bytes item.buffer).length ∧
    item.fileOffset+item.validBytes < 2^64
  disjoint : (call.pushed s₀ ts).Pairwise fun a b => a.fileOffset+a.validBytes ≤ b.fileOffset
  covers : ∀ n, n < Quantity.bytes.load (call.pushed s₀ ts) ↔
    ∃ item ∈ call.pushed s₀ ts, item.fileOffset ≤ n ∧ n < item.fileOffset+item.validBytes
  offsets : ∀ u item writtenCount, call.system.Visits s₀ ts u →
    u.writer = .write item writtenCount → item ∈ call.pushed s₀ ts ∧
      (u.shared.validData item).length = item.validBytes ∧
      ∀ n ≤ item.validBytes, (item.fileOffset+n)%2^64 = item.fileOffset+n
  counted : call.finished s₀ ts <+: call.pushed s₀ ts ∧ s.shared.runResult =
    ⟨(call.finished s₀ ts).length,Quantity.bytes.load (call.finished s₀ ts)⟩
  returned : ∀ result, s.caller = .done (.ok result) →
    result = ⟨(call.pushed s₀ ts).length,Quantity.bytes.load (call.pushed s₀ ts)⟩
  read : ∀ u t blockIndex fileOffset buffer data,
    call.system.Takes s₀ ts u (.worker .reader) →
    call.system.step (.worker .reader) u = some t →
    u.reader = .read blockIndex fileOffset buffer →
    call.readAt fileOffset call.config.blockSize = .ok data → data ≠ [] →
    t.shared.readToProcess = u.shared.readToProcess ∧ t.reader =
      if uint64Max < fileOffset+data.length then
        .unwind buffer (.overflowError "pipeline file offset overflow")
      else if call.config.blockSize < data.length then
        .unwind buffer (.invalidArgument "BlockWorkItem valid_bytes exceeds buffer capacity")
      else .push ⟨blockIndex,fileOffset,data.length,buffer⟩
  refused : ∀ before after u buffer failure, ts = before++after →
    call.system.exec s₀ before = some u → u.reader = .unwind buffer failure →
    call.pushed s₀ ts = call.pushed s₀ before ∧
    ∃ t, call.system.step (.worker .reader) u = some t ∧ t.reader = .failing (.store failure) ∧
      buffer ∈ t.shared.pool.availableIndices ∧ t.shared.readToProcess = u.shared.readToProcess

theorem pushed_before {call : RunCall σ} {s₀ u : RunState σ} {before : List Thread}
    (hu : call.system.exec s₀ before = some u) (after : List Thread) :
    call.pushed s₀ (before++after) = call.pushed s₀ before++call.pushed u after :=
  TransitionSystem.record_append hu after

/-- For every answer of the backend, the blocks that a run pushes are contiguous from zero, no
offset overflows, and a read that would break this is refused. No work item of any program shows
more than its buffer. -/
theorem pushed_blocks (call : RunCall σ) {s₀ s : RunState σ} {ts : List Thread}
    (hstart : call.start = .ok s₀) (hrun : call.system.exec s₀ ts = some s) :
    BlockContract call s₀ s ts ∧
    ∀ pool u i item, workItemSystem.Reachable (.start pool) u → u.itemAt i = some item →
      ∃ data, u.validData item = some data ∧ data.length = item.validBytes := by
  have htracked := RunState.Tracked.run hstart hrun
  refine ⟨?_,fun pool u i item hu hi =>
    ((WorkItemState.reachable_sound hu).fits i item hi).validData⟩
  refine ⟨?_,htracked.contiguous.pairwise,htracked.contiguous.covers,?_,
    ⟨htracked.isPrefix,htracked.counted⟩,?_,?_,?_⟩
  · intro before item after heq
    have hitem := htracked.contiguous before item after heq
    have hsize := htracked.sound.bytes_length item.buffer hitem.buffer
    have hrange := hitem.range
    simp only [uint64Max] at hrange
    exact ⟨hitem.index,hitem.offset,hitem.nonempty,hitem.fits.trans_eq hsize.symm,by omega⟩
  · rintro u item writtenCount ⟨before,after,rfl,hu⟩ hwriter
    have hwriting := RunState.Tracked.run hstart hu
    obtain ⟨hitem,hlength,-,hcontinues⟩ := hwriting.writing hwriter
    have hrange := hcontinues.range
    simp only [uint64Max] at hrange
    refine ⟨?_,hlength,fun n hn => Nat.mod_eq_of_lt (by omega)⟩
    rw [pushed_before hu]
    exact List.mem_append_left _ (List.mem_of_getElem? hitem)
  · intro result hdone
    obtain ⟨hall,rfl⟩ := htracked.returned hstart ⟨ts,hrun⟩ hdone
    rw [htracked.counted,hall]
  · rintro u t blockIndex fileOffset buffer data ⟨before,after,-,hu⟩ hstep hreader hread hdata
    exact (RunState.Tracked.run hstart hu).read hreader hread hdata hstep
  · rintro before after u buffer failure rfl hu hreader
    have hstopped := RunState.Tracked.run hstart hu
    refine ⟨?_,hstopped.unwind hreader⟩
    have hrest : call.system.exec u after = some s := by
      rwa [TransitionSystem.exec_append,hu,Option.bind_some] at hrun
    rw [pushed_before hu,stopped_run hstopped.sound (by rw [hreader]; trivial) hrest,
      List.append_nil]

def RunCall.shortRead : RunCall Unit :=
  { RunCall.smallest [1,2,3,4,5] with
    readAt := fun offset length => .ok
      (([1,2,3,4,5].drop offset).take (if offset = 0 then 3 else length)) }

def shortReadSteps : List Thread :=
  let block := [.worker .reader,.worker .reader,.worker .reader,
    .worker .processor,.worker .processor,.worker .processor,
    .worker .writer,.worker .writer,.worker .writer,.worker .writer]
  [.caller,.caller,.caller]++block++block++
    [.worker .reader,.worker .reader,.worker .reader,.worker .reader,
      .worker .processor,.worker .processor,.worker .writer,.caller]

theorem pushed_blocks_shortRead : ∃ s₀ s, RunCall.shortRead.start = .ok s₀ ∧
    RunCall.shortRead.system.exec s₀ shortReadSteps = some s ∧
    RunCall.shortRead.pushed s₀ shortReadSteps = [⟨0,0,3,0⟩,⟨1,3,2,0⟩] ∧
    RunCall.shortRead.finished s₀ shortReadSteps = [⟨0,0,3,0⟩,⟨1,3,2,0⟩] ∧
    s.caller = .done (.ok ⟨2,5⟩) ∧ BlockContract RunCall.shortRead s₀ s shortReadSteps :=
  ⟨_,_,rfl,rfl,rfl,rfl,rfl,(pushed_blocks RunCall.shortRead rfl rfl).1⟩

end AsyncDataLoader
