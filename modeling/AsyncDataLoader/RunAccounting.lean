import AsyncDataLoader.FaultlessRun

/-!
# What the counters of a run count

A block that has been counted by one worker and not yet by the next is in the hands of one of
them, or in the queue between them. Only a failure drops blocks on the way, so that without one
the counters differ exactly by what is there.
-/

namespace AsyncDataLoader

open FileIO

variable {σ : Type*}

/-- The counters come in pairs. -/
inductive Quantity
  | blocks
  | bytes
  deriving DecidableEq, Repr

def Quantity.amount : Quantity → ℕ → ℕ
  | .blocks,_ => 1
  | .bytes,n => n

def Quantity.load (x : Quantity) (items : List BlockWorkItem) : ℕ :=
  (items.map fun item => x.amount item.validBytes).sum

namespace Quantity

variable (x : Quantity)

@[simp] theorem load_nil : x.load [] = 0 := rfl

@[simp] theorem load_cons (item : BlockWorkItem) (items : List BlockWorkItem) :
    x.load (item::items) = x.amount item.validBytes+x.load items := rfl

@[simp] theorem load_append (items more : List BlockWorkItem) :
    x.load (items++more) = x.load items+x.load more := by
  simp [load]

theorem load_blocks (items : List BlockWorkItem) : blocks.load items = items.length := by
  induction items with
  | nil => rfl
  | cons item items ih =>
    rw [load_cons,ih,List.length_cons]
    exact Nat.add_comm _ _

end Quantity

/-- What the three workers have counted of one quantity. -/
structure Tally where
  read : ℕ
  processed : ℕ
  written : ℕ
  deriving DecidableEq, Repr

def RunCounters.tally (c : RunCounters) : Quantity → Tally
  | .blocks => ⟨c.readBlocks.value,c.processedBlocks.value,c.writtenBlocks.value⟩
  | .bytes => ⟨c.readBytes.value,c.processedBytes.value,c.writtenBytes.value⟩

namespace RunCounters

variable (c : RunCounters) (x : Quantity) (n : ℕ)

@[simp] theorem tally_timeRead : c.timeRead.tally x = c.tally x := by cases x <;> rfl

@[simp] theorem tally_timeProcess : c.timeProcess.tally x = c.tally x := by cases x <;> rfl

@[simp] theorem tally_timeWrite : c.timeWrite.tally x = c.tally x := by cases x <;> rfl

@[simp] theorem tally_countRead : (c.countRead n).tally x =
    { c.tally x with read := ((c.tally x).read+x.amount n)%2^64 } := by
  cases x <;> rfl

@[simp] theorem tally_countProcessed : (c.countProcessed n).tally x =
    { c.tally x with processed := ((c.tally x).processed+x.amount n)%2^64 } := by
  cases x <;> rfl

@[simp] theorem tally_countWritten : (c.countWritten n).tally x =
    { c.tally x with written := ((c.tally x).written+x.amount n)%2^64 } := by
  cases x <;> rfl

def Grows (c c' : RunCounters) : Prop :=
  c.readBlocks.value ≤ c'.readBlocks.value ∧ c.readBytes.value ≤ c'.readBytes.value ∧
    c.readLatency.value ≤ c'.readLatency.value

instance (c c' : RunCounters) : Decidable (c.Grows c') := by unfold Grows; infer_instance

variable {c} in
theorem Grows.read {c' : RunCounters} (h : c.Grows c') : (c.tally x).read ≤ (c'.tally x).read := by
  cases x with
  | blocks => exact h.1
  | bytes => exact h.2.1

end RunCounters

theorem add_lt_of_le_mod {a n : ℕ} (ha : a < 2^64) (hn : n < 2^64) (h : a ≤ (a+n)%2^64) :
    a+n < 2^64 := by
  omega

/-- The block that the reader has counted and not yet passed on. -/
def Reader.carried : Reader → List BlockWorkItem
  | .push item => [item]
  | _ => []

def Processor.unprocessed : Processor → List BlockWorkItem
  | .process item => [item]
  | _ => []

def Processor.unwritten : Processor → List BlockWorkItem
  | .push item => [item]
  | _ => []

def Writer.carried : Writer → List BlockWorkItem
  | .write item _ => [item]
  | _ => []

/-- The blocks between the counters of the reader and the processor. -/
def RunState.unprocessed (s : RunState σ) : List BlockWorkItem :=
  s.reader.carried++s.shared.readToProcess.contents++s.processor.unprocessed

/-- The blocks between the counters of the processor and the writer. -/
def RunState.unwritten (s : RunState σ) : List BlockWorkItem :=
  s.processor.unwritten++s.shared.processToWrite.contents++s.writer.carried

/-- Each counter exceeds the next by what is between them, and by what failures have dropped. -/
structure Tally.Accounts (t : Tally) (x : Quantity) (s : RunState σ) : Prop where
  read_lt : t.read < 2^64
  idle : s.reader = .notStarted → t.read = 0
  processed : t.processed+x.load s.unprocessed ≤ t.read
  written : t.written+x.load s.unwritten ≤ t.processed
  exact : s.Clean →
    t.processed+x.load s.unprocessed = t.read ∧ t.written+x.load s.unwritten = t.processed

theorem Shared.counters_count {sh : Shared σ} {c : RunCounters} (f : RunCounters → RunCounters)
    (hc : sh.counters = some c) : (sh.count f).counters = some (f c) := by
  rw [Shared.count,hc,Option.map_some]

theorem Shared.counters_of_count {sh : Shared σ} {f : RunCounters → RunCounters}
    {c c' : RunCounters} (hc' : (sh.count f).counters = some c') (hc : sh.counters = some c) :
    c' = f c :=
  Option.some.inj (hc'.symm.trans (counters_count f hc))

theorem FailMove.counters {sh sh' : Shared σ} {place : FailAll} {next : Option FailAll}
    (h : FailMove sh place sh' next) : sh'.counters = sh.counters := by
  cases h <;> rfl

theorem CheckedQueue.load_fail (q : CheckedQueue BlockWorkItem) (failure : Failure)
    (x : Quantity) : x.load (q.fail failure).1.contents ≤ x.load q.contents := by
  obtain ⟨first,hfirst⟩ := q.fail_state_failed failure
  rw [contents_of_failed _ hfirst]
  exact Nat.zero_le _

theorem FailMove.load {sh sh' : Shared σ} {place : FailAll} {next : Option FailAll}
    (h : FailMove sh place sh' next) (x : Quantity) :
    x.load sh'.readToProcess.contents ≤ x.load sh.readToProcess.contents ∧
    x.load sh'.processToWrite.contents ≤ x.load sh.processToWrite.contents := by
  cases h with
  | store failure => exact ⟨le_refl _,le_refl _⟩
  | failRead canonical hpool => exact ⟨CheckedQueue.load_fail _ _ x,le_refl _⟩
  | failWrite canonical hpool => exact ⟨le_refl _,CheckedQueue.load_fail _ _ x⟩

structure ReaderCounts (x : Quantity) (sh sh' : Shared σ) (r r' : Reader) (t t' : Tally) :
    Prop where
  read_lt : t'.read < 2^64
  processed : t'.processed = t.processed
  written : t'.written = t.written
  started : r' ≠ .notStarted
  passed : x.load r'.carried+x.load sh'.readToProcess.contents+t.read ≤
    x.load r.carried+x.load sh.readToProcess.contents+t'.read
  beyond : x.load sh'.processToWrite.contents ≤ x.load sh.processToWrite.contents
  exact : r.places = [] → r'.raised = [] →
    x.load r'.carried+x.load sh'.readToProcess.contents+t.read =
      x.load r.carried+x.load sh.readToProcess.contents+t'.read ∧
    x.load sh'.processToWrite.contents = x.load sh.processToWrite.contents

theorem ReaderCounts.of_exact {x : Quantity} {sh sh' : Shared σ} {r r' : Reader} {t t' : Tally}
    (hlt : t'.read < 2^64) (hprocessed : t'.processed = t.processed)
    (hwritten : t'.written = t.written) (hstarted : r' ≠ .notStarted)
    (hpassed : x.load r'.carried+x.load sh'.readToProcess.contents+t.read =
      x.load r.carried+x.load sh.readToProcess.contents+t'.read)
    (hbeyond : sh'.processToWrite = sh.processToWrite) : ReaderCounts x sh sh' r r' t t' := by
  have hload : x.load sh'.processToWrite.contents = x.load sh.processToWrite.contents := by
    rw [hbeyond]
  exact ⟨hlt,hprocessed,hwritten,hstarted,hpassed.le,hload.le,fun _ _ => ⟨hpassed,hload⟩⟩

theorem Quantity.amount_lt {x : Quantity} {n : ℕ} (h : n < 2^64) : x.amount n < 2^64 := by
  cases x with
  | blocks => exact Nat.one_lt_two_pow (by decide)
  | bytes => exact h

theorem ReaderMove.counts {call : RunCall σ} {sh sh' : Shared σ} {r r' : Reader}
    {c c' : RunCounters} (h : ReaderMove call sh r r' sh') (x : Quantity)
    (hsize : ∀ offset length data, call.readAt offset length = .ok data → data.length < 2^64)
    (hc : sh.counters = some c) (hc' : sh'.counters = some c') (hgrows : c.Grows c')
    (hlt : (c.tally x).read < 2^64) : ReaderCounts x sh sh' r r' (c.tally x) (c'.tally x) := by
  have hread := hgrows.read x
  cases h with
  | @failing place sh' next hfail =>
    have hload := hfail.load x
    rw [hfail.counters,hc] at hc'
    obtain rfl := Option.some.inj hc'
    exact ⟨hlt,rfl,rfl,by cases next <;> simp,by cases next <;> simp [Reader.carried,hload.1],
      hload.2,fun hplaces => by cases hplaces⟩
  | @received k o buffer data item hread' hdata hitem =>
    obtain ⟨rfl,-⟩ := RunCall.received_ok hitem
    obtain rfl := Shared.counters_of_count hc' (Shared.counters_count .timeRead hc)
    simp only [RunCounters.tally_countRead,RunCounters.tally_timeRead] at hread ⊢
    have hfits := add_lt_of_le_mod hlt (Quantity.amount_lt (hsize _ _ _ hread')) hread
    rw [Nat.mod_eq_of_lt hfits]
    refine .of_exact hfits rfl rfl (by simp) ?_ rfl
    simp only [Shared.count_readToProcess,Reader.carried,Quantity.load_cons,Quantity.load_nil]
    omega
  | @rejected k o buffer data failure hread' hdata hitem =>
    obtain rfl := Shared.counters_of_count hc' (Shared.counters_count .timeRead hc)
    simp only [RunCounters.tally_countRead,RunCounters.tally_timeRead] at hread ⊢
    have hfits := add_lt_of_le_mod hlt (Quantity.amount_lt (hsize _ _ _ hread')) hread
    rw [Nat.mod_eq_of_lt hfits]
    refine ⟨hfits,rfl,rfl,by simp,?_,le_refl _,fun _ hraised => by cases hraised⟩
    simp [Reader.carried]
  | readFailed | readEof =>
    obtain rfl := Shared.counters_of_count hc' hc
    simp only [RunCounters.tally_timeRead]
    exact .of_exact hlt rfl rfl (by simp) rfl rfl
  | @pushed item queue hopen hcontents hstate hcapacity =>
    obtain rfl := Option.some.inj (hc.symm.trans hc')
    have hmoved : x.load queue.contents =
        x.load sh.readToProcess.contents+x.amount item.validBytes := by
      simp [hcontents]
    refine .of_exact hlt rfl rfl (by simp) ?_ rfl
    simp only [Reader.carried,Quantity.load_cons,Quantity.load_nil]
    omega
  | refused hstate hqueue =>
    obtain rfl := Option.some.inj (hc.symm.trans hc')
    refine ⟨hlt,rfl,rfl,by simp,?_,le_refl _,fun _ hraised => by cases hraised⟩
    simp [Reader.carried,CheckedQueue.contents_of_toFifo hqueue]
  | closed =>
    obtain rfl := Option.some.inj (hc.symm.trans hc')
    exact .of_exact hlt rfl rfl (by simp) (by simp [Reader.carried]) rfl
  | acquired | released | unwound =>
    obtain rfl := Option.some.inj (hc.symm.trans hc')
    exact .of_exact hlt rfl rfl (by simp) rfl rfl

structure ProcessorCounts (x : Quantity) (sh sh' : Shared σ) (p p' : Processor) (t t' : Tally) :
    Prop where
  read : t'.read = t.read
  written : t'.written = t.written
  before : t'.processed+x.load sh'.readToProcess.contents+x.load p'.unprocessed ≤
    t.processed+x.load sh.readToProcess.contents+x.load p.unprocessed
  after : x.load p'.unwritten+x.load sh'.processToWrite.contents+t.processed ≤
    x.load p.unwritten+x.load sh.processToWrite.contents+t'.processed
  exact : p.places = [] → p'.raised = [] →
    t'.processed+x.load sh'.readToProcess.contents+x.load p'.unprocessed =
      t.processed+x.load sh.readToProcess.contents+x.load p.unprocessed ∧
    x.load p'.unwritten+x.load sh'.processToWrite.contents+t.processed =
      x.load p.unwritten+x.load sh.processToWrite.contents+t'.processed

theorem ProcessorCounts.of_exact {x : Quantity} {sh sh' : Shared σ} {p p' : Processor}
    {t t' : Tally} (hread : t'.read = t.read) (hwritten : t'.written = t.written)
    (hbefore : t'.processed+x.load sh'.readToProcess.contents+x.load p'.unprocessed =
      t.processed+x.load sh.readToProcess.contents+x.load p.unprocessed)
    (hafter : x.load p'.unwritten+x.load sh'.processToWrite.contents+t.processed =
      x.load p.unwritten+x.load sh.processToWrite.contents+t'.processed) :
    ProcessorCounts x sh sh' p p' t t' :=
  ⟨hread,hwritten,hbefore.le,hafter.le,fun _ _ => ⟨hbefore,hafter⟩⟩

theorem ProcessorMove.counts {sh sh' : Shared σ} {p p' : Processor} {c c' : RunCounters}
    (h : ProcessorMove sh p p' sh') (x : Quantity) (hc : sh.counters = some c)
    (hc' : sh'.counters = some c') (hfits : (c.tally x).processed+x.load p.unprocessed < 2^64) :
    ProcessorCounts x sh sh' p p' (c.tally x) (c'.tally x) := by
  cases h with
  | @failing place sh' next hfail =>
    obtain ⟨hread,hwrite⟩ := hfail.load x
    rw [hfail.counters,hc] at hc'
    obtain rfl := Option.some.inj hc'
    refine ⟨rfl,rfl,?_,?_,fun hplaces => by cases hplaces⟩
    · cases next <;> simpa [Processor.unprocessed] using hread
    · cases next <;> simpa [Processor.unwritten] using hwrite
  | @popped item queue hcontents hstate hcapacity =>
    obtain rfl := Option.some.inj (hc.symm.trans hc')
    have hmoved : x.load sh.readToProcess.contents =
        x.amount item.validBytes+x.load queue.contents := by
      simp [hcontents]
    refine .of_exact rfl rfl ?_ rfl
    simp only [Processor.unprocessed,Quantity.load_cons,Quantity.load_nil]
    omega
  | ended hstate hcontents hqueue =>
    obtain rfl := Option.some.inj (hc.symm.trans hc')
    have hsame := CheckedQueue.contents_of_toFifo hqueue
    refine .of_exact rfl rfl ?_ rfl
    simp only [hsame]
    rfl
  | popFailed hstate hqueue =>
    obtain rfl := Option.some.inj (hc.symm.trans hc')
    refine ⟨rfl,rfl,?_,le_refl _,fun _ hraised => by cases hraised⟩
    simp only [CheckedQueue.contents_of_toFifo hqueue]
    exact le_refl _
  | stageFailed hstage =>
    obtain rfl := Shared.counters_of_count hc' hc
    simp only [RunCounters.tally_timeProcess]
    exact ⟨rfl,rfl,by simp [Processor.unprocessed],by simp [Processor.unwritten],
      fun _ hraised => by cases hraised⟩
  | @processed item hstage =>
    obtain rfl := Shared.counters_of_count hc' (Shared.counters_count .timeProcess hc)
    simp only [Processor.unprocessed,Quantity.load_cons,Quantity.load_nil,Nat.add_zero] at hfits
    simp only [RunCounters.tally_countProcessed,RunCounters.tally_timeProcess,
      Nat.mod_eq_of_lt hfits]
    refine .of_exact rfl rfl ?_ ?_ <;>
      simp only [Shared.count,Processor.unprocessed,Processor.unwritten,Quantity.load_cons,
        Quantity.load_nil] <;> omega
  | @pushed item queue hopen hcontents hstate hcapacity =>
    obtain rfl := Option.some.inj (hc.symm.trans hc')
    have hmoved : x.load queue.contents =
        x.load sh.processToWrite.contents+x.amount item.validBytes := by
      simp [hcontents]
    refine .of_exact rfl rfl rfl ?_
    simp only [Processor.unwritten,Quantity.load_cons,Quantity.load_nil]
    omega
  | refused hstate hqueue =>
    obtain rfl := Option.some.inj (hc.symm.trans hc')
    refine ⟨rfl,rfl,le_refl _,?_,fun _ hraised => by cases hraised⟩
    simp [Processor.unwritten,CheckedQueue.contents_of_toFifo hqueue]
  | closed =>
    obtain rfl := Option.some.inj (hc.symm.trans hc')
    exact .of_exact rfl rfl rfl (by simp [Processor.unwritten])
  | unwound =>
    obtain rfl := Option.some.inj (hc.symm.trans hc')
    exact .of_exact rfl rfl rfl rfl

/-- The writer counts what it has taken. -/
structure WriterCounts (x : Quantity) (sh sh' : Shared σ) (w w' : Writer) (t t' : Tally) :
    Prop where
  read : t'.read = t.read
  processed : t'.processed = t.processed
  before : x.load sh'.readToProcess.contents ≤ x.load sh.readToProcess.contents
  taken : t'.written+x.load sh'.processToWrite.contents+x.load w'.carried ≤
    t.written+x.load sh.processToWrite.contents+x.load w.carried
  exact : w.places = [] → w'.raised = [] →
    x.load sh'.readToProcess.contents = x.load sh.readToProcess.contents ∧
    t'.written+x.load sh'.processToWrite.contents+x.load w'.carried =
      t.written+x.load sh.processToWrite.contents+x.load w.carried

theorem WriterCounts.of_exact {x : Quantity} {sh sh' : Shared σ} {w w' : Writer} {t t' : Tally}
    (hread : t'.read = t.read) (hprocessed : t'.processed = t.processed)
    (hbefore : sh'.readToProcess = sh.readToProcess)
    (htaken : t'.written+x.load sh'.processToWrite.contents+x.load w'.carried =
      t.written+x.load sh.processToWrite.contents+x.load w.carried) :
    WriterCounts x sh sh' w w' t t' := by
  have hload : x.load sh'.readToProcess.contents = x.load sh.readToProcess.contents := by
    rw [hbefore]
  exact ⟨hread,hprocessed,hload.le,htaken.le,fun _ _ => ⟨hload,htaken⟩⟩

theorem WriterMove.counts {call : RunCall σ} {sh sh' : Shared σ} {w w' : Writer}
    {c c' : RunCounters} (h : WriterMove call sh w w' sh') (x : Quantity)
    (hc : sh.counters = some c) (hc' : sh'.counters = some c')
    (hfits : (c.tally x).written+x.load w.carried < 2^64)
    (hvalid : ∀ item n, w = .write item n → (sh.validData item).length = item.validBytes) :
    WriterCounts x sh sh' w w' (c.tally x) (c'.tally x) := by
  cases h with
  | @failing place sh' next hfail =>
    obtain ⟨hread,hwrite⟩ := hfail.load x
    rw [hfail.counters,hc] at hc'
    obtain rfl := Option.some.inj hc'
    refine ⟨rfl,rfl,hread,?_,fun hplaces => by cases hplaces⟩
    cases next <;> simpa [Writer.carried] using hwrite
  | @popped item queue hcontents hstate hcapacity =>
    obtain rfl := Option.some.inj (hc.symm.trans hc')
    have hmoved : x.load sh.processToWrite.contents =
        x.amount item.validBytes+x.load queue.contents := by
      simp [hcontents]
    refine .of_exact rfl rfl rfl ?_
    simp only [Writer.carried,Quantity.load_cons,Quantity.load_nil]
    omega
  | ended hstate hcontents hqueue =>
    obtain rfl := Option.some.inj (hc.symm.trans hc')
    have hsame := CheckedQueue.contents_of_toFifo hqueue
    refine .of_exact rfl rfl rfl ?_
    simp only [hsame]
    rfl
  | popFailed hstate hqueue =>
    obtain rfl := Option.some.inj (hc.symm.trans hc')
    refine ⟨rfl,rfl,le_refl _,?_,fun _ hraised => by cases hraised⟩
    simp only [CheckedQueue.contents_of_toFifo hqueue]
    exact le_refl _
  | @finished item writtenCount result hwrite herror hcount =>
    simp only [Shared.written,Shared.count,hc,Option.map_some,Option.some.injEq] at hc'
    subst hc'
    simp only [Writer.carried,Quantity.load_cons,Quantity.load_nil,Nat.add_zero] at hfits
    rw [hvalid item writtenCount rfl]
    simp only [RunCounters.tally_countWritten,RunCounters.tally_timeWrite,Nat.mod_eq_of_lt hfits]
    refine .of_exact rfl rfl rfl ?_
    simp only [Shared.written,Shared.count,Writer.carried,Quantity.load_cons,Quantity.load_nil]
    omega
  | writeFailed hwrite hcause =>
    obtain rfl := Shared.counters_of_count hc' hc
    simp only [RunCounters.tally_timeWrite]
    exact ⟨rfl,rfl,le_refl _,by simp [Writer.carried],fun _ hraised => by cases hraised⟩
  | wrote | released | unwound =>
    obtain rfl := Option.some.inj (hc.symm.trans hc')
    exact .of_exact rfl rfl rfl rfl

namespace RunState

variable {call : RunCall σ} {s s' : RunState σ}

theorem Clean.of_step {t : Thread} (ho : s.Orderly) (hstep : call.system.step t s = some s')
    (h : s'.Clean) : s.Clean := by
  by_contra hclean
  have hfailed : s.Failed := by
    by_cases hraised : s.raised = []
    · exact .inr fun hnone => hclean ⟨hraised,hnone⟩
    · exact .inl hraised
  rcases failed_step ho hfailed hstep with hraised | hstored
  · exact hraised h.raised
  · exact hstored h.firstFailure

theorem Clean.threads (h : s.Clean) : s.reader.raised = [] ∧ s.processor.raised = [] ∧
    s.writer.raised = [] := by
  have hraised := h.raised
  simp only [RunState.raised,List.append_eq_nil_iff] at hraised
  exact ⟨hraised.1.1.1,hraised.1.1.2,hraised.1.2⟩

theorem Clean.places (h : s.Clean) (hagrees : s.Agrees) : s.reader.places = [] ∧
    s.processor.places = [] ∧ s.writer.places = [] ∧ s.caller.places = [] := by
  have hplaces := h.places_nil hagrees
  simp only [RunState.places,List.append_eq_nil_iff] at hplaces
  exact ⟨hplaces.1.1.1,hplaces.1.1.2,hplaces.1.2,hplaces.2⟩

theorem Flows.validData_length {m p q w : ℕ} (h : s.Flows call m p q w) {item : BlockWorkItem}
    {n : ℕ} (hw : s.writer = .write item n) :
    (s.shared.validData item).length = item.validBytes := by
  have hat := h.writer
  rw [hw] at hat
  obtain ⟨-,base,hwriting⟩ := hat
  obtain ⟨-,-,hlen,-,hvalid⟩ := hwriting.geometry
  rw [hvalid,hlen]

theorem load_unprocessed (x : Quantity) (s : RunState σ) : x.load s.unprocessed =
    x.load s.reader.carried+x.load s.shared.readToProcess.contents+
      x.load s.processor.unprocessed := by
  simp [unprocessed,Nat.add_assoc]

theorem load_unwritten (x : Quantity) (s : RunState σ) : x.load s.unwritten =
    x.load s.processor.unwritten+x.load s.shared.processToWrite.contents+
      x.load s.writer.carried := by
  simp [unwritten,Nat.add_assoc]

end RunState

/-- The calling thread counts nothing; the failures that it raises can only drop blocks. -/
theorem CallerMove.load {call : RunCall σ} {s s' : RunState σ} (h : CallerMove call s s')
    (ho : s.Orderly) (x : Quantity) :
    s'.shared.counters = s.shared.counters ∧ x.load s'.unprocessed ≤ x.load s.unprocessed ∧
    x.load s'.unwritten ≤ x.load s.unwritten ∧ (s.caller.places = [] →
      x.load s'.unprocessed = x.load s.unprocessed ∧
      x.load s'.unwritten = x.load s.unwritten) ∧
    (s'.reader = .notStarted → s.reader = .notStarted) := by
  simp only [RunState.load_unprocessed,RunState.load_unwritten]
  cases h with
  | writerStarted hcaller hstart =>
    rw [ho.writerWaits hcaller]
    exact ⟨rfl,le_refl _,le_refl _,fun _ => ⟨rfl,rfl⟩,id⟩
  | processorStarted hcaller hstart =>
    rw [ho.processorWaits (.inr hcaller)]
    exact ⟨rfl,le_refl _,le_refl _,fun _ => ⟨rfl,rfl⟩,id⟩
  | readerStarted hcaller hstart =>
    rw [ho.readerWaits (by rw [hcaller]; trivial)]
    exact ⟨rfl,le_refl _,le_refl _,fun _ => ⟨rfl,rfl⟩,fun hidle => by cases hidle⟩
  | @failing place sh next hcaller hfail =>
    obtain ⟨hread,hwrite⟩ := hfail.load x
    refine ⟨hfail.counters,?_,?_,fun hplaces => ?_,id⟩
    · simp only
      omega
    · simp only
      omega
    · rw [hcaller] at hplaces
      cases hplaces
  | startFailed hcaller hstart => exact ⟨rfl,le_refl _,le_refl _,fun _ => ⟨rfl,rfl⟩,id⟩
  | joined hcaller hjoin => exact ⟨rfl,le_refl _,le_refl _,fun _ => ⟨rfl,rfl⟩,id⟩

/-- No step of any thread counts a block that is not there. -/
theorem accounts_step {call : RunCall σ} {s s' : RunState σ} {t : Thread} {c c' : RunCounters}
    {x : Quantity}
    (hsize : ∀ offset length data, call.readAt offset length = .ok data → data.length < 2^64)
    (hs : s.Sound call) (hflow : ∃ m p q w, s.Flows call m p q w)
    (hc : s.shared.counters = some c) (hc' : s'.shared.counters = some c') (hgrows : c.Grows c')
    (h : (c.tally x).Accounts x s) (hstep : call.system.step t s = some s') :
    (c'.tally x).Accounts x s' := by
  have hclean : s'.Clean → s.Clean := fun hclean => hclean.of_step hs.orderly hstep
  have hread := h.read_lt
  have hprocessed := h.processed
  have hwritten := h.written
  rw [RunState.load_unprocessed] at hprocessed
  rw [RunState.load_unwritten] at hwritten
  rcases RunCall.step_cases hstep with
    ⟨r,sh,hmove,rfl⟩ | ⟨p,sh,hmove,rfl⟩ | ⟨w,sh,hmove,rfl⟩ | hmove
  · have hcounts := hmove.counts x hsize hc hc' hgrows hread
    have hpassed := hcounts.passed
    have hbeyond := hcounts.beyond
    have hsame := hcounts.processed
    refine ⟨hcounts.read_lt,fun hidle => absurd hidle hcounts.started,?_,?_,fun hclean' => ?_⟩
    · rw [RunState.load_unprocessed]
      simp only
      omega
    · rw [RunState.load_unwritten,hcounts.written]
      simp only
      omega
    · obtain ⟨hread',hwrite'⟩ := h.exact (hclean hclean')
      obtain ⟨hmine,htheirs⟩ := hcounts.exact ((hclean hclean').places hs.agrees).1
        hclean'.threads.1
      rw [RunState.load_unprocessed] at hread' ⊢
      rw [RunState.load_unwritten] at hwrite' ⊢
      rw [hcounts.written]
      simp only
      omega
  · have hcounts := hmove.counts x hc hc' (by omega)
    have hbefore := hcounts.before
    have hafter := hcounts.after
    refine ⟨hcounts.read ▸ hread,fun hidle => hcounts.read ▸ h.idle hidle,?_,?_,
      fun hclean' => ?_⟩
    · rw [RunState.load_unprocessed,hcounts.read]
      simp only
      omega
    · rw [RunState.load_unwritten,hcounts.written]
      simp only
      omega
    · obtain ⟨hread',hwrite'⟩ := h.exact (hclean hclean')
      obtain ⟨hmine,htheirs⟩ := hcounts.exact ((hclean hclean').places hs.agrees).2.1
        hclean'.threads.2.1
      rw [RunState.load_unprocessed] at hread' ⊢
      rw [RunState.load_unwritten] at hwrite' ⊢
      rw [hcounts.read,hcounts.written]
      simp only
      omega
  · obtain ⟨m,p,q,n,hflow⟩ := hflow
    have hcounts := hmove.counts x hc hc' (by omega) fun item n hw => hflow.validData_length hw
    have hbefore := hcounts.before
    have htaken := hcounts.taken
    have hsame := hcounts.processed
    refine ⟨hcounts.read ▸ hread,fun hidle => hcounts.read ▸ h.idle hidle,?_,?_,
      fun hclean' => ?_⟩
    · rw [RunState.load_unprocessed,hcounts.read]
      simp only
      omega
    · rw [RunState.load_unwritten]
      simp only
      omega
    · obtain ⟨hread',hwrite'⟩ := h.exact (hclean hclean')
      obtain ⟨htheirs,hmine⟩ := hcounts.exact ((hclean hclean').places hs.agrees).2.2.1
        hclean'.threads.2.2
      rw [RunState.load_unprocessed] at hread' ⊢
      rw [RunState.load_unwritten] at hwrite' ⊢
      rw [hcounts.read]
      simp only
      omega
  · obtain ⟨hsame,hbefore,hafter,hexact,hstarted⟩ := hmove.load hs.orderly x
    rw [hsame,hc] at hc'
    obtain rfl := Option.some.inj hc'
    refine ⟨hread,fun hidle => h.idle (hstarted hidle),?_,?_,fun hclean' => ?_⟩
    · exact (Nat.add_le_add_left hbefore _).trans h.processed
    · exact (Nat.add_le_add_left hafter _).trans h.written
    · obtain ⟨hun,hunw⟩ := hexact ((hclean hclean').places hs.agrees).2.2.2
      rw [hun,hunw]
      exact h.exact (hclean hclean')

/-- The reads of a reader that has found the end of the input, beyond its blocks. -/
def Reader.eofReads : Reader → ℕ
  | .close _ => 1
  | .release _ => 1
  | .terminated => 1
  | _ => 0

def Sampled (stages : List (StageEntry σ)) (n : ℕ) : Prop :=
  ∀ entry ∈ stages, ∀ samples, entry.latency = some samples → samples.value = n

theorem Sampled.process {stages : List (StageEntry σ)} {n : ℕ} (h : Sampled stages n)
    {block : Bytes} (hok : (Pipeline.process stages block).failure = none) :
    Sampled (Pipeline.process stages block).stages ((n+1)%2^64) := by
  induction stages generalizing block with
  | nil =>
    intro entry hmem
    cases hmem
  | cons entry entries ih =>
    simp only [Pipeline.process] at hok ⊢
    split at hok
    · cases hok
    · rename_i hnone
      intro entry' hmem samples hsamples
      rcases List.mem_cons.mp hmem with rfl | hrest
      · obtain ⟨before,hbefore,rfl⟩ := Option.map_eq_some_iff.mp hsamples
        have hvalue := h entry (List.mem_cons_self) before hbefore
        simp only [Counter.increment,hvalue]
      · have hentries : Sampled entries n := fun e he => h e (List.mem_cons_of_mem _ he)
        exact ih hentries hok entry' hrest samples hsamples

/-- Without a failure each histogram has a sample for each block that its worker has counted,
and the result of the run is what the writer has counted. -/
structure RunState.Timed (c : RunCounters) (s : RunState σ) : Prop where
  read : c.readLatency.value = c.readBlocks.value+s.reader.eofReads
  process : c.processLatency.value = c.processedBlocks.value
  write : c.writeLatency.value = c.writtenBlocks.value
  stages : Sampled s.shared.stages c.processedBlocks.value
  blocksWritten : c.writtenBlocks.value = s.shared.runResult.blocksWritten
  bytesWritten : c.writtenBytes.value = s.shared.runResult.bytesWritten

theorem ReaderMove.timed {call : RunCall σ} {sh sh' : Shared σ} {r r' : Reader}
    {c c' : RunCounters} (h : ReaderMove call sh r r' sh') (hc : sh.counters = some c)
    (hc' : sh'.counters = some c') (hgrows : c.Grows c') (hlt : c.readBlocks.value < 2^64)
    (hplaces : r.places = []) (hraised : r'.raised = [])
    (hread : c.readLatency.value = c.readBlocks.value+r.eofReads) :
    c'.readLatency.value = c'.readBlocks.value+r'.eofReads ∧
    c' = { c with
      readBlocks := c'.readBlocks
      readBytes := c'.readBytes
      readLatency := c'.readLatency } ∧ sh'.stages = sh.stages ∧ sh'.runResult = sh.runResult := by
  cases h with
  | failing => cases hplaces
  | readFailed | rejected => cases hraised
  | received hdata hne hitem =>
    obtain rfl := Shared.counters_of_count hc' (Shared.counters_count .timeRead hc)
    refine ⟨?_,rfl,rfl,rfl⟩
    simp only [Reader.eofReads,Nat.add_zero] at hread ⊢
    simp only [RunCounters.countRead,RunCounters.timeRead,Counter.increment,hread]
  | readEof hdata =>
    obtain rfl := Shared.counters_of_count hc' hc
    refine ⟨?_,rfl,rfl,rfl⟩
    have htimed := hgrows.2.2
    simp only [Reader.eofReads,Nat.add_zero] at hread ⊢
    simp only [RunCounters.timeRead,Counter.increment,hread] at htimed ⊢
    exact Nat.mod_eq_of_lt (add_lt_of_le_mod hlt (by decide) htimed)
  | acquired | pushed | refused | closed | released | unwound =>
    obtain rfl := Option.some.inj (hc.symm.trans hc')
    exact ⟨hread,rfl,rfl,rfl⟩

theorem ProcessorMove.timed {sh sh' : Shared σ} {p p' : Processor} {c c' : RunCounters}
    (h : ProcessorMove sh p p' sh') (hc : sh.counters = some c) (hc' : sh'.counters = some c')
    (hplaces : p.places = []) (hraised : p'.raised = [])
    (hprocess : c.processLatency.value = c.processedBlocks.value)
    (hstages : Sampled sh.stages c.processedBlocks.value) :
    c'.processLatency.value = c'.processedBlocks.value ∧
    Sampled sh'.stages c'.processedBlocks.value ∧
    c' = { c with
      processedBlocks := c'.processedBlocks
      processedBytes := c'.processedBytes
      processLatency := c'.processLatency } ∧ sh'.runResult = sh.runResult := by
  cases h with
  | failing => cases hplaces
  | stageFailed | unwound => cases hraised
  | processed hstage =>
    obtain rfl := Shared.counters_of_count hc' (Shared.counters_count .timeProcess hc)
    refine ⟨?_,?_,rfl,rfl⟩
    · simp only [RunCounters.countProcessed,RunCounters.timeProcess,Counter.increment,hprocess]
    · exact hstages.process hstage
  | popped | ended | popFailed | pushed | refused | closed =>
    obtain rfl := Option.some.inj (hc.symm.trans hc')
    exact ⟨hprocess,hstages,rfl,rfl⟩

theorem WriterMove.timed {call : RunCall σ} {sh sh' : Shared σ} {w w' : Writer}
    {c c' : RunCounters} (h : WriterMove call sh w w' sh') (hc : sh.counters = some c)
    (hc' : sh'.counters = some c') (hplaces : w.places = []) (hraised : w'.raised = [])
    (hvalid : ∀ item n, w = .write item n → (sh.validData item).length = item.validBytes)
    (hblocks : c.writtenBlocks.value+Quantity.load .blocks w.carried < 2^64)
    (hbytes : c.writtenBytes.value+Quantity.load .bytes w.carried < 2^64)
    (hwrite : c.writeLatency.value = c.writtenBlocks.value)
    (hcounted : c.writtenBlocks.value = sh.runResult.blocksWritten ∧
      c.writtenBytes.value = sh.runResult.bytesWritten) :
    c'.writeLatency.value = c'.writtenBlocks.value ∧
    (c'.writtenBlocks.value = sh'.runResult.blocksWritten ∧
      c'.writtenBytes.value = sh'.runResult.bytesWritten) ∧
    c' = { c with
      writtenBlocks := c'.writtenBlocks
      writtenBytes := c'.writtenBytes
      writeLatency := c'.writeLatency } ∧ sh'.stages = sh.stages := by
  cases h with
  | @failing place sh' next hfail => cases hplaces
  | writeFailed | unwound => cases hraised
  | @finished item writtenCount result hattempt herror hcount =>
    simp only [Shared.written,Shared.count,hc,Option.map_some,Option.some.injEq] at hc'
    subst hc'
    have hlen := hvalid item writtenCount rfl
    simp only [Writer.carried,Quantity.load_cons,Quantity.load_nil,Quantity.amount,
      Nat.add_zero] at hblocks hbytes
    rw [hcounted.1] at hblocks
    rw [hcounted.2] at hbytes
    refine ⟨?_,⟨?_,?_⟩,rfl,rfl⟩
    · simp only [RunCounters.countWritten,RunCounters.timeWrite,Counter.increment,hwrite]
    · simp only [RunCounters.countWritten,RunCounters.timeWrite,Counter.increment,
        hcounted.1,Nat.mod_eq_of_lt hblocks]
      rfl
    · simp only [RunCounters.countWritten,RunCounters.timeWrite,Counter.increment,hlen,
        hcounted.2,Nat.mod_eq_of_lt hbytes]
      rfl
  | popped | ended | popFailed | wrote | released =>
    obtain rfl := Option.some.inj (hc.symm.trans hc')
    exact ⟨hwrite,hcounted,rfl,rfl⟩

theorem timed_step {call : RunCall σ} {s s' : RunState σ} {t : Thread} {c c' : RunCounters}
    (hs : s.Sound call) (hflow : ∃ m p q w, s.Flows call m p q w)
    (hc : s.shared.counters = some c) (hc' : s'.shared.counters = some c') (hgrows : c.Grows c')
    (hblocks : (c.tally .blocks).Accounts .blocks s) (hbytes : (c.tally .bytes).Accounts .bytes s)
    (h : s.Timed c) (hclean : s.Clean) (hclean' : s'.Clean)
    (hstep : call.system.step t s = some s') : s'.Timed c' := by
  have hplaces := hclean.places hs.agrees
  have hraised := hclean'.threads
  rcases RunCall.step_cases hstep with
    ⟨r,sh,hmove,rfl⟩ | ⟨p,sh,hmove,rfl⟩ | ⟨w,sh,hmove,rfl⟩ | hmove
  · obtain ⟨hread,hsame,hstages,hresult⟩ := hmove.timed hc hc' hgrows hblocks.read_lt hplaces.1
      hraised.1 h.read
    refine ⟨hread,?_,?_,?_,?_,?_⟩
    · rw [hsame]; exact h.process
    · rw [hsame]; exact h.write
    · rw [hsame,hstages]; exact h.stages
    · rw [hsame,hresult]; exact h.blocksWritten
    · rw [hsame,hresult]; exact h.bytesWritten
  · obtain ⟨hprocess,hstages,hsame,hresult⟩ := hmove.timed hc hc' hplaces.2.1 hraised.2.1
      h.process h.stages
    refine ⟨?_,hprocess,?_,hstages,?_,?_⟩
    · rw [hsame]; exact h.read
    · rw [hsame]; exact h.write
    · rw [hsame,hresult]; exact h.blocksWritten
    · rw [hsame,hresult]; exact h.bytesWritten
  · obtain ⟨m,p,q,n,hflow⟩ := hflow
    have hfits : ∀ x, (c.tally x).Accounts x s →
        (c.tally x).written+x.load s.writer.carried < 2^64 := by
      intro x haccounts
      have hwritten := haccounts.written
      rw [RunState.load_unwritten] at hwritten
      have hprocessed := haccounts.processed
      have hlt := haccounts.read_lt
      omega
    obtain ⟨hwrite,hcounted,hsame,hstages⟩ := hmove.timed hc hc' hplaces.2.2.1 hraised.2.2
      (fun item n hw => hflow.validData_length hw) (hfits _ hblocks) (hfits _ hbytes) h.write
      ⟨h.blocksWritten,h.bytesWritten⟩
    refine ⟨?_,?_,hwrite,?_,hcounted.1,hcounted.2⟩
    · rw [hsame]; exact h.read
    · rw [hsame]; exact h.process
    · rw [hsame,hstages]; exact h.stages
  · have hsame := (hmove.load hs.orderly .blocks).1
    rw [hsame,hc] at hc'
    obtain rfl := Option.some.inj hc'
    cases hmove with
    | readerStarted hcaller hstart =>
      have hread := h.read
      rw [hs.orderly.readerWaits (by rw [hcaller]; trivial)] at hread
      exact { h with read := hread }
    | failing hcaller hfail =>
      have hnone := hplaces.2.2.2
      rw [hcaller] at hnone
      cases hnone
    | writerStarted | processorStarted | startFailed | joined => exact { h with }

end AsyncDataLoader
