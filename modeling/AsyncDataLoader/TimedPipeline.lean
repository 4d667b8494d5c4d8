import AsyncDataLoader.SharedRegistry

/-!
# Pipelines that time their stages

A stage with a histogram runs in the scope of a timer, whose destructor takes a sample also when
the stage throws. What the stages make of the blocks does not depend on the timers.
-/

namespace AsyncDataLoader

open FileIO

/-- The registry, and the readings of the steady clock that are to come, in nanoseconds. -/
structure Timing where
  heap : MetricsHeap
  clock : ℕ → ℤ

namespace ScopedTimer

def now (t : Timing) : ℤ × Timing := (t.clock 0,{ t with clock := fun n => t.clock (n+1) })

/-- The destructor. -/
def finish (metric : ℕ) (start : ℤ) (t : Timing) : Timing :=
  let (stop,t) := now t
  let elapsed := stop-start
  let sample := if elapsed > 0 then elapsed.toNat else 0
  { t with heap := t.heap.update metric (.observe sample) }

end ScopedTimer

structure TimedResult (σ : Type) where
  stages : List (TimedEntry σ)
  block : Bytes
  failure : Option Failure
  timing : Timing

namespace Pipeline

variable {σ : Type}

/-- The body of the loop in `Pipeline::process`. -/
def invoke (entry : TimedEntry σ) (block : Bytes) (t : Timing) : StageResult σ × Timing :=
  match entry.latency with
  | none => (entry.object.stage.process entry.object.state block,t)
  | some metric =>
    let (start,t) := ScopedTimer.now t
    let r := entry.object.stage.process entry.object.state block
    -- The timer goes out of scope when the stage returns, and when it throws.
    (r,ScopedTimer.finish metric start t)

def processTimed : List (TimedEntry σ) → Bytes → Timing → TimedResult σ
  | [],block,t => ⟨[],block,none,t⟩
  | entry::entries,block,t =>
    let (r,t) := invoke entry block t
    let entry' := { entry with object := { entry.object with state := r.state } }
    match r.failure with
    | some failure => ⟨entry'::entries,r.block,some failure,t⟩
    | none =>
      let rest := processTimed entries r.block t
      { rest with stages := entry'::rest.stages }

/-- A sequence of calls, of which some throw. -/
def processBlocks (entries : List (TimedEntry σ)) :
    List Bytes → Timing → List (Bytes × Option Failure) × List (TimedEntry σ) × Timing
  | [],t => ([],entries,t)
  | block::blocks,t =>
    let r := processTimed entries block t
    let rest := processBlocks r.stages blocks r.timing
    ((r.block,r.failure)::rest.1,rest.2)

end Pipeline

namespace StageObject

variable {σ : Type}

def call (object : StageObject σ) (block : Bytes) : StageResult σ :=
  object.stage.process object.state block

def advance (object : StageObject σ) (block : Bytes) : StageObject σ :=
  { object with state := (object.call block).state }

/-- What the stages make of a block, one after the other. -/
def through (objects : List (StageObject σ)) (block : Bytes) : Bytes :=
  objects.foldl (fun block object => (object.call block).block) block

/-- The number of stages that are invoked: all of them, or those up to the first that throws. -/
def invoked : List (StageObject σ) → Bytes → ℕ
  | [],_ => 0
  | object::objects,block =>
    match (object.call block).failure with
    | some _ => 1
    | none => invoked objects (object.call block).block+1

def advanceAll (objects : List (StageObject σ)) (block : Bytes) : List (StageObject σ) :=
  objects.mapIdx fun k object =>
    if k < invoked objects block then object.advance (through (objects.take k) block) else object

def thrown (objects : List (StageObject σ)) (block : Bytes) : Option Failure :=
  match objects[invoked objects block-1]? with
  | some object => (object.call (through (objects.take (invoked objects block-1)) block)).failure
  | none => none

def invocations (k : ℕ) (objects : List (StageObject σ)) : List Bytes → ℕ
  | [] => 0
  | block::blocks =>
    (if k < invoked objects block then 1 else 0)+
      invocations k (advanceAll objects block) blocks

section Call

variable {object : StageObject σ} {objects : List (StageObject σ)} {block : Bytes}
  {failure : Failure} {k : ℕ}

theorem invoked_throws (h : (object.call block).failure = some failure) :
    invoked (object::objects) block = 1 := by
  rw [invoked,h]

theorem invoked_returns (h : (object.call block).failure = none) :
    invoked (object::objects) block = invoked objects (object.call block).block+1 := by
  rw [invoked,h]

theorem through_take_succ : through ((object::objects).take (k+1)) block =
    through (objects.take k) (object.call block).block := rfl

theorem advanceAll_throws (h : (object.call block).failure = some failure) :
    advanceAll (object::objects) block = object.advance block::objects := by
  rw [advanceAll,invoked_throws h,List.mapIdx_cons]
  have htail : (objects.mapIdx fun k o => if k+1 < 1 then
      o.advance (through ((object::objects).take (k+1)) block) else o) = objects := by
    apply List.ext_getElem?
    intro k
    simp
  rw [htail]
  rfl

theorem advanceAll_returns (h : (object.call block).failure = none) :
    advanceAll (object::objects) block =
      object.advance block::advanceAll objects (object.call block).block := by
  rw [advanceAll,invoked_returns h,List.mapIdx_cons]
  simp only [Nat.add_lt_add_iff_right,through_take_succ]
  rfl

theorem thrown_throws (h : (object.call block).failure = some failure) :
    thrown (object::objects) block = some failure := by
  rw [thrown,invoked_throws h]
  exact h

theorem thrown_returns (h : (object.call block).failure = none) :
    thrown (object::objects) block = thrown objects (object.call block).block := by
  rw [thrown,invoked_returns h,Nat.add_sub_cancel]
  cases objects with
  | nil => exact h
  | cons next objects =>
    have hpos : ∃ n, invoked (next::objects) (object.call block).block = n+1 := by
      unfold invoked
      split <;> exact ⟨_,rfl⟩
    obtain ⟨n,hn⟩ := hpos
    rw [thrown,hn,Nat.add_sub_cancel,List.getElem?_cons_succ,through_take_succ]

end Call

theorem invoked_cases (objects : List (StageObject σ)) (block : Bytes) :
    (thrown objects block = none ∧ invoked objects block = objects.length ∧
      ∀ (k : ℕ) object, objects[k]? = some object →
        (object.call (through (objects.take k) block)).failure = none) ∨
    ∃ (j : ℕ) (object : StageObject σ) (failure : Failure), thrown objects block = some failure ∧
      invoked objects block = j+1 ∧ objects[j]? = some object ∧
      (object.call (through (objects.take j) block)).failure = some failure ∧
      ∀ (k : ℕ) other, k < j → objects[k]? = some other →
        (other.call (through (objects.take k) block)).failure = none := by
  induction objects generalizing block with
  | nil => exact .inl ⟨rfl,rfl,by simp⟩
  | cons object objects ih =>
    cases hcall : (object.call block).failure with
    | some failure =>
      exact .inr ⟨0,object,failure,thrown_throws hcall,invoked_throws hcall,rfl,hcall,by simp⟩
    | none =>
      rw [thrown_returns hcall,invoked_returns hcall]
      obtain ⟨hnone,hall,hcalls⟩ | ⟨j,last,failure,hsome,hinvoked,hj,hlast,hcalls⟩ :=
        ih (object.call block).block
      · refine .inl ⟨hnone,by rw [hall,List.length_cons],fun k other hother => ?_⟩
        cases k with
        | zero =>
          obtain rfl := Option.some.inj hother
          exact hcall
        | succ k => exact hcalls k other hother
      · refine .inr ⟨j+1,last,failure,hsome,by rw [hinvoked],hj,hlast,fun k other hk hother => ?_⟩
        cases k with
        | zero =>
          obtain rfl := Option.some.inj hother
          exact hcall
        | succ k => exact hcalls k other (Nat.lt_of_succ_lt_succ hk) hother

end StageObject

namespace Pipeline

variable {σ : Type}

/-- The timer does not touch what the stage does. -/
theorem invoke_call (entry : TimedEntry σ) (block : Bytes) (t : Timing) :
    (invoke entry block t).1 = entry.object.call block := by
  unfold invoke
  split <;> rfl

def objects (entries : List (TimedEntry σ)) : List (StageObject σ) := entries.map TimedEntry.object

section Turn

variable {entry : TimedEntry σ} {entries : List (TimedEntry σ)} {block : Bytes} {t : Timing}
  {failure : Failure}

theorem processTimed_throws (h : (entry.object.call block).failure = some failure) :
    processTimed (entry::entries) block t =
      ⟨{ entry with object := entry.object.advance block }::entries,
        (entry.object.call block).block,some failure,(invoke entry block t).2⟩ := by
  simp only [processTimed,invoke_call,h]
  rfl

theorem processTimed_returns (h : (entry.object.call block).failure = none) :
    processTimed (entry::entries) block t =
      { processTimed entries (entry.object.call block).block (invoke entry block t).2 with
        stages := { entry with object := entry.object.advance block }::
          (processTimed entries (entry.object.call block).block (invoke entry block t).2).stages }
    := by
  simp only [processTimed,invoke_call,h]
  rfl

end Turn

open StageObject in
/-- A call of `process` is the composition of the stages up to the first that throws. -/
theorem processTimed_eq (entries : List (TimedEntry σ)) (block : Bytes) (t : Timing) :
    objects (processTimed entries block t).stages = advanceAll (objects entries) block ∧
    (processTimed entries block t).block =
      through ((objects entries).take (invoked (objects entries) block)) block ∧
    (processTimed entries block t).failure = thrown (objects entries) block ∧
    (processTimed entries block t).stages.map TimedEntry.latency =
      entries.map TimedEntry.latency := by
  induction entries generalizing block t with
  | nil => exact ⟨rfl,rfl,rfl,rfl⟩
  | cons entry entries ih =>
    have hcons : objects (entry::entries) = entry.object::objects entries := rfl
    rw [hcons]
    cases hcall : (entry.object.call block).failure with
    | some failure =>
      rw [advanceAll_throws hcall,invoked_throws hcall,thrown_throws hcall,
        processTimed_throws hcall]
      exact ⟨rfl,rfl,rfl,rfl⟩
    | none =>
      obtain ⟨hobjects,hblock,hfailure,hlatency⟩ :=
        ih (entry.object.call block).block (invoke entry block t).2
      rw [advanceAll_returns hcall,invoked_returns hcall,thrown_returns hcall,through_take_succ,
        ← hobjects,← hblock,← hfailure,processTimed_returns hcall,List.map_cons,List.map_cons,
        hlatency]
      exact ⟨rfl,rfl,rfl,rfl⟩

def Distinct (latencies : List (Option ℕ)) : Prop :=
  ∀ (k l metric : ℕ), latencies[k]? = some (some metric) → latencies[l]? = some (some metric) → k = l

theorem Distinct.tail {latency : Option ℕ} {latencies : List (Option ℕ)}
    (h : Distinct (latency::latencies)) : Distinct latencies := by
  intro k l metric hk hl
  exact Nat.succ.inj (h (k+1) (l+1) metric hk hl)

theorem Distinct.head {metric : ℕ} {latencies : List (Option ℕ)}
    (h : Distinct (some metric::latencies)) (k : ℕ) : latencies[k]? ≠ some (some metric) := by
  intro hk
  exact absurd (h 0 (k+1) metric rfl hk) (Nat.succ_ne_zero k).symm

theorem Distinct.latency_ne {latency : Option ℕ} {latencies : List (Option ℕ)} {k metric : ℕ}
    (h : Distinct (latency::latencies)) (hk : latencies[k]? = some (some metric)) :
    latency ≠ some metric := by
  intro hlatency
  rw [hlatency] at h
  exact h.head k hk

theorem invoke_histogram (entry : TimedEntry σ) (block : Bytes) (t : Timing) (metric : ℕ) :
    (entry.latency = some metric → ∃ sample, (invoke entry block t).2.heap.histogramAt metric =
      (t.heap.histogramAt metric).observe sample) ∧
    (entry.latency ≠ some metric →
      (invoke entry block t).2.heap.histogramAt metric = t.heap.histogramAt metric) := by
  unfold invoke
  cases hlatency : entry.latency with
  | none => exact ⟨fun h => absurd h (by simp),fun _ => rfl⟩
  | some other =>
    refine ⟨fun h => ?_,fun hne => ?_⟩
    · obtain rfl := Option.some.inj h
      exact ⟨_,Function.update_self ..⟩
    · exact Function.update_of_ne (fun h => hne (congrArg some h.symm)) _ _

open StageObject in
theorem processTimed_samples {entries : List (TimedEntry σ)}
    (h : Distinct (entries.map TimedEntry.latency)) (block : Bytes) (t : Timing) (metric : ℕ) :
    ((∀ k : ℕ, (entries.map TimedEntry.latency)[k]? ≠ some (some metric)) →
      (processTimed entries block t).timing.heap.histogramAt metric =
        t.heap.histogramAt metric) ∧
    ∀ k : ℕ, (entries.map TimedEntry.latency)[k]? = some (some metric) →
      ∃ samples : List ℕ,
        samples.length = (if k < invoked (objects entries) block then 1 else 0) ∧
        (processTimed entries block t).timing.heap.histogramAt metric =
          samples.foldl Histogram.observe (t.heap.histogramAt metric) := by
  induction entries generalizing block t with
  | nil => exact ⟨fun _ => rfl,by simp⟩
  | cons entry entries ih =>
    have hcons : objects (entry::entries) = entry.object::objects entries := rfl
    rw [List.map_cons] at h ⊢
    obtain ⟨hsample,hsame⟩ := invoke_histogram entry block t metric
    cases hcall : (entry.object.call block).failure with
    | some failure =>
      rw [processTimed_throws hcall,hcons,invoked_throws hcall]
      refine ⟨fun hnone => hsame fun hlatency => hnone 0 (congrArg some hlatency),fun k hk => ?_⟩
      cases k with
      | zero =>
        obtain ⟨sample,hobserved⟩ := hsample (Option.some.inj hk)
        exact ⟨[sample],rfl,hobserved⟩
      | succ k =>
        exact ⟨[],by simp,hsame (h.latency_ne hk)⟩
    | none =>
      obtain ⟨hothers,hstages⟩ := ih h.tail (entry.object.call block).block (invoke entry block t).2
      rw [processTimed_returns hcall,hcons,invoked_returns hcall]
      refine ⟨fun hnone => ?_,fun k hk => ?_⟩
      · exact (hothers fun k hk => hnone (k+1) hk).trans
          (hsame fun hlatency => hnone 0 (congrArg some hlatency))
      · cases k with
        | zero =>
          have hlatency := Option.some.inj hk
          obtain ⟨sample,hobserved⟩ := hsample hlatency
          rw [hlatency] at h
          refine ⟨[sample],by simp,?_⟩
          exact (hothers h.head).trans hobserved
        | succ k =>
          obtain ⟨samples,hlength,hfold⟩ := hstages k hk
          refine ⟨samples,?_,?_⟩
          · rw [hlength]
            simp only [Nat.add_lt_add_iff_right]
          · rw [hfold,hsame (h.latency_ne hk)]

open StageObject in
theorem processBlocks_congr {entries entries' : List (TimedEntry σ)}
    (h : objects entries = objects entries') (blocks : List Bytes) (t t' : Timing) :
    (processBlocks entries blocks t).1 = (processBlocks entries' blocks t').1 ∧
    objects (processBlocks entries blocks t).2.1 = objects (processBlocks entries' blocks t').2.1 := by
  induction blocks generalizing entries entries' t t' with
  | nil => exact ⟨rfl,h⟩
  | cons block blocks ih =>
    obtain ⟨hobjects,hblock,hfailure,-⟩ := processTimed_eq entries block t
    obtain ⟨hobjects',hblock',hfailure',-⟩ := processTimed_eq entries' block t'
    have hstages : objects (processTimed entries block t).stages =
        objects (processTimed entries' block t').stages := by
      rw [hobjects,hobjects',h]
    obtain ⟨hrest,hlast⟩ := ih hstages (processTimed entries block t).timing
      (processTimed entries' block t').timing
    refine ⟨?_,hlast⟩
    rw [processBlocks,processBlocks,hrest,hblock,hblock',hfailure,hfailure',h]

theorem processBlocks_latency (entries : List (TimedEntry σ)) (blocks : List Bytes) (t : Timing) :
    (processBlocks entries blocks t).2.1.map TimedEntry.latency =
      entries.map TimedEntry.latency := by
  induction blocks generalizing entries t with
  | nil => rfl
  | cons block blocks ih =>
    exact (ih _ _).trans (processTimed_eq entries block t).2.2.2

open StageObject in
theorem processBlocks_samples {entries : List (TimedEntry σ)}
    (h : Distinct (entries.map TimedEntry.latency)) {k metric : ℕ}
    (hk : (entries.map TimedEntry.latency)[k]? = some (some metric)) (blocks : List Bytes)
    (t : Timing) :
    ∃ samples : List ℕ, samples.length = invocations k (objects entries) blocks ∧
      (processBlocks entries blocks t).2.2.heap.histogramAt metric =
        samples.foldl Histogram.observe (t.heap.histogramAt metric) := by
  induction blocks generalizing entries t with
  | nil => exact ⟨[],rfl,rfl⟩
  | cons block blocks ih =>
    obtain ⟨hobjects,-,-,hlatency⟩ := processTimed_eq entries block t
    obtain ⟨first,hfirst,hobserved⟩ := (processTimed_samples h block t metric).2 k hk
    rw [← hlatency] at h hk
    obtain ⟨rest,hrest,hfold⟩ := ih h hk (processTimed entries block t).timing
    refine ⟨first++rest,?_,?_⟩
    · rw [List.length_append,hfirst,hrest,hobjects]
      rfl
    · rw [List.foldl_append,← hobserved]
      exact hfold

theorem processTimed_plain {entries : List (TimedEntry σ)}
    (h : ∀ entry ∈ entries, entry.latency = none) (block : Bytes) (t : Timing) :
    (processTimed entries block t).timing = t := by
  induction entries generalizing block with
  | nil => rfl
  | cons entry entries ih =>
    obtain ⟨hlatency,hrest⟩ := List.forall_mem_cons.mp h
    have hsame : (invoke entry block t).2 = t := by rw [invoke,hlatency]
    cases hcall : (entry.object.call block).failure with
    | some failure =>
      rw [processTimed_throws hcall]
      exact hsame
    | none =>
      rw [processTimed_returns hcall,hsame]
      exact ih hrest _

theorem processBlocks_plain {entries : List (TimedEntry σ)}
    (h : ∀ entry ∈ entries, entry.latency = none) (blocks : List Bytes) (t : Timing) :
    (processBlocks entries blocks t).2.2 = t := by
  induction blocks generalizing entries with
  | nil => rfl
  | cons block blocks ih =>
    have hstages : ∀ entry ∈ (processTimed entries block t).stages, entry.latency = none := by
      intro entry hentry
      have hmem := List.mem_map_of_mem (f := TimedEntry.latency) hentry
      rw [(processTimed_eq entries block t).2.2.2] at hmem
      obtain ⟨other,hother,hlatency⟩ := List.mem_map.mp hmem
      rw [← hlatency,h other hother]
    rw [processBlocks,processTimed_plain h block t]
    exact ih hstages

def sampled (heap : MetricsHeap) (entry : TimedEntry σ) : StageEntry σ :=
  ⟨entry.object.stage,entry.object.state,
    entry.latency.map fun metric => ⟨(heap.histogramAt metric).sampleCount⟩⟩

theorem sampled_congr {heap heap' : MetricsHeap} {entries : List (TimedEntry σ)}
    (h : ∀ metric, some metric ∈ entries.map TimedEntry.latency →
      heap'.histogramAt metric = heap.histogramAt metric) :
    entries.map (sampled heap') = entries.map (sampled heap) := by
  refine List.map_congr_left fun entry hentry => ?_
  unfold sampled
  cases hlatency : entry.latency with
  | none => rfl
  | some metric =>
    rw [Option.map_some,Option.map_some,h metric (List.mem_map.mpr ⟨entry,hentry,hlatency⟩)]

/-- The stage that is invoked has one sample more, whatever the later stages do to theirs. -/
theorem sampled_advance (entry : TimedEntry σ) (block : Bytes) (t : Timing) {heap : MetricsHeap}
    (h : ∀ metric, entry.latency = some metric →
      heap.histogramAt metric = (invoke entry block t).2.heap.histogramAt metric) :
    sampled heap { entry with object := entry.object.advance block } =
      { sampled t.heap entry with
        state := (entry.object.call block).state
        latency := (sampled t.heap entry).latency.map fun samples => samples.increment 1 } := by
  unfold sampled
  cases hlatency : entry.latency with
  | none => rfl
  | some metric =>
    obtain ⟨sample,hsample⟩ := (invoke_histogram entry block t metric).1 hlatency
    simp only [Option.map_some,h metric hlatency,hsample]
    rfl

/-- The timed pipeline does what `process` does to the stages, the block and the numbers. -/
theorem process_sampled {entries : List (TimedEntry σ)}
    (h : Distinct (entries.map TimedEntry.latency)) (block : Bytes) (t : Timing) :
    process (entries.map (sampled t.heap)) block =
      ⟨(processTimed entries block t).stages.map
        (sampled (processTimed entries block t).timing.heap),
        (processTimed entries block t).block,(processTimed entries block t).failure⟩ := by
  induction entries generalizing block t with
  | nil => rfl
  | cons entry entries ih =>
    rw [List.map_cons] at h
    have htail : entries.map (sampled (invoke entry block t).2.heap) =
        entries.map (sampled t.heap) := by
      refine sampled_congr fun metric hmetric => (invoke_histogram entry block t metric).2 ?_
      obtain ⟨k,hk⟩ := List.mem_iff_getElem?.mp hmetric
      exact h.latency_ne hk
    rw [List.map_cons,process]
    cases hcall : (entry.object.call block).failure with
    | some failure =>
      have hfailure : ((sampled t.heap entry).stage.process (sampled t.heap entry).state
          block).failure = some failure := hcall
      rw [processTimed_throws hcall,List.map_cons,sampled_advance entry block t fun _ _ => rfl,htail]
      simp only [hfailure]
      rfl
    | none =>
      have hfailure : ((sampled t.heap entry).stage.process (sampled t.heap entry).state
          block).failure = none := hcall
      have hrest := ih h.tail (entry.object.call block).block (invoke entry block t).2
      rw [htail] at hrest
      rw [processTimed_returns hcall,List.map_cons,
        sampled_advance entry block t fun metric hlatency => ?_]
      · simp only [hfailure]
        change PipelineResult.mk (_::(process _ (entry.object.call block).block).stages)
          (process _ (entry.object.call block).block).block
          (process _ (entry.object.call block).block).failure = _
        rw [hrest]
        rfl
      · rw [hlatency] at h
        exact (processTimed_samples h.tail _ _ metric).1 h.head

end Pipeline
theorem SharedRegistry.Timed.latencies {σ : Type} {s : SharedRegistry σ} (h : s.Timed) (i : ℕ) :
    Pipeline.Distinct ((s.pipelines i).stages.map TimedEntry.latency) := by
  intro k l metric hk hl
  rw [List.getElem?_map] at hk hl
  obtain ⟨entry,hentry,hlatency⟩ := Option.map_eq_some_iff.mp hk
  obtain ⟨entry',hentry',hlatency'⟩ := Option.map_eq_some_iff.mp hl
  exact (h.distinct i i k l entry entry' metric hentry hentry' hlatency hlatency').2

open Pipeline StageObject in
/-- A pipeline with a registry and one without, with the same stages, do the same to every block.
Each is the composition of its stages up to the first that throws, and in the one with a registry
the histogram of a stage counts a sample for each of its invocations. -/
theorem process_transparent {σ : Type} (instrumented : ℕ → Bool) (events : List (SharedEvent σ))
    (i j : ℕ) (hi : instrumented i = true) (hj : instrumented j = false) :
    let s := (SharedRegistry.initial instrumented).run events
    let p := (s.pipelines i).stages
    let q := (s.pipelines j).stages
    objects p = objects q → ∀ (blocks : List Bytes) (t u : Timing),
      let r := processBlocks p blocks t
      let r' := processBlocks q blocks u
      (r.1 = r'.1 ∧ objects r.2.1 = objects r'.2.1 ∧ r'.2.2 = u) ∧
      (∀ (k : ℕ) entry, p[k]? = some entry → ∃ (metric : ℕ) (samples : List ℕ),
        let old := t.heap.histogramAt metric
        let new := r.2.2.heap.histogramAt metric
        entry.latency = some metric ∧ samples.length = invocations k (objects p) blocks ∧
        new = samples.foldl Histogram.observe old ∧ (old.Words → old.Gains samples new ∧
          new.sampleCount = (old.sampleCount+invocations k (objects p) blocks)%2^64)) ∧
      ∀ block,
        let now := objects r.2.1
        let call := processTimed r.2.1 block r.2.2
        call.block = through (now.take (invoked now block)) block ∧
        objects call.stages = advanceAll now block ∧
        process (r.2.1.map (sampled r.2.2.heap)) block =
          ⟨call.stages.map (sampled call.timing.heap),call.block,call.failure⟩ ∧
        ((call.failure = none ∧ invoked now block = now.length ∧
          ∀ (k : ℕ) object, now[k]? = some object →
            (object.call (through (now.take k) block)).failure = none) ∨
        ∃ (k : ℕ) (object : StageObject σ) (failure : Failure), call.failure = some failure ∧
          invoked now block = k+1 ∧ now[k]? = some object ∧
          (object.call (through (now.take k) block)).failure = some failure ∧
          ∀ (l : ℕ) other, l < k → now[l]? = some other →
            (other.call (through (now.take l) block)).failure = none) := by
  intro s p q hsame blocks t u r r'
  have htimed : s.Timed := (SharedRegistry.timed_initial instrumented).run events
  have hkinds : ∀ k, (s.pipelines k).instrumented = instrumented k := fun k =>
    (SharedRegistry.run_stages (SharedRegistry.initial instrumented) events k).1
  obtain ⟨houtcomes,hstates⟩ := processBlocks_congr hsame blocks t u
  refine ⟨⟨houtcomes,hstates,?_⟩,fun k entry hentry => ?_,fun block => ?_⟩
  · refine processBlocks_plain (fun entry hentry => ?_) blocks u
    exact htimed.plain j entry ((hkinds j).trans hj) hentry
  · obtain ⟨metric,hmetric⟩ :=
      htimed.timed i entry ((hkinds i).trans hi) (List.mem_of_getElem? hentry)
    have hk : (p.map TimedEntry.latency)[k]? = some (some metric) := by
      rw [List.getElem?_map,hentry,Option.map_some,hmetric]
    obtain ⟨samples,hlength,hfold⟩ := processBlocks_samples (htimed.latencies i) hk blocks t
    refine ⟨metric,samples,hmetric,hlength,hfold,fun hwords => ?_⟩
    have hgains := (hwords.foldl_observe samples).2
    rw [← hfold] at hgains
    exact ⟨hgains,by rw [← hlength]; exact hgains.count⟩
  · obtain ⟨hobjects,hblock,hfailure,-⟩ := processTimed_eq r.2.1 block r.2.2
    have hdistinct : Distinct (r.2.1.map TimedEntry.latency) := by
      rw [processBlocks_latency]
      exact htimed.latencies i
    refine ⟨hblock,hobjects,process_sampled hdistinct block r.2.2,?_⟩
    rw [hfailure]
    exact invoked_cases (objects r.2.1) block

/-- A stage that adds one to every byte, and throws on one of its calls, with the block cleared. -/
def throwingOn (call : Option ℕ) : Stage ℕ where
  process calls block :=
    if call = some calls then ⟨calls+1,block.map fun _ => 0,some (.runtimeError "stage failure")⟩
    else ⟨calls+1,block.map (·+1),none⟩
  process_length calls block := by split <;> exact List.length_map _

/-- Two pipelines with two stages each, of which the first throws on the second block. -/
def throwingEvents : List (SharedEvent ℕ) :=
  [.addStage 0 .none (some ⟨ascii "clear",throwingOn (some 1),0⟩),
    .addStage 0 .none (some ⟨ascii "add",throwingOn none,0⟩),
    .addStage 1 .none (some ⟨ascii "clear",throwingOn (some 1),0⟩),
    .addStage 1 .none (some ⟨ascii "add",throwingOn none,0⟩)]

open Pipeline StageObject in
theorem process_transparent_throwing :
    let s := (SharedRegistry.initial fun i => i == 0).run throwingEvents
    let r := processBlocks (s.pipelines 0).stages [[1,2],[3]] ⟨s.heap,fun n => 5*n⟩
    let r' := processBlocks (s.pipelines 1).stages [[1,2],[3]] ⟨.empty,fun _ => 0⟩
    r'.1 = [([3,4],none),([0],some (.runtimeError "stage failure"))] ∧ r.1 = r'.1 ∧
    (objects r.2.1).map StageObject.state = [2,1] ∧ objects r.2.1 = objects r'.2.1 ∧
    (s.pipelines 0).stages.map TimedEntry.latency = [some 0,some 1] ∧
    (r.2.2.heap.histogramAt 0).sampleCount = 2 ∧ (r.2.2.heap.histogramAt 1).sampleCount = 1 := by
  intro s r r'
  obtain ⟨⟨hblocks,hobjects,-⟩,hsamples,-⟩ := process_transparent (fun i => i == 0) throwingEvents
    0 1 rfl rfl rfl [[1,2],[3]] ⟨s.heap,fun n => 5*n⟩ ⟨.empty,fun _ => 0⟩
  refine ⟨rfl,hblocks,rfl,hobjects,rfl,?_,?_⟩
  · obtain ⟨metric,samples,hmetric,-,-,hgains⟩ := hsamples 0 _ rfl
    obtain rfl := Option.some.inj (show some 0 = some metric from hmetric)
    exact (hgains ⟨by decide,by decide,by decide⟩).2
  · obtain ⟨metric,samples,hmetric,-,-,hgains⟩ := hsamples 1 _ rfl
    obtain rfl := Option.some.inj (show some 1 = some metric from hmetric)
    exact (hgains ⟨by decide,by decide,by decide⟩).2

end AsyncDataLoader
