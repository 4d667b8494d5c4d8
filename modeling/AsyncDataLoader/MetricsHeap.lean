import AsyncDataLoader.ThrowingAction
import AsyncDataLoader.MetricsRegistry
import Mathlib.Logic.Function.Basic

/-!
# The objects of a registry

The registry hands out references to its metrics. Each metric is an object of its own, at an
address that does not change while the vectors of the registry grow.
-/

namespace AsyncDataLoader

open FileIO

namespace Histogram

/-- `std::lower_bound` in the bounds. -/
def bucketIndex (h : Histogram) (sample : ℕ) : ℕ := h.bounds.findIdx fun bound => sample ≤ bound

theorem bucketIndex_le (h : Histogram) (sample : ℕ) : h.bucketIndex sample ≤ h.finiteBucketCount := by
  rw [← h.bounds_length]
  exact List.findIdx_le_length

def bucket (h : Histogram) (sample : ℕ) : Fin kMaxBucketCount :=
  ⟨h.bucketIndex sample,Nat.lt_succ_of_le ((h.bucketIndex_le sample).trans h.finiteBucketCount_le)⟩

def observe (h : Histogram) (sample : ℕ) : Histogram := { h with
  bucketCounts := h.bucketCounts.set (h.bucket sample)
    ((h.bucketCounts.get (h.bucket sample)+1)%2^64)
  sampleSum := (h.sampleSum+sample)%2^64
  sampleCount := (h.sampleCount+1)%2^64 }

@[simp] theorem observe_bounds (h : Histogram) (sample : ℕ) : (h.observe sample).bounds = h.bounds :=
  rfl

/-- The members are 64-bit words. -/
structure Words (h : Histogram) : Prop where
  count : h.sampleCount < 2^64
  sum : h.sampleSum < 2^64
  bucket : ∀ i : Fin kMaxBucketCount, h.bucketCounts.get i < 2^64

/-- The samples are counted in their buckets, and nothing else has changed. -/
structure Gains (old : Histogram) (samples : List ℕ) (h : Histogram) : Prop where
  bounds : h.bounds = old.bounds
  count : h.sampleCount = (old.sampleCount+samples.length)%2^64
  sum : h.sampleSum = (old.sampleSum+samples.sum)%2^64
  bucket : ∀ i : Fin kMaxBucketCount, h.bucketCounts.get i =
    (old.bucketCounts.get i+samples.countP fun sample => old.bucketIndex sample = i)%2^64

theorem observe_get (h : Histogram) (sample : ℕ) (i : Fin kMaxBucketCount) :
    (h.observe sample).bucketCounts.get i =
      if h.bucketIndex sample = i then (h.bucketCounts.get i+1)%2^64 else h.bucketCounts.get i := by
  have hget : ∀ (v : Vector ℕ kMaxBucketCount) (k : Fin kMaxBucketCount), v.get k = v[k.val] :=
    fun _ _ => rfl
  simp only [observe,hget,Vector.getElem_set,bucket]
  split_ifs with hi
  · simp only [hi]
  · rfl

theorem Gains.nil {h : Histogram} (hwords : h.Words) : h.Gains [] h := by
  refine ⟨rfl,?_,?_,fun i => ?_⟩
  · exact (Nat.mod_eq_of_lt hwords.count).symm
  · exact (Nat.mod_eq_of_lt hwords.sum).symm
  · exact (Nat.mod_eq_of_lt (hwords.bucket i)).symm

theorem Gains.concat {old h : Histogram} {samples : List ℕ} (hgains : old.Gains samples h)
    (sample : ℕ) : old.Gains (samples++[sample]) (h.observe sample) := by
  refine ⟨hgains.bounds,?_,?_,fun i => ?_⟩
  · rw [List.length_append,List.length_singleton,← Nat.add_assoc]
    exact (congrArg (fun n => (n+1)%2^64) hgains.count).trans (Nat.mod_add_mod ..)
  · rw [List.sum_append,List.sum_singleton,← Nat.add_assoc]
    exact (congrArg (fun n => (n+sample)%2^64) hgains.sum).trans (Nat.mod_add_mod ..)
  · have hindex : h.bucketIndex sample = old.bucketIndex sample := by
      rw [bucketIndex,bucketIndex,hgains.bounds]
    rw [observe_get,hindex,List.countP_append,List.countP_singleton,← Nat.add_assoc]
    split_ifs with hi hi' hi'
    · rw [hgains.bucket i,Nat.mod_add_mod]
    · simp [hi] at hi'
    · simp [hi] at hi'
    · exact hgains.bucket i

theorem Words.observed {h : Histogram} (hwords : h.Words) (sample : ℕ) : (h.observe sample).Words := by
  refine ⟨Nat.mod_lt _ (by decide),Nat.mod_lt _ (by decide),fun i => ?_⟩
  rw [observe_get]
  split_ifs
  · exact Nat.mod_lt _ (by decide)
  · exact hwords.bucket i

theorem Words.foldl_observe {h : Histogram} (hwords : h.Words) (samples : List ℕ) :
    (samples.foldl observe h).Words ∧ h.Gains samples (samples.foldl observe h) := by
  induction samples using List.reverseRecOn with
  | nil => exact ⟨hwords,.nil hwords⟩
  | append_singleton samples sample ih =>
    obtain ⟨hlast,hgains⟩ := ih
    rw [List.foldl_append]
    exact ⟨hlast.observed sample,hgains.concat sample⟩

def blank : Histogram := ⟨Vector.replicate _ 0,0,Vector.replicate _ 0,0,0,Nat.zero_le _⟩

end Histogram

/-- The vectors of a registry with the addresses of its metrics, and what stands at them. -/
structure MetricsHeap where
  counters : List (Bytes × ℕ)
  gauges : List (Bytes × ℕ)
  histograms : List (Bytes × ℕ)
  counterAt : ℕ → Counter
  gaugeAt : ℕ → Gauge
  histogramAt : ℕ → Histogram
  next : ℕ

namespace MetricsHeap

def empty : MetricsHeap := ⟨[],[],[],fun _ => ⟨0⟩,fun _ => .zero,fun _ => .blank,0⟩

def registry (s : MetricsHeap) : MetricsRegistry where
  counters := s.counters.map fun entry => (entry.1,s.counterAt entry.2)
  gauges := s.gauges.map fun entry => (entry.1,s.gaugeAt entry.2)
  histograms := s.histograms.map fun entry => (entry.1,s.histogramAt entry.2)

def allocateCounter (metric : Counter) : Action Failure MetricsHeap ℕ := fun s =>
  .ok s.next { s with counterAt := Function.update s.counterAt s.next metric, next := s.next+1 }

def allocateGauge (metric : Gauge) : Action Failure MetricsHeap ℕ := fun s =>
  .ok s.next { s with gaugeAt := Function.update s.gaugeAt s.next metric, next := s.next+1 }

def allocateHistogram (metric : Histogram) : Action Failure MetricsHeap ℕ := fun s =>
  .ok s.next { s with histogramAt := Function.update s.histogramAt s.next metric, next := s.next+1 }

def addCounter (name : Bytes) : Action Failure MetricsHeap ℕ := do
  Action.check fun s => s.registry.validateNewName name
  let metric ← allocateCounter ⟨0⟩
  modify fun s => { s with counters := s.counters++[(name,metric)] }
  return metric

def addGauge (name : Bytes) : Action Failure MetricsHeap ℕ := do
  Action.check fun s => s.registry.validateNewName name
  let metric ← allocateGauge .zero
  modify fun s => { s with gauges := s.gauges++[(name,metric)] }
  return metric

def addHistogram (name : Bytes) (upperBounds : List ℕ) : Action Failure MetricsHeap ℕ := do
  Action.check fun s => s.registry.validateNewName name
  let value ← Action.check fun _ => Histogram.create upperBounds
  let metric ← allocateHistogram value
  modify fun s => { s with histograms := s.histograms++[(name,metric)] }
  return metric

def findCounter (s : MetricsHeap) (name : Bytes) : Option ℕ :=
  (s.counters.find? fun entry => entry.1 = name).map Prod.snd

def findGauge (s : MetricsHeap) (name : Bytes) : Option ℕ :=
  (s.gauges.find? fun entry => entry.1 = name).map Prod.snd

def findHistogram (s : MetricsHeap) (name : Bytes) : Option ℕ :=
  (s.histograms.find? fun entry => entry.1 = name).map Prod.snd

end MetricsHeap

/-- What can be registered. -/
inductive MetricKind
  | counter
  | gauge
  | histogram (upperBounds : List ℕ)
  deriving DecidableEq, Repr

/-- What the holder of a reference does with the metric. -/
inductive MetricUpdate
  | count (amount : ℕ)
  | set (value : ℤ)
  | increment
  | decrement
  | observe (sample : ℕ)
  deriving DecidableEq, Repr

namespace MetricsHeap

def add (kind : MetricKind) (name : Bytes) : Action Failure MetricsHeap ℕ :=
  match kind with
  | .counter => addCounter name
  | .gauge => addGauge name
  | .histogram upperBounds => addHistogram name upperBounds

def update (s : MetricsHeap) (metric : ℕ) : MetricUpdate → MetricsHeap
  | .count amount => { s with
      counterAt := Function.update s.counterAt metric ((s.counterAt metric).increment amount) }
  | .set value => { s with
      gaugeAt := Function.update s.gaugeAt metric ((s.gaugeAt metric).set value) }
  | .increment => { s with
      gaugeAt := Function.update s.gaugeAt metric (s.gaugeAt metric).increment }
  | .decrement => { s with
      gaugeAt := Function.update s.gaugeAt metric (s.gaugeAt metric).decrement }
  | .observe sample => { s with
      histogramAt := Function.update s.histogramAt metric ((s.histogramAt metric).observe sample) }

end MetricsHeap

/-- A call of a registry, or of a metric. -/
inductive RegistryCall
  | add (kind : MetricKind) (name : Bytes)
  | update (metric : ℕ) (action : MetricUpdate)
  deriving DecidableEq, Repr

namespace MetricsHeap

/-- What a call leaves, also when it throws. -/
def perform (s : MetricsHeap) : RegistryCall → MetricsHeap
  | .add kind name => (add kind name).after s
  | .update metric action => s.update metric action

def performAll (s : MetricsHeap) (calls : List RegistryCall) : MetricsHeap := calls.foldl perform s

end MetricsHeap

def Histogram.Accepts (upperBounds : List ℕ) : Prop :=
  upperBounds ≠ [] ∧ upperBounds.length ≤ kMaxFiniteBuckets ∧ upperBounds.IsChain (· < ·)

theorem Histogram.create_iff {upperBounds : List ℕ} :
    (∃ value, create upperBounds = .ok value) ↔ Accepts upperBounds := by
  unfold create Accepts
  split_ifs with hempty hlong hchain
  · simp [hempty]
  · simp [hlong]
  · simp [hempty,hchain,Nat.le_of_not_gt hlong]
  · simp [hchain]

def MetricKind.Accepts : MetricKind → Prop
  | .counter => True
  | .gauge => True
  | .histogram upperBounds => Histogram.Accepts upperBounds

namespace MetricsHeap

/-- The new object is at the next address, and its name at the end of its vector. -/
inductive Adds (s : MetricsHeap) (name : Bytes) : MetricKind → MetricsHeap → Prop
  | counter : Adds s name .counter { s with
      counters := s.counters++[(name,s.next)]
      counterAt := Function.update s.counterAt s.next ⟨0⟩
      next := s.next+1 }
  | gauge : Adds s name .gauge { s with
      gauges := s.gauges++[(name,s.next)]
      gaugeAt := Function.update s.gaugeAt s.next .zero
      next := s.next+1 }
  | histogram {upperBounds : List ℕ} {value : Histogram}
      (hcreate : Histogram.create upperBounds = .ok value) :
      Adds s name (.histogram upperBounds) { s with
        histograms := s.histograms++[(name,s.next)]
        histogramAt := Function.update s.histogramAt s.next value
        next := s.next+1 }

variable {s s' : MetricsHeap} {kind : MetricKind} {name : Bytes} {metric : ℕ}

theorem add_ok : add kind name s = .ok metric s' ↔
    s.registry.validateNewName name = .ok () ∧ metric = s.next ∧ Adds s name kind s' := by
  constructor
  · intro h
    cases kind with
    | counter =>
      obtain ⟨_,t,hcheck,hrest⟩ := Action.bind_ok.mp h
      obtain ⟨hvalid,rfl⟩ := Action.check_ok.mp hcheck
      obtain ⟨rfl,rfl⟩ := EStateM.Result.ok.inj hrest
      exact ⟨hvalid,rfl,.counter⟩
    | gauge =>
      obtain ⟨_,t,hcheck,hrest⟩ := Action.bind_ok.mp h
      obtain ⟨hvalid,rfl⟩ := Action.check_ok.mp hcheck
      obtain ⟨rfl,rfl⟩ := EStateM.Result.ok.inj hrest
      exact ⟨hvalid,rfl,.gauge⟩
    | histogram upperBounds =>
      obtain ⟨_,t,hcheck,hrest⟩ := Action.bind_ok.mp h
      obtain ⟨hvalid,rfl⟩ := Action.check_ok.mp hcheck
      obtain ⟨value,u,hconstruct,hdone⟩ := Action.bind_ok.mp hrest
      obtain ⟨hcreate,rfl⟩ := Action.check_ok.mp hconstruct
      obtain ⟨rfl,rfl⟩ := EStateM.Result.ok.inj hdone
      exact ⟨hvalid,rfl,.histogram hcreate⟩
  · rintro ⟨hvalid,rfl,hadds⟩
    have hcheck : Action.check (fun u : MetricsHeap => u.registry.validateNewName name) s =
        .ok () s := Action.check_ok.mpr ⟨hvalid,rfl⟩
    cases hadds with
    | counter => exact Action.bind_ok.mpr ⟨(),s,hcheck,rfl⟩
    | gauge => exact Action.bind_ok.mpr ⟨(),s,hcheck,rfl⟩
    | histogram hcreate =>
      exact Action.bind_ok.mpr ⟨(),s,hcheck,
        Action.bind_ok.mpr ⟨_,s,Action.check_ok.mpr ⟨hcreate,rfl⟩,rfl⟩⟩

theorem add_atomic (kind : MetricKind) (name : Bytes) : (add kind name).Atomic := by
  cases kind with
  | counter =>
    refine .bind (.check _) (.check _) fun _ => ?_
    intro s e s' h
    cases h
  | gauge =>
    refine .bind (.check _) (.check _) fun _ => ?_
    intro s e s' h
    cases h
  | histogram upperBounds =>
    refine .bind (.check _) (.check _) fun _ => .bind (.check _) (.check _) fun value => ?_
    intro s e s' h
    cases h

theorem add_returns_iff : (∃ metric s', add kind name s = .ok metric s') ↔
    s.registry.validateNewName name = .ok () ∧ kind.Accepts := by
  constructor
  · rintro ⟨metric,s',h⟩
    obtain ⟨hvalid,-,hadds⟩ := add_ok.mp h
    refine ⟨hvalid,?_⟩
    cases hadds with
    | counter | gauge => trivial
    | histogram hcreate => exact Histogram.create_iff.mp ⟨_,hcreate⟩
  · rintro ⟨hvalid,haccepts⟩
    cases kind with
    | counter => exact ⟨_,_,add_ok.mpr ⟨hvalid,rfl,.counter⟩⟩
    | gauge => exact ⟨_,_,add_ok.mpr ⟨hvalid,rfl,.gauge⟩⟩
    | histogram upperBounds =>
      obtain ⟨value,hcreate⟩ := Histogram.create_iff.mpr haccepts
      exact ⟨_,_,add_ok.mpr ⟨hvalid,rfl,.histogram hcreate⟩⟩

theorem map_update_fresh {β : Type} {entries : List (Bytes × ℕ)} {n : ℕ}
    (h : ∀ entry ∈ entries, entry.2 < n) (f : ℕ → β) (value : β) :
    (entries.map fun entry => (entry.1,Function.update f n value entry.2)) =
      entries.map fun entry => (entry.1,f entry.2) := by
  refine List.map_congr_left fun entry hentry => ?_
  rw [Function.update_of_ne (Nat.ne_of_lt (h entry hentry))]

theorem registry_names (s : MetricsHeap) : s.registry.names =
    s.counters.map Prod.fst++s.gauges.map Prod.fst++s.histograms.map Prod.fst := by
  simp only [MetricsRegistry.names,registry,List.map_map]
  rfl

/-- Every metric has been allocated, and no two histograms share an address. -/
structure WellFormed (s : MetricsHeap) : Prop where
  counters_lt : ∀ entry ∈ s.counters, entry.2 < s.next
  gauges_lt : ∀ entry ∈ s.gauges, entry.2 < s.next
  histograms_lt : ∀ entry ∈ s.histograms, entry.2 < s.next
  histograms_nodup : (s.histograms.map Prod.snd).Nodup
  registered : s.registry.Registered

theorem wellFormed_empty : empty.WellFormed :=
  ⟨by simp [empty],by simp [empty],by simp [empty],.nil,MetricsRegistry.registered_empty⟩

end MetricsHeap

def MetricKind.addTo (kind : MetricKind) (r : MetricsRegistry) (name : Bytes) :
    Except Failure MetricsRegistry :=
  match kind with
  | .counter => r.addCounter name
  | .gauge => r.addGauge name
  | .histogram upperBounds => r.addHistogram name upperBounds

namespace MetricsHeap

variable {s s' : MetricsHeap} {kind : MetricKind} {name : Bytes} {metric : ℕ}

def observed (result : EStateM.Result Failure MetricsHeap ℕ) : Except Failure MetricsRegistry :=
  match result with
  | .ok _ s' => .ok s'.registry
  | .error failure _ => .error failure

theorem Adds.registry (h : s.WellFormed) (hadds : Adds s name kind s') :
    (s.registry.validateNewName name = .ok () → kind.addTo s.registry name = .ok s'.registry) := by
  intro hvalid
  cases hadds with
  | counter =>
    have hold := map_update_fresh h.counters_lt s.counterAt ⟨0⟩
    simp only [MetricKind.addTo,MetricsRegistry.addCounter,hvalid]
    simp only [MetricsHeap.registry,List.map_append,List.map_cons,List.map_nil,
      Function.update_self,hold]
    rfl
  | gauge =>
    have hold := map_update_fresh h.gauges_lt s.gaugeAt .zero
    simp only [MetricKind.addTo,MetricsRegistry.addGauge,hvalid]
    simp only [MetricsHeap.registry,List.map_append,List.map_cons,List.map_nil,
      Function.update_self,hold]
    rfl
  | @histogram upperBounds value hcreate =>
    have hold := map_update_fresh h.histograms_lt s.histogramAt value
    simp only [MetricKind.addTo,MetricsRegistry.addHistogram,hvalid,hcreate]
    simp only [MetricsHeap.registry,List.map_append,List.map_cons,List.map_nil,
      Function.update_self,hold]
    rfl

/-- The addition to the heap is the addition to the registry of its values. -/
theorem observed_add (h : s.WellFormed) : observed (add kind name s) = kind.addTo s.registry name := by
  by_cases hreturns : ∃ metric s', add kind name s = .ok metric s'
  · obtain ⟨metric,s',hadd⟩ := hreturns
    obtain ⟨hvalid,-,hadds⟩ := add_ok.mp hadd
    rw [hadd,hadds.registry h hvalid]
    rfl
  · cases hvalid : s.registry.validateNewName name with
    | error failure =>
      have hthrows : add kind name s = .error failure s := by
        cases kind <;> exact Action.bind_error.mpr (.inl (Action.check_error.mpr ⟨hvalid,rfl⟩))
      rw [hthrows]
      cases kind <;> simp only [MetricKind.addTo,MetricsRegistry.addCounter,
        MetricsRegistry.addGauge,MetricsRegistry.addHistogram,hvalid] <;> rfl
    | ok =>
      cases kind with
      | counter => exact absurd ((@add_returns_iff s .counter name).mpr ⟨hvalid,trivial⟩) hreturns
      | gauge => exact absurd ((@add_returns_iff s .gauge name).mpr ⟨hvalid,trivial⟩) hreturns
      | histogram upperBounds =>
        cases hcreate : Histogram.create upperBounds with
        | ok value =>
          exact absurd ⟨_,_,add_ok.mpr ⟨hvalid,rfl,.histogram hcreate⟩⟩ hreturns
        | error failure =>
          have hthrows : add (.histogram upperBounds) name s = .error failure s :=
            Action.bind_error.mpr (.inr ⟨(),s,Action.check_ok.mpr ⟨hvalid,rfl⟩,
              Action.bind_error.mpr (.inl (Action.check_error.mpr ⟨hcreate,rfl⟩))⟩)
          rw [hthrows]
          simp only [MetricKind.addTo,MetricsRegistry.addHistogram,hvalid,hcreate]
          rfl

theorem Adds.wellFormed (h : s.WellFormed) (hvalid : s.registry.validateNewName name = .ok ())
    (hadds : Adds s name kind s') : s'.WellFormed := by
  have hregistry := hadds.registry h hvalid
  have hold : ∀ entries : List (Bytes × ℕ), (∀ entry ∈ entries, entry.2 < s.next) →
      ∀ entry ∈ entries, entry.2 < s.next+1 :=
    fun _ hlt entry hentry => Nat.lt_succ_of_lt (hlt entry hentry)
  have hnew : ∀ entries : List (Bytes × ℕ), (∀ entry ∈ entries, entry.2 < s.next) →
      ∀ entry ∈ entries++[(name,s.next)], entry.2 < s.next+1 := by
    intro entries hlt entry hentry
    obtain hbefore | hlast := List.mem_append.mp hentry
    · exact hold entries hlt entry hbefore
    · rw [List.mem_singleton.mp hlast]
      exact Nat.lt_succ_self _
  cases hadds with
  | counter =>
    exact ⟨hnew _ h.counters_lt,hold _ h.gauges_lt,hold _ h.histograms_lt,h.histograms_nodup,
      h.registered.addCounter hregistry⟩
  | gauge =>
    exact ⟨hold _ h.counters_lt,hnew _ h.gauges_lt,hold _ h.histograms_lt,h.histograms_nodup,
      h.registered.addGauge hregistry⟩
  | histogram hcreate =>
    refine ⟨hold _ h.counters_lt,hold _ h.gauges_lt,hnew _ h.histograms_lt,?_,
      h.registered.addHistogram hregistry⟩
    rw [List.map_append,List.nodup_append]
    refine ⟨h.histograms_nodup,by simp,fun metric hmetric other hother => ?_⟩
    obtain ⟨entry,hentry,rfl⟩ := List.mem_map.mp hmetric
    obtain rfl : other = s.next := by simpa using hother
    exact Nat.ne_of_lt (h.histograms_lt entry hentry)

theorem add_wellFormed (h : s.WellFormed) (kind : MetricKind) (name : Bytes) :
    ((add kind name).after s).WellFormed := by
  obtain ⟨metric,hreturned⟩ | ⟨failure,hthrown⟩ := Action.cases_on (add kind name) s
  · obtain ⟨hvalid,-,hadds⟩ := add_ok.mp hreturned
    exact hadds.wellFormed h hvalid
  · rw [add_atomic kind name hthrown]
    exact h

theorem update_names (s : MetricsHeap) (metric : ℕ) (action : MetricUpdate) :
    (s.update metric action).registry.names = s.registry.names := by
  cases action <;> simp only [update,registry,MetricsRegistry.names,List.map_map] <;> rfl

theorem update_wellFormed (h : s.WellFormed) (metric : ℕ) (action : MetricUpdate) :
    (s.update metric action).WellFormed := by
  have hregistered : (s.update metric action).registry.Registered := by
    refine ⟨?_,?_,?_⟩
    · rw [update_names]
      exact h.registered.nodup
    · rw [update_names]
      exact h.registered.accepted
    · rw [MetricsRegistry.size_eq,update_names,← MetricsRegistry.size_eq]
      exact h.registered.size_le
  cases action <;>
    exact ⟨h.counters_lt,h.gauges_lt,h.histograms_lt,h.histograms_nodup,hregistered⟩

theorem perform_wellFormed (h : s.WellFormed) (call : RegistryCall) : (s.perform call).WellFormed := by
  cases call with
  | add kind name => exact add_wellFormed h kind name
  | update metric action => exact update_wellFormed h metric action

theorem performAll_wellFormed (h : s.WellFormed) (calls : List RegistryCall) :
    (s.performAll calls).WellFormed := by
  induction calls generalizing s with
  | nil => exact h
  | cons call calls ih => exact ih (perform_wellFormed h call)

end MetricsHeap

end AsyncDataLoader
