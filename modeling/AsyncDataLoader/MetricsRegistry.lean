import AsyncDataLoader.FileIO
import AsyncDataLoader.Gauge

/-!
# The metrics registry

Named counters, gauges and histograms, and the copy of them that the reports print.
-/

namespace AsyncDataLoader

open FileIO

def ascii (text : String) : Bytes := text.toUTF8.data.toList

def kMaxFiniteBuckets : ℕ := 32

def kMaxBucketCount : ℕ := kMaxFiniteBuckets+1

/-- Only the first `finiteBucketCount` bounds are in use, and one bucket more. -/
structure Histogram where
  upperBounds : Vector ℕ kMaxFiniteBuckets
  finiteBucketCount : ℕ
  bucketCounts : Vector ℕ kMaxBucketCount
  sampleCount : ℕ
  sampleSum : ℕ
  finiteBucketCount_le : finiteBucketCount ≤ kMaxFiniteBuckets

structure HistogramData where
  sampleCount : ℕ
  sampleSum : ℕ
  bucketCount : ℕ
  bucketCounts : Vector ℕ kMaxBucketCount

namespace Histogram

/-- A fixed array that begins with the values, and is zero after them. -/
def filled (capacity : ℕ) (values : List ℕ) : Vector ℕ capacity :=
  Vector.ofFn fun i => values.getD i 0

theorem filled_take {capacity : ℕ} {values : List ℕ} (h : values.length ≤ capacity) :
    (filled capacity values).toList.take values.length = values := by
  apply List.ext_getElem
  · simp [h]
  · intro i hi hj
    simp [filled,hj]

def create (upperBounds : List ℕ) : Except Failure Histogram :=
  if upperBounds = [] then
    .error (.invalidArgument "Histogram requires at least one finite bucket")
  else if hlen : upperBounds.length > kMaxFiniteBuckets then
    .error (.invalidArgument "Histogram finite bucket count exceeds the fixed limit")
  else if ¬ upperBounds.IsChain (· < ·) then
    .error (.invalidArgument "Histogram upper bounds must be strictly increasing")
  else .ok ⟨filled _ upperBounds,upperBounds.length,Vector.replicate _ 0,0,0,Nat.le_of_not_gt hlen⟩

def bounds (h : Histogram) : List ℕ := h.upperBounds.toList.take h.finiteBucketCount

theorem bounds_length (h : Histogram) : h.bounds.length = h.finiteBucketCount := by
  simp [bounds,h.finiteBucketCount_le]

def snapshot (h : Histogram) : HistogramData :=
  ⟨h.sampleCount,h.sampleSum,h.finiteBucketCount+1,
    filled _ (h.bucketCounts.toList.take (h.finiteBucketCount+1))⟩

theorem create_bounds {upperBounds : List ℕ} {h : Histogram} (hcreate : create upperBounds = .ok h) :
    h.bounds = upperBounds := by
  unfold create at hcreate
  split_ifs at hcreate with hempty hlen hchain
  obtain rfl := Except.ok.inj hcreate
  exact filled_take (Nat.le_of_not_gt hlen)

end Histogram

structure CounterSnapshot where
  name : Bytes
  value : ℕ

structure GaugeSnapshot where
  name : Bytes
  value : ℤ
  highWatermark : ℤ

structure HistogramSnapshot where
  name : Bytes
  upperBoundCount : ℕ
  upperBounds : Vector ℕ kMaxFiniteBuckets
  data : HistogramData
  upperBoundCount_le : upperBoundCount ≤ kMaxFiniteBuckets
  bucketCount_eq : data.bucketCount = upperBoundCount+1

namespace HistogramSnapshot

def bounds (h : HistogramSnapshot) : List ℕ := h.upperBounds.toList.take h.upperBoundCount

def buckets (h : HistogramSnapshot) : List ℕ := h.data.bucketCounts.toList.take h.data.bucketCount

theorem bounds_length (h : HistogramSnapshot) : h.bounds.length = h.upperBoundCount := by
  simp [bounds,h.upperBoundCount_le]

theorem buckets_length (h : HistogramSnapshot) : h.buckets.length = h.upperBoundCount+1 := by
  rw [buckets,List.length_take,Vector.length_toList,h.bucketCount_eq]
  exact Nat.min_eq_left (Nat.succ_le_succ h.upperBoundCount_le)

end HistogramSnapshot

structure Snapshot where
  counters : List CounterSnapshot
  gauges : List GaugeSnapshot
  histograms : List HistogramSnapshot

structure MetricsRegistry where
  counters : List (Bytes × Counter)
  gauges : List (Bytes × Gauge)
  histograms : List (Bytes × Histogram)

namespace MetricsRegistry

def kMaxMetricCount : ℕ := 64

def kMaxMetricNameLength : ℕ := 128

def empty : MetricsRegistry := ⟨[],[],[]⟩

variable (r : MetricsRegistry)

def names : List Bytes := r.counters.map Prod.fst++r.gauges.map Prod.fst++r.histograms.map Prod.fst

def findCounter (name : Bytes) : Option Counter :=
  (r.counters.find? fun entry => entry.1 = name).map Prod.snd

def findGauge (name : Bytes) : Option Gauge :=
  (r.gauges.find? fun entry => entry.1 = name).map Prod.snd

def findHistogram (name : Bytes) : Option Histogram :=
  (r.histograms.find? fun entry => entry.1 = name).map Prod.snd

def size : ℕ := r.counters.length+r.gauges.length+r.histograms.length

def containsName (name : Bytes) : Bool :=
  r.counters.any (fun entry => entry.1 = name) || r.gauges.any (fun entry => entry.1 = name) ||
    r.histograms.any (fun entry => entry.1 = name)

def validateNewName (name : Bytes) : Except Failure Unit :=
  if name = [] then .error (.invalidArgument "metric name must not be empty")
  else if name.length > kMaxMetricNameLength then
    .error (.lengthError "metric name exceeds the fixed length limit")
  else if r.containsName name then
    .error (.invalidArgument "metric name is already registered")
  else if r.size ≥ kMaxMetricCount then .error (.lengthError "metrics registry is full")
  else .ok ()

def addCounter (name : Bytes) : Except Failure MetricsRegistry := do
  r.validateNewName name
  return { r with counters := r.counters++[(name,⟨0⟩)] }

def addGauge (name : Bytes) : Except Failure MetricsRegistry := do
  r.validateNewName name
  return { r with gauges := r.gauges++[(name,Gauge.zero)] }

def addHistogram (name : Bytes) (upperBounds : List ℕ) : Except Failure MetricsRegistry := do
  r.validateNewName name
  let metric ← Histogram.create upperBounds
  return { r with histograms := r.histograms++[(name,metric)] }

def counterSnapshot (entry : Bytes × Counter) : CounterSnapshot := ⟨entry.1,entry.2.value⟩

def gaugeSnapshot (entry : Bytes × Gauge) : GaugeSnapshot :=
  ⟨entry.1,entry.2.current,entry.2.highWatermark⟩

def histogramSnapshot (entry : Bytes × Histogram) : HistogramSnapshot where
  name := entry.1
  upperBoundCount := entry.2.bounds.length
  upperBounds := Histogram.filled _ entry.2.bounds
  data := entry.2.snapshot
  upperBoundCount_le := by rw [Histogram.bounds_length]; exact entry.2.finiteBucketCount_le
  bucketCount_eq := by rw [Histogram.bounds_length]; rfl

theorem histogramSnapshot_bounds (entry : Bytes × Histogram) :
    (histogramSnapshot entry).bounds = entry.2.bounds :=
  Histogram.filled_take (by rw [Histogram.bounds_length]; exact entry.2.finiteBucketCount_le)

theorem histogramSnapshot_buckets (entry : Bytes × Histogram) :
    (histogramSnapshot entry).buckets =
      entry.2.bucketCounts.toList.take (entry.2.finiteBucketCount+1) := by
  have hle := Nat.succ_le_succ entry.2.finiteBucketCount_le
  have hlen : (entry.2.bucketCounts.toList.take (entry.2.finiteBucketCount+1)).length =
      entry.2.finiteBucketCount+1 := by
    rw [List.length_take,Vector.length_toList]
    exact Nat.min_eq_left hle
  have hfilled := Histogram.filled_take (hlen.le.trans hle)
  rw [hlen] at hfilled
  exact hfilled

def snapshot : Snapshot :=
  ⟨r.counters.map counterSnapshot,r.gauges.map gaugeSnapshot,r.histograms.map histogramSnapshot⟩

@[simp] theorem containsName_iff {name : Bytes} : r.containsName name = true ↔ name ∈ r.names := by
  simp only [containsName,names,Bool.or_eq_true,List.any_eq_true,decide_eq_true_eq,List.mem_append,
    List.mem_map]

theorem size_eq : r.size = r.names.length := by
  simp only [size,names,List.length_append,List.length_map]

variable {r}

theorem validateNewName_eq_ok {name : Bytes} : r.validateNewName name = .ok () ↔
    name ≠ [] ∧ name.length ≤ kMaxMetricNameLength ∧ name ∉ r.names ∧ r.size < kMaxMetricCount := by
  unfold validateNewName
  split_ifs with hempty hlong hcontains hfull
  · simp [hempty]
  · simp [hlong]
  · simp [containsName_iff r |>.mp hcontains]
  · simp [hfull]
  · rw [containsName_iff] at hcontains
    simp [hempty,hcontains,Nat.le_of_not_gt hlong,Nat.lt_of_not_ge hfull]

/-- What holds of a registry after any registrations. -/
structure Registered (r : MetricsRegistry) : Prop where
  nodup : r.names.Nodup
  accepted : ∀ name ∈ r.names, name ≠ [] ∧ name.length ≤ kMaxMetricNameLength
  size_le : r.size ≤ kMaxMetricCount

theorem registered_empty : empty.Registered := ⟨.nil,by simp [empty,names],by decide⟩

theorem Registered.extend (h : r.Registered) {r' : MetricsRegistry} {name : Bytes}
    (hvalid : r.validateNewName name = .ok ()) (hnames : r'.names.Perm (name::r.names)) :
    r'.Registered := by
  obtain ⟨hne,hlen,hnew,hroom⟩ := validateNewName_eq_ok.mp hvalid
  refine ⟨hnames.nodup_iff.mpr (List.nodup_cons.mpr ⟨hnew,h.nodup⟩),fun other hother => ?_,?_⟩
  · obtain rfl | hold := List.mem_cons.mp (hnames.mem_iff.mp hother)
    · exact ⟨hne,hlen⟩
    · exact h.accepted other hold
  · rw [size_eq,hnames.length_eq,List.length_cons,← size_eq]
    exact hroom

theorem addCounter_eq_ok {r' : MetricsRegistry} {name : Bytes} (h : r.addCounter name = .ok r') :
    r.validateNewName name = .ok () ∧ r' = { r with counters := r.counters++[(name,⟨0⟩)] } := by
  unfold addCounter at h
  cases hvalid : r.validateNewName name with
  | error failure => rw [hvalid] at h; cases h
  | ok =>
    rw [hvalid] at h
    exact ⟨rfl,(Except.ok.inj h).symm⟩

theorem addGauge_eq_ok {r' : MetricsRegistry} {name : Bytes} (h : r.addGauge name = .ok r') :
    r.validateNewName name = .ok () ∧ r' = { r with gauges := r.gauges++[(name,Gauge.zero)] } := by
  unfold addGauge at h
  cases hvalid : r.validateNewName name with
  | error failure => rw [hvalid] at h; cases h
  | ok =>
    rw [hvalid] at h
    exact ⟨rfl,(Except.ok.inj h).symm⟩

theorem addHistogram_eq_ok {r' : MetricsRegistry} {name : Bytes} {upperBounds : List ℕ}
    (h : r.addHistogram name upperBounds = .ok r') :
    r.validateNewName name = .ok () ∧ ∃ metric, Histogram.create upperBounds = .ok metric ∧
      r' = { r with histograms := r.histograms++[(name,metric)] } := by
  unfold addHistogram at h
  cases hvalid : r.validateNewName name with
  | error failure => rw [hvalid] at h; cases h
  | ok =>
    rw [hvalid] at h
    cases hcreate : Histogram.create upperBounds with
    | error failure => rw [hcreate] at h; cases h
    | ok metric =>
      rw [hcreate] at h
      exact ⟨rfl,metric,rfl,(Except.ok.inj h).symm⟩

theorem Registered.addCounter (h : r.Registered) {r' : MetricsRegistry} {name : Bytes}
    (hadd : r.addCounter name = .ok r') : r'.Registered := by
  obtain ⟨hvalid,rfl⟩ := addCounter_eq_ok hadd
  refine h.extend hvalid ?_
  simp only [names,List.map_append,List.map_cons,List.map_nil,List.append_assoc]
  exact List.perm_middle

theorem Registered.addGauge (h : r.Registered) {r' : MetricsRegistry} {name : Bytes}
    (hadd : r.addGauge name = .ok r') : r'.Registered := by
  obtain ⟨hvalid,rfl⟩ := addGauge_eq_ok hadd
  refine h.extend hvalid ?_
  simp only [names,List.map_append,List.map_cons,List.map_nil]
  rw [← List.append_assoc,List.append_assoc (_++_) [name]]
  exact List.perm_middle

theorem Registered.addHistogram (h : r.Registered) {r' : MetricsRegistry} {name : Bytes}
    {upperBounds : List ℕ} (hadd : r.addHistogram name upperBounds = .ok r') : r'.Registered := by
  obtain ⟨hvalid,metric,-,rfl⟩ := addHistogram_eq_ok hadd
  refine h.extend hvalid ?_
  simp only [names,List.map_append,List.map_cons,List.map_nil,← List.append_assoc]
  exact List.perm_append_singleton _ _

end MetricsRegistry
end AsyncDataLoader
