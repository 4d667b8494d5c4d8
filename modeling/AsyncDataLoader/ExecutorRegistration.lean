import AsyncDataLoader.MetricsHeap
import AsyncDataLoader.StageMetrics
import AsyncDataLoader.PipelineConfig

/-!
# The metrics of an executor

An executor over a registry adds twelve metrics, one after the other. It checks before the first
that all of them will be accepted, since it takes none of them back.
-/

namespace AsyncDataLoader

open FileIO

/-- The references that an executor keeps, in the order of their names. -/
structure RuntimeReferences where
  counters : List ℕ
  gauges : List ℕ
  histograms : List ℕ
  deriving DecidableEq, Repr

namespace MetricsHeap

/-- What `PipelineExecutor::register_runtime_metrics` checks first. -/
def checkRuntimeMetrics (s : MetricsHeap) : Except Failure Unit :=
  if s.registry.size > MetricsRegistry.kMaxMetricCount-PipelineMetricNames.all.length then
    .error (.lengthError "MetricsRegistry has no room for pipeline runtime metrics")
  else if PipelineMetricNames.all.any fun name => (s.findCounter name).isSome ||
      (s.findGauge name).isSome || (s.findHistogram name).isSome then
    .error (.invalidArgument "pipeline runtime metric name is already registered")
  else .ok ()

def addRuntimeMetrics : Action Failure MetricsHeap RuntimeReferences := do
  let counters ← PipelineMetricNames.counters.mapM addCounter
  let gauges ← PipelineMetricNames.gauges.mapM addGauge
  let histograms ← PipelineMetricNames.histograms.mapM fun name =>
    addHistogram name kPipelineLatencyUpperBoundsNs
  return ⟨counters,gauges,histograms⟩

def registerRuntimeMetrics : Action Failure MetricsHeap RuntimeReferences := do
  Action.check checkRuntimeMetrics
  addRuntimeMetrics

end MetricsHeap

def PipelineExecutor.construct (config : PipelineConfig) :
    Action Failure MetricsHeap RuntimeReferences := do
  Action.check fun _ => config.validate
  MetricsHeap.registerRuntimeMetrics

namespace MetricsHeap

variable {s s' : MetricsHeap} {kind : MetricKind} {name : Bytes} {wanted rest : List Bytes}
  {metric : ℕ}

theorem Adds.names (hadds : Adds s name kind s') :
    s'.registry.names.Perm (name::s.registry.names) := by
  rw [registry_names,registry_names]
  cases hadds with
  | counter =>
    simp only [List.map_append,List.map_cons,List.map_nil,List.append_assoc]
    exact List.perm_middle
  | gauge =>
    simp only [List.map_append,List.map_cons,List.map_nil]
    rw [← List.append_assoc,List.append_assoc (_++_) [name]]
    exact List.perm_middle
  | histogram hcreate =>
    simp only [List.map_append,List.map_cons,List.map_nil,← List.append_assoc]
    exact List.perm_append_singleton _ _

theorem Adds.size (hadds : Adds s name kind s') : s'.registry.size = s.registry.size+1 := by
  rw [MetricsRegistry.size_eq,hadds.names.length_eq,List.length_cons,← MetricsRegistry.size_eq]

structure Room (s : MetricsHeap) (wanted : List Bytes) : Prop where
  nodup : wanted.Nodup
  accepted : ∀ name ∈ wanted, name ≠ [] ∧ name.length ≤ MetricsRegistry.kMaxMetricNameLength
  unused : ∀ name ∈ wanted, name ∉ s.registry.names
  room : s.registry.size+wanted.length ≤ MetricsRegistry.kMaxMetricCount

theorem Room.valid (h : s.Room (name::wanted)) : s.registry.validateNewName name = .ok () := by
  obtain ⟨hne,hlength⟩ := h.accepted name List.mem_cons_self
  have hroom := h.room
  rw [List.length_cons] at hroom
  exact MetricsRegistry.validateNewName_eq_ok.mpr
    ⟨hne,hlength,h.unused name List.mem_cons_self,by omega⟩

theorem Room.tail (h : s.Room (name::wanted)) (hadds : Adds s name kind s') : s'.Room wanted := by
  obtain ⟨hnew,hnodup⟩ := List.nodup_cons.mp h.nodup
  refine ⟨hnodup,fun other hother => h.accepted other (List.mem_cons_of_mem _ hother),
    fun other hother hused => ?_,?_⟩
  · rw [hadds.names.mem_iff] at hused
    obtain rfl | hold := List.mem_cons.mp hused
    · exact hnew hother
    · exact h.unused other (List.mem_cons_of_mem _ hother) hold
  · have hroom := h.room
    rw [List.length_cons] at hroom
    rw [hadds.size]
    omega

theorem Room.mapM (h : s.Room (wanted++rest)) (haccepts : kind.Accepts) :
    ∃ metrics s', wanted.mapM (add kind) s = .ok metrics s' ∧ s'.Room rest ∧
      (s.WellFormed → s'.WellFormed ∧
        wanted.foldlM kind.addTo s.registry = .ok s'.registry) := by
  induction wanted generalizing s with
  | nil => exact ⟨[],s,rfl,h,fun hs => ⟨hs,rfl⟩⟩
  | cons name wanted ih =>
    have hvalid := Room.valid h
    obtain ⟨metric,s₁,hadd⟩ := add_returns_iff.mpr ⟨hvalid,haccepts⟩
    obtain ⟨-,-,hadds⟩ := add_ok.mp hadd
    obtain ⟨metrics,s',hrest,hroom,hvalues⟩ := ih (Room.tail h hadds)
    refine ⟨metric::metrics,s',?_,hroom,fun hs => ?_⟩
    · rw [List.mapM_cons]
      exact Action.bind_ok.mpr ⟨metric,s₁,hadd,Action.bind_ok.mpr ⟨metrics,s',hrest,rfl⟩⟩
    · obtain ⟨hs',hfold⟩ := hvalues (hadds.wellFormed hs hvalid)
      refine ⟨hs',?_⟩
      rw [List.foldlM_cons,hadds.registry hs hvalid]
      exact hfold

theorem find_isSome {entries : List (Bytes × ℕ)} :
    ((entries.find? fun entry => entry.1 = name).map Prod.snd).isSome ↔
      name ∈ entries.map Prod.fst := by
  rw [Option.isSome_map,List.find?_isSome]
  simp only [List.mem_map,decide_eq_true_eq]

theorem runtimeNames_nodup : PipelineMetricNames.all.Nodup := by decide +kernel

theorem runtimeNames_accepted : ∀ name ∈ PipelineMetricNames.all,
    name ≠ [] ∧ name.length ≤ MetricsRegistry.kMaxMetricNameLength := by decide +kernel

theorem runtimeBounds_accepted : Histogram.Accepts kPipelineLatencyUpperBoundsNs := by
  refine ⟨?_,?_,?_⟩ <;> decide

theorem checkRuntimeMetrics_eq_ok : s.checkRuntimeMetrics = .ok () ↔
    s.registry.size ≤ 52 ∧ ∀ name ∈ PipelineMetricNames.all, name ∉ s.registry.names := by
  have hused : ∀ name, ((s.findCounter name).isSome || (s.findGauge name).isSome ||
      (s.findHistogram name).isSome) = true ↔ name ∈ s.registry.names := by
    intro name
    rw [registry_names,Bool.or_eq_true,Bool.or_eq_true,findCounter,find_isSome,findGauge,find_isSome,
      findHistogram,find_isSome,List.mem_append,List.mem_append]
  have hbound : MetricsRegistry.kMaxMetricCount-PipelineMetricNames.all.length = 52 := rfl
  unfold checkRuntimeMetrics
  rw [hbound]
  split_ifs with hfull hany
  · simp [Nat.not_le_of_gt hfull]
  · obtain ⟨name,hname,hfound⟩ := List.any_eq_true.mp hany
    simp only [false_iff]
    exact fun h => h.2 name hname ((hused name).mp hfound)
  · simp only [Nat.le_of_not_gt hfull,true_and,true_iff]
    exact fun name hname hmem => hany (List.any_eq_true.mpr ⟨name,hname,(hused name).mpr hmem⟩)

theorem Room.of_check (h : s.checkRuntimeMetrics = .ok ()) : s.Room PipelineMetricNames.all := by
  obtain ⟨hroom,hunused⟩ := checkRuntimeMetrics_eq_ok.mp h
  refine ⟨runtimeNames_nodup,runtimeNames_accepted,hunused,?_⟩
  have hlength : PipelineMetricNames.all.length = 12 := rfl
  rw [hlength]
  exact Nat.add_le_add_right hroom 12

theorem mapM_entries {metrics : List ℕ} (h : wanted.mapM (add kind) s = .ok metrics s') :
    match kind with
    | .counter => s'.counters = s.counters++wanted.zip metrics ∧ s'.gauges = s.gauges ∧
        s'.histograms = s.histograms
    | .gauge => s'.counters = s.counters ∧ s'.gauges = s.gauges++wanted.zip metrics ∧
        s'.histograms = s.histograms
    | .histogram _ => s'.counters = s.counters ∧ s'.gauges = s.gauges ∧
        s'.histograms = s.histograms++wanted.zip metrics := by
  induction wanted generalizing s metrics with
  | nil =>
    obtain ⟨rfl,rfl⟩ := EStateM.Result.ok.inj h
    cases kind <;> simp
  | cons name wanted ih =>
    rw [List.mapM_cons] at h
    obtain ⟨metric,s₁,hadd,hrest⟩ := Action.bind_ok.mp h
    obtain ⟨more,s₂,hmore,hdone⟩ := Action.bind_ok.mp hrest
    obtain ⟨rfl,rfl⟩ := EStateM.Result.ok.inj hdone
    obtain ⟨-,rfl,hadds⟩ := add_ok.mp hadd
    have htail := ih hmore
    cases hadds <;> simpa using htail

end MetricsHeap

namespace MetricsRegistry

variable {r r' : MetricsRegistry} {kind : MetricKind} {wanted : List Bytes}

theorem foldlM_addTo (h : wanted.foldlM kind.addTo r = .ok r') :
    match kind with
    | .counter => r' = { r with counters := r.counters++wanted.map fun name => (name,⟨0⟩) }
    | .gauge => r' = { r with gauges := r.gauges++wanted.map fun name => (name,.zero) }
    | .histogram upperBounds => ∀ value, Histogram.create upperBounds = .ok value →
        r' = { r with histograms := r.histograms++wanted.map fun name => (name,value) } := by
  induction wanted generalizing r with
  | nil =>
    obtain rfl := Except.ok.inj h
    cases kind <;> simp
  | cons name wanted ih =>
    obtain ⟨r₁,hadd,hrest⟩ := bind_eq_ok h
    have htail := ih hrest
    cases kind with
    | counter =>
      obtain ⟨-,rfl⟩ := addCounter_eq_ok hadd
      simpa using htail
    | gauge =>
      obtain ⟨-,rfl⟩ := addGauge_eq_ok hadd
      simpa using htail
    | histogram upperBounds =>
      obtain ⟨-,value,hcreate,rfl⟩ := addHistogram_eq_ok hadd
      intro other hother
      obtain rfl := Except.ok.inj (hcreate.symm.trans hother)
      simpa using htail value hcreate

end MetricsRegistry

namespace MetricsHeap

variable {s s' : MetricsHeap}

/-- A registry with the twelve metrics of an executor at the ends of its vectors, and its former
metrics as they were. -/
structure WithRuntimeMetrics (s : MetricsHeap) (references : RuntimeReferences)
    (s' : MetricsHeap) : Prop where
  counters : s'.counters = s.counters++PipelineMetricNames.counters.zip references.counters
  gauges : s'.gauges = s.gauges++PipelineMetricNames.gauges.zip references.gauges
  histograms : s'.histograms =
    s.histograms++PipelineMetricNames.histograms.zip references.histograms
  counterValues : s'.registry.counters =
    s.registry.counters++PipelineMetricNames.counters.map fun name => (name,⟨0⟩)
  gaugeValues : s'.registry.gauges =
    s.registry.gauges++PipelineMetricNames.gauges.map fun name => (name,.zero)
  histogramValues : ∃ value, Histogram.create kPipelineLatencyUpperBoundsNs = .ok value ∧
    s'.registry.histograms =
      s.registry.histograms++PipelineMetricNames.histograms.map fun name => (name,value)

theorem Room.addRuntimeMetrics (h : s.Room PipelineMetricNames.all) :
    ∃ references s', MetricsHeap.addRuntimeMetrics s = .ok references s' ∧
      (s.WellFormed → s'.WellFormed ∧ s.WithRuntimeMetrics references s') := by
  have hall : PipelineMetricNames.all = PipelineMetricNames.counters++
      (PipelineMetricNames.gauges++(PipelineMetricNames.histograms++[])) := rfl
  rw [hall] at h
  obtain ⟨counters,s₁,hcounters,hroom₁,hvalues₁⟩ := @Room.mapM s .counter _ _ h trivial
  obtain ⟨gauges,s₂,hgauges,hroom₂,hvalues₂⟩ := @Room.mapM s₁ .gauge _ _ hroom₁ trivial
  obtain ⟨histograms,s₃,hhistograms,-,hvalues₃⟩ :=
    @Room.mapM s₂ (.histogram kPipelineLatencyUpperBoundsNs) _ _ hroom₂ runtimeBounds_accepted
  refine ⟨⟨counters,gauges,histograms⟩,s₃,?_,fun hs => ?_⟩
  · exact Action.bind_ok.mpr ⟨counters,s₁,hcounters,Action.bind_ok.mpr ⟨gauges,s₂,hgauges,
      Action.bind_ok.mpr ⟨histograms,s₃,hhistograms,rfl⟩⟩⟩
  · obtain ⟨hs₁,hfold₁⟩ := hvalues₁ hs
    obtain ⟨hs₂,hfold₂⟩ := hvalues₂ hs₁
    obtain ⟨hs₃,hfold₃⟩ := hvalues₃ hs₂
    obtain ⟨value,hcreate⟩ := Histogram.create_iff.mpr runtimeBounds_accepted
    have hregistry₁ := MetricsRegistry.foldlM_addTo hfold₁
    have hregistry₂ := MetricsRegistry.foldlM_addTo hfold₂
    have hregistry₃ := MetricsRegistry.foldlM_addTo hfold₃ value hcreate
    obtain ⟨hc₁,hg₁,hh₁⟩ := mapM_entries hcounters
    obtain ⟨hc₂,hg₂,hh₂⟩ := mapM_entries hgauges
    obtain ⟨hc₃,hg₃,hh₃⟩ := mapM_entries hhistograms
    refine ⟨hs₃,⟨?_,?_,?_,?_,?_,value,hcreate,?_⟩⟩
    · rw [hc₃,hc₂,hc₁]
    · rw [hg₃,hg₂,hg₁]
    · rw [hh₃,hh₂,hh₁]
    · rw [hregistry₃,hregistry₂,hregistry₁]
    · rw [hregistry₃,hregistry₂,hregistry₁]
    · rw [hregistry₃,hregistry₂,hregistry₁]

end MetricsHeap

namespace PipelineExecutor

variable {config : PipelineConfig} {s s' : MetricsHeap}

theorem construct_error {failure : Failure} (h : construct config s = .error failure s') :
    s' = s ∧ (config.validate = .error failure ∨ config.validate = .ok () ∧
      s.checkRuntimeMetrics = .error failure) := by
  obtain hvalidate | ⟨_,t,hvalidate,hregister⟩ := Action.bind_error.mp h
  · obtain ⟨hinvalid,rfl⟩ := Action.check_error.mp hvalidate
    exact ⟨rfl,.inl hinvalid⟩
  obtain ⟨hvalid,rfl⟩ := Action.check_ok.mp hvalidate
  obtain hcheck | ⟨_,t,hcheck,hadd⟩ := Action.bind_error.mp hregister
  · obtain ⟨hused,rfl⟩ := Action.check_error.mp hcheck
    exact ⟨rfl,.inr ⟨hvalid,hused⟩⟩
  obtain ⟨hfree,rfl⟩ := Action.check_ok.mp hcheck
  obtain ⟨references,s₁,hreturns,-⟩ := (MetricsHeap.Room.of_check hfree).addRuntimeMetrics
  rw [hreturns] at hadd
  cases hadd

theorem construct_returns : (∃ references s', construct config s = .ok references s') ↔
    config.validate = .ok () ∧ s.checkRuntimeMetrics = .ok () := by
  constructor
  · rintro ⟨references,s',h⟩
    obtain ⟨_,t,hvalidate,hregister⟩ := Action.bind_ok.mp h
    obtain ⟨hvalid,rfl⟩ := Action.check_ok.mp hvalidate
    obtain ⟨_,u,hcheck,-⟩ := Action.bind_ok.mp hregister
    obtain ⟨hfree,rfl⟩ := Action.check_ok.mp hcheck
    exact ⟨hvalid,hfree⟩
  · rintro ⟨hvalid,hfree⟩
    obtain ⟨references,s₁,hreturns,-⟩ := (MetricsHeap.Room.of_check hfree).addRuntimeMetrics
    exact ⟨references,s₁,Action.bind_ok.mpr ⟨(),s,Action.check_ok.mpr ⟨hvalid,rfl⟩,
      Action.bind_ok.mpr ⟨(),s,Action.check_ok.mpr ⟨hfree,rfl⟩,hreturns⟩⟩⟩

theorem construct_ok (hs : s.WellFormed) {references : RuntimeReferences}
    (h : construct config s = .ok references s') :
    s'.WellFormed ∧ s.WithRuntimeMetrics references s' := by
  obtain ⟨_,t,hvalidate,hregister⟩ := Action.bind_ok.mp h
  obtain ⟨-,rfl⟩ := Action.check_ok.mp hvalidate
  obtain ⟨_,u,hcheck,hadd⟩ := Action.bind_ok.mp hregister
  obtain ⟨hfree,rfl⟩ := Action.check_ok.mp hcheck
  obtain ⟨others,s₁,hreturns,hadded⟩ := (MetricsHeap.Room.of_check hfree).addRuntimeMetrics
  obtain ⟨rfl,rfl⟩ := EStateM.Result.ok.inj (hadd.symm.trans hreturns)
  exact hadded hs

end PipelineExecutor

end AsyncDataLoader
