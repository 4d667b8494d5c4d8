import AsyncDataLoader.MetricsRegistry
import AsyncDataLoader.Numeral

/-!
# The metrics of a run

The names under which an executor and the stages of its pipeline register their metrics.
-/

namespace AsyncDataLoader

open FileIO

namespace PipelineMetricNames

def readBlocks : Bytes := ascii "pipeline.read.blocks"
def readBytes : Bytes := ascii "pipeline.read.bytes"
def processedBlocks : Bytes := ascii "pipeline.process.blocks"
def processedBytes : Bytes := ascii "pipeline.process.bytes"
def writtenBlocks : Bytes := ascii "pipeline.write.blocks"
def writtenBytes : Bytes := ascii "pipeline.write.bytes"
def inflightBuffers : Bytes := ascii "pipeline.buffer_pool.inflight"
def readProcessQueueDepth : Bytes := ascii "pipeline.queue.read_process.depth"
def processWriteQueueDepth : Bytes := ascii "pipeline.queue.process_write.depth"
def readLatencyNs : Bytes := ascii "pipeline.read.latency_ns"
def processLatencyNs : Bytes := ascii "pipeline.process.latency_ns"
def writeLatencyNs : Bytes := ascii "pipeline.write.latency_ns"

/-- In the order of their registration. -/
def counters : List Bytes :=
  [readBlocks,readBytes,processedBlocks,processedBytes,writtenBlocks,writtenBytes]

def gauges : List Bytes := [inflightBuffers,readProcessQueueDepth,processWriteQueueDepth]

def histograms : List Bytes := [readLatencyNs,processLatencyNs,writeLatencyNs]

def all : List Bytes := counters++gauges++histograms

end PipelineMetricNames

def kPipelineLatencyUpperBoundsNs : List ℕ :=
  [1000,10000,100000,1000000,10000000,100000000,1000000000]

def kStageLatencyUpperBoundsNs : List ℕ :=
  [1000,10000,100000,1000000,10000000,100000000,1000000000]

def registerRuntimeMetrics (r : MetricsRegistry) : Except Failure MetricsRegistry :=
  if r.size > MetricsRegistry.kMaxMetricCount-PipelineMetricNames.all.length then
    .error (.lengthError "MetricsRegistry has no room for pipeline runtime metrics")
  else if PipelineMetricNames.all.any fun name => (r.findCounter name).isSome ||
      (r.findGauge name).isSome || (r.findHistogram name).isSome then
    .error (.invalidArgument "pipeline runtime metric name is already registered")
  else do
    let r ← PipelineMetricNames.counters.foldlM MetricsRegistry.addCounter r
    let r ← PipelineMetricNames.gauges.foldlM MetricsRegistry.addGauge r
    PipelineMetricNames.histograms.foldlM
      (fun r name => r.addHistogram name kPipelineLatencyUpperBoundsNs) r

def makeStageLatencyMetricName (stageIndex : ℕ) (stageName : Bytes) : Bytes :=
  ascii "stage."++Numeral.decimal stageIndex++ascii "."++stageName++ascii ".latency_ns"

/-- A registry and the metrics of the stages of one instrumented pipeline. -/
structure Instrumentation where
  registry : MetricsRegistry
  stages : List Bytes

/-- `Pipeline::add_stage` of a stage with this name. It is removed again when its histogram cannot
be registered. -/
def Instrumentation.addStage (s : Instrumentation) (name : Bytes) :
    Except Failure Instrumentation := do
  let metricName := makeStageLatencyMetricName s.stages.length name
  let registry ← s.registry.addHistogram metricName kStageLatencyUpperBoundsNs
  return ⟨registry,s.stages++[metricName]⟩

inductive Setup
  | executor
  | stage (name : Bytes)
  deriving DecidableEq, Repr

def Setup.apply (s : Instrumentation) : Setup → Except Failure Instrumentation
  | .executor => do
    let registry ← registerRuntimeMetrics s.registry
    return { s with registry := registry }
  | .stage name => s.addStage name

def instrument (setups : List Setup) : Except Failure Instrumentation :=
  setups.foldlM Setup.apply ⟨.empty,[]⟩

namespace MetricsRegistry

/-- One registry is another with further metrics at the end of each kind. -/
structure Extends (r r' : MetricsRegistry) (counters gauges histograms : List Bytes) : Prop where
  counters : r'.counters.map Prod.fst = r.counters.map Prod.fst++counters
  gauges : r'.gauges.map Prod.fst = r.gauges.map Prod.fst++gauges
  histograms : r'.histograms.map Prod.fst = r.histograms.map Prod.fst++histograms
  registered : r.Registered → r'.Registered

variable {r r' r'' : MetricsRegistry} {name : Bytes}

theorem Extends.refl (r : MetricsRegistry) : r.Extends r [] [] [] :=
  ⟨by simp,by simp,by simp,id⟩

theorem Extends.trans {cs gs hs cs' gs' hs' : List Bytes} (h : r.Extends r' cs gs hs)
    (h' : r'.Extends r'' cs' gs' hs') : r.Extends r'' (cs++cs') (gs++gs') (hs++hs') where
  counters := by rw [h'.counters,h.counters,List.append_assoc]
  gauges := by rw [h'.gauges,h.gauges,List.append_assoc]
  histograms := by rw [h'.histograms,h.histograms,List.append_assoc]
  registered := fun hr => h'.registered (h.registered hr)

theorem addCounter_extends (h : r.addCounter name = .ok r') : r.Extends r' [name] [] [] := by
  obtain ⟨-,rfl⟩ := addCounter_eq_ok h
  exact ⟨by simp,by simp,by simp,fun hr => hr.addCounter h⟩

theorem addGauge_extends (h : r.addGauge name = .ok r') : r.Extends r' [] [name] [] := by
  obtain ⟨-,rfl⟩ := addGauge_eq_ok h
  exact ⟨by simp,by simp,by simp,fun hr => hr.addGauge h⟩

theorem addHistogram_extends {upperBounds : List ℕ} (h : r.addHistogram name upperBounds = .ok r') :
    r.Extends r' [] [] [name] := by
  obtain ⟨-,metric,-,rfl⟩ := addHistogram_eq_ok h
  exact ⟨by simp,by simp,by simp,fun hr => hr.addHistogram h⟩

theorem foldlM_extends {add : MetricsRegistry → Bytes → Except Failure MetricsRegistry}
    {names : List Bytes} (h : names.foldlM add r = .ok r') {c g m : Bytes → List Bytes}
    (hadd : ∀ r r' name, add r name = .ok r' → r.Extends r' (c name) (g name) (m name)) :
    r.Extends r' (names.flatMap c) (names.flatMap g) (names.flatMap m) := by
  refine foldlM_history (I := fun names r' =>
    r.Extends r' (names.flatMap c) (names.flatMap g) (names.flatMap m)) ?_ (.refl r) h
  intro before r₁ name r₂ hbefore hstep
  simpa only [List.flatMap_append,List.flatMap_singleton] using hbefore.trans (hadd _ _ _ hstep)

theorem registerRuntimeMetrics_extends (h : registerRuntimeMetrics r = .ok r') :
    r.Extends r' PipelineMetricNames.counters PipelineMetricNames.gauges
      PipelineMetricNames.histograms := by
  unfold registerRuntimeMetrics at h
  split_ifs at h
  obtain ⟨r₁,hcounters,h⟩ := bind_eq_ok h
  obtain ⟨r₂,hgauges,hhistograms⟩ := bind_eq_ok h
  exact ((foldlM_extends hcounters fun _ _ _ => addCounter_extends).trans
    (foldlM_extends hgauges fun _ _ _ => addGauge_extends)).trans
    (foldlM_extends hhistograms fun _ _ _ => addHistogram_extends)

end MetricsRegistry

/-- The metrics are those of the executor and of the stages. -/
structure Instrumentation.Of (s : Instrumentation) (setups : List Setup) : Prop where
  registered : s.registry.Registered
  counters : ∀ name ∈ s.registry.counters.map Prod.fst, name ∈ PipelineMetricNames.counters
  gauges : ∀ name ∈ s.registry.gauges.map Prod.fst, name ∈ PipelineMetricNames.gauges
  histograms : ∀ name ∈ s.registry.histograms.map Prod.fst,
    name ∈ PipelineMetricNames.histograms ∨
      ∃ k stage, Setup.stage stage ∈ setups ∧ name = makeStageLatencyMetricName k stage
  stages : ∀ stage, Setup.stage stage ∈ setups →
    ∃ k, makeStageLatencyMetricName k stage ∈ s.registry.histograms.map Prod.fst

theorem Instrumentation.Of.extend {s s' : Instrumentation} {setups more : List Setup}
    {cs gs hs : List Bytes} (h : s.Of setups) (hext : s.registry.Extends s'.registry cs gs hs)
    (hcs : ∀ name ∈ cs, name ∈ PipelineMetricNames.counters)
    (hgs : ∀ name ∈ gs, name ∈ PipelineMetricNames.gauges)
    (hhs : ∀ name ∈ hs, name ∈ PipelineMetricNames.histograms ∨
      ∃ k stage, Setup.stage stage ∈ setups++more ∧ name = makeStageLatencyMetricName k stage)
    (hmore : ∀ stage, Setup.stage stage ∈ more → ∃ k, makeStageLatencyMetricName k stage ∈ hs) :
    s'.Of (setups++more) where
  registered := hext.registered h.registered
  counters := by
    rw [hext.counters]
    exact List.forall_mem_append.mpr ⟨h.counters,hcs⟩
  gauges := by
    rw [hext.gauges]
    exact List.forall_mem_append.mpr ⟨h.gauges,hgs⟩
  histograms := by
    rw [hext.histograms]
    refine List.forall_mem_append.mpr ⟨fun name hname => ?_,hhs⟩
    obtain hruntime | ⟨k,stage,hstage,hk⟩ := h.histograms name hname
    · exact .inl hruntime
    · exact .inr ⟨k,stage,List.mem_append_left _ hstage,hk⟩
  stages := by
    rw [hext.histograms]
    intro stage hstage
    obtain hstage | hstage := List.mem_append.mp hstage
    · obtain ⟨k,hk⟩ := h.stages stage hstage
      exact ⟨k,List.mem_append_left _ hk⟩
    · obtain ⟨k,hk⟩ := hmore stage hstage
      exact ⟨k,List.mem_append_right _ hk⟩

theorem Setup.apply_of {s s' : Instrumentation} {setups : List Setup} {setup : Setup}
    (h : s.Of setups) (happly : setup.apply s = .ok s') : s'.Of (setups++[setup]) := by
  cases setup with
  | executor =>
    obtain ⟨r',hregister,hs⟩ := bind_eq_ok happly
    obtain rfl := Except.ok.inj hs
    exact h.extend (MetricsRegistry.registerRuntimeMetrics_extends hregister) (fun _ => id)
      (fun _ => id) (fun _ => .inl) (by simp)
  | stage name =>
    obtain ⟨r',hadd,hs⟩ := bind_eq_ok happly
    obtain rfl := Except.ok.inj hs
    refine h.extend (MetricsRegistry.addHistogram_extends hadd) (by simp) (by simp)
      (fun metric hmetric => ?_) fun stage hstage => ?_
    · exact .inr ⟨s.stages.length,name,by simp,List.mem_singleton.mp hmetric⟩
    · obtain rfl := Setup.stage.inj (List.mem_singleton.mp hstage)
      exact ⟨s.stages.length,List.mem_cons_self⟩

theorem instrument_of {setups : List Setup} {s : Instrumentation}
    (h : instrument setups = .ok s) : s.Of setups := by
  have hempty : Instrumentation.Of ⟨.empty,[]⟩ [] :=
    ⟨MetricsRegistry.registered_empty,by simp [MetricsRegistry.empty],
      by simp [MetricsRegistry.empty],by simp [MetricsRegistry.empty],by simp⟩
  exact foldlM_history (I := fun setups s => s.Of setups)
    (fun _ _ _ _ hof hstep => Setup.apply_of hof hstep) hempty h

end AsyncDataLoader
