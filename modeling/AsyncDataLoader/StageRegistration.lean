import AsyncDataLoader.MetricsHeap
import AsyncDataLoader.Stage
import AsyncDataLoader.StageMetrics
import Mathlib.Data.List.ModifyLast

/-!
# The stages of an instrumented pipeline

A stage enters the list of its pipeline before its histogram is registered, and leaves it again
when the registry refuses. The name of the histogram tells the position and the name of the stage.
-/

namespace AsyncDataLoader

open FileIO

structure StageObject (σ : Type) where
  name : Bytes
  stage : Stage σ
  state : σ

/-- `Pipeline::StageEntry`, with the address of the histogram. -/
structure TimedEntry (σ : Type) where
  object : StageObject σ
  latency : Option ℕ

/-- A pipeline is instrumented when it has been given a registry. -/
structure StagedPipeline (σ : Type) where
  instrumented : Bool
  stages : List (TimedEntry σ)

/-- Where the allocator throws during a call: for the name of the metric, in the list of the stages,
and in the registry. -/
structure AllocatorFaults where
  metricName : Option Failure
  stages : Option Failure
  registry : Option Failure
  deriving DecidableEq, Repr

def AllocatorFaults.none : AllocatorFaults := ⟨.none,.none,.none⟩

namespace StagedPipeline

variable {σ : Type}

def push (p : StagedPipeline σ) (entry : TimedEntry σ) : StagedPipeline σ :=
  { p with stages := p.stages++[entry] }

def popBack (p : StagedPipeline σ) : StagedPipeline σ := { p with stages := p.stages.dropLast }

def setBackLatency (p : StagedPipeline σ) (metric : ℕ) : StagedPipeline σ :=
  { p with stages := p.stages.modifyLast fun entry => { entry with latency := some metric } }

@[simp] theorem popBack_push (p : StagedPipeline σ) (entry : TimedEntry σ) :
    (p.push entry).popBack = p := by
  simp [push,popBack]

@[simp] theorem setBackLatency_push (p : StagedPipeline σ) (object : StageObject σ) (metric : ℕ) :
    (p.push ⟨object,none⟩).setBackLatency metric = p.push ⟨object,some metric⟩ := by
  simp [push,setBackLatency,List.modifyLast_concat]

end StagedPipeline

namespace Pipeline

variable {σ : Type}

def allocate (fault : Option Failure) : Action Failure (StagedPipeline σ × MetricsHeap) Unit :=
  Action.check fun _ =>
    match fault with
    | none => .ok ()
    | some failure => .error failure

/-- `MetricsRegistry::add_histogram` with an allocator that may throw: the new name has been
validated, and nothing has changed. -/
def addHistogram (fault : Option Failure) (name : Bytes) (upperBounds : List ℕ) :
    Action Failure MetricsHeap ℕ :=
  match fault with
  | none => MetricsHeap.addHistogram name upperBounds
  | some failure => do
    Action.check fun s => s.registry.validateNewName name
    throw failure

def timeBack (fault : Option Failure) (metricName : Bytes) :
    Action Failure (StagedPipeline σ × MetricsHeap) Unit :=
  tryCatch (do
      let latency ← Action.zoom Prod.snd (fun s heap => (s.1,heap))
        (addHistogram fault metricName kStageLatencyUpperBoundsNs)
      modify fun s => (s.1.setBackLatency latency,s.2))
    fun failure => do
      modify fun s => (s.1.popBack,s.2)
      throw failure

def addStage (faults : AllocatorFaults) (stage : Option (StageObject σ)) :
    Action Failure (StagedPipeline σ × MetricsHeap) Unit := do
  match stage with
  | none => throw (.invalidArgument "pipeline stage must not be null")
  | some object =>
    let p := (← get).1
    if ¬ p.instrumented then
      allocate faults.stages
      modify fun s => (s.1.push ⟨object,none⟩,s.2)
    else
      allocate faults.metricName
      let metricName := makeStageLatencyMetricName p.stages.length object.name
      allocate faults.stages
      modify fun s => (s.1.push ⟨object,none⟩,s.2)
      timeBack faults.registry metricName

variable {object : StageObject σ} {p p' : StagedPipeline σ} {s s' : MetricsHeap}
  {faults : AllocatorFaults} {failure : Failure} {name : Bytes} {latency : ℕ}

theorem timeBack_push (fault : Option Failure) :
    timeBack fault name (p.push ⟨object,none⟩,s) =
      match addHistogram fault name kStageLatencyUpperBoundsNs s with
      | .ok latency s' => .ok () (p.push ⟨object,some latency⟩,s')
      | .error failure s' => .error failure (p,s') := by
  have hzoom : timeBack fault name (p.push ⟨object,none⟩,s) =
      match addHistogram fault name kStageLatencyUpperBoundsNs s with
      | .ok latency s' => .ok () ((p.push ⟨object,none⟩).setBackLatency latency,s')
      | .error failure s' => .error failure ((p.push ⟨object,none⟩).popBack,s') := by
    change EStateM.tryCatch (EStateM.bind _ _) _ _ = _
    unfold EStateM.tryCatch EStateM.bind Action.zoom
    cases addHistogram fault name kStageLatencyUpperBoundsNs s <;> rfl
  rw [hzoom]
  simp only [StagedPipeline.setBackLatency_push,StagedPipeline.popBack_push]

theorem addStage_some (h : p.instrumented = true) : addStage faults (some object) (p,s) =
    match faults.metricName with
    | some failure => .error failure (p,s)
    | none =>
      match faults.stages with
      | some failure => .error failure (p,s)
      | none =>
        match addHistogram faults.registry
            (makeStageLatencyMetricName p.stages.length object.name) kStageLatencyUpperBoundsNs s with
        | .ok latency s' => .ok () (p.push ⟨object,some latency⟩,s')
        | .error failure s' => .error failure (p,s') := by
  obtain ⟨instrumented,stages⟩ := p
  obtain rfl : instrumented = true := h
  obtain ⟨metricName,inList,registry⟩ := faults
  cases metricName with
  | some failure => rfl
  | none =>
    cases inList with
    | some failure => rfl
    | none => exact timeBack_push registry

inductive Refused (s : MetricsHeap) (faults : AllocatorFaults) (name : Bytes) : Failure → Prop
  | allocation {failure : Failure}
      (h : some failure ∈ [faults.metricName,faults.stages,faults.registry]) :
      Refused s faults name failure
  | long (h : MetricsRegistry.kMaxMetricNameLength < name.length) :
      Refused s faults name (.lengthError "metric name exceeds the fixed length limit")
  | used (h : name ∈ s.registry.names) :
      Refused s faults name (.invalidArgument "metric name is already registered")
  | full (h : MetricsRegistry.kMaxMetricCount ≤ s.registry.size) :
      Refused s faults name (.lengthError "metrics registry is full")

theorem makeStageLatencyMetricName_ne_nil (k : ℕ) (name : Bytes) :
    makeStageLatencyMetricName k name ≠ [] := by
  intro h
  simp only [makeStageLatencyMetricName,List.append_assoc] at h
  exact absurd (List.append_eq_nil_iff.mp h).1 (by decide)

theorem Refused.of_validate (hne : name ≠ [])
    (h : s.registry.validateNewName name = .error failure) : Refused s faults name failure := by
  unfold MetricsRegistry.validateNewName at h
  split_ifs at h with hempty hlong hused hfull
  · exact absurd hempty hne
  · obtain rfl := Except.error.inj h
    exact .long hlong
  · obtain rfl := Except.error.inj h
    exact .used ((MetricsRegistry.containsName_iff _).mp hused)
  · obtain rfl := Except.error.inj h
    exact .full hfull

theorem stageBounds_accepted : Histogram.Accepts kStageLatencyUpperBoundsNs := by
  refine ⟨?_,?_,?_⟩ <;> decide

theorem addHistogram_error {bounds : List ℕ} (hbounds : Histogram.Accepts bounds) (hne : name ≠ [])
    (h : addHistogram faults.registry name bounds s = .error failure s') :
    s' = s ∧ Refused s faults name failure := by
  cases hfault : faults.registry with
  | some fault =>
    rw [hfault] at h
    obtain hcheck | ⟨_,t,hcheck,hthrow⟩ := Action.bind_error.mp h
    · obtain ⟨hinvalid,rfl⟩ := Action.check_error.mp hcheck
      exact ⟨rfl,.of_validate hne hinvalid⟩
    · obtain ⟨-,rfl⟩ := Action.check_ok.mp hcheck
      obtain ⟨rfl,rfl⟩ := EStateM.Result.error.inj hthrow
      exact ⟨rfl,.allocation (by simp [hfault])⟩
  | none =>
    rw [hfault] at h
    have hadd : MetricsHeap.add (.histogram bounds) name s = .error failure s' := h
    refine ⟨MetricsHeap.add_atomic _ name hadd,?_⟩
    cases hvalid : s.registry.validateNewName name with
    | error reason =>
      have hthrows : MetricsHeap.add (.histogram bounds) name s = .error reason s :=
        Action.bind_error.mpr (.inl (Action.check_error.mpr ⟨hvalid,rfl⟩))
      obtain ⟨rfl,-⟩ := EStateM.Result.error.inj (hthrows.symm.trans hadd)
      exact .of_validate hne hvalid
    | ok =>
      obtain ⟨metric,t,hreturns⟩ :=
        (@MetricsHeap.add_returns_iff s (.histogram bounds) name).mpr ⟨hvalid,hbounds⟩
      rw [hreturns] at hadd
      cases hadd

theorem addHistogram_ok {fault : Option Failure} {bounds : List ℕ}
    (h : addHistogram fault name bounds s = .ok latency s') :
    MetricsHeap.add (.histogram bounds) name s = .ok latency s' := by
  cases fault with
  | none => exact h
  | some failure =>
    obtain ⟨_,t,-,hthrow⟩ := Action.bind_ok.mp h
    cases hthrow

theorem addStage_cases (h : p.instrumented = true) (faults : AllocatorFaults)
    (stage : Option (StageObject σ)) (s : MetricsHeap) :
    (∃ object s', stage = some object ∧
      MetricsHeap.add (.histogram kStageLatencyUpperBoundsNs)
        (makeStageLatencyMetricName p.stages.length object.name) s = .ok s.next s' ∧
      addStage faults stage (p,s) = .ok () (p.push ⟨object,some s.next⟩,s')) ∨
    ∃ failure, addStage faults stage (p,s) = .error failure (p,s) ∧
      ∀ object, stage = some object → Refused s faults
        (makeStageLatencyMetricName p.stages.length object.name) failure := by
  cases stage with
  | none => exact .inr ⟨_,rfl,by simp⟩
  | some object =>
    rw [addStage_some h]
    cases hname : faults.metricName with
    | some failure =>
      exact .inr ⟨failure,rfl,fun _ _ => .allocation (by simp [hname])⟩
    | none =>
      cases hstages : faults.stages with
      | some failure =>
        exact .inr ⟨failure,rfl,fun _ _ => .allocation (by simp [hstages])⟩
      | none =>
        cases hadd : addHistogram faults.registry
          (makeStageLatencyMetricName p.stages.length object.name) kStageLatencyUpperBoundsNs s with
        | ok latency s' =>
          have hreturns := addHistogram_ok hadd
          obtain ⟨-,rfl,-⟩ := MetricsHeap.add_ok.mp hreturns
          exact .inl ⟨object,s',rfl,hreturns,rfl⟩
        | error failure s' =>
          obtain ⟨rfl,hrefused⟩ := addHistogram_error stageBounds_accepted
            (makeStageLatencyMetricName_ne_nil _ _) hadd
          refine .inr ⟨failure,rfl,fun other hother => ?_⟩
          obtain rfl := Option.some.inj hother
          exact hrefused

/-- The position ends at the first dot after it, whatever dots and digits the name has. -/
theorem makeStageLatencyMetricName_inj {j k : ℕ} {m n : Bytes} :
    makeStageLatencyMetricName j m = makeStageLatencyMetricName k n ↔ j = k ∧ m = n := by
  constructor
  · intro h
    simp only [makeStageLatencyMetricName,List.append_assoc] at h
    have htail := List.append_cancel_left h
    have hposition : ∀ (i : ℕ) (rest : Bytes),
        (Numeral.decimal i++(ascii "."++rest)).takeWhile Numeral.isDigit = Numeral.decimal i := by
      intro i rest
      rw [List.takeWhile_append_of_pos fun _ hb => Numeral.isDigit_of_mem_decimal hb]
      have hdot : (ascii "."++rest).takeWhile Numeral.isDigit = [] := rfl
      rw [hdot,List.append_nil]
    have hdigits := congrArg (List.takeWhile Numeral.isDigit) htail
    rw [hposition,hposition] at hdigits
    have hindex : j = k := by
      rw [← Numeral.value_decimal j,hdigits,Numeral.value_decimal]
    subst hindex
    exact ⟨rfl,List.append_cancel_right (List.append_cancel_left (List.append_cancel_left htail))⟩
  · rintro ⟨rfl,rfl⟩
    rfl

end Pipeline
end AsyncDataLoader
