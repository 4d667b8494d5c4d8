import AsyncDataLoader.RegistryHistory
import AsyncDataLoader.ExecutorRegistration
import AsyncDataLoader.StageRegistration

/-!
# A registry that pipelines and executors share

Executors and the stages of instrumented pipelines register their metrics in one registry, in any
order and among the calls of others. Some registrations throw.
-/

namespace AsyncDataLoader

open FileIO

inductive SharedEvent (σ : Type)
  | call (call : RegistryCall)
  | construct (config : PipelineConfig)
  | addStage (pipeline : ℕ) (faults : AllocatorFaults) (stage : Option (StageObject σ))

/-- A registry, and the pipelines that have been constructed. -/
structure SharedRegistry (σ : Type) where
  heap : MetricsHeap
  pipelines : ℕ → StagedPipeline σ

namespace SharedRegistry

variable {σ : Type}

/-- Some of the pipelines borrow the registry. -/
def initial (instrumented : ℕ → Bool) : SharedRegistry σ :=
  ⟨.empty,fun i => ⟨instrumented i,[]⟩⟩

def step (s : SharedRegistry σ) : SharedEvent σ → SharedRegistry σ
  | .call call => { s with heap := s.heap.perform call }
  | .construct config => { s with heap := (PipelineExecutor.construct config).after s.heap }
  | .addStage i faults stage =>
    let t := (Pipeline.addStage faults stage).after (s.pipelines i,s.heap)
    ⟨t.2,Function.update s.pipelines i t.1⟩

def run (s : SharedRegistry σ) (events : List (SharedEvent σ)) : SharedRegistry σ :=
  events.foldl step s

end SharedRegistry

namespace MetricsHeap

variable {s s' s'' : MetricsHeap} {kind : MetricKind} {name : Bytes}

structure Grows (s s' : MetricsHeap) : Prop where
  wellFormed : s.WellFormed → s'.WellFormed
  histograms : s.histograms <+: s'.histograms

theorem Grows.refl (s : MetricsHeap) : s.Grows s := ⟨id,List.prefix_rfl⟩

theorem Adds.grows (hvalid : s.registry.validateNewName name = .ok ())
    (hadds : Adds s name kind s') : s.Grows s' := by
  refine ⟨fun hs => hadds.wellFormed hs hvalid,?_⟩
  cases hadds with
  | counter | gauge => exact List.prefix_rfl
  | histogram hcreate => exact List.prefix_append _ _

theorem perform_grows (s : MetricsHeap) (call : RegistryCall) : s.Grows (s.perform call) := by
  obtain ⟨kind,name,s',rfl,hvalid,hadds,hperform,-⟩ | ⟨kind,name,rfl,hperform,-⟩ |
    ⟨metric,action,rfl,hperform,-⟩ := s.perform_cases call
  · rw [hperform]
    exact hadds.grows hvalid
  · rw [hperform]
    exact .refl s
  · rw [hperform]
    refine ⟨fun hs => update_wellFormed hs metric action,?_⟩
    cases action <;> exact List.prefix_rfl

theorem construct_grows (hs : s.WellFormed) (config : PipelineConfig) :
    s.Grows ((PipelineExecutor.construct config).after s) := by
  obtain ⟨references,hreturns⟩ | ⟨failure,hthrows⟩ :=
    Action.cases_on (PipelineExecutor.construct config) s
  · obtain ⟨hs',hadded⟩ := PipelineExecutor.construct_ok hs hreturns
    refine ⟨fun _ => hs',?_⟩
    rw [hadded.histograms]
    exact List.prefix_append _ _
  · rw [(PipelineExecutor.construct_error hthrows).1]
    exact .refl s

end MetricsHeap

namespace Pipeline

variable {σ : Type} {p : StagedPipeline σ}

theorem addStage_plain (h : p.instrumented = false) (faults : AllocatorFaults)
    (stage : Option (StageObject σ)) (s : MetricsHeap) :
    (∃ object, addStage faults stage (p,s) = .ok () (p.push ⟨object,none⟩,s)) ∨
    ∃ failure, addStage faults stage (p,s) = .error failure (p,s) := by
  obtain ⟨instrumented,stages⟩ := p
  obtain rfl : instrumented = false := h
  obtain ⟨metricName,inList,registry⟩ := faults
  cases stage with
  | none => exact .inr ⟨_,rfl⟩
  | some object =>
    cases inList with
    | some failure => exact .inr ⟨failure,rfl⟩
    | none => exact .inl ⟨object,rfl⟩

end Pipeline

namespace SharedRegistry

variable {σ : Type} {s : SharedRegistry σ} {i : ℕ}

/-- The histograms of the stages are in the registry, under the names of their stages. -/
structure Timed (s : SharedRegistry σ) : Prop where
  wellFormed : s.heap.WellFormed
  timed : ∀ i (entry : TimedEntry σ), (s.pipelines i).instrumented = true → entry ∈ (s.pipelines i).stages →
    ∃ metric, entry.latency = some metric
  plain : ∀ i (entry : TimedEntry σ), (s.pipelines i).instrumented = false →
    entry ∈ (s.pipelines i).stages → entry.latency = none
  registered : ∀ (i k : ℕ) (entry : TimedEntry σ) metric, (s.pipelines i).stages[k]? = some entry →
    entry.latency = some metric →
      (makeStageLatencyMetricName k entry.object.name,metric) ∈ s.heap.histograms
  distinct : ∀ (i j k l : ℕ) (entry entry' : TimedEntry σ) metric,
    (s.pipelines i).stages[k]? = some entry → (s.pipelines j).stages[l]? = some entry' →
      entry.latency = some metric → entry'.latency = some metric → i = j ∧ k = l

theorem timed_initial (instrumented : ℕ → Bool) :
    (initial instrumented : SharedRegistry σ).Timed :=
  ⟨MetricsHeap.wellFormed_empty,by simp [initial],by simp [initial],by simp [initial],
    by simp [initial]⟩

theorem Timed.grow (h : s.Timed) {heap : MetricsHeap} (hgrows : s.heap.Grows heap) :
    Timed { s with heap := heap } :=
  ⟨hgrows.wellFormed h.wellFormed,h.timed,h.plain,fun i k entry metric hentry hlatency =>
    hgrows.histograms.subset (h.registered i k entry metric hentry hlatency),h.distinct⟩

section Push

variable {pipelines : ℕ → StagedPipeline σ} {added : TimedEntry σ}

theorem push_lookup {j k : ℕ} {entry : TimedEntry σ}
    (h : (Function.update pipelines i ((pipelines i).push added) j).stages[k]? = some entry) :
    (pipelines j).stages[k]? = some entry ∨
      j = i ∧ k = (pipelines i).stages.length ∧ entry = added := by
  by_cases hj : j = i
  · subst hj
    rw [Function.update_self,StagedPipeline.push,List.getElem?_append] at h
    split_ifs at h with hk
    · exact .inl h
    · obtain ⟨hlast,hnew⟩ : k-(pipelines j).stages.length = 0 ∧ added = entry := by
        simpa [List.getElem?_singleton] using h
      exact .inr ⟨rfl,by omega,hnew.symm⟩
  · rw [Function.update_of_ne hj] at h
    exact .inl h

theorem push_mem {j : ℕ} {entry : TimedEntry σ}
    (h : entry ∈ (Function.update pipelines i ((pipelines i).push added) j).stages) :
    entry ∈ (pipelines j).stages ∨ j = i ∧ entry = added := by
  obtain ⟨k,hk⟩ := List.mem_iff_getElem?.mp h
  obtain hold | ⟨hj,-,hnew⟩ := push_lookup hk
  · exact .inl (List.mem_of_getElem? hold)
  · exact .inr ⟨hj,hnew⟩

theorem push_instrumented (pipelines : ℕ → StagedPipeline σ) (added : TimedEntry σ) (i j : ℕ) :
    (Function.update pipelines i ((pipelines i).push added) j).instrumented =
      (pipelines j).instrumented := by
  by_cases hj : j = i
  · subst hj
    rw [Function.update_self,StagedPipeline.push]
  · rw [Function.update_of_ne hj]

end Push

theorem Timed.push (h : s.Timed) {heap : MetricsHeap} (hgrows : s.heap.Grows heap)
    {object : StageObject σ} {latency : Option ℕ}
    (htimed : (s.pipelines i).instrumented = true → ∃ metric, latency = some metric)
    (hplain : (s.pipelines i).instrumented = false → latency = none)
    (hregistered : ∀ metric, latency = some metric →
      (makeStageLatencyMetricName (s.pipelines i).stages.length object.name,metric) ∈
        heap.histograms ∧ ∀ other ∈ s.heap.histograms, other.2 ≠ metric) :
    Timed ⟨heap,Function.update s.pipelines i ((s.pipelines i).push ⟨object,latency⟩)⟩ := by
  have hfresh : ∀ (j k : ℕ) (entry : TimedEntry σ) metric, (s.pipelines j).stages[k]? = some entry →
      entry.latency = some metric → latency ≠ some metric := by
    intro j k entry metric hentry hlatency hnew
    exact (hregistered metric hnew).2 _ (h.registered j k entry metric hentry hlatency) rfl
  refine ⟨hgrows.wellFormed h.wellFormed,?_,?_,?_,?_⟩
  · intro j entry hinstrumented hentry
    rw [push_instrumented] at hinstrumented
    obtain hold | ⟨rfl,rfl⟩ := push_mem hentry
    · exact h.timed j entry hinstrumented hold
    · exact htimed hinstrumented
  · intro j entry hinstrumented hentry
    rw [push_instrumented] at hinstrumented
    obtain hold | ⟨rfl,rfl⟩ := push_mem hentry
    · exact h.plain j entry hinstrumented hold
    · exact hplain hinstrumented
  · intro j k entry metric hentry hlatency
    obtain hold | ⟨rfl,rfl,rfl⟩ := push_lookup hentry
    · exact hgrows.histograms.subset (h.registered j k entry metric hold hlatency)
    · exact (hregistered metric hlatency).1
  · intro j l k m entry entry' metric hentry hentry' hlatency hlatency'
    obtain hold | ⟨rfl,rfl,rfl⟩ := push_lookup hentry
    · obtain hold' | ⟨rfl,rfl,rfl⟩ := push_lookup hentry'
      · exact h.distinct j l k m entry entry' metric hold hold' hlatency hlatency'
      · exact absurd hlatency' (hfresh j k entry metric hold hlatency)
    · obtain hold' | ⟨rfl,rfl,rfl⟩ := push_lookup hentry'
      · exact absurd hlatency (hfresh l m entry' metric hold' hlatency')
      · exact ⟨rfl,rfl⟩

theorem step_addStage (s : SharedRegistry σ) (i : ℕ) (faults : AllocatorFaults)
    (stage : Option (StageObject σ)) :
    s.step (.addStage i faults stage) = s ∨
    ((s.pipelines i).instrumented = false ∧ ∃ object, s.step (.addStage i faults stage) =
      ⟨s.heap,Function.update s.pipelines i ((s.pipelines i).push ⟨object,none⟩)⟩) ∨
    ((s.pipelines i).instrumented = true ∧ ∃ object heap,
      s.heap.registry.validateNewName (makeStageLatencyMetricName (s.pipelines i).stages.length
        object.name) = .ok () ∧
      s.heap.Adds (makeStageLatencyMetricName (s.pipelines i).stages.length object.name)
        (.histogram kStageLatencyUpperBoundsNs) heap ∧
      s.step (.addStage i faults stage) = ⟨heap,
        Function.update s.pipelines i ((s.pipelines i).push ⟨object,some s.heap.next⟩)⟩) := by
  have hthrown : ∀ failure, Pipeline.addStage faults stage (s.pipelines i,s.heap) =
      .error failure (s.pipelines i,s.heap) → s.step (.addStage i faults stage) = s := by
    intro failure hthrows
    simp only [step,Action.after_error hthrows,Function.update_eq_self]
  cases hinstrumented : (s.pipelines i).instrumented with
  | false =>
    obtain ⟨object,hreturns⟩ | ⟨failure,hthrows⟩ :=
      Pipeline.addStage_plain hinstrumented faults stage s.heap
    · refine .inr (.inl ⟨rfl,object,?_⟩)
      simp only [step,Action.after_ok hreturns]
    · exact .inl (hthrown failure hthrows)
  | true =>
    obtain ⟨object,heap,-,hadd,hreturns⟩ | ⟨failure,hthrows,-⟩ :=
      Pipeline.addStage_cases hinstrumented faults stage s.heap
    · obtain ⟨hvalid,-,hadds⟩ := MetricsHeap.add_ok.mp hadd
      refine .inr (.inr ⟨rfl,object,heap,hvalid,hadds,?_⟩)
      simp only [step,Action.after_ok hreturns]
    · exact .inl (hthrown failure hthrows)

theorem Timed.step (h : s.Timed) (event : SharedEvent σ) : (s.step event).Timed := by
  cases event with
  | call call => exact h.grow (s.heap.perform_grows call)
  | construct config => exact h.grow (MetricsHeap.construct_grows h.wellFormed config)
  | addStage i faults stage =>
    obtain hthrown | ⟨hplain,object,hpush⟩ | ⟨htimed,object,heap,hvalid,hadds,hpush⟩ :=
      s.step_addStage i faults stage
    · rw [hthrown]
      exact h
    · rw [hpush]
      exact h.push (.refl _) (by simp [hplain]) (fun _ => rfl) (by simp)
    · rw [hpush]
      refine h.push (hadds.grows hvalid) (fun _ => ⟨_,rfl⟩) (by simp [htimed]) ?_
      rintro metric hmetric
      obtain rfl := Option.some.inj hmetric
      refine ⟨?_,fun other hother => Nat.ne_of_lt (h.wellFormed.histograms_lt other hother)⟩
      cases hadds with
      | histogram hcreate => exact List.mem_append_right _ List.mem_cons_self

theorem Timed.run (h : s.Timed) (events : List (SharedEvent σ)) : (s.run events).Timed :=
  List.foldlRecOn events SharedRegistry.step h fun _ ht event _ => ht.step event

theorem run_append (s : SharedRegistry σ) (before after : List (SharedEvent σ)) :
    s.run (before++after) = (s.run before).run after :=
  List.foldl_append

theorem step_stages (s : SharedRegistry σ) (event : SharedEvent σ) (i : ℕ) :
    ((s.step event).pipelines i).instrumented = (s.pipelines i).instrumented ∧
    (s.pipelines i).stages <+: ((s.step event).pipelines i).stages := by
  have hpush : ∀ j (entry : TimedEntry σ),
      (Function.update s.pipelines j ((s.pipelines j).push entry) i).instrumented =
        (s.pipelines i).instrumented ∧ (s.pipelines i).stages <+:
          (Function.update s.pipelines j ((s.pipelines j).push entry) i).stages := by
    intro j entry
    by_cases hj : i = j
    · subst hj
      rw [Function.update_self]
      exact ⟨rfl,List.prefix_append _ _⟩
    · rw [Function.update_of_ne hj]
      exact ⟨rfl,List.prefix_rfl⟩
  cases event with
  | call call => exact ⟨rfl,List.prefix_rfl⟩
  | construct config => exact ⟨rfl,List.prefix_rfl⟩
  | addStage j faults stage =>
    obtain hstep | ⟨-,object,hstep⟩ | ⟨-,object,heap,-,-,hstep⟩ := s.step_addStage j faults stage
    · rw [hstep]
      exact ⟨rfl,List.prefix_rfl⟩
    · rw [hstep]
      exact hpush j _
    · rw [hstep]
      exact hpush j _

theorem run_stages (s : SharedRegistry σ) (events : List (SharedEvent σ)) (i : ℕ) :
    ((s.run events).pipelines i).instrumented = (s.pipelines i).instrumented ∧
    (s.pipelines i).stages <+: ((s.run events).pipelines i).stages := by
  induction events generalizing s with
  | nil => exact ⟨rfl,List.prefix_rfl⟩
  | cons event events ih =>
    obtain ⟨hsame,hbefore⟩ := s.step_stages event i
    obtain ⟨hrest,hmore⟩ := ih (s.step event)
    exact ⟨hrest.trans hsame,hbefore.trans hmore⟩

theorem exists_registering {name : Bytes} (s : SharedRegistry σ) (events : List (SharedEvent σ))
    (hbefore : name ∉ s.heap.registry.names)
    (hafter : name ∈ (s.run events).heap.registry.names) :
    ∃ before event after, events = before++event::after ∧
      name ∉ (s.run before).heap.registry.names ∧
      name ∈ ((s.run before).step event).heap.registry.names := by
  induction events generalizing s with
  | nil => exact absurd hafter hbefore
  | cons event events ih =>
    by_cases hnow : name ∈ (s.step event).heap.registry.names
    · exact ⟨[],event,events,rfl,hbefore,hnow⟩
    · obtain ⟨before,first,after,rfl,hunused,hused⟩ := ih (s.step event) hnow hafter
      exact ⟨event::before,first,after,rfl,hunused,hused⟩

theorem registered_by_stage {name : Bytes} {faults : AllocatorFaults}
    {stage : Option (StageObject σ)} (hbefore : name ∉ s.heap.registry.names)
    (hafter : name ∈ (s.step (.addStage i faults stage)).heap.registry.names) :
    ∃ entry : TimedEntry σ, ((s.step (.addStage i faults stage)).pipelines i).stages =
      (s.pipelines i).stages++[entry] ∧
      name = makeStageLatencyMetricName (s.pipelines i).stages.length entry.object.name := by
  obtain hstep | ⟨-,object,hstep⟩ | ⟨-,object,heap,-,hadds,hstep⟩ := s.step_addStage i faults stage
  · rw [hstep] at hafter
    exact absurd hafter hbefore
  · rw [hstep] at hafter
    exact absurd hafter hbefore
  · rw [hstep] at hafter ⊢
    refine ⟨⟨object,some s.heap.next⟩,?_,?_⟩
    · simp only [Function.update_self,StagedPipeline.push]
    · obtain rfl | hold := List.mem_cons.mp (hadds.names.mem_iff.mp hafter)
      · rfl
      · exact absurd hold hbefore

/-- The name of the next stage can be in use only for another reason than a former stage. -/
theorem next_name_registered {events : List (SharedEvent σ)} {name : Bytes}
    (hbefore : makeStageLatencyMetricName ((s.run events).pipelines i).stages.length name ∉
      s.heap.registry.names)
    (hafter : makeStageLatencyMetricName ((s.run events).pipelines i).stages.length name ∈
      (s.run events).heap.registry.names) :
    ∃ before event after, events = before++event::after ∧
      (∀ faults stage, event ≠ .addStage i faults stage) ∧
      makeStageLatencyMetricName ((s.run events).pipelines i).stages.length name ∉
        (s.run before).heap.registry.names ∧
      makeStageLatencyMetricName ((s.run events).pipelines i).stages.length name ∈
        ((s.run before).step event).heap.registry.names := by
  obtain ⟨before,event,after,hevents,hunused,hused⟩ := s.exists_registering events hbefore hafter
  refine ⟨before,event,after,hevents,?_,hunused,hused⟩
  rintro faults stage rfl
  obtain ⟨entry,hstages,hname⟩ := registered_by_stage hunused hused
  have hindex := (Pipeline.makeStageLatencyMetricName_inj.mp hname).1
  have hrun : s.run events = ((s.run before).step (.addStage i faults stage)).run after := by
    rw [hevents,run_append]
    rfl
  have hlonger := (run_stages ((s.run before).step (.addStage i faults stage)) after i).2.length_le
  rw [hstages,List.length_append,List.length_singleton,← hrun,hindex] at hlonger
  omega

end SharedRegistry

/-- An executor takes its twelve metrics or leaves the registry as it was. -/
theorem construct_all_or_nothing {σ : Type} (instrumented : ℕ → Bool)
    (events : List (SharedEvent σ)) (config : PipelineConfig) :
    let s := ((SharedRegistry.initial instrumented).run events).heap
    (∀ failure s', PipelineExecutor.construct config s = .error failure s' → s' = s ∧
      (config.validate = .error failure ∨ s.checkRuntimeMetrics = .error failure)) ∧
    (∀ references s', PipelineExecutor.construct config s = .ok references s' →
      s.WithRuntimeMetrics references s') ∧
    (s.checkRuntimeMetrics = .ok () → ∃ references s', s.addRuntimeMetrics = .ok references s') ∧
    ((∃ references s', PipelineExecutor.construct config s = .ok references s') ↔
      config.validate = .ok () ∧ s.registry.size ≤ 52 ∧
        ∀ name ∈ PipelineMetricNames.all, name ∉ s.registry.names) := by
  intro s
  have hs : s.WellFormed :=
    ((SharedRegistry.timed_initial instrumented : (SharedRegistry.initial instrumented :
      SharedRegistry σ).Timed).run events).wellFormed
  refine ⟨fun failure s' h => ?_,fun references s' h => (PipelineExecutor.construct_ok hs h).2,
    fun h => ?_,?_⟩
  · obtain ⟨hsame,hconfig | ⟨-,hcheck⟩⟩ := PipelineExecutor.construct_error h
    · exact ⟨hsame,.inl hconfig⟩
    · exact ⟨hsame,.inr hcheck⟩
  · obtain ⟨references,s',hreturns,-⟩ := (MetricsHeap.Room.of_check h).addRuntimeMetrics
    exact ⟨references,s',hreturns⟩
  · rw [PipelineExecutor.construct_returns,MetricsHeap.checkRuntimeMetrics_eq_ok]

/-- The stages of an instrumented pipeline and their histograms stay in step, and what keeps
another stage out is not one of them. -/
theorem addStage_history {σ : Type} (instrumented : ℕ → Bool) (events : List (SharedEvent σ))
    (i : ℕ) (hi : instrumented i = true) :
    let s := (SharedRegistry.initial instrumented).run events
    let p := s.pipelines i
    (∀ faults stage failure t, Pipeline.addStage faults stage (p,s.heap) = .error failure t →
      t = (p,s.heap)) ∧
    (∀ (k : ℕ) entry, p.stages[k]? = some entry → ∃ metric, entry.latency = some metric ∧
      s.heap.findHistogram (makeStageLatencyMetricName k entry.object.name) = some metric) ∧
    (∀ (k l : ℕ) entry entry', p.stages[k]? = some entry → p.stages[l]? = some entry' →
      entry.latency = entry'.latency → k = l) ∧
    (∀ j k m n, makeStageLatencyMetricName j m = makeStageLatencyMetricName k n →
      j = k ∧ m = n) ∧
    (∀ faults object failure t,
      Pipeline.addStage faults (some object) (p,s.heap) = .error failure t →
        let name := makeStageLatencyMetricName p.stages.length object.name
        some failure ∈ [faults.metricName,faults.stages,faults.registry] ∨
        MetricsRegistry.kMaxMetricNameLength < name.length ∨
        MetricsRegistry.kMaxMetricCount ≤ s.heap.registry.size ∨
        ∃ before event after, events = before++event::after ∧
          (∀ faults stage, event ≠ .addStage i faults stage) ∧
          name ∉ ((SharedRegistry.initial instrumented).run before).heap.registry.names ∧
          name ∈ (((SharedRegistry.initial instrumented).run before).step event).heap.registry.names)
    := by
  intro s p
  have htimed : s.Timed := (SharedRegistry.timed_initial instrumented).run events
  have hp : p.instrumented = true :=
    (SharedRegistry.run_stages (SharedRegistry.initial instrumented) events i).1.trans hi
  have hlatency : ∀ (k : ℕ) entry, p.stages[k]? = some entry →
      ∃ metric, entry.latency = some metric :=
    fun k entry hentry => htimed.timed i entry hp (List.mem_of_getElem? hentry)
  refine ⟨fun faults stage failure t h => ?_,fun k entry hentry => ?_,
    fun k l entry entry' hentry hentry' hsame => ?_,
    fun j k m n => Pipeline.makeStageLatencyMetricName_inj.mp,fun faults object failure t h => ?_⟩
  · obtain ⟨object,heap,-,-,hreturns⟩ | ⟨reason,hthrows,-⟩ :=
      Pipeline.addStage_cases hp faults stage s.heap
    · rw [hreturns] at h
      cases h
    · exact (EStateM.Result.error.inj (h.symm.trans hthrows)).2
  · obtain ⟨metric,hmetric⟩ := hlatency k entry hentry
    refine ⟨metric,hmetric,?_⟩
    rw [MetricsHeap.findHistogram,
      MetricsHeap.find_entry (MetricsHeap.names_nodup htimed.wellFormed).2.2]
    exact htimed.registered i k entry metric hentry hmetric
  · obtain ⟨metric,hmetric⟩ := hlatency k entry hentry
    exact (htimed.distinct i i k l entry entry' metric hentry hentry' hmetric
      (hsame.symm.trans hmetric)).2
  · obtain ⟨_,heap,-,-,hreturns⟩ | ⟨reason,hthrows,hrefused⟩ :=
      Pipeline.addStage_cases hp faults (some object) s.heap
    · rw [hreturns] at h
      cases h
    · obtain ⟨rfl,-⟩ := EStateM.Result.error.inj (h.symm.trans hthrows)
      cases hrefused object rfl with
      | allocation hfault => exact .inl hfault
      | long hlong => exact .inr (.inl hlong)
      | full hfull => exact .inr (.inr (.inl hfull))
      | used hused =>
        refine .inr (.inr (.inr (SharedRegistry.next_name_registered ?_ hused)))
        simp [SharedRegistry.initial,MetricsHeap.empty,MetricsHeap.registry,MetricsRegistry.names]

/-- A stage whose name begins like a position. -/
theorem addStage_history_dotted :
    let s := (SharedRegistry.initial fun _ => true).run
      [.addStage 0 .none (some ⟨ascii "1.gamma",noOpStage,()⟩)]
    ∃ metric, s.heap.findHistogram (ascii "stage.0.1.gamma.latency_ns") = some metric := by
  obtain ⟨-,hregistered,-⟩ := addStage_history (fun _ => true)
    [.addStage 0 .none (some ⟨ascii "1.gamma",noOpStage,()⟩)] 0 rfl
  obtain ⟨metric,-,hfind⟩ := hregistered 0 ⟨⟨ascii "1.gamma",noOpStage,()⟩,some 0⟩ rfl
  exact ⟨metric,hfind⟩

end AsyncDataLoader
