import AsyncDataLoader.MetricsHeap

/-!
# Histories of a registry

Calls that register metrics, some of which throw, mixed with the use of the metrics. What the
registry holds is the list of the registrations that succeeded.
-/

namespace AsyncDataLoader

open FileIO

/-- A call that has returned a reference. -/
structure Registration where
  kind : MetricKind
  name : Bytes
  metric : ℕ
  deriving DecidableEq, Repr

namespace Registration

def asCounter : Registration → Option (Bytes × ℕ)
  | ⟨.counter,name,metric⟩ => some (name,metric)
  | _ => none

def asGauge : Registration → Option (Bytes × ℕ)
  | ⟨.gauge,name,metric⟩ => some (name,metric)
  | _ => none

def asHistogram : Registration → Option (Bytes × ℕ)
  | ⟨.histogram _,name,metric⟩ => some (name,metric)
  | _ => none

theorem asCounter_eq {r : Registration} {name : Bytes} {metric : ℕ} :
    r.asCounter = some (name,metric) ↔ r = ⟨.counter,name,metric⟩ := by
  obtain ⟨kind,n,m⟩ := r
  cases kind <;> simp [asCounter]

theorem asGauge_eq {r : Registration} {name : Bytes} {metric : ℕ} :
    r.asGauge = some (name,metric) ↔ r = ⟨.gauge,name,metric⟩ := by
  obtain ⟨kind,n,m⟩ := r
  cases kind <;> simp [asGauge]

theorem asHistogram_eq {r : Registration} {name : Bytes} {metric : ℕ} :
    r.asHistogram = some (name,metric) ↔
      ∃ upperBounds, r = ⟨.histogram upperBounds,name,metric⟩ := by
  obtain ⟨kind,n,m⟩ := r
  cases kind <;> simp [asHistogram]

end Registration

namespace MetricsHeap

def registration (s : MetricsHeap) : RegistryCall → Option Registration
  | .add kind name =>
    match add kind name s with
    | .ok metric _ => some ⟨kind,name,metric⟩
    | .error _ _ => none
  | .update _ _ => none

def registrations (s : MetricsHeap) : List RegistryCall → List Registration
  | [] => []
  | call::calls => (s.registration call).toList++(s.perform call).registrations calls

variable {s s' : MetricsHeap} {call : RegistryCall} {calls more : List RegistryCall}
  {rs : List Registration} {name : Bytes} {metric : ℕ}

theorem performAll_append (s : MetricsHeap) (calls more : List RegistryCall) :
    s.performAll (calls++more) = (s.performAll calls).performAll more :=
  List.foldl_append

theorem registrations_append (s : MetricsHeap) (calls more : List RegistryCall) :
    s.registrations (calls++more) =
      s.registrations calls++(s.performAll calls).registrations more := by
  induction calls generalizing s with
  | nil => rfl
  | cons call calls ih =>
    rw [List.cons_append,registrations,ih,registrations,List.append_assoc]
    rfl

theorem perform_cases (s : MetricsHeap) (call : RegistryCall) :
    (∃ kind name s', call = .add kind name ∧ s.registry.validateNewName name = .ok () ∧
      Adds s name kind s' ∧ s.perform call = s' ∧
      s.registration call = some ⟨kind,name,s.next⟩) ∨
    (∃ kind name, call = .add kind name ∧ s.perform call = s ∧ s.registration call = none) ∨
    ∃ metric action, call = .update metric action ∧ s.perform call = s.update metric action ∧
      s.registration call = none := by
  cases call with
  | add kind name =>
    obtain ⟨metric,hreturned⟩ | ⟨failure,hthrown⟩ := Action.cases_on (add kind name) s
    · obtain ⟨hvalid,rfl,hadds⟩ := add_ok.mp hreturned
      exact .inl ⟨kind,name,_,rfl,hvalid,hadds,rfl,by rw [registration,hreturned]⟩
    · exact .inr (.inl ⟨kind,name,rfl,add_atomic kind name hthrown,by rw [registration,hthrown]⟩)
  | update metric action => exact .inr (.inr ⟨metric,action,rfl,rfl,rfl⟩)

/-- The vectors hold what has been registered. -/
structure Follows (s : MetricsHeap) (rs : List Registration) : Prop where
  counters : s.counters = rs.filterMap Registration.asCounter
  gauges : s.gauges = rs.filterMap Registration.asGauge
  histograms : s.histograms = rs.filterMap Registration.asHistogram
  bounds : ∀ upperBounds name metric, ⟨.histogram upperBounds,name,metric⟩ ∈ rs →
    (s.histogramAt metric).bounds = upperBounds

theorem Follows.perform (h : s.Follows rs) (hs : s.WellFormed) (call : RegistryCall) :
    (s.perform call).Follows (rs++(s.registration call).toList) := by
  obtain ⟨kind,name,s',rfl,-,hadds,hperform,hregistration⟩ | ⟨kind,name,rfl,hperform,hregistration⟩ |
    ⟨metric,action,rfl,hperform,hregistration⟩ := s.perform_cases call
  · rw [hperform,hregistration]
    have hcounters := h.counters
    have hgauges := h.gauges
    have hhistograms := h.histograms
    cases hadds with
    | counter =>
      refine ⟨?_,?_,?_,fun upperBounds name' metric hmem => ?_⟩
      · simp [hcounters,Registration.asCounter]
      · simp [hgauges,Registration.asGauge]
      · simp [hhistograms,Registration.asHistogram]
      · exact h.bounds upperBounds name' metric (by simpa using hmem)
    | gauge =>
      refine ⟨?_,?_,?_,fun upperBounds name' metric hmem => ?_⟩
      · simp [hcounters,Registration.asCounter]
      · simp [hgauges,Registration.asGauge]
      · simp [hhistograms,Registration.asHistogram]
      · exact h.bounds upperBounds name' metric (by simpa using hmem)
    | histogram hcreate =>
      refine ⟨?_,?_,?_,fun upperBounds name' metric hmem => ?_⟩
      · simp [hcounters,Registration.asCounter]
      · simp [hgauges,Registration.asGauge]
      · simp [hhistograms,Registration.asHistogram]
      · obtain hold | hnew := List.mem_append.mp hmem
        · have hentry : (name',metric) ∈ s.histograms := by
            rw [h.histograms]
            exact List.mem_filterMap.mpr ⟨_,hold,rfl⟩
          have hne := Nat.ne_of_lt (hs.histograms_lt _ hentry)
          simp only [Function.update_of_ne hne]
          exact h.bounds upperBounds name' metric hold
        · obtain ⟨hkind,-,rfl⟩ : _ ∧ _ ∧ metric = s.next := by simpa using hnew
          subst hkind
          simp only [Function.update_self]
          exact Histogram.create_bounds hcreate
  · rw [hperform,hregistration]
    simpa using h
  · rw [hperform,hregistration,Option.toList_none,List.append_nil]
    cases action with
    | observe sample =>
      refine ⟨h.counters,h.gauges,h.histograms,fun upperBounds name' metric' hmem => ?_⟩
      have hbounds := h.bounds upperBounds name' metric' hmem
      by_cases heq : metric' = metric
      · subst heq
        simpa [update] using hbounds
      · simpa [update,heq] using hbounds
    | _ => exact ⟨h.counters,h.gauges,h.histograms,h.bounds⟩

theorem Follows.performAll (h : s.Follows rs) (hs : s.WellFormed) (calls : List RegistryCall) :
    (s.performAll calls).Follows (rs++s.registrations calls) := by
  induction calls generalizing s rs with
  | nil =>
    rw [registrations,List.append_nil]
    exact h
  | cons call calls ih =>
    have hrest := ih (h.perform hs call) (perform_wellFormed hs call)
    rw [List.append_assoc] at hrest
    exact hrest

theorem Follows.names (h : s.Follows rs) :
    s.registry.names.Perm (rs.map Registration.name) := by
  have hsplit : ∀ rs : List Registration,
      ((rs.filterMap Registration.asCounter).map Prod.fst++
        (rs.filterMap Registration.asGauge).map Prod.fst++
        (rs.filterMap Registration.asHistogram).map Prod.fst).Perm (rs.map Registration.name) := by
    intro rs
    induction rs with
    | nil => exact .nil
    | cons r rs ih =>
      obtain ⟨kind,name,metric⟩ := r
      cases kind with
      | counter => exact .cons name ih
      | gauge =>
        refine .trans ?_ (.cons name ih)
        simp only [List.append_assoc]
        exact List.perm_middle
      | histogram upperBounds => exact List.perm_middle.trans (.cons name ih)
  rw [registry_names,h.counters,h.gauges,h.histograms]
  exact hsplit rs

theorem Follows.size (h : s.Follows rs) : s.registry.size = rs.length := by
  rw [MetricsRegistry.size_eq,h.names.length_eq,List.length_map]

/-- An addition returns for a good name that is not in use, with room, and good bounds. -/
theorem Follows.add_returns_iff (h : s.Follows rs) (kind : MetricKind) (name : Bytes) :
    (∃ metric s', add kind name s = .ok metric s') ↔
      name ≠ [] ∧ name.length ≤ MetricsRegistry.kMaxMetricNameLength ∧
        (∀ r ∈ rs, r.name ≠ name) ∧ rs.length < MetricsRegistry.kMaxMetricCount ∧ kind.Accepts := by
  rw [MetricsHeap.add_returns_iff,MetricsRegistry.validateNewName_eq_ok,h.size,h.names.mem_iff]
  simp only [List.mem_map,not_exists,not_and,and_assoc]

theorem find_entry {entries : List (Bytes × ℕ)} (h : (entries.map Prod.fst).Nodup) :
    (entries.find? fun entry => entry.1 = name).map Prod.snd = some metric ↔
      (name,metric) ∈ entries := by
  induction entries with
  | nil => simp
  | cons entry entries ih =>
    obtain ⟨n,m⟩ := entry
    rw [List.map_cons,List.nodup_cons] at h
    rw [List.find?_cons]
    by_cases heq : n = name
    · subst heq
      have hnot : (n,metric) ∉ entries := fun hmem => h.1 (List.mem_map.mpr ⟨_,hmem,rfl⟩)
      simp [hnot,eq_comm]
    · have hne : ¬ name = n := fun hname => heq hname.symm
      simp [heq,hne,ih h.2]

theorem names_nodup (h : s.WellFormed) : (s.counters.map Prod.fst).Nodup ∧
    (s.gauges.map Prod.fst).Nodup ∧ (s.histograms.map Prod.fst).Nodup := by
  have hnodup := h.registered.nodup
  rw [registry_names] at hnodup
  have hboth := (List.nodup_append.mp hnodup).1
  exact ⟨(List.nodup_append.mp hboth).1,(List.nodup_append.mp hboth).2.1,
    (List.nodup_append.mp hnodup).2.1⟩

theorem Follows.findCounter (h : s.Follows rs) (hs : s.WellFormed) :
    s.findCounter name = some metric ↔ ⟨.counter,name,metric⟩ ∈ rs := by
  rw [MetricsHeap.findCounter,find_entry (names_nodup hs).1,h.counters,List.mem_filterMap]
  simp only [Registration.asCounter_eq,exists_eq_right]

theorem Follows.findGauge (h : s.Follows rs) (hs : s.WellFormed) :
    s.findGauge name = some metric ↔ ⟨.gauge,name,metric⟩ ∈ rs := by
  rw [MetricsHeap.findGauge,find_entry (names_nodup hs).2.1,h.gauges,List.mem_filterMap]
  simp only [Registration.asGauge_eq,exists_eq_right]

theorem Follows.findHistogram (h : s.Follows rs) (hs : s.WellFormed) :
    s.findHistogram name = some metric ↔
      ∃ upperBounds, ⟨.histogram upperBounds,name,metric⟩ ∈ rs := by
  rw [MetricsHeap.findHistogram,find_entry (names_nodup hs).2.2,h.histograms,List.mem_filterMap]
  constructor
  · rintro ⟨r,hr,hentry⟩
    obtain ⟨upperBounds,rfl⟩ := Registration.asHistogram_eq.mp hentry
    exact ⟨upperBounds,hr⟩
  · rintro ⟨upperBounds,hr⟩
    exact ⟨_,hr,rfl⟩

end MetricsHeap

namespace RegistryCall

/-- The calls of one counter, among all calls. -/
def onCounter (metric : ℕ) (c : Counter) : RegistryCall → Counter
  | .update target (.count amount) => if target = metric then c.increment amount else c
  | _ => c

def onGauge (metric : ℕ) (g : Gauge) : RegistryCall → Gauge
  | .update target (.set value) => if target = metric then g.set value else g
  | .update target .increment => if target = metric then g.increment else g
  | .update target .decrement => if target = metric then g.decrement else g
  | _ => g

def onHistogram (metric : ℕ) (h : Histogram) : RegistryCall → Histogram
  | .update target (.observe sample) => if target = metric then h.observe sample else h
  | _ => h

end RegistryCall

namespace MetricsHeap

variable {s s' : MetricsHeap} {calls : List RegistryCall} {kind : MetricKind} {name : Bytes}
  {metric : ℕ}

theorem Adds.next (hadds : Adds s name kind s') : s'.next = s.next+1 := by
  cases hadds <;> rfl

/-- An object that has been allocated changes by its own calls only. -/
theorem perform_objects (h : metric < s.next) (call : RegistryCall) :
    (s.perform call).counterAt metric = call.onCounter metric (s.counterAt metric) ∧
    (s.perform call).gaugeAt metric = call.onGauge metric (s.gaugeAt metric) ∧
    (s.perform call).histogramAt metric = call.onHistogram metric (s.histogramAt metric) ∧
    metric < (s.perform call).next := by
  obtain ⟨kind,name,s',rfl,-,hadds,hperform,-⟩ | ⟨kind,name,rfl,hperform,-⟩ |
    ⟨target,action,rfl,hperform,-⟩ := s.perform_cases call
  · have hne := Nat.ne_of_lt h
    rw [hperform]
    cases hadds with
    | counter => exact ⟨Function.update_of_ne hne _ _,rfl,rfl,Nat.lt_succ_of_lt h⟩
    | gauge => exact ⟨rfl,Function.update_of_ne hne _ _,rfl,Nat.lt_succ_of_lt h⟩
    | histogram hcreate => exact ⟨rfl,rfl,Function.update_of_ne hne _ _,Nat.lt_succ_of_lt h⟩
  · rw [hperform]
    exact ⟨rfl,rfl,rfl,h⟩
  · rw [hperform]
    by_cases heq : target = metric
    · subst heq
      cases action <;>
        simp [update,RegistryCall.onCounter,RegistryCall.onGauge,RegistryCall.onHistogram,h]
    · have hne : metric ≠ target := fun hmetric => heq hmetric.symm
      cases action <;> simp [update,RegistryCall.onCounter,RegistryCall.onGauge,
        RegistryCall.onHistogram,h,heq,hne]

theorem performAll_objects (h : metric < s.next) (calls : List RegistryCall) :
    (s.performAll calls).counterAt metric =
      calls.foldl (fun c call => call.onCounter metric c) (s.counterAt metric) ∧
    (s.performAll calls).gaugeAt metric =
      calls.foldl (fun g call => call.onGauge metric g) (s.gaugeAt metric) ∧
    (s.performAll calls).histogramAt metric =
      calls.foldl (fun value call => call.onHistogram metric value) (s.histogramAt metric) := by
  induction calls generalizing s with
  | nil => exact ⟨rfl,rfl,rfl⟩
  | cons call calls ih =>
    obtain ⟨hcounter,hgauge,hhistogram,hlt⟩ := perform_objects h call
    obtain ⟨hcounters,hgauges,hhistograms⟩ := ih hlt
    rw [hcounter] at hcounters
    rw [hgauge] at hgauges
    rw [hhistogram] at hhistograms
    exact ⟨hcounters,hgauges,hhistograms⟩

theorem registered_object {before rest : List RegistryCall}
    (h : add kind name (s.performAll before) = .ok metric s') :
    match kind with
    | .counter => (s.performAll (before++.add kind name::rest)).counterAt metric =
        rest.foldl (fun c call => call.onCounter metric c) ⟨0⟩
    | .gauge => (s.performAll (before++.add kind name::rest)).gaugeAt metric =
        rest.foldl (fun g call => call.onGauge metric g) .zero
    | .histogram upperBounds => ∃ value, Histogram.create upperBounds = .ok value ∧
        (s.performAll (before++.add kind name::rest)).histogramAt metric =
          rest.foldl (fun value call => call.onHistogram metric value) value := by
  have hafter : s.performAll (before++.add kind name::rest) = s'.performAll rest := by
    have hperform : (s.performAll before).perform (.add kind name) = s' := Action.after_ok h
    rw [performAll_append,← hperform]
    rfl
  obtain ⟨-,rfl,hadds⟩ := add_ok.mp h
  have hlt : (s.performAll before).next < s'.next := by
    rw [hadds.next]
    exact Nat.lt_succ_self _
  obtain ⟨hcounter,hgauge,hhistogram⟩ := performAll_objects hlt rest
  rw [hafter]
  cases hadds with
  | counter =>
    rw [hcounter]
    simp only [Function.update_self]
  | gauge =>
    rw [hgauge]
    simp only [Function.update_self]
  | histogram hcreate =>
    refine ⟨_,hcreate,?_⟩
    rw [hhistogram]
    simp only [Function.update_self]

end MetricsHeap

namespace Registration

def counterLine (s : MetricsHeap) : Registration → Option (Bytes × ℕ)
  | ⟨.counter,name,metric⟩ => some (name,(s.counterAt metric).value)
  | _ => none

def gaugeLine (s : MetricsHeap) : Registration → Option (Bytes × ℤ × ℤ)
  | ⟨.gauge,name,metric⟩ =>
    some (name,(s.gaugeAt metric).current,(s.gaugeAt metric).highWatermark)
  | _ => none

/-- The bounds are those of the registration, and there is one bucket more. -/
def histogramLine (s : MetricsHeap) :
    Registration → Option (Bytes × List ℕ × List ℕ × ℕ × ℕ)
  | ⟨.histogram upperBounds,name,metric⟩ =>
    some (name,upperBounds,
      (s.histogramAt metric).bucketCounts.toList.take (upperBounds.length+1),
      (s.histogramAt metric).sampleCount,(s.histogramAt metric).sampleSum)
  | _ => none

end Registration

namespace MetricsHeap

variable {s s' : MetricsHeap} {rs : List Registration}

theorem Follows.snapshot_counters (h : s.Follows rs) :
    (s.registry.snapshot.counters.map fun line => (line.name,line.value)) =
      rs.filterMap (Registration.counterLine s) := by
  simp only [MetricsRegistry.snapshot,registry,List.map_map,h.counters,List.map_filterMap]
  refine List.filterMap_congr fun r _ => ?_
  obtain ⟨kind,name,metric⟩ := r
  cases kind <;> rfl

theorem Follows.snapshot_gauges (h : s.Follows rs) :
    (s.registry.snapshot.gauges.map fun line => (line.name,line.value,line.highWatermark)) =
      rs.filterMap (Registration.gaugeLine s) := by
  simp only [MetricsRegistry.snapshot,registry,List.map_map,h.gauges,List.map_filterMap]
  refine List.filterMap_congr fun r _ => ?_
  obtain ⟨kind,name,metric⟩ := r
  cases kind <;> rfl

theorem Follows.snapshot_histograms (h : s.Follows rs) :
    (s.registry.snapshot.histograms.map fun line =>
      (line.name,line.bounds,line.buckets,line.data.sampleCount,line.data.sampleSum)) =
      rs.filterMap (Registration.histogramLine s) := by
  simp only [MetricsRegistry.snapshot,registry,List.map_map,h.histograms,List.map_filterMap]
  refine List.filterMap_congr fun r hr => ?_
  obtain ⟨kind,name,metric⟩ := r
  cases kind with
  | counter | gauge => rfl
  | histogram upperBounds =>
    have hbounds := h.bounds upperBounds name metric hr
    have hlength : (s.histogramAt metric).finiteBucketCount = upperBounds.length := by
      rw [← hbounds,Histogram.bounds_length]
    simp only [Registration.asHistogram,Registration.histogramLine,Option.map_some,
      MetricsRegistry.histogramSnapshot_bounds,MetricsRegistry.histogramSnapshot_buckets,hbounds,
      hlength]
    rfl

end MetricsHeap

namespace MetricsHeap

variable {before rest : List RegistryCall} {kind : MetricKind} {name : Bytes} {metric : ℕ}
  {s' : MetricsHeap}

theorem follows_performAll (calls : List RegistryCall) :
    (empty.performAll calls).Follows (empty.registrations calls) := by
  have hempty : empty.Follows [] := ⟨rfl,rfl,rfl,fun _ _ _ hmem => absurd hmem List.not_mem_nil⟩
  exact hempty.performAll wellFormed_empty calls

theorem mem_registrations (h : add kind name (empty.performAll before) = .ok metric s') :
    ⟨kind,name,metric⟩ ∈ empty.registrations (before++.add kind name::rest) := by
  have hregistration : (empty.performAll before).registration (.add kind name) =
      some ⟨kind,name,metric⟩ := by
    rw [registration,h]
  rw [registrations_append,registrations,hregistration]
  exact List.mem_append_right _ List.mem_cons_self

end MetricsHeap

/-- A registry is the list of the registrations that returned, whatever calls threw between them
and however its metrics were used. -/
theorem registry_history (calls : List RegistryCall) :
    let s := MetricsHeap.empty.performAll calls
    let rs := MetricsHeap.empty.registrations calls
    (s.registry.size = rs.length ∧ rs.length ≤ MetricsRegistry.kMaxMetricCount) ∧
    (s.registry.names.Perm (rs.map Registration.name) ∧ (rs.map Registration.name).Nodup ∧
      ∀ r ∈ rs, r.name ≠ [] ∧ r.name.length ≤ MetricsRegistry.kMaxMetricNameLength) ∧
    (∀ kind name, (∀ failure s', MetricsHeap.add kind name s = .error failure s' → s' = s) ∧
      ((∃ metric s', MetricsHeap.add kind name s = .ok metric s') ↔
        name ≠ [] ∧ name.length ≤ MetricsRegistry.kMaxMetricNameLength ∧
          (∀ r ∈ rs, r.name ≠ name) ∧ rs.length < MetricsRegistry.kMaxMetricCount ∧
          kind.Accepts)) ∧
    (∀ name metric, (s.findCounter name = some metric ↔ ⟨.counter,name,metric⟩ ∈ rs) ∧
      (s.findGauge name = some metric ↔ ⟨.gauge,name,metric⟩ ∈ rs) ∧
      (s.findHistogram name = some metric ↔
        ∃ upperBounds, ⟨.histogram upperBounds,name,metric⟩ ∈ rs)) ∧
    (∀ before name rest metric s', calls = before++.add .counter name::rest →
      MetricsHeap.add .counter name (MetricsHeap.empty.performAll before) = .ok metric s' →
        s.findCounter name = some metric ∧
        s.counterAt metric = rest.foldl (fun c call => call.onCounter metric c) ⟨0⟩) ∧
    (∀ before name rest metric s', calls = before++.add .gauge name::rest →
      MetricsHeap.add .gauge name (MetricsHeap.empty.performAll before) = .ok metric s' →
        s.findGauge name = some metric ∧
        s.gaugeAt metric = rest.foldl (fun g call => call.onGauge metric g) .zero) ∧
    (∀ before upperBounds name rest metric s',
      calls = before++.add (.histogram upperBounds) name::rest →
      MetricsHeap.add (.histogram upperBounds) name (MetricsHeap.empty.performAll before) =
        .ok metric s' →
        s.findHistogram name = some metric ∧
        ∃ value, Histogram.create upperBounds = .ok value ∧ s.histogramAt metric =
          rest.foldl (fun value call => call.onHistogram metric value) value) ∧
    (s.registry.snapshot.counters.map fun line => (line.name,line.value)) =
      rs.filterMap (Registration.counterLine s) ∧
    (s.registry.snapshot.gauges.map fun line => (line.name,line.value,line.highWatermark)) =
      rs.filterMap (Registration.gaugeLine s) ∧
    (s.registry.snapshot.histograms.map fun line =>
      (line.name,line.bounds,line.buckets,line.data.sampleCount,line.data.sampleSum)) =
      rs.filterMap (Registration.histogramLine s) := by
  intro s rs
  have hs : s.WellFormed := MetricsHeap.performAll_wellFormed MetricsHeap.wellFormed_empty calls
  have h : s.Follows rs := MetricsHeap.follows_performAll calls
  refine ⟨⟨h.size,?_⟩,⟨h.names,?_,fun r hr => ?_⟩,fun kind name => ⟨?_,h.add_returns_iff kind name⟩,
    fun name metric => ⟨h.findCounter hs,h.findGauge hs,h.findHistogram hs⟩,?_,?_,?_,
    h.snapshot_counters,h.snapshot_gauges,h.snapshot_histograms⟩
  · rw [← h.size]
    exact hs.registered.size_le
  · exact h.names.nodup_iff.mp hs.registered.nodup
  · exact hs.registered.accepted r.name (h.names.mem_iff.mpr (List.mem_map.mpr ⟨r,hr,rfl⟩))
  · intro failure s' hthrown
    exact MetricsHeap.add_atomic kind name hthrown
  · rintro before name rest metric s' rfl hadd
    exact ⟨(h.findCounter hs).mpr (MetricsHeap.mem_registrations hadd),
      MetricsHeap.registered_object hadd⟩
  · rintro before name rest metric s' rfl hadd
    exact ⟨(h.findGauge hs).mpr (MetricsHeap.mem_registrations hadd),
      MetricsHeap.registered_object hadd⟩
  · rintro before upperBounds name rest metric s' rfl hadd
    exact ⟨(h.findHistogram hs).mpr ⟨_,MetricsHeap.mem_registrations hadd⟩,
      MetricsHeap.registered_object hadd⟩

end AsyncDataLoader
