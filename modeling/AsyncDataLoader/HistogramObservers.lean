import AsyncDataLoader.AtomicAdditions
import AsyncDataLoader.BinarySearch
import AsyncDataLoader.MetricsHeap

/-!
# Concurrent observers of a histogram

Threads call `Histogram::observe` at the same time. Each call searches its bucket and makes three
atomic additions, between which the other threads make theirs.
-/

namespace AsyncDataLoader

open BinarySearch

namespace Histogram

def addToBucket (h : Histogram) (i : Fin kMaxBucketCount) : Histogram :=
  { h with bucketCounts := h.bucketCounts.set i ((h.bucketCounts.get i+1)%2^64) }

def addToSum (h : Histogram) (sample : ℕ) : Histogram :=
  { h with sampleSum := (h.sampleSum+sample)%2^64 }

def addToCount (h : Histogram) : Histogram := { h with sampleCount := (h.sampleCount+1)%2^64 }

/-- The samples that the bucket counts: above the bound before it, and not above its own. -/
def InBucket (bounds : List ℕ) (i sample : ℕ) : Prop :=
  (i = 0 ∨ bounds.getD (i-1) 0 < sample) ∧ (i = bounds.length ∨ sample ≤ bounds.getD i 0)

instance (bounds : List ℕ) (i : ℕ) : DecidablePred (InBucket bounds i) := fun sample => by
  unfold InBucket
  infer_instance

end Histogram

inductive ObserverPlace
  | outside
  | addBucket (bucketIndex sample : ℕ) -- bucket_counts_[bucket_index].fetch_add
  | addSum (sample : ℕ)
  | addCount
  deriving DecidableEq

structure ObserverState (ι : Type*) where
  histogram : Histogram
  place : ι → ObserverPlace

inductive ObserverAction (ι : Type*)
  | observe (t : ι) (sample : ℕ)
  | addBucket (t : ι)
  | addSum (t : ι)
  | addCount (t : ι)

namespace ObserverState

variable {ι : Type*} [DecidableEq ι]

def start (ι : Type*) (h : Histogram) : ObserverState ι := ⟨h,fun _ => .outside⟩

/-- An access behind the end of `bucket_counts_` is not defined. -/
def step (s : ObserverState ι) : ObserverAction ι → Option (ObserverState ι)
  | .observe t sample =>
    match s.place t with
    | .outside =>
      let bucketIndex := lowerBound s.histogram.bounds sample
      some { s with place := Function.update s.place t (.addBucket bucketIndex sample) }
    | _ => none
  | .addBucket t =>
    match s.place t with
    | .addBucket bucketIndex sample =>
      if h : bucketIndex < kMaxBucketCount then
        some ⟨s.histogram.addToBucket ⟨bucketIndex,h⟩,Function.update s.place t (.addSum sample)⟩
      else none
    | _ => none
  | .addSum t =>
    match s.place t with
    | .addSum sample =>
      some ⟨s.histogram.addToSum sample,Function.update s.place t .addCount⟩
    | _ => none
  | .addCount t =>
    match s.place t with
    | .addCount => some ⟨s.histogram.addToCount,Function.update s.place t .outside⟩
    | _ => none

end ObserverState

def observerSystem (ι : Type*) [DecidableEq ι] :
    TransitionSystem (ObserverAction ι) (ObserverState ι) where
  step action s := s.step action

def observedSamples {ι : Type*} (actions : List (ObserverAction ι)) : List ℕ :=
  actions.filterMap fun
    | .observe _ sample => some sample
    | _ => none

inductive HistogramCell
  | bucket (i : ℕ)
  | sum
  | count
  deriving DecidableEq

def ObserverPlace.additions : ObserverPlace → List (HistogramCell × ℕ)
  | .outside => []
  | .addBucket bucketIndex sample => [(.bucket bucketIndex,1),(.sum,sample),(.count,1)]
  | .addSum sample => [(.sum,sample),(.count,1)]
  | .addCount => [(.count,1)]

def ObserverAction.adder {ι : Type*} (bounds : List ℕ) :
    ObserverAction ι → AdderAction ι HistogramCell ℕ
  | .observe t sample => .call t (ObserverPlace.addBucket (lowerBound bounds sample) sample).additions
  | .addBucket t => .add t
  | .addSum t => .add t
  | .addCount t => .add t

/-- The members are the cells modulo 2^64. -/
structure Histogram.Holds (h : Histogram) (cells : HistogramCell → ℕ) : Prop where
  bucket : ∀ i : Fin kMaxBucketCount, h.bucketCounts.get i = cells (.bucket i)%2^64
  sum : h.sampleSum = cells .sum%2^64
  count : h.sampleCount = cells .count%2^64

namespace Histogram

variable {h : Histogram} {cells : HistogramCell → ℕ}

theorem addToBucket_get (h : Histogram) (i j : Fin kMaxBucketCount) :
    (h.addToBucket i).bucketCounts.get j =
      if i = j then (h.bucketCounts.get i+1)%2^64 else h.bucketCounts.get j := by
  have hget : ∀ (v : Vector ℕ kMaxBucketCount) (k : Fin kMaxBucketCount), v.get k = v[k.val] :=
    fun _ _ => rfl
  simp only [addToBucket,hget,Vector.getElem_set,Fin.ext_iff]

theorem Holds.addToBucket (hh : h.Holds cells) (i : Fin kMaxBucketCount) :
    (h.addToBucket i).Holds (Function.update cells (.bucket i) (cells (.bucket i)+1)) := by
  refine ⟨fun j => ?_,?_,?_⟩
  · rw [addToBucket_get]
    split_ifs with hij
    · subst hij
      rw [Function.update_self,hh.bucket i,Nat.mod_add_mod]
    · have hne : HistogramCell.bucket j ≠ .bucket i := fun heq =>
        hij (Fin.ext (HistogramCell.bucket.inj heq).symm)
      rw [Function.update_of_ne hne]
      exact hh.bucket j
  · rw [Function.update_of_ne (by simp)]
    exact hh.sum
  · rw [Function.update_of_ne (by simp)]
    exact hh.count

theorem Holds.addToSum (hh : h.Holds cells) (sample : ℕ) :
    (h.addToSum sample).Holds (Function.update cells .sum (cells .sum+sample)) := by
  refine ⟨fun j => ?_,?_,?_⟩
  · rw [Function.update_of_ne (by simp)]
    exact hh.bucket j
  · rw [Function.update_self,Histogram.addToSum,hh.sum,Nat.mod_add_mod]
  · rw [Function.update_of_ne (by simp)]
    exact hh.count

theorem Holds.addToCount (hh : h.Holds cells) :
    h.addToCount.Holds (Function.update cells .count (cells .count+1)) := by
  refine ⟨fun j => ?_,?_,?_⟩
  · rw [Function.update_of_ne (by simp)]
    exact hh.bucket j
  · rw [Function.update_of_ne (by simp)]
    exact hh.sum
  · rw [Function.update_self,Histogram.addToCount,hh.count,Nat.mod_add_mod]

end Histogram

/-- The observers are at the places of the additions, and the members hold the cells. -/
structure Observes {ι : Type*} (bounds : List ℕ) (s : ObserverState ι)
    (a : Adders ι HistogramCell ℕ) : Prop where
  bounds_eq : s.histogram.bounds = bounds
  holds : s.histogram.Holds a.cells
  pending : ∀ t, a.pending t = (s.place t).additions
  searched : ∀ t bucketIndex sample, s.place t = .addBucket bucketIndex sample →
    bucketIndex = lowerBound bounds sample

namespace Observes

variable {ι : Type*} [DecidableEq ι] {bounds : List ℕ} {s s' : ObserverState ι}
  {a : Adders ι HistogramCell ℕ} {t : ι} {place : ObserverPlace}

theorem move (h : Observes bounds s a) (t : ι) (place : ObserverPlace) (u : ι) :
    Function.update a.pending t place.additions u =
      (Function.update s.place t place u).additions := by
  by_cases hu : u = t
  · subst hu
    rw [Function.update_self,Function.update_self]
  · rw [Function.update_of_ne hu,Function.update_of_ne hu]
    exact h.pending u

theorem move_searched (h : Observes bounds s a) (t : ι)
    (hplace : ∀ bucketIndex sample, place = .addBucket bucketIndex sample →
      bucketIndex = lowerBound bounds sample) (u : ι) (bucketIndex sample : ℕ)
    (hu : Function.update s.place t place u = .addBucket bucketIndex sample) :
    bucketIndex = lowerBound bounds sample := by
  by_cases hut : u = t
  · subst hut
    rw [Function.update_self] at hu
    exact hplace _ _ hu
  · rw [Function.update_of_ne hut] at hu
    exact h.searched u _ _ hu

theorem add {n : HistogramCell} {x : ℕ} (h : Observes bounds s a)
    (hplace : (s.place t).additions = (n,x)::place.additions)
    (hnext : ∀ bucketIndex sample, place ≠ .addBucket bucketIndex sample) {histogram : Histogram}
    (hbounds : histogram.bounds = s.histogram.bounds)
    (hholds : histogram.Holds (Function.update a.cells n (a.cells n+x))) :
    ∃ b, (adderSystem ι HistogramCell ℕ).step (.add t) a = some b ∧
      Observes bounds ⟨histogram,Function.update s.place t place⟩ b := by
  refine ⟨⟨Function.update a.cells n (a.cells n+x),Function.update a.pending t place.additions⟩,?_,
    hbounds.trans h.bounds_eq,hholds,h.move t place,
    h.move_searched t fun _ _ heq => absurd heq (hnext _ _)⟩
  simp only [adderSystem,Adders.step,h.pending t,hplace]

theorem step (h : Observes bounds s a) {action : ObserverAction ι}
    (hstep : s.step action = some s') :
    ∃ b, (adderSystem ι HistogramCell ℕ).step (action.adder bounds) a = some b ∧
      Observes bounds s' b := by
  cases action with
  | observe t sample =>
    simp only [ObserverState.step] at hstep
    split at hstep
    · rename_i hplace
      obtain rfl := Option.some.inj hstep
      have hidle : a.pending t = [] := by rw [h.pending t,hplace]; rfl
      rw [h.bounds_eq]
      refine ⟨{ a with pending := Function.update a.pending t _ },?_,h.bounds_eq,h.holds,
        h.move t (.addBucket (lowerBound bounds sample) sample),h.move_searched t ?_⟩
      · simp only [ObserverAction.adder,adderSystem,Adders.step,hidle]
      · rintro bucketIndex sample' heq
        obtain ⟨rfl,rfl⟩ := ObserverPlace.addBucket.inj heq
        rfl
    · cases hstep
  | addBucket t =>
    simp only [ObserverState.step] at hstep
    split at hstep
    · rename_i bucketIndex sample hplace
      split_ifs at hstep with hindex
      obtain rfl := Option.some.inj hstep
      have hadditions : (s.place t).additions =
          (.bucket bucketIndex,1)::(ObserverPlace.addSum sample).additions := by rw [hplace]; rfl
      exact h.add hadditions (by simp) rfl (h.holds.addToBucket ⟨bucketIndex,hindex⟩)
    · cases hstep
  | addSum t =>
    simp only [ObserverState.step] at hstep
    split at hstep
    · rename_i sample hplace
      obtain rfl := Option.some.inj hstep
      have hadditions : (s.place t).additions =
          (.sum,sample)::ObserverPlace.addCount.additions := by rw [hplace]; rfl
      exact h.add hadditions (by simp) rfl (h.holds.addToSum sample)
    · cases hstep
  | addCount t =>
    simp only [ObserverState.step] at hstep
    split at hstep
    · rename_i hplace
      obtain rfl := Option.some.inj hstep
      have hadditions : (s.place t).additions =
          (.count,1)::ObserverPlace.outside.additions := by rw [hplace]; rfl
      exact h.add hadditions (by simp) rfl h.holds.addToCount
    · cases hstep

end Observes

section Quiescent

variable {ι : Type*} {h : Histogram}

theorem called_adder (bounds : List ℕ) (actions : List (ObserverAction ι)) :
    Adders.called (actions.map (ObserverAction.adder bounds)) = (observedSamples actions).map
      fun sample => (ObserverPlace.addBucket (lowerBound bounds sample) sample).additions := by
  induction actions with
  | nil => rfl
  | cons action actions ih =>
    cases action with
    | observe t sample => exact congrArg (_::·) ih
    | addBucket t | addSum t | addCount t => exact ih

def totals (bounds : List ℕ) (samples : List ℕ) : HistogramCell → ℕ
  | .bucket i => samples.countP fun sample => lowerBound bounds sample = i
  | .sum => samples.sum
  | .count => samples.length

theorem totals_eq (bounds samples : List ℕ) (n : HistogramCell) :
    ((samples.map fun sample =>
      (ObserverPlace.addBucket (lowerBound bounds sample) sample).additions).map (amount n)).sum =
        totals bounds samples n := by
  induction samples with
  | nil => cases n <;> rfl
  | cons sample samples ih =>
    rw [List.map_cons,List.map_cons,List.sum_cons,ih]
    cases n with
    | bucket i => simp [ObserverPlace.additions,totals,List.countP_cons,add_comm]
    | sum => simp [ObserverPlace.additions,totals]
    | count => simp [ObserverPlace.additions,totals,add_comm]

theorem exec_observes [DecidableEq ι] (hzero : h.Holds fun _ => 0)
    {actions : List (ObserverAction ι)} {s : ObserverState ι}
    (hrun : (observerSystem ι).exec (.start ι h) actions = some s) :
    ∃ a, (adderSystem ι HistogramCell ℕ).exec ⟨fun _ => 0,fun _ => []⟩
      (actions.map (ObserverAction.adder h.bounds)) = some a ∧ Observes h.bounds s a := by
  have hstart : Observes h.bounds (.start ι h) ⟨fun _ => 0,fun _ => []⟩ :=
    ⟨rfl,hzero,fun _ => rfl,nofun⟩
  exact TransitionSystem.exec_simulates (R := Observes h.bounds)
    (fun l s t a hR hstep => hR.step hstep) hstart hrun

theorem exec_holds [Fintype ι] [DecidableEq ι] (hzero : h.Holds fun _ => 0)
    {actions : List (ObserverAction ι)} {s : ObserverState ι}
    (hrun : (observerSystem ι).exec (.start ι h) actions = some s)
    (hdone : ∀ t, s.place t = .outside) :
    s.histogram.bounds = h.bounds ∧
      s.histogram.Holds (totals h.bounds (observedSamples actions)) := by
  obtain ⟨a,hadders,hobserves⟩ := exec_observes hzero hrun
  have hidle : ∀ t, a.pending t = [] := fun t => by
    rw [hobserves.pending t,hdone t]
    rfl
  have hcells : a.cells = totals h.bounds (observedSamples actions) := by
    funext n
    rw [Adders.exec_cells hadders hidle n,called_adder,totals_eq,Nat.zero_add]
  exact ⟨hobserves.bounds_eq,hcells ▸ hobserves.holds⟩

end Quiescent

namespace Histogram

variable {upperBounds : List ℕ} {h : Histogram}

theorem create_ok : (∃ h, create upperBounds = .ok h) ↔
    upperBounds ≠ [] ∧ upperBounds.length ≤ kMaxFiniteBuckets ∧ upperBounds.Pairwise (· < ·) := by
  rw [← List.isChain_iff_pairwise]
  unfold create
  split_ifs with hempty hlen hchain
  · simp [hempty]
  · simp [Nat.not_le_of_gt hlen]
  · exact iff_of_true ⟨_,rfl⟩ ⟨hempty,Nat.le_of_not_gt hlen,hchain⟩
  · simp [hchain]

theorem create_holds (hcreate : create upperBounds = .ok h) : h.Holds fun _ => 0 := by
  unfold create at hcreate
  split_ifs at hcreate
  obtain rfl := Except.ok.inj hcreate
  refine ⟨fun i => ?_,rfl,rfl⟩
  exact Vector.getElem_replicate i.isLt

theorem inBucket_iff (hsorted : upperBounds.Pairwise (· < ·)) {i : ℕ} (hi : i ≤ upperBounds.length)
    (sample : ℕ) : InBucket upperBounds i sample ↔ lowerBound upperBounds sample = i := by
  have hle := lowerBound_le hsorted sample
  have hbounds : ∀ j (hj : j < upperBounds.length), upperBounds.getD j 0 < sample ↔
      j < lowerBound upperBounds sample := by
    intro j hj
    have hget := List.getElem?_eq_getElem hj
    rw [List.getD_eq_getElem?_getD,hget,Option.getD_some]
    exact lt_iff_lt_lowerBound hsorted hget
  constructor
  · rintro ⟨hlow,hhigh⟩
    by_contra hne
    obtain hlt | hgt := Nat.lt_or_gt_of_ne hne
    · have hbefore := (hbounds (i-1) (by omega)).mp (hlow.resolve_left (by omega))
      omega
    · have hbefore := (hbounds i (by omega)).mpr hgt
      have habove := hhigh.resolve_left (by omega)
      omega
  · rintro rfl
    refine ⟨?_,?_⟩
    · obtain hzero | hpos := Nat.eq_zero_or_pos (lowerBound upperBounds sample)
      · exact .inl hzero
      · exact .inr ((hbounds _ (by omega)).mpr (by omega))
    · obtain heq | hlt := Nat.eq_or_lt_of_le hle
      · exact .inl heq
      · exact .inr (Nat.le_of_not_lt fun hbelow => Nat.lt_irrefl _ ((hbounds _ hlt).mp hbelow))

theorem sum_countP {f : ℕ → ℕ} {n : ℕ} (hf : ∀ x, f x < n) (samples : List ℕ) :
    ((List.range n).map fun i => samples.countP fun x => f x = i).sum = samples.length := by
  induction samples with
  | nil => simp
  | cons x samples ih =>
    have hone : ((List.range n).map fun i => if f x = i then 1 else 0).sum = 1 := by
      have hsum := Finset.sum_ite_eq (Finset.range n) (f x) fun _ => 1
      rwa [if_pos (Finset.mem_range.mpr (hf x))] at hsum
    simp only [List.countP_cons,decide_eq_true_eq,List.length_cons]
    rw [List.sum_map_add,ih,hone]

end Histogram

open Histogram

/-- The snapshot of a histogram that has observed the samples. -/
def HistogramData.ofSamples (upperBounds samples : List ℕ) : HistogramData where
  sampleCount := samples.length%2^64
  sampleSum := samples.sum%2^64
  bucketCount := upperBounds.length+1
  bucketCounts := filled _ ((List.range (upperBounds.length+1)).map fun i =>
    samples.countP (InBucket upperBounds i)%2^64)

theorem HistogramData.ofSamples_perm (upperBounds : List ℕ) {samples samples' : List ℕ}
    (h : samples.Perm samples') : ofSamples upperBounds samples = ofSamples upperBounds samples' := by
  simp only [ofSamples,h.length_eq,h.sum_eq,h.countP_eq]

theorem HistogramData.ofSamples_buckets {upperBounds : List ℕ}
    (hlen : upperBounds.length ≤ kMaxFiniteBuckets) (samples : List ℕ) :
    (ofSamples upperBounds samples).bucketCounts.toList.take (upperBounds.length+1) =
      (List.range (upperBounds.length+1)).map fun i =>
        samples.countP (InBucket upperBounds i)%2^64 := by
  have hfilled := @filled_take kMaxBucketCount ((List.range (upperBounds.length+1)).map fun i =>
    samples.countP (InBucket upperBounds i)%2^64)
      (by rw [List.length_map,List.length_range]; exact Nat.succ_le_succ hlen)
  rwa [List.length_map,List.length_range] at hfilled

theorem exec_snapshot {ι : Type*} [Fintype ι] [DecidableEq ι] {upperBounds : List ℕ}
    {h : Histogram} (hcreate : create upperBounds = .ok h) {actions : List (ObserverAction ι)}
    {s : ObserverState ι} (hrun : (observerSystem ι).exec (.start ι h) actions = some s)
    (hdone : ∀ t, s.place t = .outside) :
    s.histogram.snapshot = .ofSamples upperBounds (observedSamples actions) := by
  obtain ⟨hbounds,hholds⟩ := exec_holds (create_holds hcreate) hrun hdone
  obtain ⟨-,hlen,hsorted⟩ := create_ok.mp ⟨h,hcreate⟩
  rw [create_bounds hcreate] at hbounds hholds
  have hcount : s.histogram.finiteBucketCount = upperBounds.length := by
    rw [← s.histogram.bounds_length,hbounds]
  have hbuckets : s.histogram.bucketCounts.toList.take (upperBounds.length+1) =
      (List.range (upperBounds.length+1)).map fun i =>
        (observedSamples actions).countP (InBucket upperBounds i)%2^64 := by
    refine List.ext_getElem ?_ fun i hi hj => ?_
    · rw [List.length_take,Vector.length_toList,List.length_map,List.length_range]
      exact Nat.min_eq_left (Nat.succ_le_succ hlen)
    have hle : i ≤ upperBounds.length := by simpa [Nat.lt_succ_iff] using hj
    have hbucket := hholds.bucket ⟨i,Nat.lt_succ_of_le (hle.trans hlen)⟩
    simp only [List.getElem_take,List.getElem_map,List.getElem_range,Vector.getElem_toList]
    refine (show _ = _ from hbucket).trans ?_
    simp only [totals,inBucket_iff hsorted hle]
  rw [Histogram.snapshot,hcount,hbuckets,hholds.sum,hholds.count]
  rfl

theorem HistogramData.ofSamples_sum {upperBounds : List ℕ}
    (hlen : upperBounds.length ≤ kMaxFiniteBuckets) (hsorted : upperBounds.Pairwise (· < ·))
    (samples : List ℕ) :
    ((ofSamples upperBounds samples).bucketCounts.toList.take (upperBounds.length+1)).sum%2^64 =
      samples.length%2^64 := by
  have hbuckets : ∀ i ∈ List.range (upperBounds.length+1),
      samples.countP (InBucket upperBounds i) =
        samples.countP fun sample => lowerBound upperBounds sample = i := by
    intro i hi
    have hle : i ≤ upperBounds.length := Nat.le_of_lt_succ (List.mem_range.mp hi)
    simp only [inBucket_iff hsorted hle]
  have hsum := sum_countP (fun sample => Nat.lt_succ_of_le (lowerBound_le hsorted sample)) samples
  have hmod := List.sum_nat_mod ((List.range (upperBounds.length+1)).map fun i =>
    samples.countP (InBucket upperBounds i)) (2^64)
  rw [List.map_map] at hmod
  rw [ofSamples_buckets hlen]
  refine hmod.symm.trans ?_
  rw [List.map_congr_left hbuckets,hsum]

def ObserverAction.whole {ι : Type*} (t : ι) (sample : ℕ) : List (ObserverAction ι) :=
  [.observe t sample,.addBucket t,.addSum t,.addCount t]

/-- Without other threads a call does what `Histogram.observe` says. -/
theorem exec_whole {ι : Type*} [DecidableEq ι] {h : Histogram} (hsorted : h.bounds.Pairwise (· < ·))
    (t : ι) (sample : ℕ) : (observerSystem ι).exec (.start ι h) (ObserverAction.whole t sample) =
      some (.start ι (h.observe sample)) := by
  have hindex : lowerBound h.bounds sample = h.bucketIndex sample := lowerBound_eq hsorted sample
  have hlt : h.bucketIndex sample < kMaxBucketCount := (h.bucket sample).isLt
  have hidle : Function.update (fun _ : ι => ObserverPlace.outside) t .outside =
      fun _ => .outside := Function.update_eq_self t _
  simp only [ObserverAction.whole,TransitionSystem.exec_cons,TransitionSystem.exec_nil,
    observerSystem,ObserverState.step,ObserverState.start,Option.bind_some,Function.update_self,
    Function.update_idem,hindex,dif_pos hlt,hidle]
  rfl

theorem exec_alone {ι : Type*} [DecidableEq ι] {h : Histogram} (hsorted : h.bounds.Pairwise (· < ·))
    (t : ι) (samples : List ℕ) :
    (observerSystem ι).exec (.start ι h) (samples.flatMap (ObserverAction.whole t)) =
      some (.start ι (samples.foldl Histogram.observe h)) := by
  induction samples generalizing h with
  | nil => rfl
  | cons sample samples ih =>
    rw [List.flatMap_cons,TransitionSystem.exec_append,exec_whole hsorted,Option.bind_some]
    exact ih hsorted

/-- The calls leave what they leave one after the other. -/
theorem exec_snapshot_foldl {ι : Type*} [Fintype ι] [DecidableEq ι] {upperBounds : List ℕ}
    {h : Histogram} (hcreate : create upperBounds = .ok h) {actions : List (ObserverAction ι)}
    {s : ObserverState ι} (hrun : (observerSystem ι).exec (.start ι h) actions = some s)
    (hdone : ∀ t, s.place t = .outside) :
    s.histogram.snapshot = ((observedSamples actions).foldl Histogram.observe h).snapshot := by
  obtain ⟨-,-,hsorted⟩ := create_ok.mp ⟨h,hcreate⟩
  rw [← create_bounds hcreate] at hsorted
  have halone := exec_snapshot hcreate (exec_alone hsorted () (observedSamples actions)) fun _ => rfl
  have hsamples : ∀ samples, observedSamples (samples.flatMap (ObserverAction.whole ())) = samples := by
    intro samples
    induction samples with
    | nil => rfl
    | cons sample samples ih => exact congrArg (sample::·) ih
  rw [hsamples] at halone
  exact (exec_snapshot hcreate hrun hdone).trans halone.symm

/-- After any calls of `observe`, in any interleaving of their additions, the snapshot counts their
samples by buckets. It does not depend on their order, and not on who made the calls. -/
theorem histogram_snapshot {ι κ : Type*} [Fintype ι] [DecidableEq ι] [Fintype κ] [DecidableEq κ]
    (upperBounds : List ℕ) :
    ((∃ h, create upperBounds = .ok h) ↔
      upperBounds ≠ [] ∧ upperBounds.length ≤ 32 ∧ upperBounds.Pairwise (· < ·)) ∧
    ∀ h, create upperBounds = .ok h →
      h.finiteBucketCount+1 ≤ 33 ∧
      ∀ (actions : List (ObserverAction ι)) s,
        (observerSystem ι).exec (.start ι h) actions = some s →
        (∀ t bucketIndex sample, s.place t = .addBucket bucketIndex sample →
          bucketIndex < h.finiteBucketCount+1) ∧
        ((∀ t, s.place t = .outside) →
          let samples := observedSamples actions
          let snapshot := s.histogram.snapshot
          snapshot.bucketCount = upperBounds.length+1 ∧
          snapshot.bucketCounts.toList.take snapshot.bucketCount =
            ((List.range (upperBounds.length+1)).map fun i =>
              samples.countP (InBucket upperBounds i)%2^64) ∧
          snapshot.sampleCount = samples.length%2^64 ∧
          snapshot.sampleCount =
            (snapshot.bucketCounts.toList.take snapshot.bucketCount).sum%2^64 ∧
          snapshot.sampleSum = samples.sum%2^64 ∧
          ∀ (actions' : List (ObserverAction κ)) s',
            (observerSystem κ).exec (.start κ h) actions' = some s' →
            (∀ t, s'.place t = .outside) → (observedSamples actions').Perm samples →
              s'.histogram.snapshot = snapshot) := by
  refine ⟨create_ok,fun h hcreate => ?_⟩
  obtain ⟨-,hlen,hsorted⟩ := create_ok.mp ⟨h,hcreate⟩
  refine ⟨Nat.succ_le_succ h.finiteBucketCount_le,fun actions s hrun => ⟨?_,fun hdone => ?_⟩⟩
  · intro t bucketIndex sample hplace
    obtain ⟨a,-,hobserves⟩ := exec_observes (create_holds hcreate) hrun
    rw [hobserves.searched t bucketIndex sample hplace,← h.bounds_length,create_bounds hcreate]
    exact Nat.lt_succ_of_le (lowerBound_le hsorted sample)
  · intro samples snapshot
    have hsnapshot : snapshot = .ofSamples upperBounds samples := exec_snapshot hcreate hrun hdone
    rw [hsnapshot]
    refine ⟨rfl,HistogramData.ofSamples_buckets hlen samples,rfl,
      (HistogramData.ofSamples_sum hlen hsorted samples).symm,rfl,
      fun actions' s' hrun' hdone' hperm => ?_⟩
    rw [exec_snapshot hcreate hrun' hdone',HistogramData.ofSamples_perm upperBounds hperm]

def ObserverAction.overtaken : List (ObserverAction Bool) :=
  [.observe false 10,.observe true 11,.addBucket true,.addBucket false,.addSum true,.addCount true,
    .addSum false,.addCount false]

theorem histogram_snapshot_overtaken : ∃ h s, create [10,20] = .ok h ∧
    (observerSystem Bool).exec (.start Bool h) ObserverAction.overtaken = some s ∧
    s.histogram.snapshot.sampleSum = 21 ∧
    s.histogram.snapshot.bucketCounts.toList.take s.histogram.snapshot.bucketCount = [1,1,0] := by
  refine ⟨_,_,rfl,rfl,?_⟩
  obtain ⟨-,hcreated⟩ := @histogram_snapshot Bool Unit _ _ _ _ [10,20]
  obtain ⟨-,hruns⟩ := hcreated _ rfl
  obtain ⟨-,hquiescent⟩ := hruns ObserverAction.overtaken _ rfl
  obtain ⟨-,hbuckets,-,-,hsum,-⟩ := hquiescent (by decide)
  exact ⟨hsum.trans (by decide),hbuckets.trans (by decide)⟩

end AsyncDataLoader
