import AsyncDataLoader.BenchmarkSamples
import AsyncDataLoader.OrderStatistics
import Mathlib.Data.Char
import Mathlib.Data.List.Lex
import Mathlib.Data.Prod.Lex
import Mathlib.Data.Rat.Floor
import Mathlib.Algebra.Order.Floor.Ring

/-!
# Benchmark summaries

What `summarize` of the analysis script computes of the samples, with rational numbers for its
floats, and that the order of the samples does not matter.
-/

namespace AsyncDataLoader
namespace Benchmark

open Grouping OrderStatistics Python

def MEBIBYTE : ℕ := 1024*1024

def MAX_GROUPS : ℕ := 200

def BACKEND_ORDER : RequestedBackend → ℕ
  | .sync => 0
  | .threadpool => 1
  | .uring => 2
  | .auto => 3

inductive RssLimitStatus
  | notSet
  | mixed
  | passed
  | failed
  deriving DecidableEq, Repr

structure Summary extends GroupKey where
  sampleCount : ℕ
  averageElapsedMs : ℚ
  medianElapsedMs : ℚ
  p95ElapsedMs : ℚ
  aggregateThroughputMibS : ℚ
  maxPeakRssKib : ℕ
  maxInflightPeak : ℕ
  maxReadProcessQueuePeak : ℕ
  maxProcessWriteQueuePeak : ℕ
  rssLimitMib : Text
  rssLimitStatus : RssLimitStatus
  speedupVsSyncSameConfig : Option ℚ
  deriving DecidableEq

def sorted (values : List ℚ) : List ℚ := sortBy id values

def nearestRank (values : List ℚ) (percentile : ℚ) : ℚ :=
  let ordered := sorted values
  ordered[(⌈percentile*ordered.length⌉-1).toNat]?.getD 0

def fmean (values : List ℚ) : ℚ := values.sum/values.length

def median (values : List ℚ) : ℚ :=
  let data := sorted values
  let i := data.length/2
  if data.length%2 = 1 then data[i]?.getD 0 else (data[i-1]?.getD 0+data[i]?.getD 0)/2

def maxOf (f : Sample → ℕ) (group : List Sample) : ℕ := (group.map f).foldr max 0

/-- `limit_text` and `limit_status`, from the set of the limits. -/
def rssLimit (group : List Sample) : Text × RssLimitStatus :=
  match (group.map Sample.rssLimitMib).dedup with
  | [none] => ([],.notSet)
  | [some limit] => (Nat.toDigits 10 limit,
      if group.all fun sample => sample.rssWithinLimit = some true then .passed else .failed)
  | _ => ("mixed".toList,.mixed)

/-- The summary of a group, before the speedups; its first sample has the fields of the key. -/
def summarizeGroup (key : GroupKey) (group : List Sample) : Summary :=
  let elapsed := group.map Sample.elapsedMs
  { toGroupKey := key
    sampleCount := group.length
    averageElapsedMs := fmean elapsed
    medianElapsedMs := median elapsed
    p95ElapsedMs := nearestRank elapsed (95/100)
    aggregateThroughputMibS :=
      (key.inputBytes : ℚ)*(group.length : ℚ)/(MEBIBYTE : ℚ)/(elapsed.sum/1000)
    maxPeakRssKib := maxOf Sample.peakRssKib group
    maxInflightPeak := maxOf Sample.inflightPeak group
    maxReadProcessQueuePeak := maxOf Sample.readProcessQueuePeak group
    maxProcessWriteQueuePeak := maxOf Sample.processWriteQueuePeak group
    rssLimitMib := (rssLimit group).1
    rssLimitStatus := (rssLimit group).2
    speedupVsSyncSameConfig := none }

/-- The fields of `comparison_signature`. -/
structure ComparisonSignature where
  environmentId : Text
  inputPath : Text
  inputBytes : ℕ
  blockSize : ℕ
  maxInflightBuffers : ℕ
  queueDepth : ℕ
  threadWorkers : ℕ
  bufferPoolBytes : ℕ
  deriving DecidableEq

namespace Summary

def comparisonSignature (row : Summary) : ComparisonSignature :=
  ⟨row.environmentId,row.inputPath,row.inputBytes,row.blockSize,row.maxInflightBuffers,
    row.queueDepth,row.threadWorkers,row.bufferPoolBytes⟩

def sortKey (row : Summary) : Text ×ₗ ℕ ×ₗ ℕ ×ₗ ℕ ×ₗ ℕ ×ₗ ℕ ×ₗ ℕ ×ₗ Text :=
  toLex (row.inputPath,toLex (row.inputBytes,toLex (row.blockSize,toLex (row.maxInflightBuffers,
    toLex (row.queueDepth,toLex (row.threadWorkers,toLex (BACKEND_ORDER row.requestedBackend,
      row.selectedBackend.label)))))))

def isSync (row : Summary) : Bool :=
  decide (row.requestedBackend = .sync) && decide (row.selectedBackend = .sync)

end Summary

/-- `sync_rates.get(signature)`; a later row would replace an earlier one. -/
def syncRate (summaries : List Summary) (signature : ComparisonSignature) : Option ℚ :=
  ((summaries.filter Summary.isSync).reverse.find? fun row =>
    row.comparisonSignature = signature).map Summary.aggregateThroughputMibS

def withSpeedup (summaries : List Summary) (row : Summary) : Summary :=
  match syncRate summaries row.comparisonSignature with
  | none => row
  | some rate =>
    if 0 < rate then
      { row with speedupVsSyncSameConfig := some (row.aggregateThroughputMibS/rate) }
    else row

def summarize (samples : List Sample) : Except AnalysisError (List Summary) :=
  let groups := groupBy Sample.groupKey samples
  if groups.length > MAX_GROUPS then
    .error (.message "split reports into at most 200 groups")
  else
    let summaries := groups.map fun group => summarizeGroup group.1 group.2
    let summaries := sortBy Summary.sortKey summaries
    .ok (summaries.map (withSpeedup summaries))

theorem sorted_eq {values values' : List ℚ} (h : values.Perm values') :
    sorted values = sorted values' :=
  sortBy_eq h fun _ _ _ _ hab => hab

theorem nearestRank_eq {values values' : List ℚ} (h : values.Perm values') (percentile : ℚ) :
    nearestRank values percentile = nearestRank values' percentile := by
  simp only [nearestRank,sorted_eq h]

theorem median_eq {values values' : List ℚ} (h : values.Perm values') :
    median values = median values' := by
  simp only [median,sorted_eq h]

theorem fmean_eq {values values' : List ℚ} (h : values.Perm values') :
    fmean values = fmean values' := by
  simp only [fmean,h.sum_eq,h.length_eq]

theorem maxOf_eq {group group' : List Sample} (h : group.Perm group') (f : Sample → ℕ) :
    maxOf f group = maxOf f group' :=
  (h.map f).foldr_eq 0

theorem rssLimit_eq {group group' : List Sample} (h : group.Perm group') :
    rssLimit group = rssLimit group' := by
  have hlimits := (h.map Sample.rssLimitMib).dedup
  have hall : (group.all fun sample => sample.rssWithinLimit = some true) =
      group'.all fun sample => sample.rssWithinLimit = some true := by
    rw [Bool.eq_iff_iff,List.all_eq_true,List.all_eq_true]
    exact ⟨fun hall s hs => hall s (h.mem_iff.mpr hs),fun hall s hs => hall s (h.mem_iff.mp hs)⟩
  unfold rssLimit
  split
  · rename_i hnone
    rw [hnone] at hlimits
    rw [List.perm_singleton.mp hlimits.symm]
  · rename_i limit hone
    rw [hone] at hlimits
    rw [List.perm_singleton.mp hlimits.symm,hall]
  · rename_i hnone hsome
    split
    · rename_i hnone'
      rw [hnone'] at hlimits
      exact absurd (List.perm_singleton.mp hlimits) hnone
    · rename_i limit hone'
      rw [hone'] at hlimits
      exact absurd (List.perm_singleton.mp hlimits) (hsome limit)
    · rfl

theorem summarizeGroup_eq {key : GroupKey} {group group' : List Sample} (h : group.Perm group') :
    summarizeGroup key group = summarizeGroup key group' := by
  have helapsed := h.map Sample.elapsedMs
  simp only [summarizeGroup,h.length_eq,fmean_eq helapsed,median_eq helapsed,
    nearestRank_eq helapsed,helapsed.sum_eq,maxOf_eq h,rssLimit_eq h]

theorem nearestRank_isLeast {values : List ℚ} (hne : values ≠ []) {percentile : ℚ}
    (hpos : 0 < percentile) (hle : percentile ≤ 1) :
    IsLeast {v | v ∈ values ∧ ⌈percentile*values.length⌉ ≤ (values.countP (· ≤ v) : ℤ)}
      (nearestRank values percentile) := by
  have hperm : (sorted values).Perm values := sortBy_perm id values
  have hlength : 0 < values.length := List.length_pos_iff.mpr hne
  have hcast : (0 : ℚ) < values.length := by exact_mod_cast hlength
  have hlow : 0 < ⌈percentile*values.length⌉ := Int.ceil_pos.mpr (mul_pos hpos hcast)
  have hhigh : ⌈percentile*values.length⌉ ≤ (values.length : ℤ) := by
    refine Int.ceil_le.mpr ?_
    rw [Int.cast_natCast]
    exact mul_le_of_le_one_left hcast.le hle
  have hk : (⌈percentile*values.length⌉-1).toNat < (sorted values).length := by
    rw [hperm.length_eq]
    omega
  have hrank : nearestRank values percentile =
      (sorted values)[(⌈percentile*values.length⌉-1).toNat] := by
    simp only [nearestRank,hperm.length_eq]
    rw [List.getElem?_eq_getElem hk,Option.getD_some]
  have hsorted : (sorted values).Pairwise (· ≤ ·) := pairwise_sortBy id values
  have hleast := isLeast_getElem hsorted hk
  rw [← hrank] at hleast
  have hset : ∀ v, v ∈ sorted values ∧ (⌈percentile*values.length⌉-1).toNat+1 ≤
      (sorted values).countP (· ≤ v) ↔
        v ∈ values ∧ ⌈percentile*values.length⌉ ≤ (values.countP (· ≤ v) : ℤ) := by
    intro v
    rw [hperm.mem_iff,hperm.countP_eq]
    exact and_congr_right fun _ => by omega
  exact ⟨(hset _).mp hleast.1,fun v hv => hleast.2 ((hset v).mpr hv)⟩

def rowsOf (samples : List Sample) : List Summary :=
  sortBy Summary.sortKey
    ((groupBy Sample.groupKey samples).map fun group => summarizeGroup group.1 group.2)

def samplesOf (samples : List Sample) (row : Summary) : List Sample :=
  samples.filter fun s => s.groupKey = row.toGroupKey

section Rows

variable {py : Interpreter} {samples samples' : List Sample} {row : Summary}

theorem mem_rowsOf (hrow : row ∈ rowsOf samples) :
    row = summarizeGroup row.toGroupKey (samplesOf samples row) ∧
      row.toGroupKey ∈ samples.map Sample.groupKey ∧ samplesOf samples row ≠ [] := by
  have hgroups := groupBy_partitions Sample.groupKey samples
  obtain ⟨group,hgroup,rfl⟩ := List.mem_map.mp ((sortBy_perm _ _).mem_iff.mp hrow)
  have heq : group.2 = samplesOf samples (summarizeGroup group.1 group.2) :=
    hgroups.group_eq group hgroup
  refine ⟨?_,?_,?_⟩
  · rw [← heq]
    rfl
  · exact (hgroups.mem_keys group.1).mp (List.mem_map_of_mem hgroup)
  · rw [← heq]
    exact hgroups.ne_nil hgroup

theorem mem_samplesOf {s : Sample} :
    s ∈ samplesOf samples row ↔ s ∈ samples ∧ s.groupKey = row.toGroupKey := by
  rw [samplesOf,List.mem_filter,decide_eq_true_eq]

theorem sum_elapsed_pos (h : Accepted py samples) (hrow : row ∈ rowsOf samples) :
    0 < ((samplesOf samples row).map Sample.elapsedMs).sum := by
  obtain ⟨-,-,hne⟩ := mem_rowsOf hrow
  refine List.sum_pos _ (fun elapsed helapsed => ?_) (by simpa using hne)
  obtain ⟨s,hs,rfl⟩ := List.mem_map.mp helapsed
  exact (h.valid s (mem_samplesOf.mp hs).1).elapsed_pos

theorem p95_isLeast (hrow : row ∈ rowsOf samples) :
    IsLeast {v | v ∈ (samplesOf samples row).map Sample.elapsedMs ∧
      ⌈(95/100 : ℚ)*(samplesOf samples row).length⌉ ≤
        (((samplesOf samples row).map Sample.elapsedMs).countP (· ≤ v) : ℤ)} row.p95ElapsedMs := by
  obtain ⟨hsummary,-,hne⟩ := mem_rowsOf hrow
  have hne' : (samplesOf samples row).map Sample.elapsedMs ≠ [] := by simpa using hne
  have hleast := nearestRank_isLeast hne' (by norm_num : (0 : ℚ) < 95/100) (by norm_num)
  rw [List.length_map] at hleast
  rw [congrArg Summary.p95ElapsedMs hsummary]
  exact hleast

theorem rowKeys_perm (samples : List Sample) : ((rowsOf samples).map Summary.toGroupKey).Perm
    ((groupBy Sample.groupKey samples).map Prod.fst) := by
  refine ((sortBy_perm _ _).map _).trans (List.Perm.of_eq ?_)
  rw [List.map_map]
  rfl

theorem rowKeys_nodup (samples : List Sample) :
    ((rowsOf samples).map Summary.toGroupKey).Nodup :=
  (rowKeys_perm samples).nodup_iff.mpr (groupBy_partitions Sample.groupKey samples).nodup

theorem rowsOf_nodup (samples : List Sample) : (rowsOf samples).Nodup :=
  List.Nodup.of_map _ (rowKeys_nodup samples)

theorem exists_row {s : Sample} (hs : s ∈ samples) :
    ∃ row ∈ rowsOf samples, row.toGroupKey = s.groupKey := by
  have hgroups := groupBy_partitions Sample.groupKey samples
  have hkey : s.groupKey ∈ (rowsOf samples).map Summary.toGroupKey :=
    (rowKeys_perm samples).mem_iff.mpr
      ((hgroups.mem_keys s.groupKey).mpr (List.mem_map_of_mem hs))
  exact List.mem_map.mp hkey

theorem row_of_key {a b : Summary} (ha : a ∈ rowsOf samples) (hb : b ∈ rowsOf samples)
    (hkey : a.toGroupKey = b.toGroupKey) : a = b :=
  List.inj_on_of_nodup_map (rowKeys_nodup samples) ha hb hkey

theorem selected_of_label {a b : SelectedBackend} (h : a.label = b.label) : a = b := by
  revert h
  cases a <;> cases b <;> decide

theorem requested_of_order {a b : RequestedBackend} (h : BACKEND_ORDER a = BACKEND_ORDER b) :
    a = b := by
  revert h
  cases a <;> cases b <;> decide

/-- The sort key leaves out two fields, which accepted samples share or which follow from others. -/
theorem key_of_sortKey {a b : Summary}
    (henvironment : a.environmentId = b.environmentId)
    (hpool : a.bufferPoolBytes = a.blockSize*a.maxInflightBuffers)
    (hpool' : b.bufferPoolBytes = b.blockSize*b.maxInflightBuffers)
    (h : a.sortKey = b.sortKey) : a.toGroupKey = b.toGroupKey := by
  simp only [Summary.sortKey,toLex_inj,Prod.mk.injEq] at h
  obtain ⟨hpath,hbytes,hblock,hbuffers,hdepth,hworkers,hrequested,hselected⟩ := h
  have hrequested := requested_of_order hrequested
  have hselected := selected_of_label hselected
  rw [hblock,hbuffers] at hpool
  cases ha : a.toGroupKey
  cases hb : b.toGroupKey
  simp_all

theorem row_valid (h : Accepted py samples) (hrow : row ∈ rowsOf samples) :
    row.bufferPoolBytes = row.blockSize*row.maxInflightBuffers ∧
      ∀ s ∈ samples, row.environmentId = s.environmentId := by
  obtain ⟨s,hs,hkey⟩ := List.mem_map.mp (mem_rowsOf hrow).2.1
  have hpool := (h.valid s hs).pool
  rw [← hkey]
  exact ⟨hpool,fun t ht => h.environment s hs t ht⟩

theorem row_of_sortKey (h : Accepted py samples) {a b : Summary} (ha : a ∈ rowsOf samples)
    (hb : b ∈ rowsOf samples) (hkey : a.sortKey = b.sortKey) : a = b := by
  obtain ⟨hpool,henvironment⟩ := row_valid h ha
  obtain ⟨hpool',-⟩ := row_valid h hb
  obtain ⟨s,hs,hsame⟩ := List.mem_map.mp (mem_rowsOf hb).2.1
  have hb' : b.environmentId = s.environmentId := by rw [← hsame]; rfl
  exact row_of_key ha hb (key_of_sortKey ((henvironment s hs).trans hb'.symm) hpool hpool' hkey)

theorem rowsOf_eq (h : Accepted py samples) (hperm : samples.Perm samples') :
    rowsOf samples = rowsOf samples' := by
  have hgroups := groupBy_partitions Sample.groupKey samples
  have hgroups' := groupBy_partitions Sample.groupKey samples'
  refine sortBy_eq (hgroups.map_perm hgroups' hperm fun _ _ _ hgroup _ => summarizeGroup_eq hgroup)
    fun a ha b hb hkey => ?_
  exact row_of_sortKey h ((sortBy_perm _ _).mem_iff.mpr ha) ((sortBy_perm _ _).mem_iff.mpr hb) hkey

theorem sync_unique {a b : Summary} (ha : a ∈ rowsOf samples) (hb : b ∈ rowsOf samples)
    (hsync : a.isSync = true) (hsync' : b.isSync = true)
    (hsignature : a.comparisonSignature = b.comparisonSignature) : a = b := by
  refine row_of_key ha hb ?_
  simp only [Summary.isSync,Bool.and_eq_true,decide_eq_true_eq] at hsync hsync'
  simp only [Summary.comparisonSignature,ComparisonSignature.mk.injEq] at hsignature
  cases hka : a.toGroupKey
  cases hkb : b.toGroupKey
  simp_all

end Rows

section Speedups

variable {rows : List Summary} {row : Summary} {rate : ℚ} {signature : ComparisonSignature}

theorem withSpeedup_eq (rows : List Summary) (row : Summary) :
    ∃ speedup, withSpeedup rows row = { row with speedupVsSyncSameConfig := speedup } := by
  unfold withSpeedup
  split
  · exact ⟨row.speedupVsSyncSameConfig,rfl⟩
  · split_ifs
    · exact ⟨_,rfl⟩
    · exact ⟨row.speedupVsSyncSameConfig,rfl⟩

@[simp] theorem withSpeedup_toGroupKey :
    (withSpeedup rows row).toGroupKey = row.toGroupKey := by
  obtain ⟨speedup,heq⟩ := withSpeedup_eq rows row
  rw [heq]

@[simp] theorem samplesOf_withSpeedup (samples : List Sample) :
    samplesOf samples (withSpeedup rows row) = samplesOf samples row := by
  simp only [samplesOf,withSpeedup_toGroupKey]

@[simp] theorem withSpeedup_sampleCount :
    (withSpeedup rows row).sampleCount = row.sampleCount := by
  obtain ⟨speedup,heq⟩ := withSpeedup_eq rows row
  rw [heq]

@[simp] theorem withSpeedup_p95ElapsedMs :
    (withSpeedup rows row).p95ElapsedMs = row.p95ElapsedMs := by
  obtain ⟨speedup,heq⟩ := withSpeedup_eq rows row
  rw [heq]

@[simp] theorem withSpeedup_aggregateThroughputMibS :
    (withSpeedup rows row).aggregateThroughputMibS = row.aggregateThroughputMibS := by
  obtain ⟨speedup,heq⟩ := withSpeedup_eq rows row
  rw [heq]

@[simp] theorem withSpeedup_sortKey : (withSpeedup rows row).sortKey = row.sortKey := by
  simp only [Summary.sortKey,withSpeedup_toGroupKey]

@[simp] theorem withSpeedup_isSync : (withSpeedup rows row).isSync = row.isSync := by
  simp only [Summary.isSync,withSpeedup_toGroupKey]

@[simp] theorem withSpeedup_comparisonSignature :
    (withSpeedup rows row).comparisonSignature = row.comparisonSignature := by
  simp only [Summary.comparisonSignature,withSpeedup_toGroupKey]

theorem syncRate_iff (hunique : ∀ a ∈ rows, ∀ b ∈ rows, a.isSync = true → b.isSync = true →
      a.comparisonSignature = b.comparisonSignature → a = b) :
    syncRate rows signature = some rate ↔ ∃ base ∈ rows, base.isSync = true ∧
      base.comparisonSignature = signature ∧ base.aggregateThroughputMibS = rate := by
  have hfound : ∀ base, (rows.filter Summary.isSync).reverse.find? (fun row =>
      row.comparisonSignature = signature) = some base →
        base ∈ rows ∧ base.isSync = true ∧ base.comparisonSignature = signature := by
    intro base hbase
    have hmem := List.mem_of_find?_eq_some hbase
    rw [List.mem_reverse,List.mem_filter] at hmem
    exact ⟨hmem.1,hmem.2,of_decide_eq_true (List.find?_some hbase :)⟩
  rw [syncRate,Option.map_eq_some_iff]
  constructor
  · rintro ⟨base,hbase,hrate⟩
    obtain ⟨hmem,hsync,hsignature⟩ := hfound base hbase
    exact ⟨base,hmem,hsync,hsignature,hrate⟩
  · rintro ⟨base,hmem,hsync,hsignature,hrate⟩
    have hsome : ((rows.filter Summary.isSync).reverse.find? fun row =>
        row.comparisonSignature = signature).isSome = true := by
      refine List.find?_isSome.mpr ⟨base,?_,decide_eq_true hsignature⟩
      exact List.mem_reverse.mpr (List.mem_filter.mpr ⟨hmem,hsync⟩)
    obtain ⟨other,hother⟩ := Option.isSome_iff_exists.mp hsome
    obtain ⟨hmem',hsync',hsignature'⟩ := hfound other hother
    have hsame := hunique other hmem' base hmem hsync' hsync (hsignature'.trans hsignature.symm)
    exact ⟨other,hother,by rw [hsame]; exact hrate⟩

theorem withSpeedup_speedup (hnone : row.speedupVsSyncSameConfig = none)
    (hunique : ∀ a ∈ rows, ∀ b ∈ rows, a.isSync = true → b.isSync = true →
      a.comparisonSignature = b.comparisonSignature → a = b) (speedup : ℚ) :
    (withSpeedup rows row).speedupVsSyncSameConfig = some speedup ↔
      ∃ base ∈ rows, base.isSync = true ∧ base.comparisonSignature = row.comparisonSignature ∧
        0 < base.aggregateThroughputMibS ∧
        speedup = row.aggregateThroughputMibS/base.aggregateThroughputMibS := by
  have hrates := fun rate => @syncRate_iff rows rate row.comparisonSignature hunique
  unfold withSpeedup
  cases hrate : syncRate rows row.comparisonSignature with
  | none =>
    simp only [hnone]
    refine iff_of_false nofun ?_
    rintro ⟨base,hmem,hsync,hsignature,-,-⟩
    have hsome := (hrates base.aggregateThroughputMibS).mpr ⟨base,hmem,hsync,hsignature,rfl⟩
    rw [hrate] at hsome
    cases hsome
  | some rate =>
    obtain ⟨base,hmem,hsync,hsignature,rfl⟩ := (hrates rate).mp hrate
    have honly : ∀ other ∈ rows, other.isSync = true →
        other.comparisonSignature = row.comparisonSignature → other = base :=
      fun other hother hsync' hsignature' =>
        hunique other hother base hmem hsync' hsync (hsignature'.trans hsignature.symm)
    simp only
    split_ifs with hpos
    · rw [Option.some.injEq]
      constructor
      · rintro rfl
        exact ⟨base,hmem,hsync,hsignature,hpos,rfl⟩
      · rintro ⟨other,hother,hsync',hsignature',-,rfl⟩
        rw [honly other hother hsync' hsignature']
    · refine iff_of_false (by simp [hnone]) ?_
      rintro ⟨other,hother,hsync',hsignature',hpos',-⟩
      rw [honly other hother hsync' hsignature'] at hpos'
      exact hpos hpos'

end Speedups

/-- What the summaries say of the samples. -/
structure SummaryContract (samples : List Sample) (summaries : List Summary) : Prop where
  grouped : ∀ s ∈ samples, ∃! row, row ∈ summaries ∧ s ∈ samplesOf samples row
  counted : ∀ row ∈ summaries,
    row.sampleCount = (samplesOf samples row).length ∧ samplesOf samples row ≠ []
  divisor : ∀ row ∈ summaries, 0 < ((samplesOf samples row).map Sample.elapsedMs).sum
  keys : (summaries.map Summary.sortKey).Nodup
  ordered : summaries.Pairwise fun a b => a.sortKey ≤ b.sortKey
  baseline : ∀ a ∈ summaries, ∀ b ∈ summaries, a.isSync = true → b.isSync = true →
    a.comparisonSignature = b.comparisonSignature → a = b
  p95 : ∀ row ∈ summaries, IsLeast {v | v ∈ (samplesOf samples row).map Sample.elapsedMs ∧
    ⌈(95/100 : ℚ)*(samplesOf samples row).length⌉ ≤
      (((samplesOf samples row).map Sample.elapsedMs).countP (· ≤ v) : ℤ)} row.p95ElapsedMs
  speedup : ∀ row ∈ summaries, ∀ speedup, row.speedupVsSyncSameConfig = some speedup ↔
    ∃ base ∈ summaries, base.isSync = true ∧
      base.comparisonSignature = row.comparisonSignature ∧ 0 < base.aggregateThroughputMibS ∧
      speedup = row.aggregateThroughputMibS/base.aggregateThroughputMibS

theorem summarize_ok {samples : List Sample} {summaries : List Summary}
    (h : summarize samples = .ok summaries) :
    summaries = (rowsOf samples).map (withSpeedup (rowsOf samples)) := by
  unfold summarize at h
  simp only at h
  split_ifs at h
  exact (Except.ok.inj h).symm

theorem summarize_contract {py : Interpreter} {samples : List Sample} (h : Accepted py samples)
    {summaries : List Summary} (hsummaries : summarize samples = .ok summaries) :
    SummaryContract samples summaries := by
  have hunique : ∀ a ∈ rowsOf samples, ∀ b ∈ rowsOf samples, a.isSync = true → b.isSync = true →
      a.comparisonSignature = b.comparisonSignature → a = b :=
    fun a ha b hb => sync_unique ha hb
  rw [summarize_ok hsummaries]
  refine ⟨fun s hs => ?_,?_,?_,?_,?_,?_,?_,?_⟩
  · obtain ⟨row,hrow,hkey⟩ := exists_row hs
    refine ⟨_,⟨List.mem_map_of_mem hrow,?_⟩,?_⟩
    · rw [samplesOf_withSpeedup]
      exact mem_samplesOf.mpr ⟨hs,hkey.symm⟩
    · rintro _ ⟨hmap,hmem⟩
      obtain ⟨other,hother,rfl⟩ := List.mem_map.mp hmap
      rw [samplesOf_withSpeedup,mem_samplesOf] at hmem
      rw [row_of_key hother hrow (hmem.2.symm.trans hkey.symm)]
  · intro _ hmap
    obtain ⟨row,hrow,rfl⟩ := List.mem_map.mp hmap
    obtain ⟨hsummary,-,hne⟩ := mem_rowsOf hrow
    rw [samplesOf_withSpeedup,withSpeedup_sampleCount]
    exact ⟨congrArg Summary.sampleCount hsummary,hne⟩
  · intro _ hmap
    obtain ⟨row,hrow,rfl⟩ := List.mem_map.mp hmap
    rw [samplesOf_withSpeedup]
    exact sum_elapsed_pos h hrow
  · rw [List.map_map]
    refine (List.nodup_map_iff_inj_on (rowsOf_nodup samples)).mpr fun a ha b hb hkey => ?_
    simp only [Function.comp_apply,withSpeedup_sortKey] at hkey
    exact row_of_sortKey h ha hb hkey
  · refine List.pairwise_map.mpr ?_
    simp only [withSpeedup_sortKey]
    exact pairwise_sortBy _ _
  · intro _ hmap _ hmap' hsync hsync' hsignature
    obtain ⟨a,ha,rfl⟩ := List.mem_map.mp hmap
    obtain ⟨b,hb,rfl⟩ := List.mem_map.mp hmap'
    simp only [withSpeedup_isSync,withSpeedup_comparisonSignature] at hsync hsync' hsignature
    rw [hunique a ha b hb hsync hsync' hsignature]
  · intro _ hmap
    obtain ⟨row,hrow,rfl⟩ := List.mem_map.mp hmap
    rw [samplesOf_withSpeedup,withSpeedup_p95ElapsedMs]
    exact p95_isLeast hrow
  · intro _ hmap speedup
    obtain ⟨row,hrow,rfl⟩ := List.mem_map.mp hmap
    have hnone : row.speedupVsSyncSameConfig = none :=
      congrArg Summary.speedupVsSyncSameConfig (mem_rowsOf hrow).1
    rw [withSpeedup_speedup hnone hunique,withSpeedup_comparisonSignature,
      withSpeedup_aggregateThroughputMibS]
    constructor
    · rintro ⟨base,hbase,hsync,hsignature,hpos,hspeedup⟩
      exact ⟨_,List.mem_map_of_mem hbase,by simpa using hsync,by simpa using hsignature,
        by simpa using hpos,by simpa using hspeedup⟩
    · rintro ⟨_,hmap',hsync,hsignature,hpos,hspeedup⟩
      obtain ⟨base,hbase,rfl⟩ := List.mem_map.mp hmap'
      exact ⟨base,hbase,by simpa using hsync,by simpa using hsignature,by simpa using hpos,
        by simpa using hspeedup⟩

/-- The summaries of accepted samples do not depend on the order of the samples. -/
theorem summarize_order (py : Interpreter) {files : List CsvFile} {samples samples' : List Sample}
    (hread : readSamples py files = .ok samples) (hperm : samples.Perm samples') :
    summarize samples' = summarize samples ∧
    ∀ summaries, summarize samples = .ok summaries → SummaryContract samples summaries := by
  have haccepted := readSamples_accepted hread
  refine ⟨?_,fun _ hsummaries => summarize_contract haccepted hsummaries⟩
  have hgroups := groupBy_partitions Sample.groupKey samples
  have hgroups' := groupBy_partitions Sample.groupKey samples'
  have hlength := (hgroups.map_perm (f := fun k _ => k) hgroups' hperm
    fun _ _ _ _ _ => rfl).length_eq
  have hrows : rowsOf samples' = rowsOf samples := (rowsOf_eq haccepted hperm).symm
  simp only [List.length_map] at hlength
  simp only [rowsOf] at hrows
  simp only [summarize,hlength,hrows]

def twoRunsFile : CsvFile where
  path := "raw.csv".toList
  records := [REQUIRED_FIELDS.map String.toList,
    ["host","in.bin","8192","uring","io_uring","4096","3","2","2","1","12288","2","8192","2","1","1",
      "20.5","1","9","40","2.5","3.125","900","","","passed"].map String.toList,
    ["host","in.bin","8192","sync","sync","4096","3","2","2","1","12288","2","8192","2","1","1",
      "30","1","9","50.0","5","1.5625","910","","","passed"].map String.toList]

theorem summarize_order_twoRuns : ∃ samples summaries,
    readSamples exact [twoRunsFile] = .ok samples ∧ samples.length = 2 ∧
    summarize samples.reverse = .ok summaries ∧ summarize samples = .ok summaries ∧
    SummaryContract samples summaries := by
  have hread : (readSamples exact [twoRunsFile]).isOk = true := by decide +kernel
  have hlength : ((readSamples exact [twoRunsFile]).map List.length).toOption = some 2 := by
    decide +kernel
  have hok : ((readSamples exact [twoRunsFile]).bind summarize).isOk = true := by decide +kernel
  cases hsamples : readSamples exact [twoRunsFile] with
  | error => rw [hsamples] at hread; cases hread
  | ok samples =>
    rw [hsamples] at hlength hok
    obtain ⟨horder,hcontract⟩ :=
      summarize_order exact hsamples (List.reverse_perm samples).symm
    cases hsummaries : summarize samples with
    | error failure =>
      rw [show (Except.ok samples).bind summarize = .error failure from hsummaries] at hok
      cases hok
    | ok summaries =>
      exact ⟨samples,summaries,rfl,Option.some.inj hlength,horder.trans hsummaries,
        hsummaries,hcontract summaries hsummaries⟩

end Benchmark
end AsyncDataLoader
