import AsyncDataLoader.SweepArguments
import AsyncDataLoader.TurnOrder
import Mathlib.Data.List.ProdSigma
import Mathlib.Data.List.Infix

/-!
# The plan of a sweep

The runs that `build_run_plan` lists, and the records that the sweep writes of them.
-/

namespace AsyncDataLoader
namespace Sweep

open Benchmark Python TurnOrder

structure RunConfig where
  blockSize : ℕ
  maxInflightBuffers : ℕ
  queueDepth : ℕ
  backend : RequestedBackend
  sampleIndex : ℕ
  deriving DecidableEq, Repr

/-- A configuration: a block size, a number of buffers and a queue depth. -/
abbrev BaseConfig := ℕ × ℕ × ℕ

def RunConfig.config (run : RunConfig) : BaseConfig :=
  (run.blockSize,run.maxInflightBuffers,run.queueDepth)

def baseConfigs (arguments : Arguments) : List BaseConfig :=
  arguments.blockSizes ×ˢ (arguments.buffers ×ˢ arguments.queueDepths)

def backendOrder (backends : List RequestedBackend) (configIndex sampleIndex : ℕ) :
    List RequestedBackend :=
  let start := (configIndex+sampleIndex-1)%backends.length
  backends.drop start++backends.take start

def sampleRuns (arguments : Arguments) (config : BaseConfig × ℕ) (sampleIndex : ℕ) :
    List RunConfig :=
  (backendOrder arguments.backends config.2 sampleIndex).map fun backend =>
    ⟨config.1.1,config.1.2.1,config.1.2.2,backend,sampleIndex⟩

def configRuns (arguments : Arguments) (config : BaseConfig × ℕ) : List RunConfig :=
  (List.range' 1 arguments.iterations).flatMap (sampleRuns arguments config)

def buildRunPlan (arguments : Arguments) : List RunConfig :=
  (baseConfigs arguments).zipIdx.flatMap (configRuns arguments)

def Arguments.Listed (arguments : Arguments) (run : RunConfig) : Prop :=
  run.blockSize ∈ arguments.blockSizes ∧ run.maxInflightBuffers ∈ arguments.buffers ∧
    run.queueDepth ∈ arguments.queueDepths ∧ run.backend ∈ arguments.backends ∧
    1 ≤ run.sampleIndex ∧ run.sampleIndex ≤ arguments.iterations

def sampleOf (plan : List RunConfig) (config : BaseConfig) (sampleIndex : ℕ) : List RunConfig :=
  plan.filter fun run => run.config = config ∧ run.sampleIndex = sampleIndex

section Plan
variable {arguments : Arguments} {config : BaseConfig × ℕ} {sampleIndex : ℕ} {run : RunConfig}

theorem backendOrder_eq (backends : List RequestedBackend) (configIndex sampleIndex : ℕ) :
    backendOrder backends configIndex sampleIndex =
      backends.rotate (configIndex+sampleIndex-1) :=
  List.rotate_eq_drop_append_take_mod.symm

theorem mem_sampleRuns : run ∈ sampleRuns arguments config sampleIndex ↔
    run.config = config.1 ∧ run.backend ∈ arguments.backends ∧ run.sampleIndex = sampleIndex := by
  unfold sampleRuns
  rw [backendOrder_eq,List.mem_map]
  constructor
  · rintro ⟨backend,hbackend,rfl⟩
    exact ⟨rfl,List.mem_rotate.mp hbackend,rfl⟩
  · rintro ⟨hconfig,hbackend,rfl⟩
    refine ⟨run.backend,List.mem_rotate.mpr hbackend,?_⟩
    rw [← hconfig]
    rfl

theorem map_backend_sampleRuns : (sampleRuns arguments config sampleIndex).map RunConfig.backend =
    arguments.backends.rotate (config.2+sampleIndex-1) := by
  rw [← backendOrder_eq,sampleRuns,List.map_map]
  exact List.map_id _

theorem length_sampleRuns :
    (sampleRuns arguments config sampleIndex).length = arguments.backends.length := by
  rw [← List.length_map RunConfig.backend,map_backend_sampleRuns,List.length_rotate]

theorem nodup_sampleRuns (hbackends : arguments.backends.Nodup) :
    (sampleRuns arguments config sampleIndex).Nodup := by
  refine List.Nodup.of_map RunConfig.backend ?_
  rw [map_backend_sampleRuns]
  exact List.nodup_rotate.mpr hbackends

theorem mem_configRuns : run ∈ configRuns arguments config ↔
    run.config = config.1 ∧ run.backend ∈ arguments.backends ∧
      1 ≤ run.sampleIndex ∧ run.sampleIndex ≤ arguments.iterations := by
  simp only [configRuns,List.mem_flatMap,mem_sampleRuns,List.mem_range'_1]
  constructor
  · rintro ⟨sampleIndex,hindex,hconfig,hbackend,rfl⟩
    exact ⟨hconfig,hbackend,by omega,by omega⟩
  · rintro ⟨hconfig,hbackend,hlow,hhigh⟩
    exact ⟨run.sampleIndex,by omega,hconfig,hbackend,rfl⟩

theorem length_configRuns : (configRuns arguments config).length =
    arguments.iterations*arguments.backends.length := by
  rw [configRuns,length_flatMap_eq fun _ _ => length_sampleRuns,List.length_range']

theorem nodup_configRuns (hbackends : arguments.backends.Nodup) :
    (configRuns arguments config).Nodup := by
  refine nodup_flatMap_of_disjoint List.nodup_range' (fun _ _ => nodup_sampleRuns hbackends) ?_
  intro sampleIndex _ sampleIndex' _ run hrun hrun'
  exact (mem_sampleRuns.mp hrun).2.2.symm.trans (mem_sampleRuns.mp hrun').2.2

theorem filter_sampleRuns {config' : BaseConfig} {sampleIndex' : ℕ} :
    sampleOf (sampleRuns arguments config sampleIndex) config' sampleIndex' =
      if config.1 = config' ∧ sampleIndex = sampleIndex' then
        sampleRuns arguments config sampleIndex else [] := by
  split_ifs with hsame
  · obtain ⟨rfl,rfl⟩ := hsame
    refine List.filter_eq_self.mpr fun run hrun => decide_eq_true ?_
    obtain ⟨hconfig,-,hindex⟩ := mem_sampleRuns.mp hrun
    exact ⟨hconfig,hindex⟩
  · refine List.filter_eq_nil_iff.mpr fun run hrun hmatch => hsame ?_
    obtain ⟨hconfig,-,hindex⟩ := mem_sampleRuns.mp hrun
    obtain ⟨hconfig',hindex'⟩ := of_decide_eq_true hmatch
    exact ⟨hconfig.symm.trans hconfig',hindex.symm.trans hindex'⟩

theorem mem_baseConfigs {config : BaseConfig} : config ∈ baseConfigs arguments ↔
    config.1 ∈ arguments.blockSizes ∧ config.2.1 ∈ arguments.buffers ∧
      config.2.2 ∈ arguments.queueDepths := by
  obtain ⟨blockSize,buffers,queueDepth⟩ := config
  unfold baseConfigs
  rw [List.mem_product,List.mem_product]

theorem nodup_baseConfigs (h : arguments.Accepted) : (baseConfigs arguments).Nodup :=
  h.blockSizes.1.product (h.buffers.1.product h.queueDepths.1)

theorem mem_buildRunPlan : run ∈ buildRunPlan arguments ↔ arguments.Listed run := by
  simp only [buildRunPlan,List.mem_flatMap,mem_configRuns]
  constructor
  · rintro ⟨config,hconfig,hsame,hrest⟩
    have hmem := List.fst_mem_of_mem_zipIdx hconfig
    rw [← hsame,mem_baseConfigs] at hmem
    exact ⟨hmem.1,hmem.2.1,hmem.2.2,hrest⟩
  · rintro ⟨hblockSize,hbuffers,hqueueDepth,hrest⟩
    have hmem : run.config ∈ baseConfigs arguments :=
      mem_baseConfigs.mpr ⟨hblockSize,hbuffers,hqueueDepth⟩
    obtain ⟨index,hindex⟩ := exists_mem_zipIdx hmem
    exact ⟨_,hindex,rfl,hrest⟩

theorem length_buildRunPlan : (buildRunPlan arguments).length = arguments.totalRuns := by
  rw [buildRunPlan,length_flatMap_eq fun _ _ => length_configRuns,List.length_zipIdx,baseConfigs,
    List.length_product,List.length_product,Arguments.totalRuns]
  ring

theorem nodup_buildRunPlan (h : arguments.Accepted) : (buildRunPlan arguments).Nodup := by
  refine nodup_flatMap_of_disjoint (nodup_zipIdx _) (fun _ _ => nodup_configRuns h.backends) ?_
  intro config hconfig config' hconfig' run hrun hrun'
  refine zipIdx_eq_of_fst_eq (nodup_baseConfigs h) hconfig hconfig' ?_
  exact (mem_configRuns.mp hrun).1.symm.trans (mem_configRuns.mp hrun').1

/-- The runs of a sample are those that one turn of the inner loop appends. -/
theorem sampleOf_buildRunPlan (h : arguments.Accepted)
    (hconfig : config ∈ (baseConfigs arguments).zipIdx) (hlow : 1 ≤ sampleIndex)
    (hhigh : sampleIndex ≤ arguments.iterations) :
    sampleOf (buildRunPlan arguments) config.1 sampleIndex =
      sampleRuns arguments config sampleIndex := by
  have hconfigRuns : ∀ config', sampleOf (configRuns arguments config') config.1 sampleIndex =
      (List.range' 1 arguments.iterations).flatMap fun sampleIndex' =>
        sampleOf (sampleRuns arguments config' sampleIndex') config.1 sampleIndex :=
    fun config' => List.filter_flatMap
  have hindex : sampleIndex ∈ List.range' 1 arguments.iterations :=
    List.mem_range'_1.mpr ⟨hlow,by omega⟩
  calc sampleOf (buildRunPlan arguments) config.1 sampleIndex
      = (baseConfigs arguments).zipIdx.flatMap fun config' =>
          sampleOf (configRuns arguments config') config.1 sampleIndex := List.filter_flatMap
    _ = sampleOf (configRuns arguments config) config.1 sampleIndex := by
      refine flatMap_eq_block (nodup_zipIdx _) hconfig fun config' hconfig' hne => ?_
      rw [hconfigRuns]
      refine List.flatMap_eq_nil_iff.mpr fun _ _ => ?_
      rw [filter_sampleRuns]
      refine if_neg fun hsame => hne ?_
      exact zipIdx_eq_of_fst_eq (nodup_baseConfigs h) hconfig' hconfig hsame.1
    _ = sampleOf (sampleRuns arguments config sampleIndex) config.1 sampleIndex := by
      rw [hconfigRuns]
      refine flatMap_eq_block List.nodup_range' hindex fun sampleIndex' _ hne => ?_
      rw [filter_sampleRuns]
      exact if_neg fun hsame => hne hsame.2
    _ = sampleRuns arguments config sampleIndex := by
      rw [filter_sampleRuns]
      exact if_pos ⟨rfl,rfl⟩

theorem sampleRuns_contiguous (hconfig : config ∈ (baseConfigs arguments).zipIdx)
    (hlow : 1 ≤ sampleIndex) (hhigh : sampleIndex ≤ arguments.iterations) :
    sampleRuns arguments config sampleIndex <:+: buildRunPlan arguments := by
  have hindex : sampleIndex ∈ List.range' 1 arguments.iterations :=
    List.mem_range'_1.mpr ⟨hlow,by omega⟩
  exact (block_contiguous hindex (sampleRuns arguments config)).trans
    (block_contiguous hconfig (configRuns arguments))

end Plan

/-- What `run_sample` reads of a run that has succeeded; the floating-point numbers and the names
are the texts that are written. -/
structure Outcome where
  inputPath : Text
  inputBytes : ℤ
  selectedBackend : Text
  bufferPoolBytes : ℤ
  blocksWritten : ℤ
  bytesWritten : ℤ
  inflightPeak : ℤ
  readProcessQueuePeak : ℤ
  processWriteQueuePeak : ℤ
  readAverageUs : Text
  processAverageUs : Text
  writeAverageUs : Text
  stageAverageUs : Text
  elapsedMs : Text
  throughputMibS : Text
  peakRssKib : ℤ
  verification : Text

def CSV_FIELDS : List String :=
  ["environment_id","input_path","input_bytes","requested_backend","selected_backend","block_size",
    "max_inflight_buffers","queue_depth","thread_workers","sample_index","buffer_pool_bytes",
    "blocks_written","bytes_written","inflight_peak","read_process_queue_peak",
    "process_write_queue_peak","read_average_us","process_average_us","write_average_us",
    "stage_average_us","elapsed_ms","throughput_mib_s","peak_rss_kib","rss_limit_mib",
    "rss_within_limit","verification"]

example : CSV_FIELDS = REQUIRED_FIELDS := rfl

def sampleRecord (arguments : Arguments) (run : RunConfig) (outcome : Outcome) : List Text :=
  [arguments.environmentId,outcome.inputPath,str outcome.inputBytes,run.backend.label,
    outcome.selectedBackend,str run.blockSize,str run.maxInflightBuffers,str run.queueDepth,
    str arguments.threadWorkers,str run.sampleIndex,str outcome.bufferPoolBytes,
    str outcome.blocksWritten,str outcome.bytesWritten,str outcome.inflightPeak,
    str outcome.readProcessQueuePeak,str outcome.processWriteQueuePeak,outcome.readAverageUs,
    outcome.processAverageUs,outcome.writeAverageUs,outcome.stageAverageUs,outcome.elapsedMs,
    outcome.throughputMibS,str outcome.peakRssKib,
    match arguments.rssLimitMib with
      | none => []
      | some limit => str limit,
    match arguments.rssLimitMib with
      | none => []
      | some limit => if outcome.peakRssKib ≤ limit*1024 then "true".toList else "false".toList,
    outcome.verification]

def sampleRow (arguments : Arguments) (run : RunConfig) (outcome : Outcome) : Row :=
  Row.of (CSV_FIELDS.map String.toList) (sampleRecord arguments run outcome)

theorem parseSample_sampleRow {py : Interpreter} {arguments : Arguments} {run : RunConfig}
    {outcome : Outcome} {s : Sample}
    (h : parseSample py (sampleRow arguments run outcome) = .ok s) :
    s.requestedBackend = run.backend ∧ s.blockSize = run.blockSize ∧
      s.maxInflightBuffers = run.maxInflightBuffers ∧ s.queueDepth = run.queueDepth ∧
      s.sampleIndex = run.sampleIndex := by
  have hparsed := parseSample_parsedFrom h
  exact ⟨requireRequested_label rfl hparsed.requested,integerValue_toDigits rfl hparsed.blockSize,
    integerValue_toDigits rfl hparsed.buffers,integerValue_toDigits rfl hparsed.queueDepth,
    integerValue_toDigits rfl hparsed.sampleIndex⟩

structure PlanContract (arguments : Arguments) (plan : List RunConfig) : Prop where
  length : plan.length = arguments.totalRuns ∧ arguments.totalRuns ≤ arguments.maxRuns
  once : ∀ run, arguments.Listed run → plan.count run = 1
  listed : ∀ run ∈ plan, arguments.Listed run
  identities : ∀ (py : Interpreter) (outcomes : List Outcome),
    (plan.zip outcomes).Pairwise fun a b => ∀ s t,
      parseSample py (sampleRow arguments a.1 a.2) = .ok s →
      parseSample py (sampleRow arguments b.1 b.2) = .ok t → s.identity ≠ t.identity
  rotated : ∀ config ∈ baseConfigs arguments, ∀ sampleIndex,
    1 ≤ sampleIndex → sampleIndex ≤ arguments.iterations →
      sampleOf plan config sampleIndex <:+: plan ∧
      (sampleOf plan config sampleIndex).map RunConfig.backend ~r arguments.backends
  balanced : ∀ config ∈ baseConfigs arguments, ∀ first,
    1 ≤ first → first+arguments.backends.length ≤ arguments.iterations+1 →
      ∀ backend ∈ arguments.backends, ∀ position < arguments.backends.length,
        ∃! sampleIndex, (first ≤ sampleIndex ∧ sampleIndex < first+arguments.backends.length) ∧
          ((sampleOf plan config sampleIndex).map RunConfig.backend)[position]? = some backend

theorem identities_buildRunPlan {arguments : Arguments} (h : arguments.Accepted) (py : Interpreter)
    (outcomes : List Outcome) :
    ((buildRunPlan arguments).zip outcomes).Pairwise fun a b => ∀ s t,
      parseSample py (sampleRow arguments a.1 a.2) = .ok s →
      parseSample py (sampleRow arguments b.1 b.2) = .ok t → s.identity ≠ t.identity := by
  have hruns : (((buildRunPlan arguments).zip outcomes).map Prod.fst).Nodup :=
    (nodup_buildRunPlan h).sublist (map_fst_zip_sublist _ _)
  refine (List.pairwise_map.mp hruns).imp ?_
  rintro ⟨run,outcome⟩ ⟨run',outcome'⟩ hne s t hs ht hidentity
  obtain ⟨hbackend,hblockSize,hbuffers,hqueueDepth,hindex⟩ := parseSample_sampleRow hs
  obtain ⟨hbackend',hblockSize',hbuffers',hqueueDepth',hindex'⟩ := parseSample_sampleRow ht
  obtain ⟨hkey,hsample⟩ := Prod.mk.inj hidentity
  obtain ⟨-,-,-,hsameBackend,-,hsameSize,hsameBuffers,hsameDepth,-,-⟩ := GroupKey.mk.inj hkey
  refine hne ?_
  calc run = ⟨s.blockSize,s.maxInflightBuffers,s.queueDepth,s.requestedBackend,s.sampleIndex⟩ := by
        rw [hbackend,hblockSize,hbuffers,hqueueDepth,hindex]
    _ = ⟨t.blockSize,t.maxInflightBuffers,t.queueDepth,t.requestedBackend,t.sampleIndex⟩ := by
        rw [hsameBackend,hsameSize,hsameBuffers,hsameDepth,hsample]
    _ = run' := by
        rw [hbackend',hblockSize',hbuffers',hqueueDepth',hindex']

/-- Accepted arguments have a plan that runs each combination once, with its backends in turn. -/
theorem buildRunPlan_contract (py : Interpreter) {options : List (SweepOption × Text)}
    {arguments : Arguments} (h : parseArguments py options = .ok arguments) :
    PlanContract arguments (buildRunPlan arguments) := by
  have haccepted := parseArguments_accepted h
  refine ⟨⟨length_buildRunPlan,haccepted.totalRuns⟩,fun run hrun => ?_,
    fun run => mem_buildRunPlan.mp,identities_buildRunPlan haccepted,?_,?_⟩
  · exact List.count_eq_one_of_mem (nodup_buildRunPlan haccepted) (mem_buildRunPlan.mpr hrun)
  · intro config hconfig sampleIndex hlow hhigh
    obtain ⟨index,hindex⟩ := exists_mem_zipIdx hconfig
    rw [sampleOf_buildRunPlan haccepted hindex hlow hhigh,map_backend_sampleRuns]
    exact ⟨sampleRuns_contiguous hindex hlow hhigh,List.IsRotated.forall _ _⟩
  · intro config hconfig first hfirst hlast backend hbackend position hposition
    obtain ⟨index,hindex⟩ := exists_mem_zipIdx hconfig
    -- a sample of index `t` begins at the place `index+(t-1)`
    have hturn : ∀ t, first ≤ t ∧ t < first+arguments.backends.length →
        (sampleOf (buildRunPlan arguments) config t).map RunConfig.backend =
          arguments.backends.rotate (index+(t-1)) := by
      intro t ht
      rw [sampleOf_buildRunPlan haccepted hindex (by omega) (by omega),map_backend_sampleRuns,
        Nat.add_sub_assoc (by omega)]
    obtain ⟨t,⟨hrange,hplace⟩,hunique⟩ :=
      existsUnique_rotate haccepted.backends hbackend hposition index (first-1)
    refine ⟨t+1,⟨by omega,?_⟩,?_⟩
    · rw [hturn _ (by omega)]
      exact hplace
    · rintro t' ⟨hrange',hplace'⟩
      rw [hturn t' hrange'] at hplace'
      have := hunique (t'-1) ⟨by omega,hplace'⟩
      omega

def smallSweep : List (SweepOption × Text) :=
  [(.executable,"demo".toList),(.input,"in.bin".toList),(.outputDirectory,"out".toList),
    (.csv,"raw.csv".toList),(.environmentId,"host".toList),
    (.blockSizes,"4096, 8192,4096".toList),(.buffers,"4".toList),(.queueDepths,"2".toList)]

theorem buildRunPlan_contract_smallSweep : ∃ arguments,
    parseArguments exact smallSweep = .ok arguments ∧ (buildRunPlan arguments).length = 18 ∧
    PlanContract arguments (buildRunPlan arguments) := by
  have hparse : parseArguments exact smallSweep = .ok ⟨"demo".toList,"/usr/bin/time".toList,
      "in.bin".toList,"out".toList,"raw.csv".toList,"host".toList,[4096,8192],[4],[2],
      [.sync,.threadpool,.uring],2,3,1000,none⟩ := by decide +kernel
  exact ⟨_,hparse,rfl,buildRunPlan_contract exact hparse⟩

end Sweep
end AsyncDataLoader
