import AsyncDataLoader.BuiltinStages
import AsyncDataLoader.FaultlessRun
import AsyncDataLoader.Termination

/-!
# Short reads

A backend may return fewer bytes than the buffer holds, also before the end of the input. The
reader makes a block of every read, so the blocks of a run follow the splitting of the reads:
the result of a run is the one of full reads exactly when no read is short before the end.
-/

namespace AsyncDataLoader

open FileIO

/-- An input file and how a backend splits its reads: any non-zero count up to the size of
the buffer before the end of the file. -/
structure SplitFile where
  bytes : Bytes
  size_le : bytes.length ≤ 2^63-1
  count : ℕ → ℕ → ℕ
  count_le : ∀ offset length, count offset length ≤ length ∧
    count offset length ≤ bytes.length-offset
  count_pos : ∀ offset length, 0 < length → offset < bytes.length → 0 < count offset length

namespace SplitFile

def readAt (f : SplitFile) (offset length : ℕ) : Except Failure Bytes :=
  .ok ((f.bytes.drop offset).take (f.count offset length))

def full (f : SplitFile) : SplitFile where
  bytes := f.bytes
  size_le := f.size_le
  count := fun offset length => min length (f.bytes.length-offset)
  count_le := fun _ _ => ⟨Nat.min_le_left _ _,Nat.min_le_right _ _⟩
  count_pos := fun _ _ hlength hoffset => Nat.lt_min.mpr ⟨hlength,Nat.sub_pos_of_lt hoffset⟩

def FullBelow (f : SplitFile) (blockSize n : ℕ) : Prop :=
  ∀ k < n, k*blockSize < f.bytes.length →
    f.count (k*blockSize) blockSize = min blockSize (f.bytes.length-k*blockSize)

/-- Every read of a block is short only at the end of the file. -/
def Full (f : SplitFile) (blockSize : ℕ) : Prop := ∀ n, f.FullBelow blockSize n

/-- `ceil(input_bytes / block_size)` -/
def expectedBlocks (f : SplitFile) (blockSize : ℕ) : ℕ := (f.bytes.length+blockSize-1)/blockSize

theorem full_full (f : SplitFile) (blockSize : ℕ) : f.full.Full blockSize := fun _ _ _ _ => rfl

def readInFull {σ : Type*} (f : SplitFile) (call : RunCall σ) : RunCall σ :=
  { call with readAt := f.full.readAt }

/-- For every chain of stages, a successful run has the expected number of blocks, and the
result and the file of every successful run with full reads. -/
def Immaterial (f : SplitFile) (config : PipelineConfig) : Prop :=
  ∀ (σ : Type) (call : RunCall σ), call.config = config → call.readAt = f.readAt →
    ∀ s₀ s result, call.start = .ok s₀ → call.system.Reachable s₀ s →
      s.caller = .done (.ok result) →
      result.blocksWritten = f.expectedBlocks config.blockSize ∧
      ∀ t₀ t result', (f.readInFull call).start = .ok t₀ →
        (f.readInFull call).system.Reachable t₀ t →
        t.caller = .done (.ok result') → result' = result ∧ t.shared.output = s.shared.output

variable {σ : Type*} {f : SplitFile} {call : RunCall σ}

theorem delivered_length (f : SplitFile) (offset length : ℕ) :
    ((f.bytes.drop offset).take (f.count offset length)).length = f.count offset length := by
  have hle := (f.count_le offset length).2
  simpa using hle

theorem offsetAt_le_size (hread : call.readAt = f.readAt) {k o : ℕ}
    (hk : call.offsetAt k = some o) : o ≤ f.bytes.length := by
  cases k with
  | zero =>
    obtain rfl := Option.some.inj hk
    exact Nat.zero_le _
  | succ k =>
    obtain ⟨o',ho',hdata,hne,-,-,rfl⟩ := RunCall.offsetAt_succ hk
    rw [hread] at hdata
    have hle := (f.count_le o' call.config.blockSize).2
    have hlen := f.delivered_length o' call.config.blockSize
    rw [← Except.ok.inj hdata] at hne ⊢
    have hpos := List.length_pos_iff.mpr hne
    omega

theorem expectedBlocks_bounds (f : SplitFile) {blockSize : ℕ} (h : 0 < blockSize) :
    f.bytes.length ≤ f.expectedBlocks blockSize*blockSize ∧
      f.expectedBlocks blockSize*blockSize < f.bytes.length+blockSize := by
  have hlow := Nat.lt_mul_div_succ (f.bytes.length+blockSize-1) h
  have hhigh := Nat.div_mul_le_self (f.bytes.length+blockSize-1) blockSize
  rw [Nat.mul_succ,Nat.mul_comm] at hlow
  simp only [expectedBlocks]
  omega

section

variable (hread : call.readAt = f.readAt) (hblock : 0 < call.config.blockSize)
include hread hblock

theorem offsetAt_next {k o : ℕ} (hk : call.offsetAt k = some o) (ho : o < f.bytes.length) :
    call.offsetAt (k+1) = some (o+f.count o call.config.blockSize) ∧
      call.rawAt k = (f.bytes.drop o).take (f.count o call.config.blockSize) := by
  have hlen := f.delivered_length o call.config.blockSize
  have hpos := f.count_pos o _ hblock ho
  have hle := f.count_le o call.config.blockSize
  have hsize := f.size_le
  have hnext := @RunCall.offsetAt_of_read _ call k o _ hk (by rw [hread]; rfl)
    (List.length_pos_iff.mp (by omega)) (by omega) (by simp only [uint64Max]; omega)
  rwa [hlen] at hnext

theorem eofAt_iff {k : ℕ} : call.EofAt k ↔ call.offsetAt k = some f.bytes.length := by
  constructor
  · rintro ⟨o,ho,heof⟩
    have hle := offsetAt_le_size hread ho
    rcases Nat.eq_or_lt_of_le hle with rfl | hlt
    · exact ho
    · have hpos := f.count_pos o _ hblock hlt
      have hlen := f.delivered_length o call.config.blockSize
      rw [hread] at heof
      rw [Except.ok.inj heof] at hlen
      simp only [List.length_nil] at hlen
      omega
  · exact fun hk => ⟨_,hk,by rw [hread]; simp [readAt]⟩

theorem exists_eof {k o : ℕ} (hk : call.offsetAt k = some o) : ∃ n, call.EofAt n := by
  rcases Nat.eq_or_lt_of_le (offsetAt_le_size hread hk) with rfl | hlt
  · exact ⟨k,(eofAt_iff hread hblock).mpr hk⟩
  · have hpos := f.count_pos o _ hblock hlt
    exact exists_eof (offsetAt_next hread hblock hk hlt).1
termination_by f.bytes.length-o

theorem FullBelow.offsetAt {n : ℕ} (h : f.FullBelow call.config.blockSize n)
    (hn : n*call.config.blockSize < f.bytes.length+call.config.blockSize) :
    call.offsetAt n = some (min (n*call.config.blockSize) f.bytes.length) := by
  induction n with
  | zero => simp [RunCall.offsetAt]
  | succ n ih =>
    rw [Nat.succ_mul] at hn ⊢
    have hlt : n*call.config.blockSize < f.bytes.length := by omega
    have hoffset := ih (fun k hk => h k (by omega)) (by omega)
    rw [Nat.min_eq_left hlt.le] at hoffset
    rw [(offsetAt_next hread hblock hoffset hlt).1,h n (Nat.lt_succ_self n) hlt]
    congr 1
    omega

theorem Full.eofAt (h : f.Full call.config.blockSize) :
    call.EofAt (f.expectedBlocks call.config.blockSize) := by
  obtain ⟨hlow,hhigh⟩ := f.expectedBlocks_bounds hblock
  have hoffset := FullBelow.offsetAt hread hblock (h _) hhigh
  rw [Nat.min_eq_right hlow] at hoffset
  exact (eofAt_iff hread hblock).mpr hoffset

theorem FullBelow.rawAt {k : ℕ} (h : f.FullBelow call.config.blockSize (k+1))
    (hk : k*call.config.blockSize < f.bytes.length) :
    call.offsetAt k = some (k*call.config.blockSize) ∧ call.rawAt k =
      (f.bytes.drop (k*call.config.blockSize)).take
        (min call.config.blockSize (f.bytes.length-k*call.config.blockSize)) := by
  have hoffset := FullBelow.offsetAt hread hblock (fun j hj => h j (by omega))
    (show k*call.config.blockSize < f.bytes.length+call.config.blockSize by omega)
  rw [Nat.min_eq_left hk.le] at hoffset
  refine ⟨hoffset,?_⟩
  rw [(offsetAt_next hread hblock hoffset hk).2,h k (Nat.lt_succ_self k) hk]

end

theorem Full.same {g : SplitFile} {call' : RunCall σ} (hread : call.readAt = f.readAt)
    (hread' : call'.readAt = g.readAt) (hconfig : call'.config = call.config)
    (hbytes : g.bytes = f.bytes) (hblock : 0 < call.config.blockSize)
    (hf : f.Full call.config.blockSize) (hg : g.Full call.config.blockSize) {k : ℕ}
    (hk : k < f.expectedBlocks call.config.blockSize) : call'.rawAt k = call.rawAt k := by
  have hbounds := f.expectedBlocks_bounds hblock
  have hle := Nat.mul_le_mul_right call.config.blockSize (Nat.succ_le_of_lt hk)
  rw [Nat.succ_mul] at hle
  have hlt : k*call.config.blockSize < f.bytes.length := by omega
  rw [← hconfig] at hblock hg hlt
  rw [← hbytes] at hlt
  rw [(FullBelow.rawAt hread' hblock (hg _) hlt).2]
  rw [hconfig] at hblock hlt
  rw [hbytes] at hlt
  rw [(FullBelow.rawAt hread hblock (hf _) hlt).2,hconfig,hbytes]

end SplitFile

namespace RunCall

variable {σ : Type*} {call call' : RunCall σ}

theorem start_queueDepth_le {s₀ : RunState σ} (h : call.start = .ok s₀) :
    call.config.queueDepth ≤ SPSCQueue.maxCapacity BlockWorkItem := by
  unfold start at h
  split_ifs at h
  split at h
  · cases h
  · split at h
    · cases h
    · rename_i queue hqueue
      exact CheckedQueue.capacity_le_of_make hqueue

theorem stagesAt_congr (hstages : call'.stages = call.stages) {n : ℕ}
    (hraw : ∀ k < n, call'.rawAt k = call.rawAt k) : call'.stagesAt n = call.stagesAt n := by
  induction n with
  | zero => simp [stagesAt,hstages]
  | succ n ih => rw [stagesAt,stagesAt,ih fun k hk => hraw k (by omega),hraw n (Nat.lt_succ_self n)]

theorem processedAt_congr (hstages : call'.stages = call.stages) {n : ℕ}
    (hraw : ∀ k < n, call'.rawAt k = call.rawAt k) {k : ℕ} (hk : k < n) :
    call'.processedAt k = call.processedAt k := by
  rw [processedAt,processedAt,stagesAt_congr hstages fun j hj => hraw j (by omega),hraw k hk]

theorem Faultless.returns {n : ℕ} (h : call.Faultless n) (hfresh : call.Fresh)
    (haccepted : call.Accepted) : ∃ s₀ s, call.start = .ok s₀ ∧ call.system.Reachable s₀ s ∧
      s.caller = .done (.ok s.shared.runResult) := by
  obtain ⟨s₀,hstart⟩ := start_ok hfresh haccepted
  obtain ⟨s,hs,hstuck⟩ := (run_ends hstart).1 s₀ (.refl _)
  obtain ⟨outcome,hdone⟩ := (run_ends hstart).2 s hs hstuck
  exact ⟨s₀,s,hstart,hs,by rw [hdone,done_ok h hstart hs hdone]⟩

end RunCall

theorem SplitFile.Full.immaterial {f : SplitFile} {σ : Type*} {call : RunCall σ}
    (hfull : f.Full call.config.blockSize) (hread : call.readAt = f.readAt)
    (hblock : 0 < call.config.blockSize) {s₀ s : RunState σ} {result : PipelineRunResult}
    (hstart : call.start = .ok s₀) (hs : call.system.Reachable s₀ s)
    (hdone : s.caller = .done (.ok result)) :
    result.blocksWritten = f.expectedBlocks call.config.blockSize ∧
      ∀ t₀ t result', (f.readInFull call).start = .ok t₀ →
        (f.readInFull call).system.Reachable t₀ t →
        t.caller = .done (.ok result') → result' = result ∧ t.shared.output = s.shared.output := by
  have hc := done_complete hstart hs hdone
  have hblocks := hc.2.1.unique (hfull.eofAt hread hblock)
  refine ⟨hblocks,fun t₀ t result' hstart' ht hdone' => ?_⟩
  have hc' := done_complete hstart' ht hdone'
  have hblocks' : result'.blocksWritten = f.expectedBlocks call.config.blockSize :=
    hc'.2.1.unique (@Full.eofAt _ f.full (f.readInFull call) rfl hblock
      (f.full_full _))
  have hbytes := (eofAt_iff hread hblock).mp hc.2.1
  have hbytes' := (@eofAt_iff _ f.full (f.readInFull call) rfl hblock _).mp hc'.2.1
  have hresult : result' = result := by
    have h₁ := Option.some.inj (hc.1.symm.trans hbytes)
    have h₂ := Option.some.inj (hc'.1.symm.trans hbytes')
    cases result'; cases result
    simp only at hblocks hblocks' h₁ h₂ ⊢
    rw [hblocks,hblocks',h₁,h₂]
    rfl
  refine ⟨hresult,?_⟩
  have houtput := (RunCall.fileAt_eq hc.2.2.2 hbytes hc.2.2.1).1
  have houtput' := (RunCall.fileAt_eq hc'.2.2.2 hbytes' hc'.2.2.1).1
  rw [houtput,houtput',hblocks,hblocks']
  refine List.flatMap_congr fun k hk => ?_
  exact @RunCall.processedAt_congr _ call (f.readInFull call) rfl _ (fun j hj =>
    @Full.same _ f call f.full (f.readInFull call) hread rfl rfl rfl hblock hfull
      (f.full_full _) j hj) _ (List.mem_range.mp hk)

/-- A stage that writes where a block begins: a one at its front and zeros behind it. -/
def markingStage : Stage Unit where
  process := fun state block => ⟨state,(List.range block.length).map fun i => if i = 0 then 1 else 0,none⟩
  process_length := fun _ _ => by simp

def fullWrites (_ length : ℕ) : SyscallScript := .counting 0 length

theorem writeAllAtWith_fullWrites (buffer : Bytes) (offset : ℕ) (file : Bytes) :
    (writeAllAtWith fullWrites buffer offset ⟨0,file⟩).1 = ⟨buffer.length,0⟩ := by
  cases buffer with
  | nil =>
    rw [writeAllAtWith_done (show writeAttempt fullWrites [] offset ⟨0,file⟩ = .inl ⟨0,0⟩ from rfl)]
    rfl
  | cons byte buffer =>
    have hfirst : ∃ file', writeAttempt fullWrites (byte::buffer) offset ⟨0,file⟩ =
        .inr ⟨(byte::buffer).length,file'⟩ := by
      simp [writeAttempt,fullWrites]
    obtain ⟨file',hfirst⟩ := hfirst
    have hlast : writeAttempt fullWrites (byte::buffer) offset ⟨(byte::buffer).length,file'⟩ =
        .inl ⟨(byte::buffer).length,0⟩ := by
      simp [writeAttempt]
    rw [writeAllAtWith_next hfirst,writeAllAtWith_done hlast]

namespace SplitFile

/-- A run over this file whose output shows where its blocks begin. -/
def marking (f : SplitFile) (config : PipelineConfig) : RunCall Unit where
  config := config
  stages := [⟨markingStage,(),none⟩]
  metrics := none
  started := false
  inputFd := 3
  outputFd := 4
  memory := fun _ _ => 0
  readAt := f.readAt
  writeAt := fullWrites
  startThread := fun _ => none

variable {f : SplitFile} {config : PipelineConfig}

theorem marking_stagesAt (k : ℕ) :
    (f.marking config).stagesAt k = some [⟨markingStage,(),none⟩] := by
  induction k with
  | zero => rfl
  | succ k ih => rw [RunCall.stagesAt_of_process ih rfl]; rfl

theorem marking_processedAt {k i : ℕ} (hi : i < ((f.marking config).rawAt k).length) :
    ((f.marking config).processedAt k)[i]? = some (if i = 0 then 1 else 0) := by
  have hprocessed : (f.marking config).processedAt k =
      (List.range ((f.marking config).rawAt k).length).map fun i => if i = 0 then 1 else 0 := by
    rw [RunCall.processedAt,marking_stagesAt]
    rfl
  simp [hprocessed,hi]

theorem marking_fileAt (n : ℕ) : (f.marking config).fileAt n ≠ none := by
  induction n with
  | zero => simp [RunCall.fileAt]
  | succ n ih =>
    obtain ⟨file,hfile⟩ := Option.ne_none_iff_exists'.mp ih
    have hwrite := writeAllAtWith_fullWrites ((f.marking config).processedAt n) file.length file
    cases hresult : writeAllAtWith fullWrites ((f.marking config).processedAt n) file.length
      ⟨0,file⟩ with
    | mk result file' =>
      rw [hresult] at hwrite
      obtain rfl := hwrite
      rw [RunCall.fileAt_of_write hfile hresult rfl rfl]
      simp

theorem marking_returns (h : config.validate = .ok ())
    (hdepth : config.queueDepth ≤ SPSCQueue.maxCapacity BlockWorkItem) :
    ∃ s₀ s, (f.marking config).start = .ok s₀ ∧ (f.marking config).system.Reachable s₀ s ∧
      s.caller = .done (.ok s.shared.runResult) := by
  have hblock := (PipelineConfig.valid_of_validate h).blockSize_pos
  obtain ⟨n,heof⟩ := @exists_eof _ f (f.marking config) rfl hblock 0 0 rfl
  have hfaultless : (f.marking config).Faultless n :=
    ⟨heof,by simp [marking_stagesAt],marking_fileAt n,fun _ => rfl⟩
  refine hfaultless.returns ⟨rfl,fun _ hm => ?_,hdepth,fun _ => rfl⟩
    ⟨h,by simp [marking],by simp [marking],by simp [marking],by simp [marking]⟩
  cases hm

theorem marking_byte {result : PipelineRunResult} {output : Bytes}
    (hc : Complete (f.marking config) result output) {j o i : ℕ}
    (hoffset : (f.marking config).offsetAt j = some o) (hj : j < result.blocksWritten)
    (hi : i < ((f.marking config).rawAt j).length) :
    output[o+i]? = some (if i = 0 then 1 else 0) := by
  obtain ⟨hend,-,hstages,hfile⟩ := hc
  have houtput := (RunCall.fileAt_eq hfile hend hstages).1
  obtain ⟨before,hbefore⟩ := Option.ne_none_iff_exists'.mp (@marking_fileAt f config j)
  obtain ⟨heq,hlen⟩ := RunCall.fileAt_eq hbefore hoffset (by simp [marking_stagesAt])
  have hsplit : output = before++((f.marking config).processedAt j ++
      ((List.range (result.blocksWritten-j-1)).map (j+1+·)).flatMap (f.marking config).processedAt) := by
    rw [houtput,heq,show result.blocksWritten = j+(1+(result.blocksWritten-j-1)) by omega,
      List.range_add,List.range_add]
    simp [Function.comp_def,List.flatMap_map,Nat.add_assoc]
  have hi' : i < ((f.marking config).processedAt j).length := by
    rw [RunCall.processedAt_length (by simp [marking_stagesAt])]
    exact hi
  rw [hsplit,List.getElem?_append_right (by omega),← hlen,Nat.add_sub_cancel_left,
    List.getElem?_append_left hi']
  exact marking_processedAt hi

/-- A block that begins before the end of the file is read, and shows in the output. -/
theorem marking_block {result : PipelineRunResult} {output : Bytes} (hblock : 0 < config.blockSize)
    (hc : Complete (f.marking config) result output) {k o i : ℕ}
    (hoffset : (f.marking config).offsetAt k = some o) (ho : o < f.bytes.length)
    (hi : i < f.count o config.blockSize) :
    (f.marking config).offsetAt (k+1) = some (o+f.count o config.blockSize) ∧
      output[o+i]? = some (if i = 0 then 1 else 0) := by
  obtain ⟨hnext,hraw⟩ := offsetAt_next rfl hblock hoffset ho
  have hlen : ((f.marking config).rawAt k).length = f.count o config.blockSize := by
    rw [hraw]
    exact f.delivered_length o config.blockSize
  have hle : k ≤ result.blocksWritten := hc.2.1.le (by simp [hoffset])
  have hne : k ≠ result.blocksWritten := by
    rintro rfl
    have hend := (eofAt_iff rfl hblock).mp hc.2.1
    have heq := Option.some.inj (hoffset.symm.trans hend)
    omega
  exact ⟨hnext,marking_byte hc hoffset (Nat.lt_of_le_of_ne hle hne) (by omega)⟩

theorem full_of_marking {result result' : PipelineRunResult} {output : Bytes}
    (hblock : 0 < config.blockSize) (hc : Complete (f.marking config) result output)
    (hc' : Complete (f.full.marking config) result' output) : f.Full config.blockSize := by
  intro n
  induction n with
  | zero => exact fun _ hk => absurd hk (Nat.not_lt_zero _)
  | succ n ih =>
    intro k hk hsize
    rcases Nat.lt_succ_iff_lt_or_eq.mp hk with hlt | rfl
    · exact ih k hlt hsize
    by_contra hne
    have hle := f.count_le (k*config.blockSize) config.blockSize
    have hpos := f.count_pos (k*config.blockSize) config.blockSize hblock hsize
    have hend : k*config.blockSize < f.bytes.length+config.blockSize := by omega
    have hoffset := @FullBelow.offsetAt _ f (f.marking config) rfl hblock k ih hend
    have hoffset' := @FullBelow.offsetAt _ f.full (f.full.marking config) rfl hblock k
      (f.full_full config.blockSize k) hend
    rw [show min (k*(f.marking config).config.blockSize) f.bytes.length = k*config.blockSize from
      Nat.min_eq_left hsize.le] at hoffset
    rw [show min (k*(f.full.marking config).config.blockSize) f.full.bytes.length =
      k*config.blockSize from Nat.min_eq_left hsize.le] at hoffset'
    have hshort : f.count (k*config.blockSize) config.blockSize <
        min config.blockSize (f.bytes.length-k*config.blockSize) := by omega
    -- the next block begins inside of the `k`-th block of full reads
    obtain ⟨hnext,-⟩ := marking_block hblock hc hoffset hsize hpos
    have hinside : k*config.blockSize+f.count (k*config.blockSize) config.blockSize <
        f.bytes.length := by omega
    have hone := (marking_block hblock hc hnext hinside (f.count_pos _ _ hblock hinside)).2
    have hzero := (marking_block hblock hc' hoffset' hsize hshort).2
    rw [Nat.add_zero,hzero,if_neg (by omega)] at hone
    simp at hone

/-- The short reads of a backend do not matter exactly if there are none before the end of
the file, or if no run succeeds because the queues cannot be allocated. -/
theorem short_reads_immaterial_iff (f : SplitFile) (config : PipelineConfig)
    (h : config.validate = .ok ()) : f.Immaterial config ↔
      f.Full config.blockSize ∨ SPSCQueue.maxCapacity BlockWorkItem < config.queueDepth := by
  have hblock := (PipelineConfig.valid_of_validate h).blockSize_pos
  constructor
  · intro himmaterial
    by_cases hdepth : SPSCQueue.maxCapacity BlockWorkItem < config.queueDepth
    · exact .inr hdepth
    obtain ⟨s₀,s,hstart,hs,hdone⟩ := @marking_returns f config h (Nat.le_of_not_lt hdepth)
    obtain ⟨t₀,t,hstart',ht,hdone'⟩ := @marking_returns f.full config h (Nat.le_of_not_lt hdepth)
    have hsame := (himmaterial Unit (f.marking config) rfl rfl s₀ s _ hstart hs hdone).2 t₀ t _
      hstart' ht hdone'
    have hc := done_complete hstart hs hdone
    have hc' := done_complete hstart' ht hdone'
    rw [hsame.2] at hc'
    exact .inl (full_of_marking hblock hc hc')
  · rintro (hfull | hdepth) σ call rfl hread s₀ s result hstart hs hdone
    · exact hfull.immaterial hread hblock hstart hs hdone
    · exact absurd (RunCall.start_queueDepth_le hstart) (Nat.not_le_of_lt hdepth)

def shortFirstRead : SplitFile where
  bytes := [0,10,20]
  size_le := by decide
  count := fun offset length => min length (if offset = 0 then 2 else 3-offset)
  count_le := by
    intro offset length
    simp only [List.length_cons,List.length_nil]
    split <;> omega
  count_pos := by
    intro offset length hlength hoffset
    simp only [List.length_cons,List.length_nil] at hoffset
    split <;> omega

theorem short_reads_immaterial_iff_shortFirstRead : (PipelineConfig.mk 8 1 1 8).validate = .ok () ∧
    (shortFirstRead.Immaterial ⟨8,1,1,8⟩ ↔
      shortFirstRead.Full 8 ∨ SPSCQueue.maxCapacity BlockWorkItem < 1) :=
  ⟨rfl,short_reads_immaterial_iff shortFirstRead ⟨8,1,1,8⟩ rfl⟩

/-- A run over the short first read with a stage that depends on the block boundaries. -/
def normalizing : RunCall Unit :=
  { RunCall.smallest [] with stages := [⟨normalizeStage,(),none⟩], readAt := shortFirstRead.readAt }

def blockSteps : List Thread := [.worker .reader,.worker .reader,.worker .reader,
  .worker .processor,.worker .processor,.worker .processor,
  .worker .writer,.worker .writer,.worker .writer,.worker .writer]

def endSteps : List Thread := [.worker .reader,.worker .reader,.worker .reader,.worker .reader,
  .worker .processor,.worker .processor,.worker .writer,.caller]

/-- The three bytes make two blocks instead of one, and each is stretched on its own. -/
theorem short_read_makes_two_blocks : (∃ s₀ s, normalizing.start = .ok s₀ ∧
    normalizing.system.exec s₀ ([.caller,.caller,.caller]++blockSteps++blockSteps++endSteps) =
      some s ∧ s.caller = .done (.ok ⟨2,3⟩) ∧ s.shared.output = [0,255,0]) ∧
    (∃ s₀ s, (shortFirstRead.readInFull normalizing).start = .ok s₀ ∧
    (shortFirstRead.readInFull normalizing).system.exec s₀
      ([.caller,.caller,.caller]++blockSteps++endSteps) = some s ∧
      s.caller = .done (.ok ⟨1,3⟩) ∧ s.shared.output = [0,127,255]) ∧
    ¬ shortFirstRead.Immaterial ⟨8,1,1,8⟩ := by
  refine ⟨⟨_,_,rfl,rfl,rfl,rfl⟩,⟨_,_,rfl,rfl,rfl,rfl⟩,fun h => ?_⟩
  have htwo := (h Unit normalizing rfl rfl _ _ _ rfl
    ⟨[.caller,.caller,.caller]++blockSteps++blockSteps++endSteps,rfl⟩ rfl).1
  exact absurd htwo (by decide)

end SplitFile
end AsyncDataLoader
