import AsyncDataLoader.SerialReference
import AsyncDataLoader.FaultlessRun
import AsyncDataLoader.Termination

/-!
# The concurrent run refines the serial reference

Over `SyncBackend` every interleaving of a run produces what the serial reference produces
on the same arguments. Both follow the block sequence; the serial loop is at block `k` when
the sequence is defined up to there.
-/

namespace AsyncDataLoader

open FileIO SerialReference

variable {σ : Type*}

/-- The serial reference is about to read block `k`. -/
structure SerialAt (call : RunCall σ) (k : ℕ) (s : SerialState σ) : Prop where
  offset : call.offsetAt k = some s.fileOffset
  stages : call.stagesAt k = some s.stages
  file : call.fileAt k = some s.output
  result : s.result = ⟨k,s.fileOffset⟩
  block : s.block.length = call.config.blockSize

/-- The file after the write of block `k`, successful or not. -/
def writtenAt (call : RunCall σ) (k : ℕ) (base : Bytes) : WriteAtResult × Bytes :=
  writeAllAtWith call.writeAt (call.processedAt k) base.length ⟨0,base⟩

theorem SerialAt.output_length {call : RunCall σ} {k : ℕ} {s : SerialState σ}
    (h : SerialAt call k s) : s.output.length = s.fileOffset :=
  (RunCall.fileAt_eq h.file h.offset (by simp [h.stages])).2

theorem sync_read {input : InputFile} {call : RunCall σ} (hread : call.readAt = SyncBackend.readAt input)
    (offset length : ℕ) :
    (∃ failure, call.readAt offset length = .error failure ∧
      (readAtWith (input.pread offset length)).errorNumber ≠ 0) ∨
    ∃ data, call.readAt offset length = .ok data ∧
      (readAtWith (input.pread offset length)).errorNumber = 0 ∧
      (readAtWith (input.pread offset length)).bytesRead = data.length ∧
      data = input.delivered offset data.length ∧ data.length ≤ length ∧
      (data ≠ [] → offset+data.length ≤ uint64Max) := by
  rw [hread,SyncBackend.readAt]
  obtain ⟨hle,hlen⟩ := input.readAtWith_le offset length
  by_cases herror : (readAtWith (input.pread offset length)).errorNumber = 0
  · refine .inr ⟨input.delivered offset (readAtWith (input.pread offset length)).bytesRead,
      by simp [herror],herror,hlen.symm,by rw [hlen],by rw [hlen]; exact hle,fun hne => ?_⟩
    have hsize := input.size_le
    have hpos := List.length_pos_iff.mpr hne
    simp only [InputFile.delivered,List.length_take,List.length_drop,uint64Max] at hpos ⊢
    omega
  · exact .inl ⟨.systemError (readAtWith (input.pread offset length)).errorNumber
      "SyncBackend::read_at",by simp [herror],herror⟩

/-- Everything an iteration of the serial reference can do at block `k`. -/
theorem serial_cases {input : InputFile} {call : RunCall σ}
    (hread : call.readAt = SyncBackend.readAt input) {k : ℕ} {s : SerialState σ}
    (hs : SerialAt call k s) :
    (∃ failure, iteration input call.writeAt s = .inl (.error failure,s.output) ∧
      ¬ call.EofAt k ∧ (call.offsetAt (k+1) = none ∨ call.stagesAt (k+1) = none)) ∨
    (call.EofAt k ∧ iteration input call.writeAt s = .inl (.ok s.result,s.output)) ∨
    (call.offsetAt (k+1) ≠ none ∧ call.fileAt (k+1) = none ∧ ∃ failure,
      iteration input call.writeAt s = .inl (.error failure,(writtenAt call k s.output).2)) ∨
    ∃ next, iteration input call.writeAt s = .inr next ∧ SerialAt call (k+1) next ∧
      next.output = (writtenAt call k s.output).2 := by
  have hlen := hs.output_length
  rcases sync_read hread s.fileOffset s.block.length with
    ⟨failure,hfail,herror⟩ | ⟨data,hdata,herror,hcount,hdelivered,hfit,hrange⟩
  · rw [hs.block] at hfail
    have hnone : call.offsetAt (k+1) = none := by
      simp [RunCall.offsetAt,hs.offset,RunCall.nextOffset,hfail]
    refine .inl ⟨.systemError (readAtWith (input.pread s.fileOffset s.block.length)).errorNumber
      "serial reference pread",by simp [iteration,herror],?_,.inl hnone⟩
    rintro ⟨offset,hoffset,heof⟩
    obtain rfl := Option.some.inj (hs.offset.symm.trans hoffset)
    rw [hfail] at heof
    cases heof
  · rw [hs.block] at hdata hfit
    by_cases hnil : data = []
    · subst hnil
      refine .inr (.inl ⟨⟨s.fileOffset,hs.offset,hdata⟩,?_⟩)
      simp [iteration,herror,hcount]
    · have hnotEof : ¬ call.EofAt k := by
        rintro ⟨offset,hoffset,heof⟩
        obtain rfl := Option.some.inj (hs.offset.symm.trans hoffset)
        rw [hdata] at heof
        exact hnil (Except.ok.inj heof)
      obtain ⟨hnext,hraw⟩ := RunCall.offsetAt_of_read hs.offset hdata hnil hfit (hrange hnil)
      have hzero : data.length ≠ 0 := fun h => hnil (List.length_eq_zero_iff.mp h)
      have hblock : (input.delivered s.fileOffset data.length ++ s.block.drop data.length).take
          data.length = call.rawAt k := by
        rw [← hdelivered,hraw,List.take_left]
      cases hstage : (Pipeline.process s.stages (call.rawAt k)).failure with
      | some failure =>
        refine .inl ⟨failure,?_,hnotEof,.inr (by simp [RunCall.stagesAt,hs.stages,hstage])⟩
        simp [iteration,herror,hcount,hzero,hblock,hstage]
      | none =>
        have hstages := RunCall.stagesAt_of_process hs.stages hstage
        have hprocessed : (Pipeline.process s.stages (call.rawAt k)).block = call.processedAt k := by
          simp [RunCall.processedAt,hs.stages]
        have hsize : (call.processedAt k).length = data.length := by
          rw [RunCall.processedAt_length (by simp [hs.stages]),hraw]
        have hoffset_le := (RunCall.offsetAt_le hnext)
        have hadvance : advance s data.length =
            .ok (⟨k+1,s.fileOffset+data.length⟩,s.fileOffset+data.length) := by
          simp only [advance,hs.result,checkedAdd_eq_ok _ hoffset_le.2,
            checkedAdd_eq_ok _ (hoffset_le.1.trans hoffset_le.2)]
        cases hwrite : writtenAt call k s.output with
        | mk result file =>
          have hwrite' : writeAllAtWith call.writeAt (call.processedAt k) s.fileOffset
              ⟨0,s.output⟩ = (result,file) := by rw [← hlen]; exact hwrite
          by_cases hok : result.errorNumber = 0 ∧ result.bytesWritten = (call.processedAt k).length
          · obtain ⟨hnoError,hall⟩ := hok
            have hb := hs.block
            have hfile : call.fileAt (k+1) = some file :=
              RunCall.fileAt_of_write hs.file hwrite hnoError hall
            let next : SerialState σ := ⟨call.processedAt k++
                (input.delivered s.fileOffset data.length++s.block.drop data.length).drop data.length,
              (Pipeline.process s.stages (call.rawAt k)).stages,file,
              ⟨k+1,s.fileOffset+data.length⟩,s.fileOffset+data.length⟩
            refine .inr (.inr (.inr ⟨next,?_,⟨hnext,hstages,hfile,rfl,?_⟩,rfl⟩))
            · simp [iteration,herror,hcount,hzero,hblock,hstage,hprocessed,hwrite',hnoError,hall,
                hsize,hadvance,next]
            · simp only [next,← hdelivered,List.length_append,List.length_drop,hsize]
              omega
          · have hnone : call.fileAt (k+1) = none := by
              simp only [RunCall.fileAt,hs.file,Option.bind_some]
              rw [show writeAllAtWith call.writeAt (call.processedAt k) s.output.length
                ⟨0,s.output⟩ = (result,file) from hwrite]
              exact if_neg hok
            refine .inr (.inr (.inl ⟨by simp [hnext],hnone,?_⟩))
            simp only [iteration,herror,hcount,hzero,hblock,hstage,hprocessed,hwrite',ne_eq,
              not_true_eq_false,if_false]
            by_cases hnoError : result.errorNumber = 0
            · have hshort : result.bytesWritten ≠ (call.processedAt k).length :=
                fun hall => hok ⟨hnoError,hall⟩
              simp [hnoError,hshort]
            · simp [hnoError]

theorem loop_done {input : InputFile} {pwrite : ℕ → ℕ → SyscallScript} {s : SerialState σ}
    {outcome : Outcome} (h : iteration input pwrite s = .inl outcome) :
    loop input pwrite s = outcome := by
  rw [loop]
  split
  · rename_i outcome' hdone
    exact (Sum.inl.inj (h.symm.trans hdone)).symm
  · rename_i next hnext
    rw [h] at hnext; cases hnext

theorem loop_next {input : InputFile} {pwrite : ℕ → ℕ → SyscallScript} {s next : SerialState σ}
    (h : iteration input pwrite s = .inr next) : loop input pwrite s = loop input pwrite next := by
  rw [loop]
  split
  · rename_i outcome hdone
    rw [h] at hdone; cases hdone
  · rename_i next' hnext
    obtain rfl := Sum.inr.inj (h.symm.trans hnext)
    rfl

theorem prefix_writtenAt {call : RunCall σ} {k : ℕ} {base : Bytes}
    (hoffset : call.offsetAt k = some base.length) (hnext : call.offsetAt (k+1) ≠ none)
    (hstages : call.stagesAt k ≠ none) : base <+: (writtenAt call k base).2 := by
  obtain ⟨next,hnext⟩ := Option.ne_none_iff_exists'.mp hnext
  obtain ⟨offset,hoffset',-,-,-,hrange,rfl⟩ := RunCall.offsetAt_succ hnext
  obtain rfl := Option.some.inj (hoffset.symm.trans hoffset')
  have hextends : (⟨0,base⟩ : WriteProgress).Extends base (call.processedAt k) := by
    simp [WriteProgress.Extends]
  exact prefix_writeAllAtWith hextends (by rw [RunCall.processedAt_length hstages]; exact hrange)

section

variable {input : InputFile} {call : RunCall σ} (hread : call.readAt = SyncBackend.readAt input)
include hread

theorem serial_prefix {k : ℕ} {s : SerialState σ} (hs : SerialAt call k s) :
    s.output <+: (loop input call.writeAt s).2 := by
  have hoffset : call.offsetAt k = some s.output.length := by rw [hs.output_length]; exact hs.offset
  have hstages : call.stagesAt k ≠ none := by simp [hs.stages]
  rcases serial_cases hread hs with
    ⟨failure,hiter,-⟩ | ⟨-,hiter⟩ | ⟨hnext,-,failure,hiter⟩ | ⟨next,hiter,hat,houtput⟩
  · rw [loop_done hiter]
  · rw [loop_done hiter]
  · rw [loop_done hiter]
    exact prefix_writtenAt hoffset hnext hstages
  · have hlt := iteration_lt hiter
    have hrest := serial_prefix hat
    rw [loop_next hiter]
    refine List.IsPrefix.trans ?_ hrest
    rw [houtput]
    exact prefix_writtenAt hoffset (by simp [hat.offset]) hstages
termination_by 2^64-s.fileOffset

theorem serial_writes {k : ℕ} {s : SerialState σ} (hs : SerialAt call k s)
    (hnext : call.offsetAt (k+1) ≠ none) (hstages : call.stagesAt (k+1) ≠ none) :
    (writtenAt call k s.output).2 <+: (loop input call.writeAt s).2 := by
  rcases serial_cases hread hs with
    ⟨failure,hiter,-,hnone⟩ | ⟨heof,-⟩ | ⟨-,-,failure,hiter⟩ | ⟨next,hiter,hat,houtput⟩
  · rcases hnone with hnone | hnone
    · exact absurd hnone hnext
    · exact absurd hnone hstages
  · exact absurd heof.not_succ hnext
  · rw [loop_done hiter]
  · rw [loop_next hiter,← houtput]
    exact serial_prefix hread hat

theorem serial_reaches {s₀ : SerialState σ} (h₀ : SerialAt call 0 s₀) {k : ℕ}
    (hoffset : call.offsetAt k ≠ none) (hstages : call.stagesAt k ≠ none)
    (hfile : call.fileAt k ≠ none) :
    ∃ s, SerialAt call k s ∧ loop input call.writeAt s₀ = loop input call.writeAt s := by
  induction k with
  | zero => exact ⟨s₀,h₀,rfl⟩
  | succ k ih =>
    have hfile' : call.fileAt k ≠ none := fun hnone => hfile (by simp [RunCall.fileAt,hnone])
    obtain ⟨s,hs,hloop⟩ := ih (RunCall.offsetAt_mono (Nat.le_succ k) hoffset)
      (RunCall.stagesAt_mono (Nat.le_succ k) hstages) hfile'
    rcases serial_cases hread hs with
      ⟨failure,-,-,hnone⟩ | ⟨heof,-⟩ | ⟨-,hnone,-⟩ | ⟨next,hiter,hat,-⟩
    · rcases hnone with hnone | hnone
      · exact absurd hnone hoffset
      · exact absurd hnone hstages
    · exact absurd heof.not_succ hoffset
    · exact absurd hnone hfile
    · exact ⟨next,hat,hloop.trans (loop_next hiter)⟩

theorem serial_returns {k : ℕ} {s : SerialState σ} (hs : SerialAt call k s)
    {result : SerialPipelineResult} (h : (loop input call.writeAt s).1 = .ok result) :
    ∃ n, call.EofAt n ∧ call.stagesAt n ≠ none ∧ call.fileAt n ≠ none := by
  rcases serial_cases hread hs with
    ⟨failure,hiter,-⟩ | ⟨heof,-⟩ | ⟨-,-,failure,hiter⟩ | ⟨next,hiter,hat,-⟩
  · rw [loop_done hiter] at h; cases h
  · exact ⟨k,heof,by simp [hs.stages],by simp [hs.file]⟩
  · rw [loop_done hiter] at h; cases h
  · have hlt := iteration_lt hiter
    rw [loop_next hiter] at h
    exact serial_returns hat h
termination_by 2^64-s.fileOffset

theorem serial_complete {s₀ : SerialState σ} (h₀ : SerialAt call 0 s₀)
    {result : PipelineRunResult} {output : Bytes} (h : Complete call result output) :
    loop input call.writeAt s₀ = (.ok ⟨result.blocksWritten,result.bytesWritten⟩,output) := by
  obtain ⟨hoffset,heof,hstages,hfile⟩ := h
  obtain ⟨s,hs,hloop⟩ := serial_reaches hread h₀ (by simp [hoffset]) hstages (by simp [hfile])
  have hresult := hs.result
  rw [Option.some.inj (hs.offset.symm.trans hoffset)] at hresult
  have houtput := Option.some.inj (hs.file.symm.trans hfile)
  rcases serial_cases hread hs with
    ⟨failure,-,hnot,-⟩ | ⟨-,hiter⟩ | ⟨hnext,-⟩ | ⟨next,-,hat,-⟩
  · exact absurd heof hnot
  · rw [hloop,loop_done hiter,hresult,houtput]
  · exact absurd heof.not_succ hnext
  · exact absurd hat.offset (by simp [heof.not_succ])

end

def serialStart (call : RunCall σ) (memory : ℕ → UInt8) : SerialState σ where
  block := (List.range call.config.blockSize).map memory
  stages := call.stages
  output := []
  result := ⟨0,0⟩
  fileOffset := 0

theorem serialStart_at (call : RunCall σ) (memory : ℕ → UInt8) :
    SerialAt call 0 (serialStart call memory) :=
  ⟨rfl,rfl,rfl,rfl,by simp [serialStart]⟩

theorem runSerialPipelineReference_eq (input : InputFile) {call : RunCall σ} (memory : ℕ → UInt8)
    (h : call.Accepted) : runSerialPipelineReference input call memory =
      loop input call.writeAt (serialStart call memory) := by
  have hin := h.inputFd
  have hout := h.outputFd
  unfold runSerialPipelineReference
  rw [h.config]
  simp only
  rw [if_neg (by omega),if_neg h.separate,if_neg (by simpa using h.stages)]
  rfl

/-- The runs from `s₀` against what the serial reference returns and leaves behind. -/
structure RefinesSerial (call : RunCall σ) (s₀ : RunState σ) (serial : Outcome) : Prop where
  no_infinite_run : ∀ run, ¬ call.system.InfiniteRun s₀ run
  stuck_done : ∀ s, call.system.Reachable s₀ s → call.system.Stuck s →
    ∃ outcome, s.caller = .done outcome
  returns : ∀ result, serial.1 = .ok result → ∀ s outcome, call.system.Reachable s₀ s →
    s.caller = .done outcome → outcome = .ok ⟨result.blocksWritten,result.bytesWritten⟩ ∧
      s.shared.output = serial.2
  throws : ∀ failure, serial.1 = .error failure → ∀ s outcome, call.system.Reachable s₀ s →
    s.caller = .done outcome → ∃ thrown, outcome = .error thrown
  output_prefix : ∀ s, call.system.Reachable s₀ s → s.shared.output <+: serial.2

theorem partial_prefix {input : InputFile} {call : RunCall σ}
    (hread : call.readAt = SyncBackend.readAt input) {s₀ : SerialState σ} (h₀ : SerialAt call 0 s₀)
    {output : Bytes} (h : Partial call output) : output <+: (loop input call.writeAt s₀).2 := by
  obtain ⟨k,base,hoffset,hstages,hfile,hcase⟩ := h
  obtain ⟨s,hs,hloop⟩ := serial_reaches hread h₀ hoffset hstages (by simp [hfile])
  obtain rfl : base = s.output := Option.some.inj (hfile.symm.trans hs.file)
  rw [hloop]
  rcases hcase with rfl | ⟨hnext,hstages',hshort⟩
  · exact serial_prefix hread hs
  · exact hshort.trans (serial_writes hread hs hnext hstages')

theorem run_refines_serial (input : InputFile) (call : RunCall σ) (memory : ℕ → UInt8)
    (hread : call.readAt = SyncBackend.readAt input) (hfresh : call.Fresh) (h : call.Accepted) :
    ∃ s₀, call.start = .ok s₀ ∧
      RefinesSerial call s₀ (runSerialPipelineReference input call memory) := by
  obtain ⟨s₀,hstart⟩ := RunCall.start_ok hfresh h
  have h₀ := serialStart_at call memory
  refine ⟨s₀,hstart,?_⟩
  rw [runSerialPipelineReference_eq input memory h]
  refine ⟨no_infinite_run hstart,(run_ends hstart).2,fun result hserial s outcome hs hdone => ?_,
    fun failure hserial s outcome hs hdone => ?_,fun s hs => ?_⟩
  · obtain ⟨n,heof,hstages,hfile⟩ := serial_returns hread h₀ hserial
    obtain rfl := done_ok ⟨heof,hstages,hfile,hfresh.threads⟩ hstart hs hdone
    have hcomplete := serial_complete hread h₀ (done_complete hstart hs hdone)
    rw [hcomplete] at hserial ⊢
    rw [← Except.ok.inj hserial]
    exact ⟨rfl,rfl⟩
  · cases outcome with
    | error thrown => exact ⟨thrown,rfl⟩
    | ok result =>
      have hcomplete := serial_complete hread h₀ (done_complete hstart hs hdone)
      rw [hcomplete] at hserial
      cases hserial
  · obtain ⟨m,p,q,w,hflow⟩ := reachable_flows hstart hs
    exact partial_prefix hread h₀ hflow.output

def InputFile.threeBytes : InputFile where
  bytes := [1,2,3]
  size_le := by decide
  pread := fun offset length => .counting 1 (min length (3-offset))
  pread_le := by
    intro offset length n h
    obtain rfl := SyscallResult.count.inj h
    exact ⟨Nat.min_le_left _ _,Nat.min_le_right _ _⟩

def RunCall.overThreeBytes : RunCall Unit :=
  { RunCall.smallest [] with readAt := SyncBackend.readAt .threeBytes }

theorem run_refines_serial_threeBytes : ∃ s₀, RunCall.overThreeBytes.start = .ok s₀ ∧
    RefinesSerial RunCall.overThreeBytes s₀
      (runSerialPipelineReference .threeBytes RunCall.overThreeBytes fun _ => 255) :=
  run_refines_serial .threeBytes RunCall.overThreeBytes (fun _ => 255) rfl
    ⟨rfl,fun _ h => by obtain rfl := Option.some.inj h; exact ⟨rfl,rfl,rfl⟩,by decide,fun _ => rfl⟩
    ⟨rfl,by decide,by decide,by decide,by simp [RunCall.overThreeBytes,RunCall.smallest]⟩

end AsyncDataLoader
