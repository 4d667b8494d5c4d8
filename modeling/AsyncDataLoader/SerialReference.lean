import AsyncDataLoader.BlockSequence

/-!
# The synchronous backend and the serial reference

`SyncBackend` reads with `pread`. The serial reference is one loop that reads, processes
and writes block after block with one buffer.
-/

namespace AsyncDataLoader

open FileIO

/-- An input file, no longer than `off_t` allows, and what `pread` answers for every offset
and length. -/
structure InputFile where
  bytes : Bytes
  size_le : bytes.length ≤ 2^63-1
  pread : ℕ → ℕ → SyscallScript
  pread_le : ∀ offset length n, (pread offset length).outcome = .count n →
    n ≤ length ∧ n ≤ bytes.length-offset

namespace InputFile

def delivered (input : InputFile) (offset count : ℕ) : Bytes :=
  (input.bytes.drop offset).take count

theorem readAtWith_le (input : InputFile) (offset length : ℕ) :
    (readAtWith (input.pread offset length)).bytesRead ≤ length ∧
    (input.delivered offset (readAtWith (input.pread offset length)).bytesRead).length =
      (readAtWith (input.pread offset length)).bytesRead := by
  cases houtcome : (input.pread offset length).outcome with
  | error e =>
    rw [readAtWith_error houtcome]
    simp [delivered]
  | count n =>
    obtain ⟨hlength,hfile⟩ := input.pread_le offset length n houtcome
    rw [readAtWith_count houtcome]
    exact ⟨hlength,by simpa [delivered] using hfile⟩

end InputFile

/-- `SyncBackend::read_at`, with the bytes it delivers. -/
def SyncBackend.readAt (input : InputFile) (offset length : ℕ) : Except Failure Bytes :=
  let result := readAtWith (input.pread offset length)
  if result.errorNumber ≠ 0 then .error (.systemError result.errorNumber "SyncBackend::read_at")
  else .ok (input.delivered offset result.bytesRead)

structure SerialPipelineResult where
  blocksWritten : ℕ
  bytesWritten : ℕ
  deriving DecidableEq, Repr

/-- The local variables of the serial reference, with the stages and the output file. -/
structure SerialState (σ : Type*) where
  block : Bytes
  stages : List (StageEntry σ)
  output : Bytes
  result : SerialPipelineResult
  fileOffset : ℕ

namespace SerialReference

variable {σ : Type*}

abbrev Outcome := Except Failure SerialPipelineResult × Bytes

def advance (s : SerialState σ) (validBytes : ℕ) : Except Failure (SerialPipelineResult × ℕ) :=
  match checkedAdd s.result.bytesWritten validBytes "serial reference written-byte count overflow" with
  | .error failure => .error failure
  | .ok bytesWritten =>
    match checkedAdd s.result.blocksWritten 1 "serial reference block count overflow" with
    | .error failure => .error failure
    | .ok blocksWritten =>
      match checkedAdd s.fileOffset validBytes "serial reference file offset overflow" with
      | .error failure => .error failure
      | .ok fileOffset => .ok (⟨blocksWritten,bytesWritten⟩,fileOffset)

def iteration (input : InputFile) (pwrite : ℕ → ℕ → SyscallScript) (s : SerialState σ) :
    Outcome ⊕ SerialState σ :=
  let readResult := readAtWith (input.pread s.fileOffset s.block.length)
  if readResult.errorNumber ≠ 0 then
    .inl (.error (.systemError readResult.errorNumber "serial reference pread"),s.output)
  else if readResult.bytesRead = 0 then .inl (.ok s.result,s.output)
  else
    let block := input.delivered s.fileOffset readResult.bytesRead ++
      s.block.drop readResult.bytesRead
    let processed := Pipeline.process s.stages (block.take readResult.bytesRead)
    match processed.failure with
    | some failure => .inl (.error failure,s.output)
    | none =>
      let validData := processed.block
      let (writeResult,output) := writeAllAtWith pwrite validData s.fileOffset ⟨0,s.output⟩
      if writeResult.errorNumber ≠ 0 then
        .inl (.error (.systemError writeResult.errorNumber "serial reference pwrite"),output)
      else if writeResult.bytesWritten ≠ validData.length then
        .inl (.error (.runtimeError "serial reference did not write the complete block"),output)
      else
        match advance s validData.length with
        | .error failure => .inl (.error failure,output)
        | .ok (result,fileOffset) => .inr {
            block := validData++block.drop readResult.bytesRead
            stages := processed.stages
            output := output
            result := result
            fileOffset := fileOffset }

theorem advance_ok {s : SerialState σ} {validBytes fileOffset : ℕ} {result : SerialPipelineResult}
    (h : advance s validBytes = .ok (result,fileOffset)) :
    result = ⟨s.result.blocksWritten+1,s.result.bytesWritten+validBytes⟩ ∧
      fileOffset = s.fileOffset+validBytes ∧ validBytes ≤ uint64Max-s.fileOffset := by
  unfold advance at h
  split at h
  · cases h
  · rename_i bytes hbytes
    split at h
    · cases h
    · rename_i blocks hblocks
      split at h
      · cases h
      · rename_i offset hoffset
        obtain ⟨rfl,rfl⟩ := Prod.mk.inj (Except.ok.inj h)
        obtain rfl := checkedAdd_ok hbytes
        obtain rfl := checkedAdd_ok hblocks
        have hle := checkedAdd_fits hoffset
        obtain rfl := checkedAdd_ok hoffset
        exact ⟨rfl,rfl,hle⟩

theorem iteration_lt {input : InputFile} {pwrite : ℕ → ℕ → SyscallScript} {s next : SerialState σ}
    (h : iteration input pwrite s = .inr next) :
    s.fileOffset < next.fileOffset ∧ s.fileOffset < 2^64 := by
  unfold iteration at h
  simp only at h
  split at h
  · cases h
  · split at h
    · cases h
    · rename_i hzero
      split at h
      · cases h
      · split at h
        · cases h
        · split at h
          · cases h
          · split at h
            · cases h
            · rename_i hadvance
              obtain rfl := Sum.inr.inj h
              obtain ⟨-,hoffset,hfits⟩ := advance_ok hadvance
              obtain ⟨-,hlen⟩ := input.readAtWith_le s.fileOffset s.block.length
              simp only [Pipeline.process_block_length,List.length_take,List.length_append,hlen,
                uint64Max] at hoffset hfits
              have hpos := Nat.pos_of_ne_zero hzero
              simp only
              omega

def loop (input : InputFile) (pwrite : ℕ → ℕ → SyscallScript) (s : SerialState σ) : Outcome :=
  match _hnext : iteration input pwrite s with
  | .inl outcome => outcome
  | .inr next => loop input pwrite next
termination_by 2^64-s.fileOffset
decreasing_by
  have hlt := iteration_lt _hnext
  omega

/-- `run_serial_pipeline_reference` with the configuration, the descriptors, the pipeline and
the `pwrite` of a run; `memory` is what its buffer happens to hold. -/
def runSerialPipelineReference (input : InputFile) (call : RunCall σ) (memory : ℕ → UInt8) :
    Outcome :=
  match call.config.validate with
  | .error failure => (.error failure,[])
  | .ok () =>
    if call.inputFd < 0 ∨ call.outputFd < 0 then
      (.error (.invalidArgument "serial reference descriptors must be valid"),[])
    else if call.inputFd = call.outputFd then
      (.error (.invalidArgument "serial reference input and output descriptors must differ"),[])
    else if call.stages.length = 0 then
      (.error (.invalidArgument "serial reference requires at least one processing stage"),[])
    else loop input call.writeAt {
      block := (List.range call.config.blockSize).map memory
      stages := call.stages
      output := []
      result := ⟨0,0⟩
      fileOffset := 0 }

end SerialReference
end AsyncDataLoader
