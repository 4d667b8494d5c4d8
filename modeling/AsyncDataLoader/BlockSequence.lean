import AsyncDataLoader.PipelineExecutor

/-!
# The blocks of a run

What the call of `run` determines before any thread moves: the offset and the bytes of the
`k`-th block, the stage states it meets, and the file after it has been written. Each is
`none` from the first block on that cannot be read, processed or written.
-/

namespace AsyncDataLoader

open FileIO

namespace FileIO

/-- The writes so far have put the first bytes of the buffer behind `base`. -/
def WriteProgress.Extends (progress : WriteProgress) (base buffer : Bytes) : Prop :=
  progress.file = base++buffer.take progress.writtenCount

theorem WriteProgress.Extends.attempt {pwrite : ℕ → ℕ → SyscallScript} {base buffer : Bytes}
    {progress next : WriteProgress} (h : progress.Extends base buffer)
    (hrange : base.length+buffer.length ≤ uint64Max)
    (hnext : writeAttempt pwrite buffer base.length progress = .inr next) :
    next.Extends base buffer := by
  unfold writeAttempt at hnext
  split at hnext
  · rename_i hlt
    have hlen : progress.file.length = (base.length+progress.writtenCount)%2^64 := by
      rw [h,List.length_append,List.length_take,
        Nat.mod_eq_of_lt (by simp only [uint64Max] at hrange; omega)]
      omega
    simp only [retryInterrupted_results] at hnext
    split at hnext <;> try cases hnext
    simp only [WriteProgress.Extends,← hlen,ByteFile.store_end]
    rw [h,List.append_assoc,List.take_add]
  · cases hnext

theorem writeAllAtWith_file {pwrite : ℕ → ℕ → SyscallScript} {base buffer : Bytes}
    {progress : WriteProgress} (h : progress.Extends base buffer)
    (hrange : base.length+buffer.length ≤ uint64Max) :
    (writeAllAtWith pwrite buffer base.length progress).2 =
      base++buffer.take (writeAllAtWith pwrite buffer base.length progress).1.bytesWritten ∧
    progress.writtenCount ≤ (writeAllAtWith pwrite buffer base.length progress).1.bytesWritten := by
  unfold writeAllAtWith
  split
  · rename_i result hdone
    have hcount : result.bytesWritten = progress.writtenCount := by
      unfold writeAttempt at hdone
      split at hdone
      · simp only [retryInterrupted_results] at hdone
        split at hdone <;> cases hdone <;> rfl
      · cases hdone; rfl
    rw [hcount]
    exact ⟨h,le_refl _⟩
  · rename_i next hnext
    have hprogress := writeAttempt_progress hnext
    obtain ⟨hfile,hle⟩ := writeAllAtWith_file (h.attempt hrange hnext) hrange
    exact ⟨hfile,by omega⟩
termination_by buffer.length-progress.writtenCount

theorem writeAllAtWith_next {pwrite : ℕ → ℕ → SyscallScript} {buffer : Bytes} {offset : ℕ}
    {progress next : WriteProgress} (h : writeAttempt pwrite buffer offset progress = .inr next) :
    writeAllAtWith pwrite buffer offset progress = writeAllAtWith pwrite buffer offset next := by
  rw [writeAllAtWith]
  split
  · rename_i result hdone
    rw [h] at hdone; cases hdone
  · rename_i next' hnext
    obtain rfl := Sum.inr.inj (h.symm.trans hnext)
    rfl

theorem writeAllAtWith_done {pwrite : ℕ → ℕ → SyscallScript} {buffer : Bytes} {offset : ℕ}
    {progress : WriteProgress} {result : WriteAtResult}
    (h : writeAttempt pwrite buffer offset progress = .inl result) :
    writeAllAtWith pwrite buffer offset progress = (result,progress.file) := by
  rw [writeAllAtWith]
  split
  · rename_i result' hdone
    obtain rfl := Sum.inl.inj (h.symm.trans hdone)
    rfl
  · rename_i next hnext
    rw [h] at hnext; cases hnext

theorem prefix_writeAllAtWith {pwrite : ℕ → ℕ → SyscallScript} {base buffer : Bytes}
    {progress : WriteProgress} (h : progress.Extends base buffer)
    (hrange : base.length+buffer.length ≤ uint64Max) :
    progress.file <+: (writeAllAtWith pwrite buffer base.length progress).2 := by
  obtain ⟨hfile,hle⟩ := writeAllAtWith_file h hrange
  rw [hfile,h]
  exact (List.prefix_append_right_inj base).mpr (List.take_prefix_take_left hle)

end FileIO

namespace RunCall

variable {σ : Type*} (call : RunCall σ)

/-- The offset after a block that can be read at this one. -/
def nextOffset (offset : ℕ) : Option ℕ :=
  match call.readAt offset call.config.blockSize with
  | .error _ => none
  | .ok data =>
    if data ≠ [] ∧ data.length ≤ call.config.blockSize ∧ offset+data.length ≤ uint64Max then
      some (offset+data.length)
    else none

def offsetAt : ℕ → Option ℕ
  | 0 => some 0
  | k+1 => (offsetAt k).bind call.nextOffset

def rawAt (k : ℕ) : Bytes :=
  match call.offsetAt k with
  | none => []
  | some offset => match call.readAt offset call.config.blockSize with
    | .error _ => []
    | .ok data => data

/-- The stages before they process the `k`-th block. -/
def stagesAt : ℕ → Option (List (StageEntry σ))
  | 0 => some call.stages
  | k+1 => (stagesAt k).bind fun stages =>
    match (Pipeline.process stages (call.rawAt k)).failure with
    | some _ => none
    | none => some (Pipeline.process stages (call.rawAt k)).stages

def processedAt (k : ℕ) : Bytes :=
  match call.stagesAt k with
  | none => []
  | some stages => (Pipeline.process stages (call.rawAt k)).block

def fileAt : ℕ → Option Bytes
  | 0 => some []
  | k+1 => (fileAt k).bind fun file =>
    match writeAllAtWith call.writeAt (call.processedAt k) file.length ⟨0,file⟩ with
    | (result,file') =>
      if result.errorNumber = 0 ∧ result.bytesWritten = (call.processedAt k).length then some file'
      else none

/-- The read after block `k-1` finds the end of the input. -/
def EofAt (k : ℕ) : Prop :=
  ∃ offset, call.offsetAt k = some offset ∧ call.readAt offset call.config.blockSize = .ok []

variable {call}

theorem nextOffset_eq {offset next : ℕ} (h : call.nextOffset offset = some next) :
    ∃ data, call.readAt offset call.config.blockSize = .ok data ∧ data ≠ [] ∧
      data.length ≤ call.config.blockSize ∧ offset+data.length ≤ uint64Max ∧
      next = offset+data.length := by
  unfold nextOffset at h
  split at h
  · cases h
  · rename_i data hread
    split at h
    · rename_i hfit
      exact ⟨data,hread,hfit.1,hfit.2.1,hfit.2.2,(Option.some.inj h).symm⟩
    · cases h

theorem offsetAt_succ {k next : ℕ} (h : call.offsetAt (k+1) = some next) :
    ∃ offset, call.offsetAt k = some offset ∧
      call.readAt offset call.config.blockSize = .ok (call.rawAt k) ∧ call.rawAt k ≠ [] ∧
      (call.rawAt k).length ≤ call.config.blockSize ∧ next ≤ uint64Max ∧
      next = offset+(call.rawAt k).length := by
  obtain ⟨offset,hoffset,hnext⟩ := Option.bind_eq_some_iff.mp h
  obtain ⟨data,hread,hne,hfit,hrange,rfl⟩ := nextOffset_eq hnext
  have hraw : call.rawAt k = data := by simp [rawAt,hoffset,hread]
  rw [hraw]
  exact ⟨offset,hoffset,hread,hne,hfit,hrange,rfl⟩

theorem offsetAt_of_read {k offset : ℕ} {data : Bytes} (hoffset : call.offsetAt k = some offset)
    (hread : call.readAt offset call.config.blockSize = .ok data) (hne : data ≠ [])
    (hfit : data.length ≤ call.config.blockSize) (hrange : offset+data.length ≤ uint64Max) :
    call.offsetAt (k+1) = some (offset+data.length) ∧ call.rawAt k = data := by
  refine ⟨?_,by simp [rawAt,hoffset,hread]⟩
  simp only [offsetAt,hoffset,Option.bind_some,nextOffset,hread]
  exact if_pos ⟨hne,hfit,hrange⟩

theorem offsetAt_le {k offset : ℕ} (h : call.offsetAt k = some offset) :
    k ≤ offset ∧ offset ≤ uint64Max := by
  induction k generalizing offset with
  | zero =>
    obtain rfl := Option.some.inj h
    exact ⟨le_refl _,Nat.zero_le _⟩
  | succ k ih =>
    obtain ⟨before,hbefore,-,hne,-,hrange,rfl⟩ := offsetAt_succ h
    have hpos : 0 < (call.rawAt k).length := List.length_pos_iff.mpr hne
    have hk := (ih hbefore).1
    exact ⟨by omega,hrange⟩

theorem EofAt.not_succ {k : ℕ} (h : call.EofAt k) : call.offsetAt (k+1) = none := by
  obtain ⟨offset,hoffset,hread⟩ := h
  simp [offsetAt,hoffset,nextOffset,hread]

theorem offsetAt_mono {j k : ℕ} (hjk : j ≤ k) (h : call.offsetAt k ≠ none) :
    call.offsetAt j ≠ none := by
  induction hjk with
  | refl => exact h
  | step _ ih =>
    refine ih fun hnone => h ?_
    simp [offsetAt,hnone]

theorem EofAt.le {n k : ℕ} (h : call.EofAt n) (hk : call.offsetAt k ≠ none) : k ≤ n := by
  by_contra hlt
  exact offsetAt_mono (Nat.lt_of_not_ge hlt) hk h.not_succ

theorem EofAt.unique {m n : ℕ} (hm : call.EofAt m) (hn : call.EofAt n) : m = n := by
  obtain ⟨o,ho,-⟩ := id hm
  obtain ⟨o',ho',-⟩ := id hn
  exact Nat.le_antisymm (hn.le (by simp [ho])) (hm.le (by simp [ho']))

theorem stagesAt_succ {k : ℕ} {stages' : List (StageEntry σ)} (h : call.stagesAt (k+1) = some stages') :
    ∃ stages, call.stagesAt k = some stages ∧
      (Pipeline.process stages (call.rawAt k)).failure = none ∧
      (Pipeline.process stages (call.rawAt k)).stages = stages' ∧
      (Pipeline.process stages (call.rawAt k)).block = call.processedAt k := by
  obtain ⟨stages,hstages,hprocess⟩ := Option.bind_eq_some_iff.mp h
  refine ⟨stages,hstages,?_⟩
  split at hprocess
  · cases hprocess
  · rename_i hok
    exact ⟨hok,Option.some.inj hprocess,by simp [processedAt,hstages]⟩

theorem stagesAt_of_process {k : ℕ} {stages : List (StageEntry σ)}
    (hstages : call.stagesAt k = some stages)
    (hok : (Pipeline.process stages (call.rawAt k)).failure = none) :
    call.stagesAt (k+1) = some (Pipeline.process stages (call.rawAt k)).stages := by
  simp [stagesAt,hstages,hok]

theorem stagesAt_mono {j k : ℕ} (hjk : j ≤ k) (h : call.stagesAt k ≠ none) :
    call.stagesAt j ≠ none := by
  induction hjk with
  | refl => exact h
  | step _ ih =>
    refine ih fun hnone => h ?_
    simp [stagesAt,hnone]

theorem processedAt_length {k : ℕ} (h : call.stagesAt k ≠ none) :
    (call.processedAt k).length = (call.rawAt k).length := by
  obtain ⟨stages,hstages⟩ := Option.ne_none_iff_exists'.mp h
  simp [processedAt,hstages]

theorem fileAt_succ {k : ℕ} {file' : Bytes} (h : call.fileAt (k+1) = some file') :
    ∃ file, call.fileAt k = some file ∧
      ∃ result, writeAllAtWith call.writeAt (call.processedAt k) file.length ⟨0,file⟩ =
        (result,file') ∧ result.errorNumber = 0 ∧
        result.bytesWritten = (call.processedAt k).length := by
  obtain ⟨file,hfile,hwrite⟩ := Option.bind_eq_some_iff.mp h
  refine ⟨file,hfile,?_⟩
  cases hw : writeAllAtWith call.writeAt (call.processedAt k) file.length ⟨0,file⟩ with
  | mk result written =>
    simp only [hw] at hwrite
    split at hwrite
    · rename_i hok
      obtain rfl := Option.some.inj hwrite
      exact ⟨result,rfl,hok.1,hok.2⟩
    · cases hwrite

theorem fileAt_of_write {k : ℕ} {file file' : Bytes} {result : WriteAtResult}
    (hfile : call.fileAt k = some file)
    (hwrite : writeAllAtWith call.writeAt (call.processedAt k) file.length ⟨0,file⟩ =
      (result,file')) (herror : result.errorNumber = 0)
    (hcount : result.bytesWritten = (call.processedAt k).length) :
    call.fileAt (k+1) = some file' := by
  simp [fileAt,hfile,hwrite,herror,hcount]

/-- The file is the processed blocks, one after the other, and ends at the next offset. -/
theorem fileAt_eq {k offset : ℕ} {file : Bytes} (hfile : call.fileAt k = some file)
    (hoffset : call.offsetAt k = some offset) (hstages : call.stagesAt k ≠ none) :
    file = (List.range k).flatMap call.processedAt ∧ file.length = offset := by
  induction k generalizing offset file with
  | zero =>
    obtain rfl := Option.some.inj hfile
    obtain rfl := Option.some.inj hoffset
    exact ⟨rfl,rfl⟩
  | succ k ih =>
    obtain ⟨before,hbefore,-,-,-,hrange,rfl⟩ := offsetAt_succ hoffset
    obtain ⟨file₀,hfile₀,result,hwrite,-,hcount⟩ := fileAt_succ hfile
    have hstages₀ := stagesAt_mono (Nat.le_succ k) hstages
    obtain ⟨heq,hlen⟩ := ih hfile₀ hbefore hstages₀
    have hsize := processedAt_length hstages₀
    have hextends : (⟨0,file₀⟩ : WriteProgress).Extends file₀ (call.processedAt k) := by
      simp [WriteProgress.Extends]
    obtain ⟨hafter,-⟩ := @writeAllAtWith_file call.writeAt _ _ _ hextends (by omega)
    rw [hwrite] at hafter
    simp only [hcount,List.take_length] at hafter
    subst hafter
    refine ⟨?_,by rw [List.length_append]; omega⟩
    rw [List.range_succ,List.flatMap_append,← heq]
    simp

end RunCall
end AsyncDataLoader
