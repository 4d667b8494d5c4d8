import AsyncDataLoader.RunFile
import AsyncDataLoader.BlockSequence

/-!
# The synchronous preprocessing baseline

`run_sync_preprocess_baseline` copies a file block by block and changes the case of its
letters. The output is truncated when it is opened, whatever file its name denotes.
-/

namespace AsyncDataLoader

open FileIO

structure SyncPreprocessConfig where
  inputPath : Option Path
  outputPath : Option Path
  blockSize : ℕ

structure SyncPreprocessResult where
  bytesRead : ℕ
  bytesWritten : ℕ
  errorNumber : ℕ
  deriving DecidableEq, Repr

/-- The loop over the valid bytes of a block, for one byte. -/
def flipCase (byte : UInt8) : UInt8 :=
  if 97 ≤ byte ∧ byte ≤ 122 ∨ 65 ≤ byte ∧ byte ≤ 90 then byte ^^^ 32 else byte

def swapCase (byte : UInt8) : UInt8 :=
  if 97 ≤ byte ∧ byte ≤ 122 then byte-32
  else if 65 ≤ byte ∧ byte ≤ 90 then byte+32
  else byte

theorem flipCase_eq (byte : UInt8) : flipCase byte = swapCase byte := by
  have hall : ∀ n : Fin 256, flipCase (UInt8.ofFin n) = swapCase (UInt8.ofFin n) := by
    decide +kernel
  exact hall byte.toFin

/-- What the system calls and the allocation of the block answer. `pread` sees the file as it
is: its count is short only at the end. The files are the entries of the directory `0`, under
the paths that the calls are given. -/
structure BaselineSystem where
  openInput : Option ℕ
  openOutput : Option ℕ
  newInode : ℕ
  allocate : ℕ → Option Failure
  pread : Bytes → ℕ → ℕ → SyscallScript
  pwrite : ℕ → ℕ → SyscallScript
  fsync : SyscallScript
  openInput_ne : openInput ≠ some 0
  openOutput_ne : openOutput ≠ some 0
  pread_count : ∀ content offset length n, (pread content offset length).outcome = .count n →
    n = min length (content.length-offset)
  pread_ne : ∀ content offset length, (pread content offset length).outcome ≠ .error 0
  pwrite_count : ∀ offset length n, (pwrite offset length).outcome = .count n → n ≤ length
  pwrite_ne : ∀ offset length, (pwrite offset length).outcome ≠ .error 0
  fsync_ne : fsync.outcome ≠ .error 0

structure BaselineState where
  block : Bytes
  inputOffset : ℕ
  outputOffset : ℕ
  totalRead : ℕ
  totalWritten : ℕ
  files : FileSystem Path Bytes

namespace BaselineSystem

variable (system : BaselineSystem)

abbrev Outcome := Except Failure SyncPreprocessResult × FileSystem Path Bytes

def openReadOnly (files : FileSystem Path Bytes) (path : Path) : Except ℕ ℕ :=
  match system.openInput with
  | some errorNumber => .error errorNumber
  | none =>
    match files.entries 0 path with
    | none => .error ENOENT
    | some inode => .ok inode

/-- `open` with `O_WRONLY | O_CREAT | O_TRUNC` -/
def openTruncated (files : FileSystem Path Bytes) (path : Path) :
    Except ℕ (ℕ × FileSystem Path Bytes) :=
  match system.openOutput with
  | some errorNumber => .error errorNumber
  | none =>
    match files.entries 0 path with
    | none => .ok (system.newInode,files.create 0 path system.newInode [])
    | some inode => .ok (inode,files.write inode [])

def finish (outputInode : ℕ) (s : BaselineState) : Outcome :=
  let errorNumber := fsyncFdWith system.fsync
  if errorNumber ≠ 0 then (.ok ⟨s.totalRead,s.totalWritten,errorNumber⟩,s.files)
  else (.ok ⟨s.totalRead,s.totalWritten,0⟩,s.files.sync outputInode)

def iteration (inputInode outputInode : ℕ) (s : BaselineState) : Outcome ⊕ BaselineState :=
  let content := s.files.contents inputInode
  let readResult := readAtWith (system.pread content s.inputOffset s.block.length)
  if readResult.errorNumber ≠ 0 then
    .inl (.ok ⟨s.totalRead,s.totalWritten,readResult.errorNumber⟩,s.files)
  else if readResult.bytesRead = 0 then .inl (system.finish outputInode s)
  else
    let delivered := (content.drop s.inputOffset).take readResult.bytesRead
    let block := delivered.map flipCase++s.block.drop readResult.bytesRead
    let (writeResult,output) := writeAllAtWith system.pwrite (block.take readResult.bytesRead)
      s.outputOffset ⟨0,s.files.contents outputInode⟩
    let files := s.files.write outputInode output
    if writeResult.errorNumber ≠ 0 then
      .inl (.ok ⟨s.totalRead,s.totalWritten,writeResult.errorNumber⟩,files)
    else .inr {
      block := block
      inputOffset := (s.inputOffset+readResult.bytesRead)%2^64
      outputOffset := (s.outputOffset+writeResult.bytesWritten)%2^64
      totalRead := (s.totalRead+readResult.bytesRead)%2^64
      totalWritten := (s.totalWritten+writeResult.bytesWritten)%2^64
      files := files }

def loop (inputInode outputInode : ℕ) : ℕ → BaselineState → Option Outcome
  | 0,_ => none
  | fuel+1,s =>
    match system.iteration inputInode outputInode s with
    | .inl outcome => some outcome
    | .inr next => loop inputInode outputInode fuel next

/-- `run_sync_preprocess_baseline`; `none` when the loop has run out of fuel. -/
def runSyncPreprocessBaseline (fuel : ℕ) (config : SyncPreprocessConfig)
    (files : FileSystem Path Bytes) : Option Outcome :=
  match config.inputPath,config.outputPath with
  | some inputPath,some outputPath =>
    if config.blockSize = 0 then some (.ok ⟨0,0, EINVAL⟩,files)
    else
      match system.openReadOnly files inputPath with
      | .error errorNumber => some (.ok ⟨0,0,errorNumber⟩,files)
      | .ok inputInode =>
        match system.openTruncated files outputPath with
        | .error errorNumber => some (.ok ⟨0,0,errorNumber⟩,files)
        | .ok (outputInode,files') =>
          match system.allocate config.blockSize with
          | some failure => some (.error failure,files')
          | none => system.loop inputInode outputInode fuel
              ⟨List.replicate config.blockSize 0,0,0,0,0,files'⟩
  | _,_ => some (.ok ⟨0,0, EINVAL⟩,files)

end BaselineSystem

namespace FileIO

theorem writeAllAtWith_complete {pwrite : ℕ → ℕ → SyscallScript} {buffer : Bytes} {offset : ℕ}
    (hcount : ∀ offset length n, (pwrite offset length).outcome = .count n → n ≤ length)
    (hne : ∀ offset length, (pwrite offset length).outcome ≠ .error 0) {progress : WriteProgress}
    (hle : progress.writtenCount ≤ buffer.length)
    (hdone : (writeAllAtWith pwrite buffer offset progress).1.errorNumber = 0) :
    (writeAllAtWith pwrite buffer offset progress).1.bytesWritten = buffer.length := by
  have hwithin : WritesWithin pwrite := ⟨hcount,hne⟩
  cases hattempt : writeAttempt pwrite buffer offset progress with
  | inl result =>
    rw [writeAllAtWith_done hattempt] at hdone ⊢
    exact hwithin.complete hle hattempt hdone
  | inr next =>
    have hprogress := writeAttempt_progress hattempt
    rw [writeAllAtWith_next hattempt] at hdone ⊢
    exact writeAllAtWith_complete hcount hne (hwithin.next_le hattempt) hdone
termination_by buffer.length-progress.writtenCount

end FileIO

namespace BaselineSystem

variable (system : BaselineSystem)

def Copied (outputPath : Path) (outputInode : ℕ) (content : Bytes) (outcome : Outcome) : Prop :=
  ∀ result, outcome.1 = .ok result → result.errorNumber = 0 →
    outcome.2.denotes 0 outputPath = some (outputInode,content.map flipCase) ∧
      result = ⟨content.length,content.length,0⟩

/-- The loop after the first `o` bytes of another file. -/
structure Copying (outputPath : Path) (inputInode outputInode blockSize : ℕ) (content : Bytes)
    (s : BaselineState) (o : ℕ) : Prop where
  offset_le : o ≤ content.length
  inputOffset_eq : s.inputOffset = o
  outputOffset_eq : s.outputOffset = o
  totalRead_eq : s.totalRead = o
  totalWritten_eq : s.totalWritten = o
  block_length : s.block.length = blockSize
  input_eq : s.files.contents inputInode = content
  output_eq : s.files.contents outputInode = (content.take o).map flipCase
  entry : s.files.entries 0 outputPath = some outputInode

variable {system} {outputPath : Path} {inputInode outputInode blockSize o : ℕ} {content : Bytes}
  {s : BaselineState}

theorem Copying.finish (h : Copying outputPath inputInode outputInode blockSize content s o)
    (hend : o = content.length) :
    Copied outputPath outputInode content (system.finish outputInode s) := by
  subst hend
  intro result hresult hzero
  unfold BaselineSystem.finish at hresult ⊢
  by_cases hfsync : fsyncFdWith system.fsync = 0
  · simp only [hfsync,ne_eq,not_true_eq_false,if_false] at hresult ⊢
    obtain rfl := Except.ok.inj hresult
    refine ⟨?_,by rw [h.totalRead_eq,h.totalWritten_eq]⟩
    have hentry : (s.files.sync outputInode).entries 0 outputPath = some outputInode := h.entry
    have hcontents : (s.files.sync outputInode).contents outputInode = content.map flipCase := by
      have houtput := h.output_eq
      rwa [List.take_length] at houtput
    rw [FileSystem.denotes,hentry,Option.map_some,hcontents]
  · simp only [ne_eq,hfsync,not_false_eq_true,if_true] at hresult
    obtain rfl := Except.ok.inj hresult
    exact absurd hzero hfsync

theorem Copying.written (h : Copying outputPath inputInode outputInode blockSize content s o)
    (hsize : content.length ≤ 2^63-1) {n : ℕ} (hn : n ≤ content.length-o) {data : Bytes}
    (hdata : data = ((content.drop o).take n).map flipCase)
    (hdone : (writeAllAtWith system.pwrite data o ⟨0,s.files.contents outputInode⟩).1.errorNumber =
      0) :
    (writeAllAtWith system.pwrite data o ⟨0,s.files.contents outputInode⟩).1.bytesWritten = n ∧
      (writeAllAtWith system.pwrite data o ⟨0,s.files.contents outputInode⟩).2 =
        (content.take (o+n)).map flipCase := by
  have hle := h.offset_le
  have hlength : data.length = n := by
    rw [hdata,List.length_map,List.length_take,List.length_drop]
    omega
  have hbase : ((content.take o).map flipCase).length = o := by
    rw [List.length_map,List.length_take]
    omega
  have hstart : WriteProgress.Extends ⟨0,s.files.contents outputInode⟩
      ((content.take o).map flipCase) data := by
    rw [WriteProgress.Extends,h.output_eq,List.take_zero,List.append_nil]
  have hcomplete := writeAllAtWith_complete system.pwrite_count system.pwrite_ne
    (Nat.zero_le _) hdone
  have hfile := (@writeAllAtWith_file system.pwrite _ _ _ hstart (by
    simp only [uint64Max]
    omega)).1
  rw [hbase,hcomplete,List.take_length] at hfile
  refine ⟨hcomplete.trans hlength,?_⟩
  rw [hfile,hdata,List.take_add,List.map_append]

variable (system) in
theorem Copying.iteration (h : Copying outputPath inputInode outputInode blockSize content s o)
    (hne : inputInode ≠ outputInode) (hblock : 0 < blockSize) (hsize : content.length ≤ 2^63-1) :
    (∃ outcome, system.iteration inputInode outputInode s = .inl outcome ∧
      Copied outputPath outputInode content outcome) ∨
    ∃ next o', system.iteration inputInode outputInode s = .inr next ∧ o < o' ∧
      Copying outputPath inputInode outputInode blockSize content next o' := by
  have hle := h.offset_le
  unfold BaselineSystem.iteration
  simp only [h.input_eq,h.inputOffset_eq,h.block_length]
  cases houtcome : (system.pread content o blockSize).outcome with
  | error e =>
    have he : e ≠ 0 := fun he => system.pread_ne _ _ _ (he ▸ houtcome)
    rw [readAtWith_error houtcome]
    simp only [ne_eq,he,not_false_eq_true,if_true]
    exact .inl ⟨_,rfl,fun result hresult hzero => by
      obtain rfl := Except.ok.inj hresult
      exact absurd hzero he⟩
  | count n =>
    have hn := system.pread_count _ _ _ _ houtcome
    rw [readAtWith_count houtcome]
    simp only [ne_eq,not_true_eq_false,if_false]
    by_cases hzero : n = 0
    · rw [if_pos hzero]
      exact .inl ⟨_,rfl,h.finish (by omega)⟩
    · rw [if_neg hzero]
      have hlength : (((content.drop o).take n).map flipCase).length = n := by
        rw [List.length_map,List.length_take,List.length_drop]
        omega
      have hdata : (((content.drop o).take n).map flipCase++s.block.drop n).take n =
          ((content.drop o).take n).map flipCase := by
        rw [List.take_append_of_le_length (by omega),List.take_of_length_le (by omega)]
      rw [hdata,h.outputOffset_eq]
      split
      · rename_i herror
        exact .inl ⟨_,rfl,fun result hresult hzero => by
          obtain rfl := Except.ok.inj hresult
          exact absurd hzero herror⟩
      · rename_i hdone
        obtain ⟨hcount,hfile⟩ := h.written hsize (by omega) rfl (not_not.mp hdone)
        have hmod : (o+n)%2^64 = o+n := Nat.mod_eq_of_lt (by omega)
        refine .inr ⟨_,o+n,rfl,by omega,?_⟩
        exact {
          offset_le := by omega
          inputOffset_eq := hmod
          outputOffset_eq := by rw [hcount]; exact hmod
          totalRead_eq := by rw [h.totalRead_eq]; exact hmod
          totalWritten_eq := by rw [h.totalWritten_eq,hcount]; exact hmod
          block_length := by
            have hblock := h.block_length
            rw [List.length_append,hlength,List.length_drop]
            omega
          input_eq := (if_neg hne).trans h.input_eq
          output_eq := (if_pos rfl).trans hfile
          entry := h.entry }

theorem Copying.loop (h : Copying outputPath inputInode outputInode blockSize content s o)
    (hne : inputInode ≠ outputInode) (hblock : 0 < blockSize) (hsize : content.length ≤ 2^63-1)
    {fuel : ℕ} (hfuel : content.length-o < fuel) :
    ∃ outcome, system.loop inputInode outputInode fuel s = some outcome ∧
      Copied outputPath outputInode content outcome := by
  induction fuel generalizing s o with
  | zero => omega
  | succ fuel ih =>
    rcases h.iteration system hne hblock hsize with
      ⟨outcome,hend,hcopied⟩ | ⟨next,o',hnext,hlt,hcopying⟩
    · exact ⟨outcome,by simp only [BaselineSystem.loop,hend],hcopied⟩
    · have hle := hcopying.offset_le
      obtain ⟨outcome,hloop,hcopied⟩ := ih hcopying (by omega)
      exact ⟨outcome,by simp only [BaselineSystem.loop,hnext,hloop],hcopied⟩

variable (system) in
/-- The first read of an emptied file fails, or the sync that follows it does. -/
def FailsEmpty (inputOffset blockSize : ℕ) : Prop :=
  (∃ e, (system.pread [] inputOffset blockSize).outcome = .error e) ∨
    ∃ e, system.fsync.outcome = .error e

theorem finish_denotes (system : BaselineSystem) (outputInode : ℕ) (s : BaselineState) :
    (system.finish outputInode s).2.denotes = s.files.denotes := by
  unfold finish
  by_cases hfsync : fsyncFdWith system.fsync = 0 <;> simp [hfsync]

theorem finish_contents (system : BaselineSystem) (outputInode : ℕ) (s : BaselineState) :
    (system.finish outputInode s).2.contents = s.files.contents := by
  unfold finish
  by_cases hfsync : fsyncFdWith system.fsync = 0 <;> simp [hfsync,FileSystem.sync]

theorem finish_result (system : BaselineSystem) (outputInode : ℕ) (s : BaselineState) :
    ∃ result, (system.finish outputInode s).1 = .ok result ∧
      ((∃ e, system.fsync.outcome = .error e) → result.errorNumber ≠ 0) ∧
      ((¬ ∃ e, system.fsync.outcome = .error e) → result = ⟨s.totalRead,s.totalWritten,0⟩) := by
  unfold finish fsyncFdWith
  rw [retryInterrupted_results]
  cases houtcome : system.fsync.outcome with
  | error e =>
    have he : e ≠ 0 := fun he => system.fsync_ne (he ▸ houtcome)
    simp [he]
  | count n => simp

variable (system) in
/-- The input has been truncated: the first read finds its end, if it does not fail. -/
theorem loop_truncated (hempty : s.files.contents inputInode = []) {fuel : ℕ} (hfuel : 0 < fuel)
    (outputInode : ℕ) : ∃ outcome result,
      system.loop inputInode outputInode fuel s = some outcome ∧ outcome.1 = .ok result ∧
      outcome.2.contents = s.files.contents ∧ outcome.2.denotes = s.files.denotes ∧
      (system.FailsEmpty s.inputOffset s.block.length → result.errorNumber ≠ 0) ∧
      (¬ system.FailsEmpty s.inputOffset s.block.length →
        result = ⟨s.totalRead,s.totalWritten,0⟩) := by
  obtain ⟨fuel,rfl⟩ : ∃ m, fuel = m+1 := ⟨fuel-1,by omega⟩
  unfold FailsEmpty
  cases houtcome : (system.pread [] s.inputOffset s.block.length).outcome with
  | error e =>
    have he : e ≠ 0 := fun he => system.pread_ne _ _ _ (he ▸ houtcome)
    have hiteration : system.iteration inputInode outputInode s =
        .inl (.ok ⟨s.totalRead,s.totalWritten,e⟩,s.files) := by
      simp [iteration,hempty,readAtWith_error houtcome,he]
    exact ⟨(.ok ⟨s.totalRead,s.totalWritten,e⟩,s.files),⟨s.totalRead,s.totalWritten,e⟩,
      by simp only [loop,hiteration],rfl,rfl,rfl,fun _ => he,
      fun hnot => absurd (.inl ⟨e,rfl⟩) hnot⟩
  | count n =>
    have hn := system.pread_count _ _ _ _ houtcome
    obtain rfl : n = 0 := by simpa using hn
    have hiteration : system.iteration inputInode outputInode s =
        .inl (system.finish outputInode s) := by
      simp [iteration,hempty,readAtWith_count houtcome]
    obtain ⟨result,hresult,hfails,hsucceeds⟩ := system.finish_result outputInode s
    refine ⟨_,result,by simp only [loop,hiteration],hresult,system.finish_contents _ _,
      system.finish_denotes _ _,?_,?_⟩
    · rintro (⟨e,he⟩ | herror)
      · cases he
      · exact hfails herror
    · intro hnot
      exact hsucceeds fun herror => hnot (.inr herror)

end BaselineSystem

/-- The case changes of the input, or a failure that leaves a file under two names alone. -/
structure BaselineContract (system : BaselineSystem) (inputPath outputPath : Path)
    (files : FileSystem Path Bytes) (inputInode : ℕ) (outcome : BaselineSystem.Outcome) :
    Prop where
  copied : ∀ result, outcome.1 = .ok result → result.errorNumber = 0 →
    (∃ outputInode, outcome.2.denotes 0 outputPath =
      some (outputInode,(files.contents inputInode).map swapCase)) ∧
    result.bytesRead = (files.contents inputInode).length ∧
    result.bytesWritten = (files.contents inputInode).length
  independent : ∀ fuel blockSize other result result', (files.contents inputInode).length < fuel →
    0 < blockSize → system.runSyncPreprocessBaseline fuel
      ⟨some inputPath,some outputPath,blockSize⟩ files = some other →
    outcome.1 = .ok result → other.1 = .ok result' → result.errorNumber = 0 →
    result'.errorNumber = 0 →
    result = result' ∧ outcome.2.denotes 0 outputPath = other.2.denotes 0 outputPath
  spared : files.entries 0 outputPath = some inputInode →
    (∀ result, outcome.1 = .ok result → result.errorNumber ≠ 0) ∧
    outcome.2.contents inputInode = files.contents inputInode

/-- The names denote different files, or a call fails before the output is truncated, or the
file is empty and there is a failure afterwards. -/
def BaselineSystem.Spares (system : BaselineSystem) (outputPath : Path) (blockSize : ℕ)
    (files : FileSystem Path Bytes) (inputInode : ℕ) : Prop :=
  files.entries 0 outputPath ≠ some inputInode ∨ system.openInput ≠ none ∨
    system.openOutput ≠ none ∨ files.contents inputInode = [] ∧
      (system.allocate blockSize ≠ none ∨ system.FailsEmpty 0 blockSize)

namespace BaselineSystem

variable {system : BaselineSystem} {files : FileSystem Path Bytes} {inputPath outputPath : Path}
  {inputInode blockSize fuel : ℕ}

def outputInode (system : BaselineSystem) (files : FileSystem Path Bytes) (outputPath : Path) : ℕ :=
  (files.entries 0 outputPath).getD system.newInode

variable (outputPath fuel) in
theorem run_unopened (hinput : files.entries 0 inputPath = some inputInode) (hblock : 0 < blockSize)
    (h : system.openInput ≠ none ∨ system.openOutput ≠ none) :
    ∃ e, e ≠ 0 ∧ system.runSyncPreprocessBaseline fuel
      ⟨some inputPath,some outputPath,blockSize⟩ files = some (.ok ⟨0,0,e⟩,files) := by
  have hpos : blockSize ≠ 0 := by omega
  unfold runSyncPreprocessBaseline openReadOnly openTruncated
  simp only [if_neg hpos]
  cases hopen : system.openInput with
  | some e => exact ⟨e,fun he => system.openInput_ne (he ▸ hopen),rfl⟩
  | none =>
    simp only [hinput]
    cases houtput : system.openOutput with
    | some e => exact ⟨e,fun he => system.openOutput_ne (he ▸ houtput),rfl⟩
    | none => simp [hopen,houtput] at h

theorem run_other (hinput : files.entries 0 inputPath = some inputInode)
    (hunused : ∀ path, files.entries 0 path ≠ some system.newInode)
    (hother : files.entries 0 outputPath ≠ some inputInode) (hblock : 0 < blockSize)
    (hsize : (files.contents inputInode).length ≤ 2^63-1)
    (hfuel : (files.contents inputInode).length < fuel) :
    ∃ outcome, system.runSyncPreprocessBaseline fuel
        ⟨some inputPath,some outputPath,blockSize⟩ files = some outcome ∧
      Copied outputPath (system.outputInode files outputPath) (files.contents inputInode)
        outcome := by
  by_cases hopens : system.openInput ≠ none ∨ system.openOutput ≠ none
  · obtain ⟨e,he,hrun⟩ := run_unopened outputPath fuel hinput hblock hopens
    refine ⟨_,hrun,fun result hresult hzero => ?_⟩
    obtain rfl := Except.ok.inj hresult
    exact absurd hzero he
  · obtain ⟨hopen,houtput⟩ := not_or.mp hopens
    rw [not_not] at hopen houtput
    have hpos : blockSize ≠ 0 := by omega
    have htruncated : ∃ files', system.openTruncated files outputPath =
          .ok (system.outputInode files outputPath,files') ∧
        inputInode ≠ system.outputInode files outputPath ∧
        files'.contents inputInode = files.contents inputInode ∧
        files'.contents (system.outputInode files outputPath) = [] ∧
        files'.entries 0 outputPath = some (system.outputInode files outputPath) := by
      unfold openTruncated outputInode
      rw [houtput]
      cases hentry : files.entries 0 outputPath with
      | none =>
        have hne : inputInode ≠ system.newInode := fun heq => hunused inputPath (heq ▸ hinput)
        exact ⟨_,rfl,hne,if_neg hne,if_pos rfl,if_pos ⟨rfl,rfl⟩⟩
      | some inode =>
        have hne : inputInode ≠ inode := fun heq => hother (heq ▸ hentry)
        exact ⟨_,rfl,hne,if_neg hne,if_pos rfl,hentry⟩
    obtain ⟨files',htruncated,hne,hcontent,hempty,hentry⟩ := htruncated
    unfold runSyncPreprocessBaseline openReadOnly
    simp only [if_neg hpos,hopen,hinput,htruncated]
    cases hallocate : system.allocate blockSize with
    | some failure => exact ⟨_,rfl,nofun⟩
    | none =>
      have hstart : Copying outputPath inputInode (system.outputInode files outputPath) blockSize
          (files.contents inputInode) ⟨List.replicate blockSize 0,0,0,0,0,files'⟩ 0 :=
        ⟨Nat.zero_le _,rfl,rfl,rfl,rfl,List.length_replicate,hcontent,hempty,hentry⟩
      exact hstart.loop hne hblock hsize (by omega)

variable (fuel) in
theorem run_same (hinput : files.entries 0 inputPath = some inputInode)
    (hsame : files.entries 0 outputPath = some inputInode) (hblock : 0 < blockSize)
    (hopen : system.openInput = none) (houtput : system.openOutput = none) (hfuel : 0 < fuel) :
    ∃ outcome, system.runSyncPreprocessBaseline fuel
        ⟨some inputPath,some outputPath,blockSize⟩ files = some outcome ∧
      outcome.2.denotes 0 outputPath = some (inputInode,[]) ∧
      outcome.2.contents inputInode = [] ∧
      (system.allocate blockSize ≠ none ∨ system.FailsEmpty 0 blockSize →
        ∀ result, outcome.1 = .ok result → result.errorNumber ≠ 0) ∧
      (¬ (system.allocate blockSize ≠ none ∨ system.FailsEmpty 0 blockSize) →
        outcome.1 = .ok ⟨0,0,0⟩) := by
  have hpos : blockSize ≠ 0 := by omega
  have hempty : (files.write inputInode []).contents inputInode = [] := if_pos rfl
  have hdenotes : (files.write inputInode []).denotes 0 outputPath = some (inputInode,[]) := by
    have hentry : (files.write inputInode []).entries 0 outputPath = some inputInode := hsame
    rw [FileSystem.denotes,hentry,Option.map_some,hempty]
  unfold runSyncPreprocessBaseline openReadOnly openTruncated
  simp only [if_neg hpos,hopen,hinput,houtput,hsame]
  cases hallocate : system.allocate blockSize with
  | some failure =>
    refine ⟨_,rfl,hdenotes,hempty,fun _ result hresult => ?_,fun hnot => absurd ?_ hnot⟩
    · cases hresult
    · exact .inl (Option.some_ne_none failure)
  | none =>
    obtain ⟨outcome,result,hloop,hresult,hcontents,hsamedenotes,hfails,hsucceeds⟩ :=
      @loop_truncated system inputInode
        ⟨List.replicate blockSize 0,0,0,0,0,files.write inputInode []⟩ hempty fuel hfuel inputInode
    simp only [List.length_replicate] at hfails hsucceeds
    refine ⟨outcome,hloop,by rw [hsamedenotes]; exact hdenotes,by rw [hcontents]; exact hempty,?_,?_⟩
    · intro hlater result' hresult'
      obtain rfl := Except.ok.inj (hresult.symm.trans hresult')
      exact hfails (hlater.resolve_left (not_not.mpr rfl))
    · intro hnot
      rw [hresult,hsucceeds fun hempty => hnot (.inr hempty)]

end BaselineSystem

/-- The baseline protects a file under two names only where it fails for another reason. -/
theorem baseline_contract_iff (system : BaselineSystem) (inputPath outputPath : Path)
    (files : FileSystem Path Bytes) (inputInode blockSize fuel : ℕ)
    (hinput : files.entries 0 inputPath = some inputInode)
    (hunused : ∀ path, files.entries 0 path ≠ some system.newInode)
    (hsize : (files.contents inputInode).length ≤ 2^63-1) (hblock : 0 < blockSize)
    (hfuel : (files.contents inputInode).length < fuel) :
    ∃ outcome, system.runSyncPreprocessBaseline fuel
        ⟨some inputPath,some outputPath,blockSize⟩ files = some outcome ∧
      (BaselineContract system inputPath outputPath files inputInode outcome ↔
        system.Spares outputPath blockSize files inputInode) := by
  have hswap : (files.contents inputInode).map flipCase =
      (files.contents inputInode).map swapCase := List.map_congr_left fun byte _ => flipCase_eq byte
  by_cases hopens : system.openInput ≠ none ∨ system.openOutput ≠ none
  · obtain ⟨e,he,hrun⟩ := BaselineSystem.run_unopened outputPath fuel hinput hblock hopens
    have hfails : ∀ result, Except.ok (ε := Failure) (⟨0,0,e⟩ : SyncPreprocessResult) = .ok result →
        result.errorNumber ≠ 0 := by
      intro result hresult
      obtain rfl := Except.ok.inj hresult
      exact he
    refine ⟨_,hrun,fun _ => .inr (hopens.imp_right .inl),fun _ => ⟨?_,?_,fun _ => ⟨hfails,rfl⟩⟩⟩
    · exact fun result hresult hzero => absurd hzero (hfails result hresult)
    · intro _ _ _ result _ _ _ _ hresult _ hzero
      exact absurd hzero (hfails result hresult)
  · obtain ⟨hopen,houtput⟩ := not_or.mp hopens
    rw [not_not] at hopen houtput
    by_cases hsame : files.entries 0 outputPath = some inputInode
    · obtain ⟨outcome,hrun,hdenotes,hempty,hfails,hsucceeds⟩ :=
        BaselineSystem.run_same fuel hinput hsame hblock hopen houtput (by omega)
      refine ⟨outcome,hrun,fun hcontract => ?_,fun hspares => ?_⟩
      · obtain ⟨hnone,hunchanged⟩ := hcontract.spared hsame
        refine .inr (.inr (.inr ⟨hunchanged.symm.trans hempty,?_⟩))
        by_contra hnot
        exact hnone _ (hsucceeds hnot) rfl
      · obtain hdiffer | hnone | hnone | ⟨hcontent,hlater⟩ := hspares
        · exact absurd hsame hdiffer
        · exact absurd hopen hnone
        · exact absurd houtput hnone
        · have hfailed := hfails hlater
          refine ⟨?_,?_,fun _ => ⟨hfailed,hempty.trans hcontent.symm⟩⟩
          · exact fun result hresult hzero => absurd hzero (hfailed result hresult)
          · intro _ _ _ result _ _ _ _ hresult _ hzero
            exact absurd hzero (hfailed result hresult)
    · obtain ⟨outcome,hrun,hcopied⟩ :=
        BaselineSystem.run_other hinput hunused hsame hblock hsize hfuel
      refine ⟨outcome,hrun,fun _ => .inl hsame,fun _ => ⟨?_,?_,fun heq => absurd heq hsame⟩⟩
      · intro result hresult hzero
        obtain ⟨hdenotes,rfl⟩ := hcopied result hresult hzero
        exact ⟨⟨_,hswap ▸ hdenotes⟩,rfl,rfl⟩
      · intro fuel' blockSize' other result result' hfuel' hblock' hrun' hresult hresult' hzero hzero'
        obtain ⟨outcome',hother,hcopied'⟩ :=
          BaselineSystem.run_other hinput hunused hsame hblock' hsize hfuel'
        obtain rfl := Option.some.inj (hother.symm.trans hrun')
        obtain ⟨hdenotes,rfl⟩ := hcopied result hresult hzero
        obtain ⟨hdenotes',rfl⟩ := hcopied' result' hresult' hzero'
        exact ⟨rfl,hdenotes.trans hdenotes'.symm⟩

def BaselineSystem.faultless : BaselineSystem where
  openInput := none
  openOutput := none
  newInode := 9
  allocate := fun _ => none
  pread := fun content offset length => .counting 0 (min length (content.length-offset))
  pwrite := fun _ length => .counting 0 length
  fsync := .counting 0 0
  openInput_ne := nofun
  openOutput_ne := nofun
  pread_count := fun _ _ _ _ h => (SyscallResult.count.inj h).symm
  pread_ne := nofun
  pwrite_count := fun _ _ _ h => Nat.le_of_eq (SyscallResult.count.inj h).symm
  pwrite_ne := nofun
  fsync_ne := nofun

def FileSystem.linked : FileSystem Path Bytes where
  entries := fun _ path => if path = ['a'] ∨ path = ['b'] then some 5 else none
  contents := fun _ => [97,66]
  durable := fun _ => []

/-- The call empties the file and reports success. -/
theorem linked_emptied : ∃ outcome,
    BaselineSystem.faultless.runSyncPreprocessBaseline 3 ⟨some ['a'],some ['b'],4⟩ .linked =
      some outcome ∧
    outcome.1 = .ok ⟨0,0,0⟩ ∧ outcome.2.contents 5 = [] ∧
    ¬ BaselineContract .faultless ['a'] ['b'] .linked 5 outcome := by
  refine ⟨_,rfl,rfl,rfl,fun h => ?_⟩
  have hspared := h.spared rfl
  exact hspared.1 _ rfl rfl

theorem baseline_contract_iff_linked : ∃ outcome,
    BaselineSystem.faultless.runSyncPreprocessBaseline 3 ⟨some ['a'],some ['c'],1⟩ .linked =
      some outcome ∧
    (BaselineContract .faultless ['a'] ['c'] .linked 5 outcome ↔
      BaselineSystem.faultless.Spares ['c'] 1 .linked 5) :=
  baseline_contract_iff .faultless ['a'] ['c'] .linked 5 1 3 rfl
    (fun path => by simp only [FileSystem.linked,BaselineSystem.faultless]; split <;> simp)
    (by decide) (by decide) (by decide)

end AsyncDataLoader
