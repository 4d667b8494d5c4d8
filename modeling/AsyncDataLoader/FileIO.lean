import AsyncDataLoader.ByteFile
import AsyncDataLoader.Failure

/-!
# Positional file I/O

The retry loop of `read_at_with` and the write loop of `write_all_at_with`, over
scripted system calls.
-/

namespace AsyncDataLoader
namespace FileIO

abbrev Bytes := List UInt8

/-- One return of `pread` or `pwrite`: a byte count, or -1 with an `errno`. -/
inductive SyscallResult
  | count (n : ℕ)
  | error (errorNumber : ℕ)
  deriving DecidableEq, Repr

/-- What the kernel answers to one call that is repeated while it is interrupted: a finite
number of `EINTR` results and then another one. -/
structure SyscallScript where
  interrupts : ℕ
  outcome : SyscallResult
  outcome_ne : outcome ≠ .error EINTR

def SyscallScript.counting (interrupts n : ℕ) : SyscallScript := ⟨interrupts,.count n,nofun⟩

@[simp] theorem SyscallScript.counting_outcome (interrupts n : ℕ) :
    (counting interrupts n).outcome = .count n := rfl

def SyscallScript.results (script : SyscallScript) : List SyscallResult :=
  List.replicate script.interrupts (.error EINTR) ++ [script.outcome]

/-- `while (result < 0 && errno == EINTR) result = call(...)`, on the results the calls
return one after the other. -/
def retryInterrupted : List SyscallResult → Option SyscallResult
  | [] => none
  | result::results => if result = .error EINTR then retryInterrupted results else some result

@[simp] theorem retryInterrupted_results (script : SyscallScript) :
    retryInterrupted script.results = some script.outcome := by
  have hall : ∀ n, retryInterrupted (List.replicate n (.error EINTR) ++ [script.outcome]) =
      some script.outcome := by
    intro n
    induction n with
    | zero => simp [retryInterrupted,script.outcome_ne]
    | succ n ih => simpa [List.replicate_succ,retryInterrupted] using ih
  exact hall script.interrupts

structure ReadAtResult where
  bytesRead : ℕ
  errorNumber : ℕ
  deriving DecidableEq, Repr

structure WriteAtResult where
  bytesWritten : ℕ
  errorNumber : ℕ
  deriving DecidableEq, Repr

/-- `read_at_with` on the results that `pread` returns one after the other. -/
def readAtWith (script : SyscallScript) : ReadAtResult :=
  match retryInterrupted script.results with
  | none => ⟨0,EINTR⟩ -- not reached: the script ends the retries
  | some (.error e) => ⟨0,e⟩
  | some (.count n) => ⟨n,0⟩

theorem readAtWith_count {script : SyscallScript} {n : ℕ} (h : script.outcome = .count n) :
    readAtWith script = ⟨n,0⟩ := by
  simp [readAtWith,h]

theorem readAtWith_error {script : SyscallScript} {e : ℕ} (h : script.outcome = .error e) :
    readAtWith script = ⟨0,e⟩ := by
  simp [readAtWith,h]

/-- The loop variables of `write_all_at_with`: how much is written, and the file so far. -/
structure WriteProgress where
  writtenCount : ℕ
  file : Bytes

/-- One iteration of the outer loop of `write_all_at_with`: one `pwrite` of the remaining
bytes, retried while interrupted, or the return after the loop. -/
def writeAttempt (pwrite : ℕ → ℕ → SyscallScript) (buffer : Bytes) (offset : ℕ)
    (progress : WriteProgress) : WriteAtResult ⊕ WriteProgress :=
  if progress.writtenCount < buffer.length then
    let remaining := buffer.length-progress.writtenCount
    let currentOffset := (offset+progress.writtenCount)%2^64
    match retryInterrupted (pwrite currentOffset remaining).results with
    | none => .inl ⟨progress.writtenCount,EINTR⟩
    | some (.error e) => .inl ⟨progress.writtenCount,e⟩
    | some (.count 0) => .inl ⟨progress.writtenCount, EIO⟩
    | some (.count n) =>
      .inr ⟨progress.writtenCount+n,
        ByteFile.store progress.file currentOffset ((buffer.drop progress.writtenCount).take n)⟩
  else .inl ⟨progress.writtenCount,0⟩

theorem writeAttempt_progress {pwrite : ℕ → ℕ → SyscallScript} {buffer : Bytes} {offset : ℕ}
    {progress next : WriteProgress} (h : writeAttempt pwrite buffer offset progress = .inr next) :
    progress.writtenCount < buffer.length ∧ progress.writtenCount < next.writtenCount := by
  unfold writeAttempt at h
  split at h
  · rename_i hlt
    simp only [retryInterrupted_results] at h
    split at h <;> try cases h
    rename_i n hn _
    have hpos : n ≠ 0 := fun h0 => hn h0
    exact ⟨hlt,by simp only; omega⟩
  · cases h

/-- What `pwrite` promises: it does not write more than it is asked to, and sets an error number
when it fails. -/
structure WritesWithin (pwrite : ℕ → ℕ → SyscallScript) : Prop where
  count_le : ∀ offset length n, (pwrite offset length).outcome = .count n → n ≤ length
  error_ne : ∀ offset length, (pwrite offset length).outcome ≠ .error 0

theorem WritesWithin.next_le {pwrite : ℕ → ℕ → SyscallScript} (h : WritesWithin pwrite)
    {buffer : Bytes} {offset : ℕ} {progress next : WriteProgress}
    (hattempt : writeAttempt pwrite buffer offset progress = .inr next) :
    next.writtenCount ≤ buffer.length := by
  unfold writeAttempt at hattempt
  split at hattempt
  · simp only [retryInterrupted_results] at hattempt
    split at hattempt <;> try cases hattempt
    rename_i n _ hn
    have hfit := h.count_le _ _ _ (Option.some.inj hn)
    simp only
    omega
  · cases hattempt

theorem WritesWithin.complete {pwrite : ℕ → ℕ → SyscallScript} (h : WritesWithin pwrite)
    {buffer : Bytes} {offset : ℕ} {progress : WriteProgress} {result : WriteAtResult}
    (hle : progress.writtenCount ≤ buffer.length)
    (hattempt : writeAttempt pwrite buffer offset progress = .inl result)
    (hdone : result.errorNumber = 0) : result.bytesWritten = buffer.length := by
  unfold writeAttempt at hattempt
  split at hattempt
  · simp only [retryInterrupted_results] at hattempt
    split at hattempt
    · rename_i hnone
      cases hnone
    · rename_i e he
      obtain rfl := Sum.inl.inj hattempt
      obtain rfl : e = 0 := hdone
      exact absurd (Option.some.inj he) (h.error_ne _ _)
    · obtain rfl := Sum.inl.inj hattempt
      cases hdone
    · cases hattempt
  · obtain rfl := Sum.inl.inj hattempt
    simp only
    omega

def writeAllAtWith (pwrite : ℕ → ℕ → SyscallScript) (buffer : Bytes) (offset : ℕ)
    (progress : WriteProgress) : WriteAtResult × Bytes :=
  match _hnext : writeAttempt pwrite buffer offset progress with
  | .inl result => (result,progress.file)
  | .inr next => writeAllAtWith pwrite buffer offset next
termination_by buffer.length-progress.writtenCount
decreasing_by
  have hp := writeAttempt_progress _hnext
  omega

end FileIO
end AsyncDataLoader
