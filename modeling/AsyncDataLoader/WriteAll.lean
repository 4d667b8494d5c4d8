import AsyncDataLoader.BlockSequence

/-!
# The calls of a complete write

`write_all_at_with`, one call of `write_at` after the other: the arguments of each call, what
the calls answer, and what the loop makes of the answers. The number of calls is that of the
answers it needs.
-/

namespace AsyncDataLoader
namespace FileIO

/-- The arguments of a `write_at`; `data` begins where its pointer points. -/
structure WriteCall where
  fd : ℤ
  data : Bytes
  byteCount : ℕ
  offset : ℕ
  deriving DecidableEq, Repr

def writeCall (fd : ℤ) (buffer : Bytes) (offset writtenCount : ℕ) : WriteCall where
  fd := fd
  data := buffer.drop writtenCount
  byteCount := buffer.length-writtenCount
  offset := (offset+writtenCount)%2^64

structure WriteLoop where
  writtenCount : ℕ
  file : Bytes
  calls : List WriteCall
  deriving DecidableEq, Repr

/-- `write_all_at_with` on the results of its calls; `none` while it needs more of them. An
interrupted call is made again. -/
def writeAllCalls (fd : ℤ) (buffer : Bytes) (offset : ℕ) :
    WriteLoop → List SyscallResult → Option (WriteAtResult × WriteLoop)
  | loop,outcomes =>
    if loop.writtenCount < buffer.length then
      match outcomes with
      | [] => none
      | outcome::outcomes =>
        let call := writeCall fd buffer offset loop.writtenCount
        let called := { loop with calls := loop.calls++[call] }
        match outcome with
        | .error e =>
          if e = EINTR then writeAllCalls fd buffer offset called outcomes
          else some (⟨loop.writtenCount,e⟩,called)
        | .count 0 => some (⟨loop.writtenCount, EIO⟩,called)
        | .count (n+1) => writeAllCalls fd buffer offset
            { called with
              writtenCount := loop.writtenCount+(n+1)
              file := ByteFile.store loop.file call.offset (call.data.take (n+1)) } outcomes
    else some (⟨loop.writtenCount,0⟩,loop)

def SyscallResult.progress : SyscallResult → ℕ
  | .count n => n
  | .error _ => 0

def written (outcomes : List SyscallResult) : ℕ := (outcomes.map SyscallResult.progress).sum

/-- The calls of a script that are interrupted only show in the list of the calls. -/
theorem writeAllCalls_interrupts {fd : ℤ} {buffer : Bytes} {offset : ℕ} {loop : WriteLoop}
    (hlt : loop.writtenCount < buffer.length) (interrupts : ℕ) (rest : List SyscallResult) :
    writeAllCalls fd buffer offset loop (List.replicate interrupts (.error EINTR)++rest) =
      writeAllCalls fd buffer offset { loop with
        calls := loop.calls++List.replicate interrupts
          (writeCall fd buffer offset loop.writtenCount) } rest := by
  induction interrupts generalizing loop with
  | zero => simp
  | succ interrupts ih =>
    rw [List.replicate_succ,List.cons_append,writeAllCalls,if_pos hlt]
    simp only [if_true]
    have hrest := @ih ⟨loop.writtenCount,loop.file,
      loop.calls++[writeCall fd buffer offset loop.writtenCount]⟩ hlt
    rw [hrest]
    simp [List.replicate_succ]

theorem writeAttempt_calls (fd : ℤ) (pwrite : ℕ → ℕ → SyscallScript) (buffer : Bytes)
    (offset : ℕ) (progress : WriteProgress) (calls : List WriteCall) :
    ∃ outcomes calls', match writeAttempt pwrite buffer offset progress with
      | .inl result => writeAllCalls fd buffer offset
          ⟨progress.writtenCount,progress.file,calls⟩ outcomes =
          some (result,⟨progress.writtenCount,progress.file,calls'⟩)
      | .inr next => ∀ rest, writeAllCalls fd buffer offset
          ⟨progress.writtenCount,progress.file,calls⟩ (outcomes++rest) =
          writeAllCalls fd buffer offset ⟨next.writtenCount,next.file,calls'⟩ rest := by
  by_cases hlt : progress.writtenCount < buffer.length
  · obtain ⟨script,hpwrite⟩ : ∃ script, pwrite ((offset+progress.writtenCount)%2^64)
      (buffer.length-progress.writtenCount) = script := ⟨_,rfl⟩
    have hresults : ∀ rest, writeAllCalls fd buffer offset
        ⟨progress.writtenCount,progress.file,calls⟩ (script.results++rest) =
        writeAllCalls fd buffer offset ⟨progress.writtenCount,progress.file,
          calls++List.replicate script.interrupts
            (writeCall fd buffer offset progress.writtenCount)⟩ (script.outcome::rest) := by
      intro rest
      rw [SyscallScript.results,List.append_assoc]
      exact @writeAllCalls_interrupts fd buffer offset ⟨progress.writtenCount,progress.file,calls⟩ hlt _ _
    refine ⟨script.results,calls++List.replicate script.interrupts
      (writeCall fd buffer offset progress.writtenCount)++
        [writeCall fd buffer offset progress.writtenCount],?_⟩
    rw [writeAttempt,if_pos hlt]
    simp only [hpwrite,retryInterrupted_results]
    cases houtcome : script.outcome with
    | error e =>
      have hne : e ≠ EINTR := fun he => script.outcome_ne (he ▸ houtcome)
      rw [← List.append_nil script.results,hresults,houtcome,writeAllCalls,if_pos hlt]
      simp only [if_neg hne]
    | count n =>
      cases n with
      | zero =>
        rw [← List.append_nil script.results,hresults,houtcome,writeAllCalls,if_pos hlt]
        rfl
      | succ n =>
        intro rest
        rw [hresults,houtcome,writeAllCalls,if_pos hlt]
        rfl
  · refine ⟨[],calls,?_⟩
    rw [writeAttempt,if_neg hlt]
    simp only [writeAllCalls,if_neg hlt]

/-- The loop of `write_all_at_with` over scripts is the loop over their results. -/
theorem writeAllAtWith_calls (fd : ℤ) (pwrite : ℕ → ℕ → SyscallScript) (buffer : Bytes)
    (offset : ℕ) (progress : WriteProgress) (calls : List WriteCall) :
    ∃ outcomes loop, writeAllCalls fd buffer offset ⟨progress.writtenCount,progress.file,calls⟩
        outcomes = some ((writeAllAtWith pwrite buffer offset progress).1,loop) ∧
      loop.file = (writeAllAtWith pwrite buffer offset progress).2 := by
  obtain ⟨outcomes,calls',hcalls⟩ := writeAttempt_calls fd pwrite buffer offset progress calls
  cases hattempt : writeAttempt pwrite buffer offset progress with
  | inl result =>
    rw [hattempt] at hcalls
    rw [writeAllAtWith_done hattempt]
    exact ⟨outcomes,_,hcalls,rfl⟩
  | inr next =>
    rw [hattempt] at hcalls
    have hprogress := writeAttempt_progress hattempt
    obtain ⟨rest,loop,hrest,hfile⟩ :=
      writeAllAtWith_calls fd pwrite buffer offset next calls'
    rw [writeAllAtWith_next hattempt]
    exact ⟨outcomes++rest,loop,(hcalls rest).trans hrest,hfile⟩
termination_by buffer.length-progress.writtenCount

/-- A file after a write that stores nothing if there is nothing to store. -/
def stored (file : Bytes) (offset : ℕ) (data : Bytes) : Bytes :=
  if data = [] then file else ByteFile.store file offset data

/-- What `write_all_at_with` has done when it returns. -/
structure WriteAllContract (fd : ℤ) (buffer : Bytes) (offset : ℕ) (file : Bytes)
    (outcomes : List SyscallResult) (result : WriteAtResult) (loop : WriteLoop) : Prop where
  file_eq : loop.file = stored file offset (buffer.take result.bytesWritten)
  bytesWritten_le : result.bytesWritten ≤ buffer.length
  complete_iff : result.errorNumber = 0 ↔ result.bytesWritten = buffer.length
  calls_eq : loop.calls = (List.range loop.calls.length).map fun k =>
    writeCall fd buffer offset (written (outcomes.take k))
  bytesWritten_eq : result.bytesWritten = written (outcomes.take loop.calls.length)
  continued : ∀ k, k+1 < loop.calls.length → outcomes[k]? = some (.error EINTR) ∨
    ∃ n, outcomes[k]? = some (.count (n+1))
  retried : ∀ k, k+1 < loop.calls.length → outcomes[k]? = some (.error EINTR) →
    loop.calls[k+1]? = loop.calls[k]?
  stopped : result.errorNumber ≠ 0 → ∃ k, loop.calls.length = k+1 ∧
    (outcomes[k]? = some (.error result.errorNumber) ∧ result.errorNumber ≠ EINTR ∨
      outcomes[k]? = some (.count 0) ∧ result.errorNumber = EIO)

variable {fd : ℤ} {buffer : Bytes} {offset : ℕ}

theorem written_append (us vs : List SyscallResult) : written (us++vs) = written us+written vs := by
  simp [written]

theorem stored_next {file : Bytes} {count n : ℕ} (h : count+(n+1) ≤ buffer.length) :
    ByteFile.store (stored file offset (buffer.take count)) (offset+count)
      ((buffer.drop count).take (n+1)) = stored file offset (buffer.take (count+(n+1))) := by
  have htake : buffer.take (count+(n+1)) = buffer.take count++(buffer.drop count).take (n+1) :=
    List.take_add
  have hnext : buffer.take (count+(n+1)) ≠ [] := by
    intro hnil
    have hlen := congrArg List.length hnil
    rw [List.length_take,List.length_nil] at hlen
    omega
  by_cases hzero : count = 0
  · subst hzero
    simp only [Nat.zero_add] at hnext
    simp [stored,hnext]
  · have hfirst : buffer.take count ≠ [] := by
      intro hnil
      have hlen := congrArg List.length hnil
      rw [List.length_take,List.length_nil] at hlen
      omega
    have hcount : (buffer.take count).length = count := by
      rw [List.length_take]
      omega
    have hstore := ByteFile.store_store file (buffer.take count) ((buffer.drop count).take (n+1))
      offset
    rw [hcount] at hstore
    rw [stored,stored,if_neg hfirst,if_neg hnext,hstore,htake]

theorem written_interrupted (outcomes : List SyscallResult) {k : ℕ}
    (h : outcomes[k]? = some (.error EINTR)) :
    written (outcomes.take (k+1)) = written (outcomes.take k) := by
  rw [List.take_add_one,h,written_append]
  rfl

/-- The loop after the results `used`, all of which let it go on. -/
structure Reached (fd : ℤ) (buffer : Bytes) (offset : ℕ) (file : Bytes)
    (used : List SyscallResult) (loop : WriteLoop) : Prop where
  writtenCount_eq : loop.writtenCount = written used
  writtenCount_le : loop.writtenCount ≤ buffer.length
  file_eq : loop.file = stored file offset (buffer.take loop.writtenCount)
  calls_eq : loop.calls = (List.range used.length).map fun k =>
    writeCall fd buffer offset (written (used.take k))
  continued : ∀ outcome ∈ used, outcome = .error EINTR ∨ ∃ n, outcome = .count (n+1)
  resumed : ∀ rest, writeAllCalls fd buffer offset ⟨0,file,[]⟩ (used++rest) =
    writeAllCalls fd buffer offset loop rest

namespace Reached

variable {file : Bytes} {used : List SyscallResult} {loop : WriteLoop}

theorem start (file : Bytes) : Reached fd buffer offset file [] ⟨0,file,[]⟩ where
  writtenCount_eq := rfl
  writtenCount_le := Nat.zero_le _
  file_eq := by simp [stored]
  calls_eq := rfl
  continued := by simp
  resumed := fun _ => rfl

@[simp] theorem calls_length (h : Reached fd buffer offset file used loop) :
    loop.calls.length = used.length := by
  rw [h.calls_eq,List.length_map,List.length_range]

theorem called (h : Reached fd buffer offset file used loop) (outcome : SyscallResult) :
    loop.calls++[writeCall fd buffer offset loop.writtenCount] =
      (List.range (used++[outcome]).length).map fun k =>
        writeCall fd buffer offset (written ((used++[outcome]).take k)) := by
  rw [List.length_append,List.length_singleton,List.range_succ,List.map_append,h.calls_eq]
  congr 1
  · refine List.map_congr_left fun k hk => ?_
    rw [List.take_append_of_le_length (Nat.le_of_lt (List.mem_range.mp hk))]
  · simp [h.writtenCount_eq]

theorem interrupted (h : Reached fd buffer offset file used loop)
    (hlt : loop.writtenCount < buffer.length) :
    Reached fd buffer offset file (used++[.error EINTR])
      { loop with calls := loop.calls++[writeCall fd buffer offset loop.writtenCount] } where
  writtenCount_eq := by rw [written_append]; exact h.writtenCount_eq
  writtenCount_le := h.writtenCount_le
  file_eq := h.file_eq
  calls_eq := h.called _
  continued := by
    intro outcome hmem
    rcases List.mem_append.mp hmem with hold | hnew
    · exact h.continued outcome hold
    · exact .inl (List.mem_singleton.mp hnew)
  resumed := by
    intro rest
    rw [List.append_assoc,h.resumed,List.singleton_append,writeAllCalls,if_pos hlt]
    rfl

theorem advanced (h : Reached fd buffer offset file used loop)
    (hrange : offset+buffer.length < 2^64) (hlt : loop.writtenCount < buffer.length) {n : ℕ}
    (hfit : loop.writtenCount+(n+1) ≤ buffer.length) :
    Reached fd buffer offset file (used++[.count (n+1)])
      ⟨loop.writtenCount+(n+1),
        ByteFile.store loop.file (writeCall fd buffer offset loop.writtenCount).offset
          ((writeCall fd buffer offset loop.writtenCount).data.take (n+1)),
        loop.calls++[writeCall fd buffer offset loop.writtenCount]⟩ where
  writtenCount_eq := by rw [written_append]; simp [h.writtenCount_eq,written,SyscallResult.progress]
  writtenCount_le := hfit
  file_eq := by
    rw [h.file_eq]
    have hoffset : (offset+loop.writtenCount)%2^64 = offset+loop.writtenCount :=
      Nat.mod_eq_of_lt (by omega)
    simp only [writeCall,hoffset]
    exact stored_next hfit
  calls_eq := h.called _
  continued := by
    intro outcome hmem
    rcases List.mem_append.mp hmem with hold | hnew
    · exact h.continued outcome hold
    · exact .inr ⟨n,List.mem_singleton.mp hnew⟩
  resumed := by
    intro rest
    rw [List.append_assoc,h.resumed,List.singleton_append,writeAllCalls,if_pos hlt]

theorem contract {outcomes : List SyscallResult} {result : WriteAtResult} {calls : List WriteCall}
    (h : Reached fd buffer offset file used loop)
    (hused : used <+: outcomes) (hcount : result.bytesWritten = loop.writtenCount)
    (hcalls : calls = (List.range outcomes.length).map fun k =>
      writeCall fd buffer offset (written (outcomes.take k)))
    (hlen : outcomes.length ≤ used.length+1) (hlast : written outcomes = loop.writtenCount)
    (hcomplete : result.errorNumber = 0 ↔ result.bytesWritten = buffer.length)
    (hstopped : result.errorNumber ≠ 0 → outcomes.length = used.length+1 ∧
      (outcomes[used.length]? = some (.error result.errorNumber) ∧ result.errorNumber ≠ EINTR ∨
        outcomes[used.length]? = some (.count 0) ∧ result.errorNumber = EIO)) :
    WriteAllContract fd buffer offset file outcomes result ⟨loop.writtenCount,loop.file,calls⟩ := by
  have hcallsLength : calls.length = outcomes.length := by
    rw [hcalls,List.length_map,List.length_range]
  exact {
    file_eq := by rw [hcount]; exact h.file_eq
    bytesWritten_le := by rw [hcount]; exact h.writtenCount_le
    complete_iff := hcomplete
    calls_eq := by rw [hcallsLength]; exact hcalls
    bytesWritten_eq := by rw [hcallsLength,List.take_length,hcount]; exact hlast.symm
    continued := by
      intro k hk
      have hk : k < used.length := by
        have hk : k+1 < calls.length := hk
        omega
      obtain ⟨rest,rfl⟩ := hused
      rw [List.getElem?_append_left hk,List.getElem?_eq_getElem hk]
      exact (h.continued _ (List.getElem_mem hk)).imp (congrArg some) fun ⟨n,hn⟩ =>
        ⟨n,congrArg some hn⟩
    retried := by
      intro k hk hEINTR
      have hk : k+1 < outcomes.length := by
        have hk : k+1 < calls.length := hk
        omega
      show calls[k+1]? = calls[k]?
      rw [hcalls,List.getElem?_map,List.getElem?_map,List.getElem?_range hk,
        List.getElem?_range (by omega : k < outcomes.length)]
      simp only [Option.map_some,written_interrupted outcomes hEINTR]
    stopped := fun hne => ⟨used.length,by
      obtain ⟨hlength,hcause⟩ := hstopped hne
      exact ⟨hcallsLength.trans hlength,hcause⟩⟩ }

end Reached

def results (outcomes : ℕ → SyscallResult) (n : ℕ) : List SyscallResult :=
  (List.range n).map outcomes

theorem results_succ (outcomes : ℕ → SyscallResult) (n : ℕ) :
    results outcomes (n+1) = results outcomes n++[outcomes n] := by
  rw [results,List.range_succ,List.map_append]
  rfl

@[simp] theorem results_length (outcomes : ℕ → SyscallResult) (n : ℕ) :
    (results outcomes n).length = n := by
  rw [results,List.length_map,List.length_range]

@[simp] theorem getElem?_results_succ (outcomes : ℕ → SyscallResult) (n : ℕ) :
    (results outcomes (n+1))[n]? = some (outcomes n) := by
  rw [results_succ,List.getElem?_append_right (by simp)]
  simp

/-- No call that is made stores more than it is asked to store. -/
def Obliging (fd : ℤ) (buffer : Bytes) (offset : ℕ) (file : Bytes)
    (outcomes : ℕ → SyscallResult) : Prop :=
  ∀ k n, writeAllCalls fd buffer offset ⟨0,file,[]⟩ (results outcomes k) = none →
    outcomes k = .count n → written (results outcomes k)+n ≤ buffer.length

/-- After some results of the script the loop returns and has kept its contract. -/
def Returns (fd : ℤ) (buffer : Bytes) (offset : ℕ) (file : Bytes)
    (outcomes : ℕ → SyscallResult) : Prop :=
  ∃ n result loop, writeAllCalls fd buffer offset ⟨0,file,[]⟩ (results outcomes n) =
      some (result,loop) ∧ loop.calls.length = n ∧
    WriteAllContract fd buffer offset file (results outcomes n) result loop

namespace Reached

variable {file : Bytes} {outcomes : ℕ → SyscallResult} {k : ℕ} {loop : WriteLoop}

theorem completes (h : Reached fd buffer offset file (results outcomes k) loop)
    (hdone : ¬loop.writtenCount < buffer.length) : Returns fd buffer offset file outcomes := by
  have hcount : loop.writtenCount = buffer.length := by
    have hle := h.writtenCount_le
    omega
  refine ⟨k,⟨loop.writtenCount,0⟩,loop,?_,by simp [h.calls_length],?_⟩
  · have hresumed := h.resumed []
    rw [List.append_nil,writeAllCalls,if_neg hdone] at hresumed
    exact hresumed
  · exact h.contract (List.prefix_refl _) rfl h.calls_eq (by omega) h.writtenCount_eq.symm
      (by simp [hcount]) (fun hne => absurd rfl hne)

theorem stops (h : Reached fd buffer offset file (results outcomes k) loop)
    (hlt : loop.writtenCount < buffer.length) {e : ℕ} (hpos : e ≠ 0)
    (hprogress : (outcomes k).progress = 0)
    (hcause : outcomes k = .error e ∧ e ≠ EINTR ∨ outcomes k = .count 0 ∧ e = EIO) :
    Returns fd buffer offset file outcomes := by
  refine ⟨k+1,⟨loop.writtenCount,e⟩,
    { loop with calls := loop.calls++[writeCall fd buffer offset loop.writtenCount] },?_,
    by simp [h.calls_length],?_⟩
  · rw [results_succ,h.resumed,writeAllCalls,if_pos hlt]
    rcases hcause with ⟨houtcome,hne⟩ | ⟨houtcome,rfl⟩
    · simp only [houtcome,if_neg hne]
    · simp only [houtcome]
  · rw [results_succ]
    refine h.contract (List.prefix_append _ _) rfl (h.called _) (by simp) ?_ ?_ fun _ => ?_
    · rw [written_append,h.writtenCount_eq]
      simpa [written] using hprogress
    · exact ⟨fun h0 => absurd h0 hpos,fun hfull => absurd hfull (Nat.ne_of_lt hlt)⟩
    · refine ⟨by simp,?_⟩
      rw [← results_succ,results_length,getElem?_results_succ]
      exact hcause.imp (And.imp_left (congrArg some)) (And.imp_left (congrArg some))

theorem called_next (hrange : offset+buffer.length < 2^64)
    (hpositive : ∀ k e, outcomes k = .error e → e ≠ 0)
    (hobliging : Obliging fd buffer offset file outcomes)
    (h : Reached fd buffer offset file (results outcomes k) loop) :
    Returns fd buffer offset file outcomes ∨
      ∃ next, Reached fd buffer offset file (results outcomes (k+1)) next ∧
        (outcomes k = .error EINTR ∧ next.writtenCount = loop.writtenCount ∨
          loop.writtenCount < next.writtenCount) := by
  by_cases hlt : loop.writtenCount < buffer.length
  · cases houtcome : outcomes k with
    | error e =>
      by_cases he : e = EINTR
      · subst he
        have hnext := h.interrupted hlt
        rw [← houtcome,← results_succ] at hnext
        exact .inr ⟨_,hnext,.inl ⟨rfl,rfl⟩⟩
      · exact .inl (h.stops hlt (hpositive k e houtcome) (by rw [houtcome]; rfl)
          (.inl ⟨houtcome,he⟩))
    | count n =>
      cases n with
      | zero => exact .inl (h.stops hlt (by decide) (by rw [houtcome]; rfl) (.inr ⟨houtcome,rfl⟩))
      | succ n =>
        have hmore : writeAllCalls fd buffer offset ⟨0,file,[]⟩ (results outcomes k) = none := by
          have hresumed := h.resumed []
          rwa [List.append_nil,writeAllCalls,if_pos hlt] at hresumed
        have hfit := hobliging k (n+1) hmore houtcome
        rw [← h.writtenCount_eq] at hfit
        have hnext := h.advanced hrange hlt hfit
        rw [← houtcome,← results_succ] at hnext
        exact .inr ⟨_,hnext,.inr (by simp only; omega)⟩
  · exact .inl (h.completes hlt)

/-- Induction on the bytes that are left, and below it on the distance to the next result that
is not an interruption. -/
theorem returns (hrange : offset+buffer.length < 2^64)
    (hpositive : ∀ k e, outcomes k = .error e → e ≠ 0)
    (hobliging : Obliging fd buffer offset file outcomes)
    (hinterrupts : ∀ k, ∃ j, k ≤ j ∧ outcomes j ≠ .error EINTR)
    (h : Reached fd buffer offset file (results outcomes k) loop) :
    Returns fd buffer offset file outcomes := by
  induction hremaining : buffer.length-loop.writtenCount using Nat.strong_induction_on
    generalizing k loop with
  | h remaining ih =>
    obtain ⟨j,hkj,hj⟩ := hinterrupts k
    induction hdistance : j-k generalizing k loop with
    | zero =>
      obtain rfl : j = k := by omega
      obtain hdone | ⟨next,hnext,⟨hEINTR,-⟩ | hlt⟩ := h.called_next hrange hpositive hobliging
      · exact hdone
      · exact absurd hEINTR hj
      · have hle := hnext.writtenCount_le
        exact ih _ (by omega) hnext rfl
    | succ distance ihdistance =>
      obtain hdone | ⟨next,hnext,⟨-,hsame⟩ | hlt⟩ := h.called_next hrange hpositive hobliging
      · exact hdone
      · exact ihdistance hnext (by rw [hsame]; exact hremaining) (by omega) (by omega)
      · have hle := hnext.writtenCount_le
        exact ih _ (by omega) hnext rfl

end Reached

end FileIO
end AsyncDataLoader
