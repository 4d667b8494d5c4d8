import AsyncDataLoader.LoopRule
import AsyncDataLoader.SerialRefinement
import AsyncDataLoader.AcceptedConfig

/-!
# The comparison of two files

`verify_files_equal_bounded` reads both files block by block, at the same offsets. It is the oracle
of the benchmark.
-/

namespace AsyncDataLoader

open FileIO

namespace InputFile

/-- A read before the end that does not fail returns a byte at least. -/
def NonzeroBeforeEof (input : InputFile) : Prop :=
  ∀ offset length, 0 < length → offset < input.bytes.length →
    (readAtWith (input.pread offset length)).errorNumber = 0 →
      0 < (readAtWith (input.pread offset length)).bytesRead

/-- No read fails, and a read is short at the end only. -/
def ShortAtEofOnly (input : InputFile) : Prop :=
  ∀ offset length, readAtWith (input.pread offset length) =
    ⟨min length (input.bytes.length-offset),0⟩

variable {input : InputFile} {offset length n m : ℕ}

theorem ShortAtEofOnly.nonzeroBeforeEof (h : input.ShortAtEofOnly) : input.NonzeroBeforeEof := by
  intro offset length hlength hoffset _
  rw [h offset length]
  exact Nat.lt_min.mpr ⟨hlength,Nat.sub_pos_of_lt hoffset⟩

theorem delivered_getElem? (h : m < n) :
    (input.delivered offset n)[m]? = input.bytes[offset+m]? := by
  rw [delivered,List.getElem?_take,if_pos h,List.getElem?_drop]

theorem delivered_take (h : m ≤ n) : input.bytes.take offset++(input.delivered offset n).take m =
    input.bytes.take (offset+m) := by
  rw [delivered,List.take_take,Nat.min_eq_left h,List.take_add]

theorem delivered_length_le (h : (input.delivered offset n).length = n) (hn : 0 < n) :
    offset+n ≤ input.bytes.length := by
  rw [delivered,List.length_take,List.length_drop] at h
  omega

end InputFile

/-- What opening a file gives: its error number, or the file. -/
abbrev OpenFileResult := Except ℕ InputFile

/-- An aligned buffer: whether there is memory for it, and what the memory holds. -/
structure BufferMemory where
  hasMemory : Bool
  contents : ℕ → UInt8

namespace FileComparison

def openComparisonInput (result : OpenFileResult) (operation : String) : Except Failure InputFile :=
  match result with
  | .error errorNumber => .error (.systemError errorNumber operation)
  | .ok input => .ok input

def differentLengthsAt (offset : ℕ) : Failure :=
  .runtimeError ("benchmark outputs have different lengths at byte offset "++toString offset)

def differAt (offset : ℕ) : Failure :=
  .runtimeError ("benchmark outputs differ at byte offset "++toString offset)

def mismatch : Bytes → Bytes → ℕ
  | left::lefts,right::rights => if left = right then mismatch lefts rights+1 else 0
  | _,_ => 0

/-- The body of the loop, which goes on at another offset. -/
def compareBlocks (left right : InputFile) (leftLength rightLength fileOffset : ℕ) :
    Except Failure ℕ ⊕ ℕ :=
  let leftRead := readAtWith (left.pread fileOffset leftLength)
  let rightRead := readAtWith (right.pread fileOffset rightLength)
  if leftRead.errorNumber ≠ 0 then
    .inl (.error (.systemError leftRead.errorNumber "read left benchmark output"))
  else if rightRead.errorNumber ≠ 0 then
    .inl (.error (.systemError rightRead.errorNumber "read right benchmark output"))
  else if leftRead.bytesRead ≠ rightRead.bytesRead then
    .inl (.error (differentLengthsAt fileOffset))
  else if leftRead.bytesRead = 0 then .inl (.ok fileOffset)
  else
    let leftBytes := left.delivered fileOffset leftRead.bytesRead
    let rightBytes := right.delivered fileOffset rightRead.bytesRead
    let localOffset := mismatch leftBytes rightBytes
    if localOffset ≠ leftBytes.length then
      match checkedAdd fileOffset localOffset "benchmark mismatch offset overflow" with
      | .error failure => .inl (.error failure)
      | .ok offset => .inl (.error (differAt offset))
    else
      match checkedAdd fileOffset leftRead.bytesRead "benchmark verification offset overflow" with
      | .error failure => .inl (.error failure)
      | .ok next => .inr next

inductive Compared (left right : InputFile) (leftLength rightLength offset : ℕ) :
    Except Failure ℕ ⊕ ℕ → Prop
  | failed {errorNumber : ℕ} {what : String}
      (h : (readAtWith (left.pread offset leftLength)).errorNumber ≠ 0 ∨
        (readAtWith (right.pread offset rightLength)).errorNumber ≠ 0) :
      Compared left right leftLength rightLength offset
        (.inl (.error (.systemError errorNumber what)))
  | lengths (h : (readAtWith (left.pread offset leftLength)).bytesRead ≠
        (readAtWith (right.pread offset rightLength)).bytesRead) :
      Compared left right leftLength rightLength offset
        (.inl (.error (differentLengthsAt offset)))
  | ended (hleft : readAtWith (left.pread offset leftLength) = ⟨0,0⟩)
      (hright : readAtWith (right.pread offset rightLength) = ⟨0,0⟩) :
      Compared left right leftLength rightLength offset (.inl (.ok offset))
  | differ {n m : ℕ} (hn : (left.delivered offset n).length = n)
      (hn' : (right.delivered offset n).length = n) (hm : m < n)
      (htake : (left.delivered offset n).take m = (right.delivered offset n).take m)
      (hne : (left.delivered offset n)[m]? ≠ (right.delivered offset n)[m]?) :
      Compared left right leftLength rightLength offset (.inl (.error (differAt (offset+m))))
  | same {n : ℕ} (hpos : 0 < n) (hn : (left.delivered offset n).length = n)
      (hn' : (right.delivered offset n).length = n)
      (hsame : left.delivered offset n = right.delivered offset n) :
      Compared left right leftLength rightLength offset (.inr (offset+n))

theorem mismatch_le (left right : Bytes) : mismatch left right ≤ left.length := by
  induction left generalizing right with
  | nil => exact Nat.zero_le _
  | cons l left ih =>
    cases right with
    | nil => exact Nat.zero_le _
    | cons r right =>
      rw [mismatch]
      split
      · exact Nat.succ_le_succ (ih right)
      · exact Nat.zero_le _

theorem mismatch_take (left right : Bytes) :
    left.take (mismatch left right) = right.take (mismatch left right) := by
  induction left generalizing right with
  | nil => cases right <;> rfl
  | cons l left ih =>
    cases right with
    | nil => rfl
    | cons r right =>
      rw [mismatch]
      split
      · rename_i heq
        rw [List.take_succ_cons,List.take_succ_cons,heq,ih]
      · rfl

theorem mismatch_ne {left right : Bytes} (hlength : left.length = right.length)
    (h : mismatch left right ≠ left.length) :
    left[mismatch left right]? ≠ right[mismatch left right]? := by
  induction left generalizing right with
  | nil => exact absurd rfl h
  | cons l left ih =>
    cases right with
    | nil => cases hlength
    | cons r right =>
      rw [mismatch] at h ⊢
      split
      · rename_i heq
        rw [if_pos heq,List.length_cons] at h
        rw [List.getElem?_cons_succ,List.getElem?_cons_succ]
        exact ih (Nat.succ.inj hlength) fun hend => h (by rw [hend])
      · rename_i hne
        exact fun hsame => hne (Option.some.inj hsame)

theorem compared (left right : InputFile) (leftLength rightLength offset : ℕ) :
    Compared left right leftLength rightLength offset
      (compareBlocks left right leftLength rightLength offset) := by
  obtain ⟨-,hleft⟩ := left.readAtWith_le offset leftLength
  obtain ⟨-,hright⟩ := right.readAtWith_le offset rightLength
  have hfits : ∀ n m, (left.delivered offset n).length = n → 0 < n → m ≤ n →
      offset+m ≤ uint64Max := by
    intro n m hn hpos hm
    have hlength := InputFile.delivered_length_le hn hpos
    have hsize := left.size_le
    simp only [uint64Max]
    omega
  unfold compareBlocks
  generalize hleftRead : readAtWith (left.pread offset leftLength) = leftRead at *
  generalize hrightRead : readAtWith (right.pread offset rightLength) = rightRead at *
  obtain ⟨n,leftError⟩ := leftRead
  obtain ⟨n',rightError⟩ := rightRead
  simp only at hleft hright ⊢
  split_ifs with hleftError hrightError hlengths hzero hend
  · exact .failed (.inl (by rw [hleftRead]; exact hleftError))
  · exact .failed (.inr (by rw [hrightRead]; exact hrightError))
  · exact .lengths (by rw [hleftRead,hrightRead]; exact hlengths)
  · obtain rfl := not_not.mp hleftError
    obtain rfl := not_not.mp hrightError
    obtain rfl := not_not.mp hlengths
    subst hzero
    exact .ended hleftRead hrightRead
  · obtain rfl := not_not.mp hlengths
    have hle := mismatch_le (left.delivered offset n) (right.delivered offset n)
    rw [checkedAdd_eq_ok _ (hfits n _ hleft (Nat.pos_of_ne_zero hzero) (hle.trans hleft.le))]
    exact .differ hleft hright (by omega) (mismatch_take _ _)
      (mismatch_ne (hleft.trans hright.symm) hend)
  · obtain rfl := not_not.mp hlengths
    have hpos := Nat.pos_of_ne_zero hzero
    rw [checkedAdd_eq_ok _ (hfits n n hleft hpos le_rfl)]
    have hsame := mismatch_take (left.delivered offset n) (right.delivered offset n)
    rw [not_not.mp hend,hleft,List.take_of_length_le hleft.le,
      List.take_of_length_le hright.le] at hsame
    exact .same hpos hleft hright hsame

/-- The loop of `verify_files_equal_bounded`. -/
def comparison (left right : InputFile) (leftLength rightLength : ℕ) :
    MeasuredLoop ℕ (Except Failure ℕ) where
  body := compareBlocks left right leftLength rightLength
  measure := fun offset => left.bytes.length-offset
  decreases := by
    intro offset next h
    have hturn := compared left right leftLength rightLength offset
    rw [h] at hturn
    cases hturn with
    | same hpos hn hn' hsame =>
      have hlength := InputFile.delivered_length_le hn hpos
      omega

end FileComparison

open FileComparison in
def verifyFilesEqualBounded (left right : OpenFileResult) (leftMemory rightMemory : BufferMemory)
    (config : PipelineConfig) : Except Failure ℕ := do
  config.validate
  let left ← openComparisonInput left "open left benchmark output"
  let right ← openComparisonInput right "open right benchmark output"
  let leftBlock ← AlignedBuffer.create leftMemory.hasMemory leftMemory.contents config.blockSize
    config.bufferAlignment
  let rightBlock ← AlignedBuffer.create rightMemory.hasMemory rightMemory.contents config.blockSize
    config.bufferAlignment
  (comparison left right leftBlock.length rightBlock.length).run 0

namespace FileComparison

theorem verify_eq {config : PipelineConfig} (h : config.validate = .ok ()) (left right : InputFile)
    (leftMemory rightMemory : BufferMemory) :
    verifyFilesEqualBounded (.ok left) (.ok right) leftMemory rightMemory config =
      if leftMemory.hasMemory && rightMemory.hasMemory then
        (comparison left right config.blockSize config.blockSize).run 0
      else .error (.systemError ENOMEM "posix_memalign") := by
  have hacceptable := PipelineConfig.validate_eq_ok.mp h
  unfold verifyFilesEqualBounded
  rw [h,AlignedBuffer.create_eq hacceptable,AlignedBuffer.create_eq hacceptable]
  cases hleft : leftMemory.hasMemory with
  | false => rfl
  | true =>
    cases hright : rightMemory.hasMemory with
    | false => rfl
    | true =>
      change (comparison left right ((List.range _).map _).length
        ((List.range _).map _).length).run 0 = _
      rw [List.length_map,List.length_map,List.length_range]
      rfl

theorem toString_inj {m n : ℕ} (h : toString m = toString n) : m = n := by
  have hdigits := congrArg (fun s => Nat.ofDigitChars 10 s.toList 0) h
  simpa using hdigits

theorem differAt_inj {k l : ℕ} (h : differAt k = differAt l) : k = l :=
  toString_inj ((String.append_right_inj _).mp (Failure.runtimeError.inj h))

theorem differentLengthsAt_ne_differAt (k l : ℕ) : differentLengthsAt k ≠ differAt l := by
  intro h
  have htexts := congrArg (fun s => s.toList.take 20) (Failure.runtimeError.inj h)
  simp only [String.toList_append] at htexts
  rw [List.take_append_of_le_length (by decide),List.take_append_of_le_length (by decide)] at htexts
  exact absurd htexts (by decide)

/-- Both files have a byte at `k`, and it is the first at which they differ. -/
structure FirstDifference (left right : Bytes) (k : ℕ) : Prop where
  lt_left : k < left.length
  lt_right : k < right.length
  differ : left[k]? ≠ right[k]?
  agree : left.take k = right.take k

variable {left right : InputFile} {leftLength rightLength offset : ℕ}

/-- The files agree as far as they have been read. -/
structure Agree (left right : InputFile) (offset : ℕ) : Prop where
  le_left : offset ≤ left.bytes.length
  le_right : offset ≤ right.bytes.length
  take : left.bytes.take offset = right.bytes.take offset

theorem Agree.turn {next : ℕ} (h : Agree left right offset)
    (hturn : Compared left right leftLength rightLength offset (.inr next)) :
    Agree left right next := by
  cases hturn with
  | same hpos hn hn' hsame =>
    refine ⟨InputFile.delivered_length_le hn hpos,InputFile.delivered_length_le hn' hpos,?_⟩
    rw [← InputFile.delivered_take le_rfl,← InputFile.delivered_take le_rfl,hsame,h.take]

theorem Agree.ok {n : ℕ} (h : Agree left right offset) (hleft : left.NonzeroBeforeEof)
    (hright : right.NonzeroBeforeEof) (hleftLength : 0 < leftLength)
    (hrightLength : 0 < rightLength)
    (hturn : Compared left right leftLength rightLength offset (.inl (.ok n))) :
    left.bytes = right.bytes ∧ left.bytes.length = n := by
  cases hturn with
  | ended hleftRead hrightRead =>
    have hleftEnd : left.bytes.length ≤ offset := by
      by_contra hlt
      have hpos := hleft offset leftLength hleftLength (Nat.lt_of_not_ge hlt) (by rw [hleftRead])
      rw [hleftRead] at hpos
      exact absurd hpos (Nat.lt_irrefl 0)
    have hrightEnd : right.bytes.length ≤ offset := by
      by_contra hlt
      have hpos := hright offset rightLength hrightLength (Nat.lt_of_not_ge hlt)
        (by rw [hrightRead])
      rw [hrightRead] at hpos
      exact absurd hpos (Nat.lt_irrefl 0)
    have htake := h.take
    rw [List.take_of_length_le hleftEnd,List.take_of_length_le hrightEnd] at htake
    exact ⟨htake,Nat.le_antisymm hleftEnd h.le_left⟩

theorem Agree.differ {k : ℕ} (h : Agree left right offset)
    (hturn : Compared left right leftLength rightLength offset (.inl (.error (differAt k)))) :
    FirstDifference left.bytes right.bytes k := by
  generalize hresult : (Sum.inl (.error (differAt k)) : Except Failure ℕ ⊕ ℕ) = result at hturn
  cases hturn with
  | failed => cases hresult
  | lengths =>
    exact absurd (Except.error.inj (Sum.inl.inj hresult)).symm (differentLengthsAt_ne_differAt _ _)
  | ended => cases hresult
  | same => cases hresult
  | @differ n m hn hn' hm htake hne =>
    obtain rfl := differAt_inj (Except.error.inj (Sum.inl.inj hresult))
    have hleft := InputFile.delivered_length_le hn (Nat.zero_lt_of_lt hm)
    have hright := InputFile.delivered_length_le hn' (Nat.zero_lt_of_lt hm)
    refine ⟨by omega,by omega,?_,?_⟩
    · rw [InputFile.delivered_getElem? hm,InputFile.delivered_getElem? hm] at hne
      exact hne
    · rw [← InputFile.delivered_take hm.le,← InputFile.delivered_take hm.le,htake,h.take]

theorem run_sound (hleft : left.NonzeroBeforeEof) (hright : right.NonzeroBeforeEof)
    (hleftLength : 0 < leftLength) (hrightLength : 0 < rightLength) :
    (∀ n, (comparison left right leftLength rightLength).run 0 = .ok n →
      left.bytes = right.bytes ∧ left.bytes.length = n) ∧
    ∀ k, (comparison left right leftLength rightLength).run 0 = .error (differAt k) →
      FirstDifference left.bytes right.bytes k := by
  refine MeasuredLoop.run_rule (I := Agree left right) (Q := fun result : Except Failure ℕ =>
    (∀ n, result = .ok n → left.bytes = right.bytes ∧ left.bytes.length = n) ∧
      ∀ k, result = .error (differAt k) → FirstDifference left.bytes right.bytes k)
    ⟨Nat.zero_le _,Nat.zero_le _,rfl⟩ ?_ ?_
  · intro offset next hagree hbody
    have hturn := compared left right leftLength rightLength offset
    rw [show compareBlocks _ _ _ _ offset = _ from hbody] at hturn
    exact hagree.turn hturn
  · intro offset result hagree hbody
    have hturn := compared left right leftLength rightLength offset
    rw [show compareBlocks _ _ _ _ offset = _ from hbody] at hturn
    constructor
    · rintro n rfl
      exact hagree.ok hleft hright hleftLength hrightLength hturn
    · rintro k rfl
      exact hagree.differ hturn

theorem run_complete (hleft : left.ShortAtEofOnly) (hright : right.ShortAtEofOnly)
    (hbytes : left.bytes = right.bytes) (blockSize : ℕ) :
    ∃ n, (comparison left right blockSize blockSize).run 0 = .ok n := by
  refine MeasuredLoop.run_rule (I := fun _ => True) (Q := fun result : Except Failure ℕ => ∃ n, result = .ok n)
    trivial (fun _ _ _ _ => trivial) ?_
  intro offset result _ hbody
  have hturn := compared left right blockSize blockSize offset
  rw [show compareBlocks _ _ _ _ offset = _ from hbody] at hturn
  have hsame : ∀ n, left.delivered offset n = right.delivered offset n := by
    intro n
    rw [InputFile.delivered,InputFile.delivered,hbytes]
  cases hturn with
  | failed h =>
    rw [hleft,hright] at h
    simp at h
  | lengths h =>
    rw [hleft,hright,hbytes] at h
    exact absurd rfl h
  | ended hleftRead hrightRead => exact ⟨offset,rfl⟩
  | @differ n m hn hn' hm htake hne => exact absurd (by rw [hsame]) hne

theorem run_lengths (hleft : left.ShortAtEofOnly) (hright : right.ShortAtEofOnly)
    (blockSize : ℕ) : ∀ k,
    (comparison left right blockSize blockSize).run 0 = .error (differentLengthsAt k) →
      left.bytes.length ≠ right.bytes.length := by
  refine MeasuredLoop.run_rule (I := fun _ => True) (Q := fun result : Except Failure ℕ => ∀ k,
    result = .error (differentLengthsAt k) → left.bytes.length ≠ right.bytes.length)
    trivial (fun _ _ _ _ => trivial) ?_
  rintro offset result - hbody k rfl hlengths
  have hturn := compared left right blockSize blockSize offset
  rw [show compareBlocks _ _ _ _ offset = _ from hbody] at hturn
  generalize hresult :
    (Sum.inl (.error (differentLengthsAt k)) : Except Failure ℕ ⊕ ℕ) = result at hturn
  cases hturn with
  | failed => cases hresult
  | lengths h =>
    rw [hleft,hright,hlengths] at h
    exact h rfl
  | ended => cases hresult
  | same => cases hresult
  | differ =>
    exact differentLengthsAt_ne_differAt _ _ (Except.error.inj (Sum.inl.inj hresult))

end FileComparison
open FileComparison in
/-- Whatever reads are short, what the comparison says of the files is so. When reads are short at
the end only, it says that equal files are equal. -/
theorem verifyFilesEqualBounded_sound {config : PipelineConfig} (h : config.validate = .ok ())
    {left right : InputFile} (hleft : left.NonzeroBeforeEof) (hright : right.NonzeroBeforeEof)
    (leftMemory rightMemory : BufferMemory) :
    let result := verifyFilesEqualBounded (.ok left) (.ok right) leftMemory rightMemory config
    (∀ n, result = .ok n →
      left.bytes.length = n ∧ right.bytes.length = n ∧ left.bytes = right.bytes) ∧
    (∀ k, result = .error (differAt k) → k < left.bytes.length ∧ k < right.bytes.length ∧
      left.bytes[k]? ≠ right.bytes[k]? ∧ left.bytes.take k = right.bytes.take k) ∧
    (left.ShortAtEofOnly → right.ShortAtEofOnly →
      (leftMemory.hasMemory = true → rightMemory.hasMemory = true →
        ((∃ n, result = .ok n) ↔ left.bytes = right.bytes)) ∧
      ∀ k, result = .error (differentLengthsAt k) → left.bytes.length ≠ right.bytes.length) := by
  intro result
  have hpos := (PipelineConfig.valid_of_validate h).blockSize_pos
  have hresult : result = _ := verify_eq h left right leftMemory rightMemory
  obtain ⟨hok,hdiffer⟩ := run_sound hleft hright hpos hpos
  cases hmemory : leftMemory.hasMemory && rightMemory.hasMemory with
  | false =>
    rw [hmemory] at hresult
    rw [hresult]
    refine ⟨fun n hn => ?_,fun k hk => ?_,fun _ _ => ⟨fun hl hr => ?_,fun k hk => ?_⟩⟩
    · cases hn
    · cases hk
    · rw [hl,hr] at hmemory
      cases hmemory
    · cases hk
  | true =>
    rw [hmemory,if_pos rfl] at hresult
    rw [hresult]
    refine ⟨fun n hn => ?_,fun k hk => ?_,fun hl hr => ⟨fun _ _ => ⟨?_,?_⟩,?_⟩⟩
    · obtain ⟨hbytes,hlength⟩ := hok n hn
      exact ⟨hlength,hbytes ▸ hlength,hbytes⟩
    · obtain ⟨hltLeft,hltRight,hne,hagree⟩ := hdiffer k hk
      exact ⟨hltLeft,hltRight,hne,hagree⟩
    · rintro ⟨n,hn⟩
      exact (hok n hn).1
    · intro hbytes
      exact run_complete hl hr hbytes config.blockSize
    · exact run_lengths hl hr config.blockSize

def InputFile.byteByByte (bytes : Bytes) (h : bytes.length ≤ 2^63-1) : InputFile where
  bytes := bytes
  size_le := h
  pread := fun offset length => .counting 0 (min 1 (min length (bytes.length-offset)))
  pread_le := by
    intro offset length n hn
    obtain rfl := SyscallResult.count.inj hn
    omega

theorem InputFile.byteByByte_nonzero (bytes : Bytes) (h : bytes.length ≤ 2^63-1) :
    (InputFile.byteByByte bytes h).NonzeroBeforeEof := by
  intro offset length hlength hoffset _
  have hoffset' : offset < bytes.length := hoffset
  rw [@readAtWith_count ((byteByByte bytes h).pread offset length) _ rfl]
  simp only
  omega

/-- A file read byte by byte against the same bytes in one block: no byte differs. -/
theorem verifyFilesEqualBounded_sound_short :
    ¬∃ k, verifyFilesEqualBounded
      (.ok (.byteByByte InputFile.threeBytes.bytes InputFile.threeBytes.size_le)) (.ok .threeBytes)
      ⟨true,fun _ => 0⟩ ⟨true,fun _ => 0⟩ ⟨8,1,1,8⟩ = .error (FileComparison.differAt k) := by
  rintro ⟨k,hk⟩
  have hwhole : InputFile.threeBytes.NonzeroBeforeEof :=
    InputFile.ShortAtEofOnly.nonzeroBeforeEof fun _ _ => readAtWith_count rfl
  obtain ⟨-,-,hne,-⟩ := (verifyFilesEqualBounded_sound (by decide)
    (InputFile.byteByByte_nonzero _ InputFile.threeBytes.size_le) hwhole _ _).2.1 k hk
  exact hne rfl

end AsyncDataLoader
