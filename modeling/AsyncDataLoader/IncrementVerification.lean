import AsyncDataLoader.FileComparison
import AsyncDataLoader.BuiltinStages

/-!
# The verification of an incremented output

The demo reads its input and its output again and compares each byte with the incremented one, by
an arithmetic of its own. It accepts what `ByteIncrementStage` makes of the input.
-/

namespace AsyncDataLoader

open FileIO

namespace IncrementVerification

/-- `expected`, cast to `unsigned char`. -/
def expectedByte (value : UInt8) : UInt8 := UInt8.ofNat (value.toNat+1)

/-- The body of the loop, which goes on at another offset. -/
def verifyBlock (input output : InputFile) (blockLength offset : ℕ) : Except Failure Unit ⊕ ℕ :=
  let inputRead := readAtWith (input.pread offset blockLength)
  if inputRead.errorNumber ≠ 0 then
    .inl (.error (.systemError inputRead.errorNumber "read input during verification"))
  else if inputRead.bytesRead = 0 then
    let trailingRead := readAtWith (output.pread offset 1)
    if trailingRead.errorNumber ≠ 0 then
      .inl (.error (.systemError trailingRead.errorNumber "check output EOF during verification"))
    else if trailingRead.bytesRead ≠ 0 then
      .inl (.error (.runtimeError "output verification found trailing bytes"))
    else .inl (.ok ())
  else
    let outputRead := readAtWith (output.pread offset inputRead.bytesRead)
    if outputRead.errorNumber ≠ 0 then
      .inl (.error (.systemError outputRead.errorNumber "read output during verification"))
    else if outputRead.bytesRead ≠ inputRead.bytesRead then
      .inl (.error (.runtimeError "output verification found a size mismatch"))
    else if ((input.delivered offset inputRead.bytesRead).zip
        (output.delivered offset inputRead.bytesRead)).any fun (i,o) => o != expectedByte i then
      .inl (.error (.runtimeError "output verification found transformed-byte mismatch"))
    else if inputRead.bytesRead > uint64Max-offset then
      .inl (.error (.overflowError "verification file offset overflow"))
    else .inr (offset+inputRead.bytesRead)

theorem verifyBlock_next {input output : InputFile} {blockLength offset next : ℕ}
    (h : verifyBlock input output blockLength offset = .inr next) :
    offset < next ∧ next ≤ input.bytes.length := by
  obtain ⟨-,hlength⟩ := input.readAtWith_le offset blockLength
  unfold verifyBlock at h
  simp only at h
  split_ifs at h with herror hzero
  obtain rfl := Sum.inr.inj h
  have hpos := Nat.pos_of_ne_zero hzero
  exact ⟨Nat.lt_add_of_pos_right hpos,InputFile.delivered_length_le hlength hpos⟩

/-- The loop of `verify_incremented_output`. -/
def verification (input output : InputFile) (blockLength : ℕ) :
    MeasuredLoop ℕ (Except Failure Unit) where
  body := verifyBlock input output blockLength
  measure := fun offset => input.bytes.length-offset
  decreases := by
    intro offset next h
    obtain ⟨hlt,hle⟩ := verifyBlock_next h
    omega

def openFile (result : OpenFileResult) (operation : String) : Except Failure InputFile :=
  match result with
  | .error errorNumber => .error (.systemError errorNumber operation)
  | .ok input => .ok input

def allocateBlock (allocation : Option AllocationFailure) (blockSize : ℕ) : Except Failure Bytes :=
  match allocation with
  | some failure => .error failure.toFailure
  | none => .ok (List.replicate blockSize 0)

end IncrementVerification

open IncrementVerification in
def verifyIncrementedOutput (input output : OpenFileResult)
    (inputAllocation outputAllocation : Option AllocationFailure) (blockSize : ℕ) :
    Except Failure Unit := do
  let input ← openFile input "open input for verification"
  let output ← openFile output "open output for verification"
  let inputBlock ← allocateBlock inputAllocation blockSize
  let _outputBlock ← allocateBlock outputAllocation blockSize
  (verification input output inputBlock.length).run 0

namespace IncrementVerification

theorem expectedByte_toNat (value : UInt8) : (expectedByte value).toNat = (value.toNat+1)%256 :=
  UInt8.toNat_ofNat'

theorem any_wrong {ins outs : Bytes} (h : outs.length = ins.length) :
    ((ins.zip outs).any fun (i,o) => o != expectedByte i) = false ↔
      outs = ins.map expectedByte := by
  induction ins generalizing outs with
  | nil => simp [List.length_eq_zero_iff.mp h]
  | cons i ins ih =>
    cases outs with
    | nil => cases h
    | cons o outs => simp [ih (Nat.succ.inj h)]

variable {input output : InputFile} {blockLength offset : ℕ}

/-- The output is right as far as it has been read. -/
structure Right (input output : InputFile) (offset : ℕ) : Prop where
  le : offset ≤ input.bytes.length
  take : output.bytes.take offset = (input.bytes.take offset).map expectedByte

theorem Right.le_output (h : Right input output offset) : offset ≤ output.bytes.length := by
  have hlength := congrArg List.length h.take
  simp only [List.length_take,List.length_map] at hlength
  have hle := h.le
  omega

theorem length_eq_of_right (h : output.bytes = input.bytes.map expectedByte) :
    output.bytes.length = input.bytes.length := by
  rw [h,List.length_map]

theorem Right.whole (h : Right input output input.bytes.length)
    (hlength : output.bytes.length ≤ input.bytes.length) :
    output.bytes = input.bytes.map expectedByte := by
  have htake := h.take
  rw [List.take_of_length_le hlength,List.take_of_length_le le_rfl] at htake
  exact htake

section Block

variable {n : ℕ}

theorem not_right_of_any (hinput : (input.delivered offset n).length = n)
    (houtput : (output.delivered offset n).length = n)
    (hany : ((input.delivered offset n).zip (output.delivered offset n)).any
      (fun (i,o) => o != expectedByte i) = true) :
    output.bytes ≠ input.bytes.map expectedByte := by
  intro hall
  have hblock : output.delivered offset n = (input.delivered offset n).map expectedByte := by
    rw [InputFile.delivered,InputFile.delivered,hall,List.map_take,List.map_drop]
  rw [(any_wrong (houtput.trans hinput.symm)).mpr hblock] at hany
  cases hany

theorem Right.advance (h : Right input output offset) (hle : offset+n ≤ input.bytes.length)
    (hinput : (input.delivered offset n).length = n)
    (houtput : (output.delivered offset n).length = n)
    (hany : ((input.delivered offset n).zip (output.delivered offset n)).any
      (fun (i,o) => o != expectedByte i) = false) : Right input output (offset+n) := by
  refine ⟨hle,?_⟩
  rw [← InputFile.delivered_take le_rfl,← InputFile.delivered_take le_rfl,
    List.take_of_length_le hinput.le,List.take_of_length_le houtput.le,h.take,
    (any_wrong (houtput.trans hinput.symm)).mp hany,List.map_append]

end Block

/-- With whole reads a turn goes on as long as the output is right, and decides at the end. -/
theorem Right.turn (h : Right input output offset) (hinput : input.ShortAtEofOnly)
    (houtput : output.ShortAtEofOnly) (hblock : 0 < blockLength) :
    match verifyBlock input output blockLength offset with
    | .inl result => result = .ok () ↔ output.bytes = input.bytes.map expectedByte
    | .inr next => Right input output next := by
  have hle := h.le
  have hleOutput := h.le_output
  unfold verifyBlock
  rw [hinput offset blockLength]
  generalize hn : min blockLength (input.bytes.length-offset) = n
  simp only [ne_eq,not_true_eq_false,if_false]
  by_cases hzero : n = 0
  · -- The end of the input.
    obtain rfl : offset = input.bytes.length := by omega
    rw [if_pos hzero,houtput input.bytes.length 1]
    simp only [not_true_eq_false,if_false]
    by_cases htrailing : min 1 (output.bytes.length-input.bytes.length) = 0
    · rw [if_neg (not_not.mpr htrailing)]
      exact iff_of_true rfl (h.whole (by omega))
    · rw [if_pos htrailing]
      refine iff_of_false (by simp) fun hall => ?_
      have hlength := length_eq_of_right hall
      omega
  · rw [if_neg hzero,houtput offset n]
    simp only [not_true_eq_false,if_false]
    by_cases hsize : min n (output.bytes.length-offset) = n
    · rw [if_neg (not_not.mpr hsize)]
      have hinputBlock : (input.delivered offset n).length = n := by
        rw [InputFile.delivered,List.length_take,List.length_drop]
        omega
      have houtputBlock : (output.delivered offset n).length = n := by
        rw [InputFile.delivered,List.length_take,List.length_drop]
        omega
      cases hany : ((input.delivered offset n).zip (output.delivered offset n)).any
          fun (i,o) => o != expectedByte i with
      | true =>
        rw [if_pos rfl]
        exact iff_of_false (by simp) (not_right_of_any hinputBlock houtputBlock hany)
      | false =>
        have hfits : ¬ n > uint64Max-offset := by
          have hsizeLe := input.size_le
          simp only [uint64Max]
          omega
        rw [if_neg Bool.false_ne_true,if_neg hfits]
        exact h.advance (by omega) hinputBlock houtputBlock hany
    · rw [if_pos hsize]
      refine iff_of_false (by simp) fun hall => ?_
      have hlength := length_eq_of_right hall
      omega

theorem run_eq_ok (hinput : input.ShortAtEofOnly) (houtput : output.ShortAtEofOnly)
    (hblock : 0 < blockLength) : (verification input output blockLength).run 0 = .ok () ↔
      output.bytes = input.bytes.map expectedByte := by
  refine MeasuredLoop.run_rule (I := Right input output) (Q := fun result : Except Failure Unit =>
    result = .ok () ↔ output.bytes = input.bytes.map expectedByte) ⟨Nat.zero_le _,rfl⟩ ?_ ?_
  · intro offset next hright hbody
    have hturn := hright.turn hinput houtput hblock
    rw [show verifyBlock _ _ _ offset = _ from hbody] at hturn
    exact hturn
  · intro offset result hright hbody
    have hturn := hright.turn hinput houtput hblock
    rw [show verifyBlock _ _ _ offset = _ from hbody] at hturn
    exact hturn

theorem blocks_expected (blocks : List Bytes) :
    (blocks.map fun block => (byteIncrementStage.process () block).block).flatten =
      blocks.flatten.map expectedByte := by
  rw [List.map_flatten]
  rfl

end IncrementVerification

open IncrementVerification in
/-- The demo accepts the output that has each byte of the input plus one, modulo 256, and no other.
So it accepts what the stage makes of the blocks of the input, however it is cut into blocks. -/
theorem verifyIncrementedOutput_iff {input output : InputFile} (hinput : input.ShortAtEofOnly)
    (houtput : output.ShortAtEofOnly) {blockSize : ℕ} (hblock : 1 ≤ blockSize) :
    (verifyIncrementedOutput (.ok input) (.ok output) none none blockSize = .ok () ↔
      output.bytes.length = input.bytes.length ∧ ∀ (k : ℕ) (value : UInt8),
        input.bytes[k]? = some value →
          ∃ written, output.bytes[k]? = some written ∧ written.toNat = (value.toNat+1)%256) ∧
    ∀ blocks : List Bytes, blocks.flatten = input.bytes →
      (verifyIncrementedOutput (.ok input) (.ok output) none none blockSize = .ok () ↔
        output.bytes =
          (blocks.map fun block => (byteIncrementStage.process () block).block).flatten) := by
  have hrun : verifyIncrementedOutput (.ok input) (.ok output) none none blockSize = .ok () ↔
      output.bytes = input.bytes.map expectedByte := by
    have hverify : verifyIncrementedOutput (.ok input) (.ok output) none none blockSize =
        (verification input output (List.replicate blockSize (0 : UInt8)).length).run 0 := rfl
    rw [hverify,List.length_replicate,run_eq_ok hinput houtput hblock]
  refine ⟨hrun.trans ⟨fun hall => ⟨by rw [hall,List.length_map],fun k value hk => ?_⟩,
    fun ⟨hlength,hbytes⟩ => ?_⟩,fun blocks hblocks => ?_⟩
  · exact ⟨expectedByte value,by rw [hall,List.getElem?_map,hk,Option.map_some],
      expectedByte_toNat value⟩
  · apply List.ext_getElem?
    intro k
    rw [List.getElem?_map]
    cases hk : input.bytes[k]? with
    | none =>
      rw [List.getElem?_eq_none_iff] at hk
      exact List.getElem?_eq_none (hlength.trans_le hk)
    | some value =>
      obtain ⟨written,hwritten,hvalue⟩ := hbytes k value hk
      rw [hwritten,Option.map_some,UInt8.toNat_inj.mp (hvalue.trans (expectedByte_toNat value).symm)]
  · rw [hrun,blocks_expected,hblocks]

def InputFile.fourBytes : InputFile where
  bytes := [2,3,4,0]
  size_le := by decide
  pread := fun offset length => .counting 0 (min length (4-offset))
  pread_le := by
    intro offset length n h
    obtain rfl := SyscallResult.count.inj h
    exact ⟨Nat.min_le_left _ _,Nat.min_le_right _ _⟩

/-- An output with a byte more is not accepted. -/
theorem verifyIncrementedOutput_iff_trailing :
    verifyIncrementedOutput (.ok .threeBytes) (.ok .fourBytes) none none 2 ≠ .ok () := by
  intro haccepted
  have hlength := ((verifyIncrementedOutput_iff (fun _ _ => readAtWith_count rfl)
    (fun _ _ => readAtWith_count rfl) (by decide)).1.mp haccepted).1
  exact absurd hlength (by decide)

end AsyncDataLoader
