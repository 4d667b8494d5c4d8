import AsyncDataLoader.Failure
import Mathlib.Data.Nat.Bitwise

/-!
# Pipeline configurations

The four sizes of a run and the checks they have to pass.
-/

namespace AsyncDataLoader

def pointerSize : ℕ := 8

def isPowerOfTwo (value : ℕ) : Bool := value != 0 && value &&& (value-1) == 0

structure PipelineConfig where
  blockSize : ℕ
  maxInflightBuffers : ℕ
  queueDepth : ℕ
  bufferAlignment : ℕ
  deriving DecidableEq, Repr

namespace PipelineConfig

def validate (c : PipelineConfig) : Except Failure Unit :=
  if c.blockSize = 0 then
    .error (.invalidArgument "block_size must be greater than zero")
  else if c.maxInflightBuffers = 0 then
    .error (.invalidArgument "max_inflight_buffers must be greater than zero")
  else if c.queueDepth = 0 then
    .error (.invalidArgument "queue_depth must be greater than zero")
  else if !isPowerOfTwo c.bufferAlignment || c.bufferAlignment%pointerSize ≠ 0 then
    .error (.invalidArgument
      "buffer_alignment must be a power of two and a multiple of sizeof(void*)")
  else if c.blockSize%c.bufferAlignment ≠ 0 then
    .error (.invalidArgument "block_size must be a multiple of buffer_alignment")
  else if c.blockSize > uint64Max/c.maxInflightBuffers then
    .error (.overflowError "block_size * max_inflight_buffers exceeds size_t")
  else .ok ()

/-- What a configuration that passes the checks gives a run. -/
structure Valid (c : PipelineConfig) : Prop where
  maxInflightBuffers_pos : 0 < c.maxInflightBuffers
  queueDepth_pos : 0 < c.queueDepth
  pointerSize_le : pointerSize ≤ c.blockSize
  poolBytes_le : c.blockSize*c.maxInflightBuffers ≤ uint64Max

theorem valid_of_validate {c : PipelineConfig} (h : c.validate = .ok ()) : c.Valid := by
  unfold validate at h
  split_ifs at h with hblock hbuffers hdepth halign hmultiple hbytes
  simp only [Bool.or_eq_true,Bool.not_eq_true',decide_eq_true_eq,not_or,Bool.not_eq_false,
    not_not] at halign hmultiple
  obtain ⟨hpower,hpointer⟩ := halign
  have hbuffers' : 0 < c.maxInflightBuffers := Nat.pos_of_ne_zero hbuffers
  refine ⟨hbuffers',Nat.pos_of_ne_zero hdepth,?_,?_⟩
  · have halign_pos : c.bufferAlignment ≠ 0 := by
      rintro hzero
      simp [isPowerOfTwo,hzero] at hpower
    have hle : pointerSize ≤ c.bufferAlignment :=
      Nat.le_of_dvd (Nat.pos_of_ne_zero halign_pos) (Nat.dvd_of_mod_eq_zero hpointer)
    exact hle.trans (Nat.le_of_dvd (Nat.pos_of_ne_zero hblock) (Nat.dvd_of_mod_eq_zero hmultiple))
  · exact (Nat.le_div_iff_mul_le hbuffers').mp (Nat.le_of_not_gt hbytes)

theorem Valid.blockSize_pos {c : PipelineConfig} (h : c.Valid) : 0 < c.blockSize :=
  Nat.lt_of_lt_of_le (by decide) h.pointerSize_le

/-- So the in-flight gauge cannot overflow. -/
theorem Valid.maxInflightBuffers_lt {c : PipelineConfig} (h : c.Valid) :
    c.maxInflightBuffers < 2^63-1 := by
  have hmul : pointerSize*c.maxInflightBuffers ≤ uint64Max :=
    (Nat.mul_le_mul_right _ h.pointerSize_le).trans h.poolBytes_le
  simp only [pointerSize,uint64Max] at hmul
  omega

end PipelineConfig
end AsyncDataLoader
