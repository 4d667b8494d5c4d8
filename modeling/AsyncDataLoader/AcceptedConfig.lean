import AsyncDataLoader.MetricsReport
import AsyncDataLoader.AlignedBufferPool
import AsyncDataLoader.SPSCQueue
import Mathlib.Data.UInt

/-!
# Accepted configurations

The checks of a configuration on machine words, and the constructors that check its sizes once
more.
-/

namespace AsyncDataLoader

open FileIO

/-- The sizes of a configuration as the words that they are. -/
structure ConfigWords where
  blockSize : UInt64
  maxInflightBuffers : UInt64
  queueDepth : UInt64
  bufferAlignment : UInt64
  deriving DecidableEq, Repr

namespace ConfigWords

def isPowerOfTwo (value : UInt64) : Bool := value != 0 && value &&& (value-1) == 0

variable (c : ConfigWords)

def toConfig : PipelineConfig :=
  ⟨c.blockSize.toNat,c.maxInflightBuffers.toNat,c.queueDepth.toNat,c.bufferAlignment.toNat⟩

def validate : Except Failure Unit :=
  if c.blockSize = 0 then
    .error (.invalidArgument "block_size must be greater than zero")
  else if c.maxInflightBuffers = 0 then
    .error (.invalidArgument "max_inflight_buffers must be greater than zero")
  else if c.queueDepth = 0 then
    .error (.invalidArgument "queue_depth must be greater than zero")
  else if !isPowerOfTwo c.bufferAlignment || c.bufferAlignment%8 ≠ 0 then
    .error (.invalidArgument
      "buffer_alignment must be a power of two and a multiple of sizeof(void*)")
  else if c.blockSize%c.bufferAlignment ≠ 0 then
    .error (.invalidArgument "block_size must be a multiple of buffer_alignment")
  else if c.blockSize > 0xFFFFFFFFFFFFFFFF/c.maxInflightBuffers then
    .error (.overflowError "block_size * max_inflight_buffers exceeds size_t")
  else .ok ()

def bufferPoolBytes : Except Failure UInt64 := do
  c.validate
  return c.blockSize*c.maxInflightBuffers

theorem isPowerOfTwo_toNat (value : UInt64) :
    isPowerOfTwo value = AsyncDataLoader.isPowerOfTwo value.toNat := by
  unfold isPowerOfTwo AsyncDataLoader.isPowerOfTwo
  by_cases hzero : value = 0
  · subst hzero
    rfl
  · have hne : value.toNat ≠ 0 := fun h => hzero (UInt64.toNat_inj.mp h)
    have hsub : (value-1).toNat = value.toNat-1 := by
      apply UInt64.toNat_sub_of_le
      rw [UInt64.le_iff_toNat_le]
      exact Nat.pos_of_ne_zero hne
    have hand : (value &&& (value-1)).toNat = value.toNat &&& (value.toNat-1) := by
      rw [UInt64.toNat_and,hsub]
    rw [← hand]
    simp only [bne,beq_eq_decide,← UInt64.toNat_inj]
    rfl

theorem validate_eq : c.validate = c.toConfig.validate := by
  unfold validate PipelineConfig.validate
  simp only [toConfig,isPowerOfTwo_toNat,pointerSize,uint64Max,gt_iff_lt,UInt64.lt_iff_toNat_lt,
    ← UInt64.toNat_inj,UInt64.toNat_mod,UInt64.toNat_div,UInt64.reduceToNat,ne_eq]
  rfl

end ConfigWords

theorem isPowerOfTwo_iff {value : ℕ} : isPowerOfTwo value = true ↔ ∃ k, value = 2^k := by
  rw [isPowerOfTwo,Bool.and_eq_true,bne_iff_ne,beq_iff_eq]
  exact Nat.ne_zero_and_sub_one_eq_zero_iff_isPowerOfTwo

theorem pointerSize_dvd_iff {value k : ℕ} (h : value = 2^k) :
    value%pointerSize = 0 ↔ pointerSize ≤ value := by
  subst h
  constructor
  · intro hmod
    exact Nat.le_of_dvd (Nat.two_pow_pos k) (Nat.dvd_of_mod_eq_zero hmod)
  · intro hle
    have hexponent : 3 ≤ k := (Nat.pow_le_pow_iff_right (a:=2) (by decide)).mp hle
    exact Nat.mod_eq_zero_of_dvd (Nat.pow_dvd_pow 2 hexponent)

namespace PipelineConfig

/-- The configurations that the documentation allows. -/
structure Acceptable (c : PipelineConfig) : Prop where
  blockSize_pos : 0 < c.blockSize
  maxInflightBuffers_pos : 0 < c.maxInflightBuffers
  queueDepth_pos : 0 < c.queueDepth
  alignment_power : ∃ k, c.bufferAlignment = 2^k
  alignment_ge : pointerSize ≤ c.bufferAlignment
  alignment_dvd : c.bufferAlignment ∣ c.blockSize
  poolBytes_lt : c.blockSize*c.maxInflightBuffers < 2^64

variable {c : PipelineConfig}

theorem validate_eq_ok : c.validate = .ok () ↔ c.Acceptable := by
  constructor
  · intro h
    have hvalid := valid_of_validate h
    unfold validate at h
    split_ifs at h with hblock hbuffers hdepth halign hmultiple hbytes
    simp only [Bool.or_eq_true,Bool.not_eq_true',decide_eq_true_eq,not_or,Bool.not_eq_false,
      not_not] at halign hmultiple
    obtain ⟨k,hk⟩ := isPowerOfTwo_iff.mp halign.1
    exact {
      blockSize_pos := Nat.pos_of_ne_zero hblock
      maxInflightBuffers_pos := hvalid.maxInflightBuffers_pos
      queueDepth_pos := hvalid.queueDepth_pos
      alignment_power := ⟨k,hk⟩
      alignment_ge := (pointerSize_dvd_iff hk).mp halign.2
      alignment_dvd := Nat.dvd_of_mod_eq_zero hmultiple
      poolBytes_lt := Nat.lt_of_le_of_lt hvalid.poolBytes_le (by decide) }
  · intro h
    obtain ⟨k,hk⟩ := h.alignment_power
    have hpower := isPowerOfTwo_iff.mpr ⟨k,hk⟩
    have hpointer := (pointerSize_dvd_iff hk).mpr h.alignment_ge
    have hmultiple := Nat.mod_eq_zero_of_dvd h.alignment_dvd
    have hbytes : c.blockSize ≤ uint64Max/c.maxInflightBuffers := by
      rw [Nat.le_div_iff_mul_le h.maxInflightBuffers_pos]
      exact Nat.le_of_lt_succ h.poolBytes_lt
    unfold validate
    rw [if_neg (Nat.ne_of_gt h.blockSize_pos),if_neg (Nat.ne_of_gt h.maxInflightBuffers_pos),
      if_neg (Nat.ne_of_gt h.queueDepth_pos),if_neg (by simp [hpower,hpointer]),
      if_neg (not_not.mpr hmultiple),if_neg (Nat.not_lt.mpr hbytes)]

end PipelineConfig

inductive AllocationFailure
  | tooLong
  | badAlloc
  deriving DecidableEq, Repr

def AllocationFailure.toFailure : AllocationFailure → Failure
  | .tooLong => .lengthError "vector::reserve"
  | .badAlloc => .other 0 -- std::bad_alloc

/-- `posix_memalign`, with the error number that it returns. -/
def posixMemalign (hasMemory : Bool) (alignment : ℕ) : ℕ :=
  if !isPowerOfTwo alignment || alignment%pointerSize ≠ 0 then EINVAL
  else if hasMemory then 0 else ENOMEM

namespace AlignedBuffer

def validateAllocation (size alignment : ℕ) : Except Failure Unit :=
  if size = 0 then
    .error (.invalidArgument "aligned buffer size must be greater than zero")
  else if !isPowerOfTwo alignment || alignment%pointerSize ≠ 0 then
    .error (.invalidArgument
      "aligned buffer alignment must be a power of two and a multiple of sizeof(void*)")
  else if size%alignment ≠ 0 then
    .error (.invalidArgument "aligned buffer size must be a multiple of alignment")
  else .ok ()

/-- The constructor; `memory` is what the allocation happens to hold. -/
def create (hasMemory : Bool) (memory : ℕ → UInt8) (size alignment : ℕ) : Except Failure Bytes :=
  match validateAllocation size alignment with
  | .error failure => .error failure
  | .ok () =>
    let errorNumber := posixMemalign hasMemory alignment
    if errorNumber ≠ 0 then .error (.systemError errorNumber "posix_memalign")
    else .ok ((List.range size).map memory)

theorem validateAllocation_eq_ok {c : PipelineConfig} (h : c.Acceptable) :
    validateAllocation c.blockSize c.bufferAlignment = .ok () := by
  obtain ⟨k,hk⟩ := h.alignment_power
  have hpower := isPowerOfTwo_iff.mpr ⟨k,hk⟩
  have hpointer := (pointerSize_dvd_iff hk).mpr h.alignment_ge
  unfold validateAllocation
  rw [if_neg (Nat.ne_of_gt h.blockSize_pos),if_neg (by simp [hpower,hpointer]),
    if_neg (not_not.mpr (Nat.mod_eq_zero_of_dvd h.alignment_dvd))]

theorem create_eq {c : PipelineConfig} (h : c.Acceptable) (hasMemory : Bool)
    (memory : ℕ → UInt8) : create hasMemory memory c.blockSize c.bufferAlignment =
      if hasMemory then .ok ((List.range c.blockSize).map memory)
      else .error (.systemError ENOMEM "posix_memalign") := by
  obtain ⟨k,hk⟩ := h.alignment_power
  have hpower := isPowerOfTwo_iff.mpr ⟨k,hk⟩
  have hpointer := (pointerSize_dvd_iff hk).mpr h.alignment_ge
  cases hasMemory <;>
    simp [create,validateAllocation_eq_ok h,posixMemalign,hpower,hpointer]

end AlignedBuffer

/-- What the allocations of a pool answer: those of its vectors, and that of each buffer. -/
structure PoolAllocations where
  vectors : Option AllocationFailure
  hasMemory : ℕ → Bool

namespace AlignedBufferPool

def createBuffers (config : PipelineConfig) (hasMemory : ℕ → Bool) (memory : ℕ → ℕ → UInt8) :
    List ℕ → Except Failure (List Bytes)
  | [] => .ok []
  | i::indices =>
    match AlignedBuffer.create (hasMemory i) (memory i) config.blockSize config.bufferAlignment with
    | .error failure => .error failure
    | .ok buffer =>
      match createBuffers config hasMemory memory indices with
      | .error failure => .error failure
      | .ok buffers => .ok (buffer::buffers)

def construct (config : PipelineConfig) (inflightBuffers : Option Gauge)
    (allocations : PoolAllocations) (memory : ℕ → ℕ → UInt8) :
    Except Failure AlignedBufferPool :=
  match config.validate with
  | .error failure => .error failure
  | .ok () =>
    match allocations.vectors with
    | some failure => .error failure.toFailure
    | none =>
      match createBuffers config allocations.hasMemory memory
          (List.range config.maxInflightBuffers) with
      | .error failure => .error failure
      | .ok buffers =>
        if inflightBuffers.any fun g => g.current ≠ 0 || g.highWatermark ≠ 0 then
          .error (.invalidArgument
            "buffer-pool inflight Gauge must be dedicated and start at zero")
        else .ok {
          buffers := buffers
          availableIndices := (List.range config.maxInflightBuffers).reverse
          inUse := List.replicate config.maxInflightBuffers false
          inflightMetric := inflightBuffers }

variable {config : PipelineConfig}

theorem createBuffers_cases (h : config.Acceptable) (hasMemory : ℕ → Bool)
    (memory : ℕ → ℕ → UInt8) (indices : List ℕ) :
    createBuffers config hasMemory memory indices =
        .ok (indices.map fun i => (List.range config.blockSize).map (memory i)) ∨
      (∃ i ∈ indices, hasMemory i = false) ∧ createBuffers config hasMemory memory indices =
        .error (.systemError ENOMEM "posix_memalign") := by
  induction indices with
  | nil => exact .inl rfl
  | cons i indices ih =>
    simp only [createBuffers,AlignedBuffer.create_eq h,List.mem_cons,exists_eq_or_imp]
    cases hmemory : hasMemory i with
    | false => exact .inr ⟨.inl rfl,rfl⟩
    | true =>
      obtain hall | ⟨hlacking,hfails⟩ := ih
      · rw [hall]
        exact .inl rfl
      · rw [hfails]
        exact .inr ⟨.inr hlacking,rfl⟩

/-- While there is memory, the constructor does what the model of the pool says. -/
theorem construct_eq_make (inflightBuffers : Option Gauge) (memory : ℕ → ℕ → UInt8) :
    construct config inflightBuffers ⟨none,fun _ => true⟩ memory =
      make config inflightBuffers memory := by
  unfold construct make
  cases hvalid : config.validate with
  | error failure => rfl
  | ok =>
    have haccept := PipelineConfig.validate_eq_ok.mp hvalid
    obtain hall | ⟨⟨i,-,hlacking⟩,-⟩ := createBuffers_cases haccept (fun _ => true) memory
      (List.range config.maxInflightBuffers)
    · simp only [hall]
    · cases hlacking

theorem clean_gauge {inflightBuffers : Option Gauge}
    (hgauge : ∀ g, inflightBuffers = some g → g = .zero) :
    (inflightBuffers.any fun g => g.current ≠ 0 || g.highWatermark ≠ 0) = false := by
  cases inflightBuffers with
  | none => rfl
  | some g =>
    rw [hgauge g rfl]
    rfl

theorem construct_fails (h : config.Acceptable) {inflightBuffers : Option Gauge}
    (hgauge : ∀ g, inflightBuffers = some g → g = .zero) {allocations : PoolAllocations}
    {memory : ℕ → ℕ → UInt8} {failure : Failure}
    (hfails : construct config inflightBuffers allocations memory = .error failure) :
    (∃ cause : AllocationFailure, failure = cause.toFailure) ∨
      failure = .systemError ENOMEM "posix_memalign" := by
  unfold construct at hfails
  simp only [PipelineConfig.validate_eq_ok.mpr h,clean_gauge hgauge] at hfails
  cases hvectors : allocations.vectors with
  | some cause =>
    rw [hvectors] at hfails
    exact .inl ⟨cause,(Except.error.inj hfails).symm⟩
  | none =>
    rw [hvectors] at hfails
    obtain hall | ⟨-,hlacking⟩ := createBuffers_cases h allocations.hasMemory memory
      (List.range config.maxInflightBuffers)
    · rw [hall] at hfails
      cases hfails
    · rw [hlacking] at hfails
      exact .inr (Except.error.inj hfails).symm

end AlignedBufferPool

def Failure.IsInvalidArgument (failure : Failure) : Prop :=
  (∃ what, failure = .invalidArgument what) ∨ ∃ what, failure = .systemError EINVAL what

theorem AllocationFailure.not_invalidArgument (cause : AllocationFailure) :
    ¬ cause.toFailure.IsInvalidArgument := by
  rintro (⟨what,h⟩ | ⟨what,h⟩) <;> cases cause <;> cases h

theorem SPSCQueue.make_fails {α : Type*} [SlotSize α] {capacity : ℕ} (h : 0 < capacity)
    {depth : Option Gauge}
    (hgauge : ∀ g, depth = some g → g = .zero) {failure : Failure}
    (hfails : make α capacity depth = .error failure) :
    failure = .lengthError "cannot create std::vector larger than max_size()" := by
  unfold make at hfails
  rw [if_neg (Nat.ne_of_gt h),AlignedBufferPool.clean_gauge hgauge,
    if_neg Bool.false_ne_true] at hfails
  split at hfails
  · exact (Except.error.inj hfails).symm
  · cases hfails

/-- What the rest of a run may rely on once a configuration has been accepted. -/
structure ConfigWords.Trusted (c : ConfigWords) : Prop where
  poolBytes : ∃ bytes, c.bufferPoolBytes = .ok bytes ∧
    bytes.toNat = c.blockSize.toNat*c.maxInflightBuffers.toNat
  buffers : AlignedBuffer.validateAllocation c.toConfig.blockSize c.toConfig.bufferAlignment =
    .ok ()
  pool : ∀ (gauge : Option Gauge) (allocations : PoolAllocations) (memory : ℕ → ℕ → UInt8)
    (failure : Failure), (∀ g, gauge = some g → g = .zero) →
    AlignedBufferPool.construct c.toConfig gauge allocations memory = .error failure →
    ¬ failure.IsInvalidArgument
  queue : ∀ (α : Type) [SlotSize α] (gauge : Option Gauge) (failure : Failure),
    (∀ g, gauge = some g → g = .zero) →
    SPSCQueue.make α c.toConfig.queueDepth gauge = .error failure → ¬ failure.IsInvalidArgument

/-- A configuration is accepted exactly when it is an acceptable one, and then it is accepted by
everything that is made of it. -/
theorem config_accepted_iff (c : ConfigWords) : (c.validate = .ok () ↔ c.toConfig.Acceptable) ∧
    (c.validate = .ok () → c.Trusted) := by
  have haccept : c.validate = .ok () ↔ c.toConfig.Acceptable := by
    rw [c.validate_eq]
    exact PipelineConfig.validate_eq_ok
  refine ⟨haccept,fun hvalid => ?_⟩
  have h := haccept.mp hvalid
  refine ⟨⟨c.blockSize*c.maxInflightBuffers,?_,?_⟩,AlignedBuffer.validateAllocation_eq_ok h,?_,?_⟩
  · rw [ConfigWords.bufferPoolBytes,hvalid]
    rfl
  · rw [UInt64.toNat_mul]
    exact Nat.mod_eq_of_lt h.poolBytes_lt
  · intro gauge allocations memory failure hgauge hfails hinvalid
    obtain ⟨cause,rfl⟩ | rfl := AlignedBufferPool.construct_fails h hgauge hfails
    · exact cause.not_invalidArgument hinvalid
    · obtain ⟨what,hwhat⟩ | ⟨what,hwhat⟩ := hinvalid <;> cases hwhat
  · intro α _ gauge failure hgauge hfails hinvalid
    obtain rfl := SPSCQueue.make_fails h.queueDepth_pos hgauge hfails
    obtain ⟨what,hwhat⟩ | ⟨what,hwhat⟩ := hinvalid <;> cases hwhat

def ConfigWords.tooLarge : ConfigWords := ⟨0x100000000,0x100000000,1,4096⟩

theorem config_accepted_iff_largest :
    ({ ConfigWords.tooLarge with maxInflightBuffers := 0xFFFFFFFF }).Trusted ∧
      ConfigWords.tooLarge.validate ≠ .ok () :=
  ⟨(config_accepted_iff _).2 (by decide),by decide⟩

end AsyncDataLoader
