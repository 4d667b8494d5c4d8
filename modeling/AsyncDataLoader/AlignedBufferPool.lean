import AsyncDataLoader.FreeList
import AsyncDataLoader.Gauge
import AsyncDataLoader.FileIO
import AsyncDataLoader.PipelineConfig
import Mathlib.Data.List.Lemmas

/-!
# The pool of aligned buffers

A fixed number of buffers that are leased by index. A lease is held by whoever holds the
`BufferHandle`, so the invariant `Leased` speaks of the pool and of the list of held leases.
-/

namespace AsyncDataLoader

open FileIO

structure AlignedBufferPool where
  buffers : List Bytes
  availableIndices : List ℕ -- its back is at the end
  inUse : List Bool
  inflightMetric : Option Gauge

namespace AlignedBufferPool

/-- `memory` is what the freshly allocated buffers happen to hold. -/
def make (config : PipelineConfig) (inflightBuffers : Option Gauge) (memory : ℕ → ℕ → UInt8) :
    Except Failure AlignedBufferPool :=
  match config.validate with
  | .error failure => .error failure
  | .ok () =>
    if inflightBuffers.any fun g => g.current ≠ 0 || g.highWatermark ≠ 0 then
      .error (.invalidArgument "buffer-pool inflight Gauge must be dedicated and start at zero")
    else .ok {
      buffers := (List.range config.maxInflightBuffers).map fun i =>
        (List.range config.blockSize).map (memory i)
      availableIndices := (List.range config.maxInflightBuffers).reverse
      inUse := List.replicate config.maxInflightBuffers false
      inflightMetric := inflightBuffers }

/-- `none` while no buffer is available, and if the assertion that it is free fails. -/
def acquire (pool : AlignedBufferPool) : Option (AlignedBufferPool × ℕ) :=
  match pool.availableIndices.getLast? with
  | none => none
  | some index =>
    if pool.inUse[index]? = some false then
      some ({ pool with
        availableIndices := pool.availableIndices.dropLast
        inUse := pool.inUse.set index true
        inflightMetric := pool.inflightMetric.map Gauge.increment },index)
    else none -- assert(in_use_[index] == 0)

/-- `none` if the assertion that the buffer is in use fails. -/
def release (pool : AlignedBufferPool) (index : ℕ) : Option AlignedBufferPool :=
  if pool.inUse[index]? = some true then
    some { pool with
      availableIndices := pool.availableIndices++[index]
      inUse := pool.inUse.set index false
      inflightMetric := pool.inflightMetric.map Gauge.decrement }
  else none -- assert(in_use_[index] == 1)

def releaseAll (pool : AlignedBufferPool) : List ℕ → Option AlignedBufferPool
  | [] => some pool
  | index::indices => (pool.release index).bind fun pool' => pool'.releaseAll indices

def bytes (pool : AlignedBufferPool) (index : ℕ) : Bytes := pool.buffers[index]?.getD []

/-- Overwrite the first bytes of a buffer, at most all of them. -/
def storeBytes (pool : AlignedBufferPool) (index : ℕ) (data : Bytes) : AlignedBufferPool :=
  { pool with buffers := pool.buffers.modify index fun b => data.take b.length ++ b.drop data.length }

/-- The assertion of the destructor: no outstanding `BufferHandle`. -/
def Destructible (pool : AlignedBufferPool) : Prop :=
  pool.availableIndices.length = pool.buffers.length

theorem make_eq_ok {config : PipelineConfig} {inflightBuffers : Option Gauge}
    (memory : ℕ → ℕ → UInt8) (hconfig : config.validate = .ok ())
    (hgauge : ∀ g, inflightBuffers = some g → g = .zero) :
    ∃ pool, make config inflightBuffers memory = .ok pool := by
  have hclean : (inflightBuffers.any fun g => g.current ≠ 0 || g.highWatermark ≠ 0) = false := by
    cases inflightBuffers with
    | none => rfl
    | some g => rw [hgauge g rfl]; rfl
  unfold make
  rw [hconfig,hclean]
  exact ⟨_,rfl⟩

@[simp] theorem storeBytes_length (pool : AlignedBufferPool) (index : ℕ) (data : Bytes) :
    (pool.storeBytes index data).buffers.length = pool.buffers.length := by
  simp [storeBytes]

theorem bytes_storeBytes_self {pool : AlignedBufferPool} {index : ℕ}
    (h : index < pool.buffers.length) (data : Bytes) :
    (pool.storeBytes index data).bytes index =
      data.take (pool.bytes index).length ++ (pool.bytes index).drop data.length := by
  simp [storeBytes,bytes,h]

theorem bytes_storeBytes_of_ne {pool : AlignedBufferPool} {index other : ℕ} (h : other ≠ index)
    (data : Bytes) : (pool.storeBytes index data).bytes other = pool.bytes other := by
  simp [storeBytes,bytes,h.symm]

@[simp] theorem bytes_storeBytes_length (pool : AlignedBufferPool) (index other : ℕ)
    (data : Bytes) :
    ((pool.storeBytes index data).bytes other).length = (pool.bytes other).length := by
  by_cases hne : other = index
  · subst hne
    by_cases hlt : other < pool.buffers.length
    · rw [bytes_storeBytes_self hlt,List.length_append,List.length_take,List.length_drop]
      omega
    · simp [storeBytes,bytes,List.getElem?_eq_none (Nat.le_of_not_gt hlt)]
  · rw [bytes_storeBytes_of_ne hne]

theorem take_bytes_storeBytes {pool : AlignedBufferPool} {index : ℕ} {data : Bytes}
    (h : index < pool.buffers.length) (hfit : data.length ≤ (pool.bytes index).length) :
    ((pool.storeBytes index data).bytes index).take data.length = data := by
  rw [bytes_storeBytes_self h,List.take_of_length_le hfit]
  simp

theorem acquire_buffers {pool pool' : AlignedBufferPool} {index : ℕ}
    (h : pool.acquire = some (pool',index)) : pool'.buffers = pool.buffers ∧
      pool'.inflightMetric.isSome = pool.inflightMetric.isSome := by
  unfold acquire at h
  split at h
  · cases h
  · split at h
    · obtain ⟨rfl,-⟩ := Prod.mk.inj (Option.some.inj h)
      exact ⟨rfl,Option.isSome_map⟩
    · cases h

theorem release_buffers {pool pool' : AlignedBufferPool} {index : ℕ}
    (h : pool.release index = some pool') : pool'.buffers = pool.buffers ∧
      pool'.inflightMetric.isSome = pool.inflightMetric.isSome := by
  unfold release at h
  split at h
  · obtain rfl := Option.some.inj h
    exact ⟨rfl,Option.isSome_map⟩
  · cases h

theorem acquire_metric {pool pool' : AlignedBufferPool} {index : ℕ}
    (h : pool.acquire = some (pool',index)) :
    pool'.inflightMetric = pool.inflightMetric.map Gauge.increment := by
  unfold acquire at h
  split at h
  · cases h
  · split at h
    · obtain ⟨rfl,-⟩ := Prod.mk.inj (Option.some.inj h)
      rfl
    · cases h

theorem release_metric {pool pool' : AlignedBufferPool} {index : ℕ}
    (h : pool.release index = some pool') :
    pool'.inflightMetric = pool.inflightMetric.map Gauge.decrement := by
  unfold release at h
  split at h
  · obtain rfl := Option.some.inj h
    rfl
  · cases h

theorem releaseAll_buffers {pool pool' : AlignedBufferPool} {indices : List ℕ}
    (h : pool.releaseAll indices = some pool') : pool'.buffers = pool.buffers ∧
      pool'.inflightMetric.isSome = pool.inflightMetric.isSome := by
  induction indices generalizing pool with
  | nil =>
    obtain rfl := Option.some.inj h
    exact ⟨rfl,rfl⟩
  | cons index indices ih =>
    obtain ⟨q,hq,hrest⟩ := Option.bind_eq_some_iff.mp h
    obtain ⟨hbuffers,hmetric⟩ := release_buffers hq
    exact ⟨(ih hrest).1.trans hbuffers,(ih hrest).2.trans hmetric⟩

/-- The number and the sizes of the buffers, and whether there is a gauge. -/
structure SameShape (pool pool' : AlignedBufferPool) : Prop where
  buffers_length : pool'.buffers.length = pool.buffers.length
  bytes_length : ∀ i, (pool'.bytes i).length = (pool.bytes i).length
  metric : pool'.inflightMetric.isSome = pool.inflightMetric.isSome

namespace SameShape

variable {pool pool' : AlignedBufferPool}

theorem refl (pool : AlignedBufferPool) : pool.SameShape pool := ⟨rfl,fun _ => rfl,rfl⟩

theorem trans {pool'' : AlignedBufferPool} (h : pool.SameShape pool')
    (k : pool'.SameShape pool'') : pool.SameShape pool'' :=
  ⟨k.buffers_length.trans h.buffers_length,fun i => (k.bytes_length i).trans (h.bytes_length i),
    k.metric.trans h.metric⟩

theorem of_buffers (h : pool'.buffers = pool.buffers ∧
    pool'.inflightMetric.isSome = pool.inflightMetric.isSome) : pool.SameShape pool' :=
  ⟨by rw [h.1],fun i => by rw [bytes,bytes,h.1],h.2⟩

theorem storeBytes (pool : AlignedBufferPool) (i : ℕ) (data : Bytes) :
    pool.SameShape (pool.storeBytes i data) :=
  ⟨storeBytes_length pool i data,fun j => bytes_storeBytes_length pool i j data,rfl⟩

end SameShape

/-- `held` are exactly the outstanding leases of the pool. -/
structure Leased (pool : AlignedBufferPool) (held : List ℕ) : Prop where
  balanced : FreeList.Balanced pool.buffers.length held pool.availableIndices
  inUse_length : pool.inUse.length = pool.buffers.length
  inUse_iff : ∀ i, pool.inUse[i]? = some true ↔ i ∈ held
  capacity_lt : pool.buffers.length < 2^63-1
  gauge_shows : ∀ g, pool.inflightMetric = some g →
    ∃ peak ≤ pool.buffers.length, g.Shows held.length peak

namespace Leased

variable {pool pool' : AlignedBufferPool} {held : List ℕ} {index : ℕ}

theorem of_perm (h : pool.Leased held) {held' : List ℕ} (hp : held.Perm held') :
    pool.Leased held' :=
  ⟨h.balanced.of_perm hp,h.inUse_length,fun i => (h.inUse_iff i).trans hp.mem_iff,h.capacity_lt,
    fun g hg => by rw [← hp.length_eq]; exact h.gauge_shows g hg⟩

theorem lt_of_mem (h : pool.Leased held) (hi : index ∈ held) : index < pool.buffers.length :=
  (h.balanced.mem_iff index).mp (.inl hi)

theorem not_inUse (h : pool.Leased held) (hlt : index < pool.buffers.length) (hi : index ∉ held) :
    pool.inUse[index]? = some false := by
  have hin : index < pool.inUse.length := by rw [h.inUse_length]; exact hlt
  rw [List.getElem?_eq_getElem hin]
  cases hflag : pool.inUse[index] with
  | false => rfl
  | true => exact absurd ((h.inUse_iff index).mp (by rw [List.getElem?_eq_getElem hin,hflag])) hi

theorem storeBytes (h : pool.Leased held) (i : ℕ) (data : Bytes) :
    (pool.storeBytes i data).Leased held := by
  refine ⟨?_,?_,h.inUse_iff,?_,?_⟩
  · rw [storeBytes_length]; exact h.balanced
  · rw [storeBytes_length]; exact h.inUse_length
  · rw [storeBytes_length]; exact h.capacity_lt
  · intro g hg
    rw [storeBytes_length]
    exact h.gauge_shows g hg

theorem acquire (h : pool.Leased held) (hacq : pool.acquire = some (pool',index)) :
    pool'.Leased (index::held) ∧ index ∉ held := by
  unfold AlignedBufferPool.acquire at hacq
  split at hacq
  · cases hacq
  · rename_i i hi
    split at hacq
    · rename_i hfree
      obtain ⟨rfl,rfl⟩ := Prod.mk.inj (Option.some.inj hacq)
      have hbalanced := h.balanced.take hi
      have hnotin : i ∉ held := (List.nodup_cons.mp hbalanced.nodup_held).1
      have hlt : i < pool.inUse.length := by
        by_contra hge
        rw [List.getElem?_eq_none (Nat.le_of_not_gt hge)] at hfree
        cases hfree
      have hlen := hbalanced.length_eq
      refine ⟨⟨hbalanced,by simp [h.inUse_length],?_,h.capacity_lt,?_⟩,hnotin⟩
      · intro j
        by_cases hj : i = j
        · subst hj
          simp [hlt]
        · simp [List.getElem?_set_ne hj,h.inUse_iff j,Ne.symm hj]
      · intro g hg
        obtain ⟨g',hg',rfl⟩ := Option.map_eq_some_iff.mp hg
        obtain ⟨peak,hpeak,hshows⟩ := h.gauge_shows g' hg'
        have hcap := h.capacity_lt
        simp only [List.length_cons] at hlen ⊢
        refine ⟨max peak (held.length+1),by omega,hshows.increment ?_⟩
        simp only [int64Max]
        omega
    · cases hacq

theorem release (h : pool.Leased (index::held)) :
    ∃ pool', pool.release index = some pool' ∧ pool'.Leased held := by
  have hinUse : pool.inUse[index]? = some true := (h.inUse_iff index).mpr (by simp)
  have hnotin : index ∉ held := (List.nodup_cons.mp h.balanced.nodup_held).1
  refine ⟨_,if_pos hinUse,h.balanced.give,by simp [h.inUse_length],?_,h.capacity_lt,?_⟩
  · intro j
    by_cases hj : index = j
    · subst hj
      have hlt : index < pool.inUse.length := by
        rw [h.inUse_length]
        exact h.lt_of_mem (by simp)
      simp [hlt,hnotin]
    · simp [List.getElem?_set_ne hj,h.inUse_iff j,Ne.symm hj]
  · intro g hg
    obtain ⟨g',hg',rfl⟩ := Option.map_eq_some_iff.mp hg
    obtain ⟨peak,hpeak,hshows⟩ := h.gauge_shows g' hg'
    have hlen := h.balanced.length_eq
    have hcap := h.capacity_lt
    simp only [List.length_cons] at hlen
    refine ⟨peak,hpeak,hshows.decrement ?_⟩
    simp only [int64Max]
    omega

theorem releaseAll {indices : List ℕ} (h : pool.Leased (indices++held)) :
    ∃ pool', pool.releaseAll indices = some pool' ∧ pool'.Leased held := by
  induction indices generalizing pool with
  | nil => exact ⟨pool,rfl,h⟩
  | cons index indices ih =>
    obtain ⟨q,hq,hleased⟩ := release h
    obtain ⟨pool',hrest,hdone⟩ := ih hleased
    exact ⟨pool',by simp [AlignedBufferPool.releaseAll,hq,hrest],hdone⟩

theorem released {pool' : AlignedBufferPool} {rest : List ℕ} (h : pool.Leased held)
    (hp : held.Perm (index::rest)) (hrel : pool.release index = some pool') : pool'.Leased rest := by
  obtain ⟨q,hq,hleased⟩ := (h.of_perm hp).release
  obtain rfl := Option.some.inj (hrel.symm.trans hq)
  exact hleased

theorem releasedAll {pool' : AlignedBufferPool} {indices rest : List ℕ} (h : pool.Leased held)
    (hp : held.Perm (indices++rest)) (hrel : pool.releaseAll indices = some pool') :
    pool'.Leased rest := by
  obtain ⟨q,hq,hleased⟩ := (h.of_perm hp).releaseAll
  obtain rfl := Option.some.inj (hrel.symm.trans hq)
  exact hleased

theorem acquire_ne_none (h : pool.Leased []) (hpos : 0 < pool.buffers.length) :
    pool.acquire ≠ none := by
  unfold AlignedBufferPool.acquire
  split
  · rename_i hnone
    exact absurd (List.getLast?_eq_none_iff.mp hnone) (h.balanced.free_ne_nil hpos)
  · rename_i index hindex
    have hmem : index ∈ pool.availableIndices := List.mem_of_getLast? hindex
    have hlt := (h.balanced.mem_iff index).mp (.inr hmem)
    simp [h.not_inUse hlt (by simp)]

theorem destructible (h : pool.Leased []) : pool.Destructible := by
  have hlen := h.balanced.length_eq
  simpa [Destructible] using hlen

end Leased

theorem make_leased {config : PipelineConfig} {inflight : Option Gauge} {memory : ℕ → ℕ → UInt8}
    {pool : AlignedBufferPool} (h : make config inflight memory = .ok pool) :
    pool.Leased [] ∧ pool.buffers.length = config.maxInflightBuffers ∧ config.Valid ∧
      (∀ i < config.maxInflightBuffers, (pool.bytes i).length = config.blockSize) ∧
      pool.inflightMetric = inflight := by
  unfold make at h
  split at h
  · cases h
  · rename_i hvalid
    have hconfig := PipelineConfig.valid_of_validate hvalid
    split at h
    · cases h
    · rename_i hclean
      obtain rfl := Except.ok.inj h
      refine ⟨⟨?_,by simp,?_,?_,?_⟩,by simp,hconfig,?_,rfl⟩
      · simpa using @FreeList.Balanced.allFree config.maxInflightBuffers
      · intro i
        simp [List.getElem?_replicate]
      · simpa using hconfig.maxInflightBuffers_lt
      · intro g hg
        simp only at hg
        subst hg
        have hzero : g.current = 0 ∧ g.highWatermark = 0 := by simpa using hclean
        exact ⟨0,Nat.zero_le _,hzero⟩
      · intro i hi
        simp [bytes,hi]

end AlignedBufferPool
end AsyncDataLoader
