import AsyncDataLoader.AlignedBufferPool
import AsyncDataLoader.TransitionSystem

/-!
# Buffer handles

The handle objects of a program and the pool they point to. A handle is moved, overwritten
and destroyed like any other C++ object, and its lease with it. An assertion that fails is
part of the state.
-/

namespace AsyncDataLoader

/-- `hasPool` says that `pool_` is not null. -/
structure BufferHandle where
  hasPool : Bool
  index : ℕ
  deriving DecidableEq, Repr

def BufferHandle.null : BufferHandle := ⟨false,0⟩

/-- The buffer that an object names, if it is still there and valid. -/
def BufferHandle.named : Option BufferHandle → List ℕ
  | some ⟨true,index⟩ => [index]
  | _ => []

/-- `objects` are all the handles that were ever constructed. The last three fields
record what has happened: the indices that were acquired and released in turn, and the largest
number of valid handles. -/
structure HandleState where
  pool : AlignedBufferPool
  objects : List (Option BufferHandle)
  aborted : Bool
  acquired : List ℕ
  released : List ℕ
  peak : ℕ

inductive HandleAction
  | acquire
  | tryAcquire
  | moveConstruct (source : ℕ)
  | moveAssign (target source : ℕ)
  | destroy (object : ℕ)
  | bytes (object : ℕ)
  deriving DecidableEq, Repr

namespace HandleState

def held (s : HandleState) : List ℕ := s.objects.flatMap BufferHandle.named

def start (pool : AlignedBufferPool) : HandleState := ⟨pool,[],false,[],[],0⟩

def object (s : HandleState) (i : ℕ) : Option BufferHandle := s.objects[i]?.join

def assign (s : HandleState) (i : ℕ) (handle : BufferHandle) : HandleState :=
  { s with objects := s.objects.set i (some handle) }

def takeAvailableLocked (s : HandleState) : HandleState :=
  match s.pool.acquire with
  | none => { s with aborted := true }
  | some (pool,index) => { s with
      pool := pool
      objects := s.objects++[some ⟨true,index⟩]
      acquired := s.acquired++[index] }

def release (s : HandleState) (i : ℕ) (handle : BufferHandle) : HandleState :=
  let emptied := s.assign i .null
  if handle.hasPool then
    match s.pool.release handle.index with
    | none => { emptied with aborted := true }
    | some pool => { emptied with
        pool := pool
        released := s.released++[handle.index] }
  else emptied

/-- One operation. `none` when it does not return or the program has no such object. -/
def perform (s : HandleState) : HandleAction → Option HandleState
  | .acquire => if s.pool.availableIndices = [] then none else some s.takeAvailableLocked
  | .tryAcquire => if s.pool.availableIndices = [] then some s else some s.takeAvailableLocked
  | .moveConstruct source =>
    match s.object source with
    | none => none
    | some handle =>
      let emptied := s.assign source .null
      some { emptied with objects := emptied.objects++[some handle] }
  | .moveAssign target source =>
    match s.object target,s.object source with
    | some old,some handle =>
      if target = source then some s
      else some (((s.release target old).assign target handle).assign source .null)
    | _,_ => none
  | .destroy i =>
    match s.object i with
    | none => none
    | some handle =>
      let emptied := s.release i handle
      some { emptied with objects := emptied.objects.set i none }
  | .bytes i =>
    match s.object i with
    | none => none
    | some handle =>
      if handle.hasPool && !decide (handle.index < s.pool.buffers.length) then
        some { s with aborted := true }
      else some s

def observe (s : HandleState) : HandleState := { s with peak := max s.peak s.held.length }

end HandleState

def handleSystem : TransitionSystem HandleAction HandleState where
  step action s := (s.perform action).map HandleState.observe

namespace HandleState

variable {s s' : HandleState} {i : ℕ} {o : Option BufferHandle} {handle : BufferHandle}

theorem held_set (h : s.objects[i]? = some o) :
    ∃ rest, s.held.Perm (BufferHandle.named o++rest) ∧
      ∀ x, (({ s with objects := s.objects.set i x } : HandleState).held).Perm
        (BufferHandle.named x++rest) := by
  obtain ⟨hi,rfl⟩ := List.getElem?_eq_some_iff.mp h
  refine ⟨(s.objects.eraseIdx i).flatMap BufferHandle.named,?_,fun x => ?_⟩
  · have hperm := (List.getElem_cons_eraseIdx_perm hi).symm.flatMap_right BufferHandle.named
    simpa [held] using hperm
  · have hperm := (List.set_perm_cons_eraseIdx hi x).flatMap_right BufferHandle.named
    simpa [held] using hperm

theorem objects_of_object (h : s.object i = some handle) : s.objects[i]? = some (some handle) := by
  unfold object at h
  exact Option.join_eq_some_iff.mp h

/-- The valid handles are the leases of the pool. -/
structure Sound (capacity : ℕ) (metric : Bool) (s : HandleState) : Prop where
  leased : s.pool.Leased s.held
  aborted_eq : s.aborted = false
  ledger : s.acquired.Perm (s.released++s.held)
  gauge : ∀ g, s.pool.inflightMetric = some g → g.Shows s.held.length (max s.peak s.held.length)
  capacity_eq : s.pool.buffers.length = capacity
  metric_eq : s.pool.inflightMetric.isSome = metric

variable {capacity : ℕ} {metric : Bool}

theorem Sound.of_perm (h : Sound capacity metric s) {objects : List (Option BufferHandle)}
    (hp : s.held.Perm ({ s with objects := objects } : HandleState).held) :
    Sound capacity metric { s with objects := objects } where
  leased := h.leased.of_perm hp
  aborted_eq := h.aborted_eq
  ledger := h.ledger.trans (hp.append_left _)
  gauge := by
    intro g hg
    rw [← hp.length_eq]
    exact h.gauge g hg
  capacity_eq := h.capacity_eq
  metric_eq := h.metric_eq

theorem Sound.takeAvailableLocked (h : Sound capacity metric s)
    (hfree : s.pool.availableIndices ≠ []) : Sound capacity metric s.takeAvailableLocked := by
  obtain ⟨index,hlast⟩ : ∃ index, s.pool.availableIndices.getLast? = some index :=
    ⟨_,List.getLast?_eq_some_getLast hfree⟩
  have hmem : index ∈ s.pool.availableIndices := List.mem_of_getLast? hlast
  have hlt := (h.leased.balanced.mem_iff index).mp (.inr hmem)
  have hunheld : index ∉ s.held := fun hheld => h.leased.balanced.disjoint hheld hmem
  cases hacquire : s.pool.acquire with
  | none =>
    unfold AlignedBufferPool.acquire at hacquire
    rw [hlast] at hacquire
    simp [h.leased.not_inUse hlt hunheld] at hacquire
  | some acquired =>
    obtain ⟨pool,index⟩ := acquired
    obtain ⟨hleased,-⟩ := h.leased.acquire hacquire
    obtain ⟨hbuffers,hmetric⟩ := AlignedBufferPool.acquire_buffers hacquire
    have hstep : s.takeAvailableLocked = { s with
        pool := pool
        objects := s.objects++[some ⟨true,index⟩]
        acquired := s.acquired++[index] } := by
      simp [HandleState.takeAvailableLocked,hacquire]
    have hheld : s.takeAvailableLocked.held = s.held++[index] := by
      simp [hstep,held,BufferHandle.named]
    have hperm : (index::s.held).Perm s.takeAvailableLocked.held := by
      rw [hheld]
      exact (List.perm_append_singleton index s.held).symm
    rw [hstep] at hperm ⊢
    refine ⟨hleased.of_perm hperm,h.aborted_eq,?_,?_,?_,hmetric.trans h.metric_eq⟩
    · refine (h.ledger.append_right [index]).trans ?_
      rw [List.append_assoc]
      exact ((List.perm_append_singleton index s.held).trans hperm).append_left _
    · intro g hg
      have hlength := hperm.length_eq
      simp only [AlignedBufferPool.acquire_metric hacquire,Option.map_eq_some_iff] at hg
      obtain ⟨g',hg',rfl⟩ := hg
      have hfits := h.leased.balanced.length_eq
      have hcap := h.leased.capacity_lt
      have hshows := (h.gauge g' hg').increment (by simp only [int64Max]; omega)
      rw [← hlength,List.length_cons]
      rwa [show max (max s.peak s.held.length) (s.held.length+1) =
        max s.peak (s.held.length+1) by omega] at hshows
    · exact (congrArg List.length hbuffers).trans h.capacity_eq

theorem Sound.release (h : Sound capacity metric s) (hpeak : s.held.length ≤ s.peak)
    (hi : s.objects[i]? = some (some handle)) :
    Sound capacity metric (s.release i handle) ∧
      (s.release i handle).objects = s.objects.set i (some .null) := by
  obtain ⟨rest,hheld,hset⟩ := held_set hi
  have hnull : ({ s with objects := s.objects.set i (some .null) } : HandleState).held.Perm rest :=
    hset (some .null)
  obtain ⟨hasPool,index⟩ := handle
  cases hasPool with
  | false =>
    simp only [BufferHandle.named,List.nil_append] at hheld
    exact ⟨h.of_perm (hheld.trans hnull.symm),rfl⟩
  | true =>
    simp only [BufferHandle.named,List.singleton_append] at hheld
    obtain ⟨pool,hrelease,hleased⟩ := (h.leased.of_perm hheld).release
    have hstep : s.release i ⟨true,index⟩ = { s with
        pool := pool
        objects := s.objects.set i (some .null)
        released := s.released++[index] } := by
      simp [HandleState.release,assign,hrelease]
    rw [hstep]
    refine ⟨⟨hleased.of_perm hnull.symm,h.aborted_eq,?_,?_,?_,?_⟩,rfl⟩
    · refine h.ledger.trans ?_
      rw [List.append_assoc]
      exact (hheld.trans (hnull.symm.cons index)).append_left _
    · intro g hg
      have hlength := hheld.length_eq
      have hlength' := hnull.length_eq
      simp only [AlignedBufferPool.release_metric hrelease,Option.map_eq_some_iff] at hg
      obtain ⟨g',hg',rfl⟩ := hg
      have hfits := h.leased.balanced.length_eq
      have hcap := h.leased.capacity_lt
      rw [List.length_cons] at hlength
      have hshows := h.gauge g' hg'
      rw [hlength,show max s.peak (rest.length+1) = s.peak by omega] at hshows
      have hdecrement := hshows.decrement (by simp only [int64Max]; omega)
      change g'.decrement.Shows
        (HandleState.held { s with objects := s.objects.set i (some .null) }).length
        (max s.peak (HandleState.held { s with objects := s.objects.set i (some .null) }).length)
      rwa [hlength',show max s.peak rest.length = s.peak by omega]
    · exact (congrArg List.length (AlignedBufferPool.release_buffers hrelease).1).trans h.capacity_eq
    · exact (AlignedBufferPool.release_buffers hrelease).2.trans h.metric_eq

theorem Sound.set_unnamed (h : Sound capacity metric s) (hi : s.objects[i]? = some o)
    (ho : BufferHandle.named o = []) {x : Option BufferHandle} (hx : BufferHandle.named x = []) :
    Sound capacity metric { s with objects := s.objects.set i x } := by
  obtain ⟨rest,hheld,hset⟩ := held_set hi
  have hnext := hset x
  rw [ho,List.nil_append] at hheld
  rw [hx,List.nil_append] at hnext
  exact h.of_perm (hheld.trans hnext.symm)

theorem Sound.moveConstruct (h : Sound capacity metric s) (hi : s.objects[i]? = some (some handle)) :
    Sound capacity metric { s with objects := s.objects.set i (some .null)++[some handle] } := by
  obtain ⟨rest,hheld,hset⟩ := held_set hi
  have hnull : ({ s with objects := s.objects.set i (some .null) } : HandleState).held.Perm rest :=
    hset (some .null)
  have hmoved : ({ s with objects := s.objects.set i (some .null)++[some handle] } :
      HandleState).held =
      ({ s with objects := s.objects.set i (some .null) } : HandleState).held++
        BufferHandle.named (some handle) := by
    simp [held]
  refine h.of_perm (hheld.trans ?_)
  rw [hmoved]
  exact List.perm_append_comm.trans (hnull.symm.append_right _)

theorem Sound.moveAssign {target source : ℕ} (h : Sound capacity metric s)
    (hne : target ≠ source) (htarget : s.objects[target]? = some (some .null))
    (hsource : s.objects[source]? = some (some handle)) :
    Sound capacity metric
      { s with objects := (s.objects.set target (some handle)).set source (some .null) } := by
  obtain ⟨rest,hheld,hset⟩ := held_set htarget
  have hassigned := hset (some handle)
  have hheld : s.held.Perm rest := hheld
  have hsource' : ({ s with objects := s.objects.set target (some handle) } :
      HandleState).objects[source]? = some (some handle) := by
    rw [List.getElem?_set_ne hne]
    exact hsource
  obtain ⟨rest',hheld',hset'⟩ := held_set hsource'
  have hmoved := hset' (some .null)
  have hrest : rest.Perm rest' :=
    (List.perm_append_left_iff _).mp (hassigned.symm.trans hheld')
  exact h.of_perm (hheld.trans (hrest.trans hmoved.symm))

theorem Sound.perform (h : Sound capacity metric s) (hpeak : s.held.length ≤ s.peak)
    {action : HandleAction} (hstep : s.perform action = some s') : Sound capacity metric s' := by
  cases action with
  | acquire =>
    simp only [HandleState.perform] at hstep
    split at hstep
    · cases hstep
    · rename_i hfree
      obtain rfl := Option.some.inj hstep
      exact h.takeAvailableLocked hfree
  | tryAcquire =>
    simp only [HandleState.perform] at hstep
    split at hstep <;> obtain rfl := Option.some.inj hstep
    · exact h
    · rename_i hfree
      exact h.takeAvailableLocked hfree
  | moveConstruct source =>
    simp only [HandleState.perform] at hstep
    split at hstep
    · cases hstep
    · rename_i handle hobject
      obtain rfl := Option.some.inj hstep
      exact h.moveConstruct (objects_of_object hobject)
  | moveAssign target source =>
    simp only [HandleState.perform] at hstep
    split at hstep
    · rename_i old handle htarget hsource
      split at hstep
      · obtain rfl := Option.some.inj hstep
        exact h
      · rename_i hne
        obtain rfl := Option.some.inj hstep
        have htarget := objects_of_object htarget
        have hsource := objects_of_object hsource
        obtain ⟨hreleased,hobjects⟩ := h.release hpeak htarget
        have hlt : target < s.objects.length := (List.getElem?_eq_some_iff.mp htarget).1
        refine hreleased.moveAssign hne ?_ ?_
        · rw [hobjects,List.getElem?_set_self hlt]
        · rw [hobjects,List.getElem?_set_ne hne]
          exact hsource
    · cases hstep
  | destroy object =>
    simp only [HandleState.perform] at hstep
    split at hstep
    · cases hstep
    · rename_i handle hobject
      obtain rfl := Option.some.inj hstep
      have hobject := objects_of_object hobject
      obtain ⟨hreleased,hobjects⟩ := h.release hpeak hobject
      have hlt : object < s.objects.length := (List.getElem?_eq_some_iff.mp hobject).1
      have hnull : (s.release object handle).objects[object]? = some (some .null) := by
        rw [hobjects,List.getElem?_set_self hlt]
      exact hreleased.set_unnamed hnull rfl rfl
  | bytes object =>
    simp only [HandleState.perform] at hstep
    split at hstep
    · cases hstep
    · rename_i handle hobject
      split at hstep
      · rename_i hassert
        simp only [Bool.and_eq_true,Bool.not_eq_true',decide_eq_false_iff_not] at hassert
        obtain ⟨rest,hheld,-⟩ := held_set (objects_of_object hobject)
        obtain ⟨hasPool,index⟩ := handle
        obtain rfl : hasPool = true := hassert.1
        have hmem : index ∈ s.held := hheld.mem_iff.mpr (by simp [BufferHandle.named])
        exact absurd (h.leased.lt_of_mem hmem) hassert.2
      · obtain rfl := Option.some.inj hstep
        exact h

theorem Sound.observe (h : Sound capacity metric s) :
    Sound capacity metric s.observe ∧ s.observe.held.length ≤ s.observe.peak := by
  have hheld : s.observe.held = s.held := rfl
  refine ⟨⟨h.leased,h.aborted_eq,h.ledger,fun g hg => ?_,h.capacity_eq,h.metric_eq⟩,
    Nat.le_max_right _ _⟩
  have hshows := h.gauge g hg
  rw [hheld]
  simp only [HandleState.observe]
  rwa [Nat.max_eq_left (Nat.le_max_right _ _)]

def Names (s : HandleState) (i index : ℕ) : Prop := s.object i = some ⟨true,index⟩

theorem mem_held_iff {index : ℕ} : index ∈ s.held ↔ ∃ i, s.Names i index := by
  unfold held Names object
  rw [List.mem_flatMap]
  constructor
  · rintro ⟨o,ho,hindex⟩
    obtain ⟨i,hi⟩ := List.mem_iff_getElem?.mp ho
    refine ⟨i,?_⟩
    rw [hi]
    cases o with
    | none => cases hindex
    | some handle =>
      obtain ⟨hasPool,index'⟩ := handle
      cases hasPool with
      | false => cases hindex
      | true =>
        obtain rfl := List.mem_singleton.mp hindex
        rfl
  · rintro ⟨i,hi⟩
    exact ⟨_,List.mem_of_getElem? (Option.join_eq_some_iff.mp hi),List.mem_singleton_self _⟩

theorem names_unique (h : s.held.Nodup) {i j index : ℕ} (hi : s.Names i index)
    (hj : s.Names j index) : i = j := by
  by_contra hne
  obtain ⟨rest,hheld,hset⟩ := held_set (objects_of_object hi)
  have hrest := hset none
  have hother : ({ s with objects := s.objects.set i none } : HandleState).Names j index := by
    have hj' := objects_of_object hj
    rw [Names,object,List.getElem?_set_ne hne,hj']
    rfl
  have hmem : index ∈ rest := hrest.mem_iff.mp (mem_held_iff.mpr ⟨j,hother⟩)
  exact (List.nodup_cons.mp (hheld.nodup_iff.mp h)).1 hmem

end HandleState

/-- What holds of a pool and its handles after every sequence of operations. -/
structure HandleContract (capacity : ℕ) (metric : Bool) (s : HandleState) : Prop where
  available_nodup : s.pool.availableIndices.Nodup
  available_iff : ∀ index, index ∈ s.pool.availableIndices ↔ s.pool.inUse[index]? = some false
  names_unique : ∀ i j index, s.Names i index → s.Names j index → i = j
  inUse_iff : ∀ index, s.pool.inUse[index]? = some true ↔ ∃ i, s.Names i index
  ledger : s.acquired.Perm (s.released++s.held)
  held_length : s.pool.availableIndices.length+s.held.length = capacity
  reserved : s.pool.availableIndices.length ≤ capacity
  unaborted : s.aborted = false
  destructible : s.held = [] → s.pool.Destructible
  metric_eq : s.pool.inflightMetric.isSome = metric
  gauge : ∀ g, s.pool.inflightMetric = some g → g.Shows s.held.length s.peak

namespace HandleState

theorem Sound.contract {capacity : ℕ} {metric : Bool} {s : HandleState}
    (h : Sound capacity metric s) (hpeak : s.held.length ≤ s.peak) :
    HandleContract capacity metric s := by
  have hlength := h.leased.balanced.length_eq
  have hcapacity := h.capacity_eq
  have hdisjoint := h.leased.balanced.disjoint
  refine ⟨h.leased.balanced.nodup.of_append_right,fun index => ?_,
    fun i j index => names_unique h.leased.balanced.nodup_held,
    fun index => (h.leased.inUse_iff index).trans mem_held_iff,h.ledger,by omega,by omega,
    h.aborted_eq,fun hnone => (hnone ▸ h.leased).destructible,h.metric_eq,fun g hg => ?_⟩
  · constructor
    · intro hfree
      have hlt := (h.leased.balanced.mem_iff index).mp (.inr hfree)
      exact h.leased.not_inUse hlt fun hheld => hdisjoint hheld hfree
    · intro hunused
      have hlt : index < s.pool.buffers.length := by
        rw [← h.leased.inUse_length]
        exact (List.getElem?_eq_some_iff.mp hunused).1
      rcases (h.leased.balanced.mem_iff index).mpr hlt with hheld | hfree
      · rw [(h.leased.inUse_iff index).mpr hheld] at hunused
        cases hunused
      · exact hfree
  · have hshows := h.gauge g hg
    rwa [Nat.max_eq_left hpeak] at hshows

end HandleState

/-- The valid handles of a pool are always exactly its leases. -/
theorem handles_contract (config : PipelineConfig) (inflightBuffers : Option Gauge)
    (memory : ℕ → ℕ → UInt8) (hconfig : config.validate = .ok ())
    (hgauge : ∀ g, inflightBuffers = some g → g = .zero) :
    ∃ pool, AlignedBufferPool.make config inflightBuffers memory = .ok pool ∧
      ∀ actions s, handleSystem.exec (.start pool) actions = some s →
        HandleContract config.maxInflightBuffers inflightBuffers.isSome s := by
  obtain ⟨pool,hpool⟩ := AlignedBufferPool.make_eq_ok memory hconfig hgauge
  obtain ⟨hleased,hcapacity,-,-,hmetric⟩ := AlignedBufferPool.make_leased hpool
  refine ⟨pool,hpool,fun actions s hexec => ?_⟩
  have hstart : (HandleState.start pool).Sound config.maxInflightBuffers inflightBuffers.isSome ∧
      (HandleState.start pool).held.length ≤ (HandleState.start pool).peak := by
    refine ⟨⟨hleased,rfl,.nil,fun g hg => ?_,hcapacity,congrArg Option.isSome hmetric⟩,le_refl 0⟩
    obtain rfl := hgauge g (hmetric ▸ hg)
    exact ⟨rfl,rfl⟩
  have hsound := TransitionSystem.Reachable.invariant (M := handleSystem)
    (I := fun t => t.Sound config.maxInflightBuffers inflightBuffers.isSome ∧
      t.held.length ≤ t.peak) (fun action t u ht hstep => ?_) hstart ⟨actions,hexec⟩
  · exact hsound.1.contract hsound.2
  · obtain ⟨v,hv,rfl⟩ := Option.map_eq_some_iff.mp hstep
    exact (ht.1.perform ht.2 hv).observe

/-- Both buffers of a pool are acquired, and one handle is assigned to the other and to itself. -/
theorem handles_contract_assigned :
    ∃ pool s, AlignedBufferPool.make ⟨8,2,1,8⟩ (some .zero) (fun _ _ => 0) = .ok pool ∧
      handleSystem.exec (.start pool) [.acquire,.acquire,.moveAssign 0 1,.moveAssign 0 0] =
        some s ∧ s.pool.availableIndices = [0] ∧ s.held = [1] ∧ HandleContract 2 true s := by
  obtain ⟨pool,hpool,h⟩ := handles_contract ⟨8,2,1,8⟩ (some .zero) (fun _ _ => 0) (by decide)
    (fun _ hg => (Option.some.inj hg).symm)
  obtain rfl := Except.ok.inj hpool
  exact ⟨_,_,rfl,rfl,rfl,rfl,h [.acquire,.acquire,.moveAssign 0 1,.moveAssign 0 0] _ rfl⟩

end AsyncDataLoader
