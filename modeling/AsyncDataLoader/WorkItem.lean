import AsyncDataLoader.BufferHandle
import AsyncDataLoader.PipelineExecutor

/-!
# Work items as objects

A `BlockWorkItem` object has a handle as its last member. Its constructor, its moves and its
destructor are those of the handle, with three numbers that follow it.
-/

namespace AsyncDataLoader

open FileIO

namespace BufferHandle

def bytes (pool : AlignedBufferPool) (handle : BufferHandle) : Bytes :=
  if handle.hasPool then pool.bytes handle.index else []

def size (pool : AlignedBufferPool) (handle : BufferHandle) : ℕ := (handle.bytes pool).length

def lease (handle : BufferHandle) : Option ℕ := if handle.hasPool then some handle.index else none

end BufferHandle

/-- `buffer` is the number of the member `buffer_` among the handles of the program. -/
structure WorkItem where
  blockIndex : ℕ
  fileOffset : ℕ
  validBytes : ℕ
  buffer : ℕ
  deriving DecidableEq, Repr

/-- The numbers that `std::exchange` leaves. -/
def WorkItem.movedFrom (item : WorkItem) : WorkItem := ⟨0,0,0,item.buffer⟩

structure WorkItemState where
  handles : HandleState
  items : List (Option WorkItem)

inductive WorkItemAction
  | handle (action : HandleAction)
  | construct (blockIndex fileOffset validBytes source : ℕ)
  | moveConstruct (source : ℕ)
  | moveAssign (target source : ℕ)
  | destroy (item : ℕ)
  deriving DecidableEq, Repr

def HandleAction.touched : HandleAction → List ℕ
  | .moveConstruct source => [source]
  | .moveAssign target source => [target,source]
  | .destroy object => [object]
  | _ => []

namespace WorkItemState

def start (pool : AlignedBufferPool) : WorkItemState := ⟨.start pool,[]⟩

def itemAt (s : WorkItemState) (i : ℕ) : Option WorkItem := s.items[i]?.join

/-- The members of the items; no other code can name them. -/
def members (s : WorkItemState) : List ℕ := s.items.flatMap fun o => (o.map WorkItem.buffer).toList

def perform (s : WorkItemState) : WorkItemAction → Option WorkItemState
  | .handle action =>
    if ∀ i ∈ action.touched, i ∉ s.members then
      (handleSystem.step action s.handles).map fun handles => { s with handles := handles }
    else none
  | .construct blockIndex fileOffset validBytes source =>
    if source ∈ s.members then none else
    match s.handles.object source with
    | none => none
    | some handle =>
      (handleSystem.step (.moveConstruct source) s.handles).bind fun handles =>
        let member := s.handles.objects.length
        match BlockWorkItem.make blockIndex fileOffset validBytes handle.lease
            (handle.size s.handles.pool) with
        | .ok _ => some ⟨handles,s.items++[some ⟨blockIndex,fileOffset,validBytes,member⟩]⟩
        | .error _ => -- the member is destroyed
          (handleSystem.step (.destroy member) handles).map fun handles =>
            { s with handles := handles }
  | .moveConstruct source =>
    match s.itemAt source with
    | none => none
    | some other =>
      (handleSystem.step (.moveConstruct other.buffer) s.handles).map fun handles =>
        ⟨handles,s.items.set source (some other.movedFrom)++
          [some { other with buffer := s.handles.objects.length }]⟩
  | .moveAssign target source =>
    match s.itemAt target,s.itemAt source with
    | some self,some other =>
      if target = source then some s
      else (handleSystem.step (.moveAssign self.buffer other.buffer) s.handles).map fun handles =>
        ⟨handles,(s.items.set target (some { other with buffer := self.buffer })).set source
          (some other.movedFrom)⟩
    | _,_ => none
  | .destroy i =>
    match s.itemAt i with
    | none => none
    | some self =>
      (handleSystem.step (.destroy self.buffer) s.handles).map fun handles =>
        ⟨handles,s.items.set i none⟩

/-- `valid_data()`; the first bytes of a span that has fewer are undefined. -/
def validData (s : WorkItemState) (item : WorkItem) : Option Bytes :=
  match s.handles.object item.buffer with
  | none => none
  | some handle =>
    if item.validBytes ≤ handle.size s.handles.pool then
      some ((handle.bytes s.handles.pool).take item.validBytes)
    else none

end WorkItemState

def workItemSystem : TransitionSystem WorkItemAction WorkItemState where
  step action s := s.perform action

namespace HandleState

variable {s s' : HandleState} {action : HandleAction} {i : ℕ}

theorem object_lt {handle : BufferHandle} (h : s.object i = some handle) : i < s.objects.length :=
  (List.getElem?_eq_some_iff.mp (objects_of_object h)).1

/-- The objects that an operation leaves alone, and the shape of the pool. -/
structure Keeps (s s' : HandleState) (touched : List ℕ) : Prop where
  object : ∀ i, i < s.objects.length → i ∉ touched → s'.object i = s.object i
  length : s.objects.length ≤ s'.objects.length
  pool : s.pool.SameShape s'.pool

theorem Keeps.refl (s : HandleState) (touched : List ℕ) : s.Keeps s touched :=
  ⟨fun _ _ _ => rfl,le_refl _,.refl _⟩

theorem object_set (objects : List (Option BufferHandle)) (o : Option BufferHandle) {j : ℕ}
    (hne : i ≠ j) : ({ s with objects := objects.set j o } : HandleState).object i =
      ({ s with objects := objects } : HandleState).object i := by
  rw [object,object,List.getElem?_set_ne hne.symm]

theorem object_append (objects : List (Option BufferHandle)) (o : Option BufferHandle)
    (hi : i < objects.length) : ({ s with objects := objects++[o] } : HandleState).object i =
      ({ s with objects := objects } : HandleState).object i := by
  rw [object,object,List.getElem?_append_left hi]

theorem takeAvailableLocked_keeps (s : HandleState) : s.Keeps s.takeAvailableLocked [] := by
  unfold takeAvailableLocked
  split
  · exact ⟨fun _ _ _ => rfl,le_refl _,.refl _⟩
  · rename_i pool index hacquire
    exact ⟨fun i hi _ => object_append s.objects _ hi,by simp,
      .of_buffers (AlignedBufferPool.acquire_buffers hacquire)⟩

theorem release_keeps (s : HandleState) (i : ℕ) (handle : BufferHandle) :
    (s.release i handle).objects = s.objects.set i (some .null) ∧
      s.pool.SameShape (s.release i handle).pool := by
  unfold release
  split
  · split
    · exact ⟨rfl,.refl _⟩
    · rename_i pool hrelease
      exact ⟨rfl,.of_buffers (AlignedBufferPool.release_buffers hrelease)⟩
  · exact ⟨rfl,.refl _⟩

theorem step_keeps (h : handleSystem.step action s = some s') : s.Keeps s' action.touched := by
  obtain ⟨t,hperform,rfl⟩ := Option.map_eq_some_iff.mp h
  suffices hkeeps : s.Keeps t action.touched from
    ⟨hkeeps.object,hkeeps.length,hkeeps.pool⟩
  cases action with
  | acquire =>
    simp only [perform] at hperform
    split_ifs at hperform
    obtain rfl := Option.some.inj hperform
    exact s.takeAvailableLocked_keeps
  | tryAcquire =>
    simp only [perform] at hperform
    split_ifs at hperform
    · obtain rfl := Option.some.inj hperform
      exact .refl _ _
    · obtain rfl := Option.some.inj hperform
      exact s.takeAvailableLocked_keeps
  | moveConstruct source =>
    simp only [perform] at hperform
    split at hperform
    · cases hperform
    · obtain rfl := Option.some.inj hperform
      refine ⟨fun i hi hne => ?_,by simp [assign],.refl _⟩
      simp only [HandleAction.touched,List.mem_singleton] at hne
      rw [assign,object_append _ _ (by simpa using hi),object_set _ _ hne]
  | moveAssign target source =>
    simp only [perform] at hperform
    split at hperform
    · rename_i old handle htarget hsource
      split_ifs at hperform
      · obtain rfl := Option.some.inj hperform
        exact .refl _ _
      · obtain rfl := Option.some.inj hperform
        obtain ⟨hobjects,hshape⟩ := s.release_keeps target old
        refine ⟨fun i hi hne => ?_,by simp [assign,hobjects],hshape⟩
        simp only [HandleAction.touched,List.mem_cons,List.not_mem_nil,or_false,not_or] at hne
        simp only [assign,object,hobjects]
        rw [List.getElem?_set_ne (Ne.symm hne.2),List.getElem?_set_ne (Ne.symm hne.1),
          List.getElem?_set_ne (Ne.symm hne.1)]
    · cases hperform
  | destroy object =>
    simp only [perform] at hperform
    split at hperform
    · cases hperform
    · rename_i handle hobject
      obtain rfl := Option.some.inj hperform
      obtain ⟨hobjects,hshape⟩ := s.release_keeps object handle
      refine ⟨fun i hi hne => ?_,by simp [hobjects],hshape⟩
      simp only [HandleAction.touched,List.mem_singleton] at hne
      simp only [HandleState.object,hobjects]
      rw [List.getElem?_set_ne (Ne.symm hne),List.getElem?_set_ne (Ne.symm hne)]
  | bytes object =>
    simp only [perform] at hperform
    split at hperform
    · cases hperform
    · split_ifs at hperform
      · obtain rfl := Option.some.inj hperform
        exact ⟨fun _ _ _ => rfl,le_refl _,.refl _⟩
      · obtain rfl := Option.some.inj hperform
        exact .refl _ _

theorem step_moveConstruct {source : ℕ} (h : handleSystem.step (.moveConstruct source) s = some s') :
    ∃ handle, s.object source = some handle ∧ s'.object s.objects.length = some handle ∧
      s'.object source = some .null := by
  obtain ⟨t,hperform,rfl⟩ := Option.map_eq_some_iff.mp h
  simp only [perform] at hperform
  split at hperform
  · cases hperform
  · rename_i handle hobject
    obtain rfl := Option.some.inj hperform
    have hlt := object_lt hobject
    refine ⟨handle,hobject,?_,?_⟩
    · simp [observe,assign,object]
    · simp only [observe,assign,object]
      rw [List.getElem?_append_left (by simpa using hlt),List.getElem?_set_self hlt]
      rfl

theorem step_moveAssign {target source : ℕ} (hne : target ≠ source)
    (h : handleSystem.step (.moveAssign target source) s = some s') :
    ∃ handle, s.object source = some handle ∧ s'.object target = some handle ∧
      s'.object source = some .null := by
  obtain ⟨t,hperform,rfl⟩ := Option.map_eq_some_iff.mp h
  simp only [perform] at hperform
  split at hperform
  · rename_i old handle htarget hsource
    rw [if_neg hne] at hperform
    obtain rfl := Option.some.inj hperform
    have hobjects := (s.release_keeps target old).1
    have htargetLt := object_lt htarget
    have hsourceLt := object_lt hsource
    refine ⟨handle,hsource,?_,?_⟩
    · simp only [observe,assign,object,hobjects]
      rw [List.getElem?_set_ne hne.symm,List.getElem?_set_self (by simpa using htargetLt)]
      rfl
    · simp only [observe,assign,object,hobjects]
      rw [List.getElem?_set_self (by simpa using hsourceLt)]
      rfl
  · cases hperform

end HandleState

namespace WorkItemState

variable {s s' : WorkItemState} {i : ℕ} {item : WorkItem}

def Fits (s : WorkItemState) (item : WorkItem) : Prop :=
  ∃ handle, s.handles.object item.buffer = some handle ∧
    item.validBytes ≤ handle.size s.handles.pool

theorem Fits.validData (h : s.Fits item) :
    ∃ data, s.validData item = some data ∧ data.length = item.validBytes := by
  obtain ⟨handle,hobject,hle⟩ := h
  refine ⟨_,by rw [WorkItemState.validData,hobject]; exact if_pos hle,?_⟩
  rw [List.length_take]
  exact Nat.min_eq_left hle

theorem size_eq {pool pool' : AlignedBufferPool} (h : pool.SameShape pool')
    (handle : BufferHandle) : handle.size pool' = handle.size pool := by
  unfold BufferHandle.size BufferHandle.bytes
  split
  · exact h.bytes_length _
  · rfl

theorem Fits.keep (h : s.Fits item) {handles : HandleState} {touched : List ℕ}
    (hkeeps : s.handles.Keeps handles touched) (hitem : item.buffer ∉ touched)
    (items : List (Option WorkItem)) : Fits ⟨handles,items⟩ item := by
  obtain ⟨handle,hobject,hle⟩ := h
  refine ⟨handle,?_,?_⟩
  · rw [← hobject]
    exact hkeeps.object _ (HandleState.object_lt hobject) hitem
  · rw [size_eq hkeeps.pool]
    exact hle

theorem fits_movedFrom (s : WorkItemState) {handle : BufferHandle}
    (h : s.handles.object item.buffer = some handle) : s.Fits item.movedFrom :=
  ⟨handle,h,Nat.zero_le _⟩

/-- No two items have one member. -/
structure Sound (s : WorkItemState) : Prop where
  fits : ∀ i item, s.itemAt i = some item → s.Fits item
  distinct : ∀ i j item other, s.itemAt i = some item → s.itemAt j = some other →
    item.buffer = other.buffer → i = j

theorem itemAt_of_set {handles : HandleState} {items : List (Option WorkItem)} {o : Option WorkItem}
    {j : ℕ} (h : itemAt ⟨handles,items.set j o⟩ i = some item) :
    i = j ∧ o = some item ∨ i ≠ j ∧ itemAt ⟨handles,items⟩ i = some item := by
  obtain ⟨hlt,hi⟩ := List.getElem?_eq_some_iff.mp (Option.join_eq_some_iff.mp h)
  by_cases hij : i = j
  · subst hij
    rw [List.getElem_set_self] at hi
    exact .inl ⟨rfl,hi⟩
  · rw [itemAt,List.getElem?_set_ne (Ne.symm hij)] at h
    exact .inr ⟨hij,h⟩

theorem itemAt_of_append {handles : HandleState} {items : List (Option WorkItem)} {new : WorkItem}
    (h : itemAt ⟨handles,items++[some new]⟩ i = some item) :
    i = items.length ∧ new = item ∨ itemAt ⟨handles,items⟩ i = some item := by
  rcases Nat.lt_trichotomy i items.length with hlt | rfl | hgt
  · rw [itemAt,List.getElem?_append_left hlt] at h
    exact .inr h
  · rw [itemAt,List.getElem?_concat_length] at h
    exact .inl ⟨rfl,Option.some.inj h⟩
  · rw [itemAt,List.getElem?_eq_none (by rw [List.length_append]; exact hgt)] at h
    cases h

theorem mem_members (h : s.itemAt i = some item) : item.buffer ∈ s.members := by
  refine List.mem_flatMap.mpr ⟨some item,?_,by simp⟩
  exact List.mem_of_getElem? (Option.join_eq_some_iff.mp h)

theorem Sound.buffer_lt (h : s.Sound) (hi : s.itemAt i = some item) :
    item.buffer < s.handles.objects.length := by
  obtain ⟨handle,hobject,-⟩ := h.fits i item hi
  exact HandleState.object_lt hobject

theorem Sound.of_items (h : s.Sound) (hfits : ∀ i item, s'.itemAt i = some item → s'.Fits item)
    (fresh : ℕ) (hitems : ∀ i item, s'.itemAt i = some item →
      (∃ old, s.itemAt i = some old ∧ item.buffer = old.buffer) ∨
        i = fresh ∧ item.buffer = s.handles.objects.length) : s'.Sound := by
  refine ⟨hfits,fun i j item other hi hj heq => ?_⟩
  rcases hitems i item hi,hitems j other hj with
    ⟨⟨old,hold,hbuffer⟩ | ⟨rfl,hbuffer⟩,⟨old',hold',hbuffer'⟩ | ⟨rfl,hbuffer'⟩⟩
  · exact h.distinct i j old old' hold hold' (by rw [← hbuffer,← hbuffer',heq])
  · have hlt := h.buffer_lt hold
    omega
  · have hlt := h.buffer_lt hold'
    omega
  · rfl

theorem Sound.step_handle (h : s.Sound) {action : HandleAction}
    (hstep : s.perform (.handle action) = some s') : s'.Sound := by
  simp only [perform] at hstep
  split_ifs at hstep with huntouched
  obtain ⟨handles,hhandles,rfl⟩ := Option.map_eq_some_iff.mp hstep
  have hkeeps := HandleState.step_keeps hhandles
  refine h.of_items (fun i item hi => ?_) 0 fun i item hi => .inl ⟨item,hi,rfl⟩
  have hi : s.itemAt i = some item := hi
  exact (h.fits i item hi).keep hkeeps (fun htouched => huntouched _ htouched (mem_members hi)) _

theorem Sound.step_construct (h : s.Sound) {blockIndex fileOffset validBytes source : ℕ}
    (hstep : s.perform (.construct blockIndex fileOffset validBytes source) = some s') :
    s'.Sound := by
  simp only [perform] at hstep
  split_ifs at hstep with hmember
  split at hstep
  · cases hstep
  · rename_i handle hobject
    obtain ⟨handles,hhandles,hstep⟩ := Option.bind_eq_some_iff.mp hstep
    have hkeeps := HandleState.step_keeps hhandles
    have hold : ∀ i item, s.itemAt i = some item → Fits ⟨handles,s.items⟩ item := by
      intro i item hi
      refine (h.fits i item hi).keep hkeeps (fun htouched => ?_) _
      rw [← List.mem_singleton.mp htouched] at hmember
      exact hmember (mem_members hi)
    split at hstep
    · rename_i made hmade
      obtain rfl := Option.some.inj hstep
      obtain ⟨handle',hsource,hnew,-⟩ := HandleState.step_moveConstruct hhandles
      obtain rfl := Option.some.inj (hobject.symm.trans hsource)
      have hle : validBytes ≤ handle.size s.handles.pool := by
        unfold BlockWorkItem.make at hmade
        split at hmade
        · cases hmade
        · split_ifs at hmade with hzero hlarge
          exact Nat.le_of_not_gt hlarge
      refine h.of_items (fun i item hi => ?_) s.items.length fun i item hi => ?_
      · obtain ⟨-,rfl⟩ | hi := itemAt_of_append hi
        · exact ⟨handle,hnew,by rw [size_eq hkeeps.pool]; exact hle⟩
        · exact hold i item hi
      · obtain ⟨hindex,rfl⟩ | hi := itemAt_of_append hi
        · exact .inr ⟨hindex,rfl⟩
        · exact .inl ⟨item,hi,rfl⟩
    · obtain ⟨handles',hhandles',rfl⟩ := Option.map_eq_some_iff.mp hstep
      refine h.of_items (fun i item hi => ?_) 0 fun i item hi => .inl ⟨item,hi,rfl⟩
      have hi : s.itemAt i = some item := hi
      refine (hold i item hi).keep (HandleState.step_keeps hhandles') (fun htouched => ?_) _
      have hlt := h.buffer_lt hi
      have heq := List.mem_singleton.mp htouched
      omega

theorem Sound.step_moveConstruct (h : s.Sound) {source : ℕ}
    (hstep : s.perform (.moveConstruct source) = some s') : s'.Sound := by
  simp only [perform] at hstep
  split at hstep
  · cases hstep
  · rename_i other hother
    obtain ⟨handles,hhandles,rfl⟩ := Option.map_eq_some_iff.mp hstep
    have hkeeps := HandleState.step_keeps hhandles
    obtain ⟨handle,hsource,hnew,hnull⟩ := HandleState.step_moveConstruct hhandles
    refine h.of_items (fun i item hi => ?_) s.items.length fun i item hi => ?_
    · obtain ⟨-,rfl⟩ | hi := itemAt_of_append hi
      · obtain ⟨handle',hobject,hle⟩ := h.fits source other hother
        obtain rfl := Option.some.inj (hsource.symm.trans hobject)
        exact ⟨handle,hnew,by rw [size_eq hkeeps.pool]; exact hle⟩
      · obtain ⟨-,heq⟩ | ⟨hne,hi⟩ := itemAt_of_set hi
        · obtain rfl := Option.some.inj heq
          exact fits_movedFrom _ hnull
        · refine (h.fits i item hi).keep hkeeps (fun htouched => ?_) _
          exact hne (h.distinct i source item other hi hother (List.mem_singleton.mp htouched))
    · obtain ⟨hindex,rfl⟩ | hi := itemAt_of_append hi
      · exact .inr ⟨by simpa using hindex,rfl⟩
      · obtain ⟨rfl,heq⟩ | ⟨-,hi⟩ := itemAt_of_set hi
        · obtain rfl := Option.some.inj heq
          exact .inl ⟨other,hother,rfl⟩
        · exact .inl ⟨item,hi,rfl⟩

theorem Sound.step_moveAssign (h : s.Sound) {target source : ℕ}
    (hstep : s.perform (.moveAssign target source) = some s') : s'.Sound := by
  simp only [perform] at hstep
  split at hstep
  · rename_i self other hself hother
    split_ifs at hstep with hsame
    · obtain rfl := Option.some.inj hstep
      exact h
    · obtain ⟨handles,hhandles,rfl⟩ := Option.map_eq_some_iff.mp hstep
      have hkeeps := HandleState.step_keeps hhandles
      have hmembers : self.buffer ≠ other.buffer := fun heq =>
        hsame (h.distinct target source self other hself hother heq)
      obtain ⟨handle,hsource,hassigned,hnull⟩ := HandleState.step_moveAssign hmembers hhandles
      refine h.of_items (fun i item hi => ?_) 0 fun i item hi => ?_
      · obtain ⟨-,heq⟩ | ⟨hsourceNe,hi⟩ := itemAt_of_set hi
        · obtain rfl := Option.some.inj heq
          exact fits_movedFrom _ hnull
        · obtain ⟨-,heq⟩ | ⟨htargetNe,hi⟩ := itemAt_of_set hi
          · obtain rfl := Option.some.inj heq
            obtain ⟨handle',hobject,hle⟩ := h.fits source other hother
            obtain rfl := Option.some.inj (hsource.symm.trans hobject)
            exact ⟨handle,hassigned,by rw [size_eq hkeeps.pool]; exact hle⟩
          · refine (h.fits i item hi).keep hkeeps (fun htouched => ?_) _
            obtain heq | htouched := List.mem_cons.mp htouched
            · exact htargetNe (h.distinct i target item self hi hself heq)
            · exact hsourceNe (h.distinct i source item other hi hother
                (List.mem_singleton.mp htouched))
      · obtain ⟨rfl,heq⟩ | ⟨-,hi⟩ := itemAt_of_set hi
        · obtain rfl := Option.some.inj heq
          exact .inl ⟨other,hother,rfl⟩
        · obtain ⟨rfl,heq⟩ | ⟨-,hi⟩ := itemAt_of_set hi
          · obtain rfl := Option.some.inj heq
            exact .inl ⟨self,hself,rfl⟩
          · exact .inl ⟨item,hi,rfl⟩
  · cases hstep

theorem Sound.step_destroy (h : s.Sound) (hstep : s.perform (.destroy i) = some s') :
    s'.Sound := by
  simp only [perform] at hstep
  split at hstep
  · cases hstep
  · rename_i self hself
    obtain ⟨handles,hhandles,rfl⟩ := Option.map_eq_some_iff.mp hstep
    have hkeeps := HandleState.step_keeps hhandles
    refine h.of_items (fun j item hj => ?_) 0 fun j item hj => ?_
    · obtain ⟨-,heq⟩ | ⟨hne,hj⟩ := itemAt_of_set hj
      · cases heq
      · refine (h.fits j item hj).keep hkeeps (fun htouched => ?_) _
        exact hne (h.distinct j i item self hj hself (List.mem_singleton.mp htouched))
    · obtain ⟨-,heq⟩ | ⟨-,hj⟩ := itemAt_of_set hj
      · cases heq
      · exact .inl ⟨item,hj,rfl⟩

theorem Sound.step (h : s.Sound) {action : WorkItemAction}
    (hstep : s.perform action = some s') : s'.Sound := by
  cases action with
  | handle action => exact h.step_handle hstep
  | construct blockIndex fileOffset validBytes source => exact h.step_construct hstep
  | moveConstruct source => exact h.step_moveConstruct hstep
  | moveAssign target source => exact h.step_moveAssign hstep
  | destroy i => exact h.step_destroy hstep

/-- Every item of a program fits its buffer, also one that a move has left. -/
theorem reachable_sound {pool : AlignedBufferPool}
    (h : workItemSystem.Reachable (.start pool) s) : s.Sound :=
  h.invariant (fun _ _ _ hs hstep => hs.step hstep)
    ⟨fun i item hi => by simp [start,itemAt] at hi,fun i j item other hi => by
      simp [start,itemAt] at hi⟩

/-- The members are handles like any others. -/
theorem handles_reachable {pool : AlignedBufferPool}
    (h : workItemSystem.Reachable (.start pool) s) :
    handleSystem.Reachable (.start pool) s.handles := by
  refine TransitionSystem.Reachable.invariant
    (I := fun u => handleSystem.Reachable (.start pool) u.handles) ?_ (.refl _) h
  intro action u t hu hstep
  replace hstep : u.perform action = some t := hstep
  cases action with
  | handle action =>
    simp only [perform] at hstep
    split_ifs at hstep
    obtain ⟨handles,hhandles,rfl⟩ := Option.map_eq_some_iff.mp hstep
    exact hu.tail hhandles
  | construct blockIndex fileOffset validBytes source =>
    simp only [perform] at hstep
    split_ifs at hstep
    split at hstep
    · cases hstep
    · obtain ⟨handles,hhandles,hstep⟩ := Option.bind_eq_some_iff.mp hstep
      split at hstep
      · obtain rfl := Option.some.inj hstep
        exact hu.tail hhandles
      · obtain ⟨handles',hhandles',rfl⟩ := Option.map_eq_some_iff.mp hstep
        exact (hu.tail hhandles).tail hhandles'
  | moveConstruct source =>
    simp only [perform] at hstep
    split at hstep
    · cases hstep
    · obtain ⟨handles,hhandles,rfl⟩ := Option.map_eq_some_iff.mp hstep
      exact hu.tail hhandles
  | moveAssign target source =>
    simp only [perform] at hstep
    split at hstep
    · split_ifs at hstep
      · obtain rfl := Option.some.inj hstep
        exact hu
      · obtain ⟨handles,hhandles,rfl⟩ := Option.map_eq_some_iff.mp hstep
        exact hu.tail hhandles
    · cases hstep
  | destroy i =>
    simp only [perform] at hstep
    split at hstep
    · cases hstep
    · obtain ⟨handles,hhandles,rfl⟩ := Option.map_eq_some_iff.mp hstep
      exact hu.tail hhandles

end WorkItemState
end AsyncDataLoader
