import AsyncDataLoader.UringContext
import Mathlib.Data.List.Perm.Basic

/-!
# Entries of a ring and the coroutines that wait for them

An entry that is pending or in the kernel should carry the request of a coroutine that is
still suspended on it. This is so as long as every `io_uring_submit` consumes the entry that
was prepared for it; an entry that stays pending outlives the await that prepared it.
-/

namespace AsyncDataLoader

open FileIO

namespace UringState

/-- The user data is a request whose coroutine is suspended on it. -/
def Suspended (s : UringState) (userData : Option ℕ) : Prop :=
  ∃ coroutine awaiter, userData = some coroutine ∧
    s.coroutines[coroutine]? = some (.suspended awaiter) ∧ awaiter.request.Armed coroutine

def Returned (s : UringState) (coroutine : ℕ) : Prop :=
  (∃ result, s.coroutines[coroutine]? = some (.returned result)) ∨
    s.coroutines[coroutine]? = some .dropped

def requests (s : UringState) : List (Option ℕ) :=
  s.ring.inflight.map Sqe.userData++s.ring.completed.map Cqe.userData

structure Sound (s : UringState) : Prop where
  pending : s.ring.pending = []
  suspended : ∀ userData ∈ s.requests, s.Suspended userData
  nodup : s.requests.Nodup

theorem sound_initial (memory : ℕ → Bytes) : (initial memory).Sound :=
  ⟨rfl,by simp [requests,initial,Ring.empty],by simp [requests,initial,Ring.empty]⟩

theorem Suspended.not_returned {s : UringState} {coroutine : ℕ} (h : s.Suspended (some coroutine)) :
    ¬ s.Returned coroutine := by
  obtain ⟨c,awaiter,hc,hsuspended,-⟩ := h
  obtain rfl := Option.some.inj hc
  rintro (⟨result,hr⟩ | hr) <;> rw [hsuspended] at hr <;> cases hr

theorem Suspended.append {s : UringState} {userData : Option ℕ} (h : s.Suspended userData)
    (ring : Ring) (c : ReadCoroutine) :
    Suspended { s with ring := ring, coroutines := s.coroutines++[c] } userData := by
  obtain ⟨coroutine,awaiter,rfl,hc,harmed⟩ := h
  refine ⟨coroutine,awaiter,rfl,?_,harmed⟩
  have hlt := (List.getElem?_eq_some_iff.mp hc).1
  simpa [List.getElem?_append_left hlt] using hc

theorem Suspended.set {s : UringState} {userData : Option ℕ} (h : s.Suspended userData)
    {other : ℕ} (hne : userData ≠ some other) (ring : Ring) (c : ReadCoroutine) :
    Suspended { s with ring := ring, coroutines := s.coroutines.set other c } userData := by
  obtain ⟨coroutine,awaiter,rfl,hc,harmed⟩ := h
  refine ⟨coroutine,awaiter,rfl,?_,harmed⟩
  have hother : other ≠ coroutine := fun heq => hne (congrArg some heq.symm)
  simpa [List.getElem?_set_ne hother] using hc

theorem Suspended.lt {s : UringState} {coroutine : ℕ} (h : s.Suspended (some coroutine)) :
    coroutine < s.coroutines.length := by
  obtain ⟨c,awaiter,hc,hsuspended,-⟩ := h
  obtain rfl := Option.some.inj hc
  exact (List.getElem?_eq_some_iff.mp hsuspended).1

end UringState

/-- If the action calls `io_uring_submit`, this neither fails nor returns zero. -/
def UringAction.Accepted : UringAction → Prop
  | .read arguments sqeAvailable submitResult =>
    (∃ awaiter, ReadAwaiter.make arguments = .ok awaiter) → sqeAvailable = true →
      ∃ count, submitResult = .consumed (count+1)
  | _ => True

/-- What the owners of the buffers rely on, in a run `actions` from `s₀`. -/
structure UringSafety (s₀ : UringState) (actions : List UringAction) : Prop where
  carried : ∀ s, UringContext.system.Visits s₀ actions s →
    ∀ sqe ∈ s.ring.pending++s.ring.inflight, s.Suspended sqe.userData
  completes : ∀ s, UringContext.system.Visits s₀ actions s →
    ∀ cqe ∈ s.ring.completed, s.Suspended cqe.userData
  no_late_write : ∀ before after s coroutine, actions = before++after →
    UringContext.system.exec s₀ before = some s → s.Returned coroutine →
    ∀ t, UringContext.system.Visits s after t →
      ∀ sqe ∈ t.ring.pending++t.ring.inflight, sqe.userData ≠ some coroutine

namespace UringState

theorem Sound.submitted {s : UringState} (hs : s.Sound) (awaiter : ReadAwaiter) :
    Sound ⟨⟨[],s.ring.inflight++[awaiter.prepare s.coroutines.length],s.ring.completed⟩,
      s.coroutines++[.suspended { awaiter with request := ⟨some s.coroutines.length,0,false⟩ }],
      s.memory⟩ := by
  have hnew : some s.coroutines.length ∉ s.requests := fun hmem =>
    Nat.lt_irrefl _ (hs.suspended _ hmem).lt
  have hperm : List.Perm (some s.coroutines.length::s.requests)
      ((s.ring.inflight++[awaiter.prepare s.coroutines.length]).map Sqe.userData++
        s.ring.completed.map Cqe.userData) := by
    simp only [requests,List.map_append,List.map_cons,List.map_nil,ReadAwaiter.prepare]
    exact List.perm_middle.symm.trans (by simp)
  refine ⟨rfl,fun userData hu => ?_,hperm.nodup_iff.mp (List.nodup_cons.mpr ⟨hnew,hs.nodup⟩)⟩
  rcases List.mem_cons.mp (hperm.mem_iff.mpr hu) with rfl | hold
  · exact ⟨_,{ awaiter with request := ⟨some s.coroutines.length,0,false⟩ },rfl,by simp,rfl,rfl⟩
  · exact (hs.suspended userData hold).append _ _

theorem Sound.read {s s' : UringState} (hs : s.Sound) {arguments : ReadArguments}
    {sqeAvailable : Bool} {submitResult : SubmitResult}
    (haccepted : (UringAction.read arguments sqeAvailable submitResult).Accepted)
    (h : s.read arguments sqeAvailable submitResult = some s') : s'.Sound := by
  unfold UringState.read at h
  split at h
  · obtain rfl := Option.some.inj h
    exact ⟨hs.pending,fun userData hu => (hs.suspended userData hu).append s.ring _,hs.nodup⟩
  · rename_i awaiter hmake
    obtain ⟨⟨awaiter',ring',suspends⟩,hsuspend,rfl⟩ := Option.map_eq_some_iff.mp h
    have hnew : awaiter.request = .new := by rw [ReadAwaiter.make_eq hmake]
    cases ReadAwaiter.suspension hnew hsuspend with
    | noEntry =>
      exact ⟨hs.pending,fun userData hu => (hs.suspended userData hu).append s.ring _,hs.nodup⟩
    | refused =>
      obtain ⟨count,heq⟩ := haccepted ⟨awaiter,hmake⟩ rfl
      cases heq
    | miscounted count hcount hne =>
      obtain ⟨n,heq⟩ := haccepted ⟨awaiter,hmake⟩ rfl
      obtain rfl := SubmitResult.consumed.inj heq
      simp only [hs.pending,List.length_nil] at hcount
      omega
    | submitted =>
      rw [hs.pending]
      exact hs.submitted awaiter

theorem Sound.kernel {s s' : UringState} (hs : s.Sound) {index : ℕ} {res : ℤ} {data : Bytes}
    (h : s.kernel index res data = some s') : s'.Sound := by
  obtain ⟨⟨ring',sqe⟩,hcomplete,rfl⟩ := Option.map_eq_some_iff.mp h
  obtain ⟨sqe',hsqe,heq⟩ := Option.map_eq_some_iff.mp hcomplete
  obtain ⟨rfl,rfl⟩ := Prod.mk.inj heq
  obtain ⟨hlt,rfl⟩ := List.getElem?_eq_some_iff.mp hsqe
  have hperm : List.Perm s.requests (requests ⟨⟨s.ring.pending,s.ring.inflight.eraseIdx index,
      s.ring.completed++[⟨s.ring.inflight[index].userData,res⟩]⟩,s.coroutines,s.memory⟩) := by
    have hsplit := ((List.getElem_cons_eraseIdx_perm hlt).map Sqe.userData).symm
    simp only [requests,List.map_append,List.map_cons,List.map_nil]
    refine (hsplit.append_right _).trans ?_
    rw [List.map_cons,List.cons_append,← List.append_assoc]
    exact (List.perm_append_singleton _ _).symm
  exact ⟨hs.pending,fun userData hu => hs.suspended userData (hperm.mem_iff.mpr hu),
    hperm.nodup_iff.mp hs.nodup⟩

theorem Sound.waitOne {s s' : UringState} (hs : s.Sound) {waitResult : SyscallScript}
    (h : s.waitOne waitResult = some s') : s'.Sound := by
  unfold UringState.waitOne at h
  split at h
  · cases h
  · obtain rfl := Option.some.inj h
    exact hs
  · split at h
    · cases h
    · rename_i cqe completed hcompleted
      have hperm : List.Perm s.requests
          (cqe.userData::(s.ring.inflight.map Sqe.userData++completed.map Cqe.userData)) := by
        simp only [requests,hcompleted,List.map_cons]
        exact List.perm_middle
      obtain ⟨hother,hnodup⟩ := List.nodup_cons.mp (hperm.nodup_iff.mp hs.nodup)
      obtain ⟨coroutine,awaiter,huser,hsuspended,harmed⟩ :=
        hs.suspended cqe.userData (hperm.mem_iff.mpr List.mem_cons_self)
      simp only [UringState.resume,huser,hsuspended,harmed.complete (fun _ => false) rfl] at h
      obtain rfl := Option.some.inj h
      refine ⟨hs.pending,fun userData hu => ?_,hnodup⟩
      have hne : userData ≠ some coroutine := fun heq => hother (by rw [huser,← heq]; exact hu)
      exact (hs.suspended userData (hperm.mem_iff.mpr (List.mem_cons_of_mem _ hu))).set hne _ _

theorem Sound.drop {s s' : UringState} (hs : s.Sound) {coroutine : ℕ}
    (h : s.drop coroutine = some s') : s'.Sound := by
  unfold UringState.drop at h
  split at h
  · rename_i result hreturned
    obtain rfl := Option.some.inj h
    refine ⟨hs.pending,fun userData hu => ?_,hs.nodup⟩
    have hsuspended := hs.suspended userData hu
    refine hsuspended.set (fun heq => ?_) s.ring _
    subst heq
    exact hsuspended.not_returned (.inl ⟨result,hreturned⟩)
  · cases h

theorem Sound.step {s s' : UringState} {a : UringAction} (haccepted : a.Accepted) (hs : s.Sound)
    (h : UringContext.system.step a s = some s') : s'.Sound := by
  cases a with
  | read => exact hs.read haccepted h
  | kernel => exact hs.kernel h
  | waitOne => exact hs.waitOne h
  | drop => exact hs.drop h

theorem Returned.append {s : UringState} {coroutine : ℕ} (h : s.Returned coroutine)
    (ring : Ring) (c : ReadCoroutine) :
    Returned { s with ring := ring, coroutines := s.coroutines++[c] } coroutine := by
  rcases h with ⟨result,hr⟩ | hr
  · have hlt := (List.getElem?_eq_some_iff.mp hr).1
    exact .inl ⟨result,by simpa [List.getElem?_append_left hlt] using hr⟩
  · have hlt := (List.getElem?_eq_some_iff.mp hr).1
    exact .inr (by simpa [List.getElem?_append_left hlt] using hr)

theorem Returned.set {s : UringState} {coroutine : ℕ} (h : s.Returned coroutine) (other : ℕ)
    (ring : Ring) {c : ReadCoroutine} (hc : (∃ result, c = .returned result) ∨ c = .dropped) :
    Returned { s with ring := ring, coroutines := s.coroutines.set other c } coroutine := by
  by_cases hother : other = coroutine
  · subst hother
    have hlt : other < s.coroutines.length := by
      rcases h with ⟨result,hr⟩ | hr <;> exact (List.getElem?_eq_some_iff.mp hr).1
    rcases hc with ⟨result,rfl⟩ | rfl
    · exact .inl ⟨result,by simp [hlt]⟩
    · exact .inr (by simp [hlt])
  · simpa only [Returned,List.getElem?_set_ne hother] using h

theorem Returned.step {s s' : UringState} {a : UringAction} {coroutine : ℕ}
    (h : s.Returned coroutine) (hstep : UringContext.system.step a s = some s') :
    s'.Returned coroutine := by
  cases a with
  | read arguments sqeAvailable submitResult =>
    replace hstep : s.read arguments sqeAvailable submitResult = some s' := hstep
    unfold UringState.read at hstep
    split at hstep
    · obtain rfl := Option.some.inj hstep
      exact h.append s.ring _
    · obtain ⟨⟨awaiter',ring',suspends⟩,-,rfl⟩ := Option.map_eq_some_iff.mp hstep
      exact h.append ring' _
  | kernel index res data =>
    obtain ⟨⟨ring',sqe⟩,-,rfl⟩ := Option.map_eq_some_iff.mp hstep
    exact h
  | waitOne waitResult =>
    replace hstep : s.waitOne waitResult = some s' := hstep
    unfold UringState.waitOne at hstep
    split at hstep
    · cases hstep
    · obtain rfl := Option.some.inj hstep
      exact h
    · split at hstep
      · cases hstep
      · unfold UringState.resume at hstep
        split at hstep
        · obtain rfl := Option.some.inj hstep
          exact h
        · split at hstep
          · split at hstep
            · obtain rfl := Option.some.inj hstep
              exact h
            · obtain rfl := Option.some.inj hstep
              exact h.set _ _ (.inl ⟨_,rfl⟩)
          · cases hstep
  | drop other =>
    replace hstep : s.drop other = some s' := hstep
    unfold UringState.drop at hstep
    split at hstep
    · obtain rfl := Option.some.inj hstep
      exact h.set _ _ (.inr rfl)
    · cases hstep

theorem refused_read {s s' : UringState} {arguments : ReadArguments} {awaiter : ReadAwaiter}
    {submitResult : SubmitResult} (hmake : ReadAwaiter.make arguments = .ok awaiter)
    (hrefused : ¬ ∃ count, submitResult = .consumed (count+1))
    (h : s.read arguments true submitResult = some s') :
    (∃ result, s'.coroutines = s.coroutines++[.returned result]) ∧
      awaiter.prepare s.coroutines.length ∈ s'.ring.pending := by
  unfold UringState.read at h
  rw [hmake] at h
  obtain ⟨⟨awaiter',ring',suspends⟩,hsuspend,rfl⟩ := Option.map_eq_some_iff.mp h
  have hnew : awaiter.request = .new := by rw [ReadAwaiter.make_eq hmake]
  have hpending : suspends = false ∧
      ring'.pending = s.ring.pending++[awaiter.prepare s.coroutines.length] := by
    cases ReadAwaiter.suspension hnew hsuspend with
    | refused => exact ⟨rfl,rfl⟩
    | miscounted count =>
      cases count with
      | zero => exact ⟨rfl,rfl⟩
      | succ count => exact absurd ⟨count,rfl⟩ hrefused
    | submitted => exact absurd ⟨0,rfl⟩ hrefused
  obtain ⟨rfl,hring⟩ := hpending
  exact ⟨⟨_,rfl⟩,by simp [hring]⟩

/-- An entry whose submission fails stays pending after its await has returned. -/
theorem carried_accepted {s s' : UringState} {a : UringAction}
    (hstep : UringContext.system.step a s = some s')
    (hcarried : ∀ sqe ∈ s'.ring.pending++s'.ring.inflight, s'.Suspended sqe.userData) :
    a.Accepted := by
  cases a with
  | read arguments sqeAvailable submitResult =>
    rintro ⟨awaiter,hmake⟩ rfl
    replace hstep : s.read arguments true submitResult = some s' := hstep
    by_contra hrefused
    have hleft := refused_read hmake hrefused hstep
    obtain ⟨⟨result,hreturned⟩,hpending⟩ := hleft
    refine (hcarried _ (List.mem_append_left _ hpending)).not_returned (.inl ⟨result,?_⟩)
    simp [hreturned]
  | kernel | waitOne | drop => trivial

end UringState

/-- A context is safe in a run exactly if every `io_uring_submit` consumes an entry. -/
theorem uring_safe_iff (memory : ℕ → Bytes) {actions : List UringAction} {s : UringState}
    (h : UringContext.system.exec (.initial memory) actions = some s) :
    UringSafety (.initial memory) actions ↔ ∀ a ∈ actions, a.Accepted := by
  constructor
  · intro hsafe a ha
    obtain ⟨u,t,htakes,hstep⟩ := TransitionSystem.takes_of_mem h ha
    exact UringState.carried_accepted hstep (hsafe.carried t (htakes.visits hstep))
  · intro haccepted
    have hsound : ∀ t, UringContext.system.Visits (.initial memory) actions t → t.Sound := by
      intro t ht
      refine @TransitionSystem.Visits.invariant _ _ UringContext.system (fun _ a => a.Accepted)
        UringState.Sound (fun _ _ _ ha hs hstep => hs.step ha hstep) _ _ _ ?_
        (UringState.sound_initial memory) ht
      rintro u a ⟨before,after,rfl,-⟩
      exact haccepted a (by simp)
    refine ⟨fun t ht sqe hsqe => ?_,fun t ht cqe hcqe => ?_,
      fun before after u coroutine hsplit hu hreturned t ht sqe hsqe heq => ?_⟩
    · rw [(hsound t ht).pending,List.nil_append] at hsqe
      exact (hsound t ht).suspended _ (List.mem_append_left _ (List.mem_map_of_mem hsqe))
    · exact (hsound t ht).suspended _ (List.mem_append_right _ (List.mem_map_of_mem hcqe))
    · obtain ⟨middle,rest,rfl,ht⟩ := ht
      have hvisits : UringContext.system.Visits (.initial memory) actions t := by
        refine ⟨before++middle,rest,by simp [hsplit],?_⟩
        simp [TransitionSystem.exec_append,hu,ht]
      have hlater : t.Returned coroutine :=
        @TransitionSystem.Reachable.invariant _ _ UringContext.system
          (fun v => v.Returned coroutine) (fun _ _ _ hv hstep => hv.step hstep) _ _ hreturned
          ⟨middle,ht⟩
      rw [(hsound t hvisits).pending,List.nil_append] at hsqe
      have hsuspended := (hsound t hvisits).suspended _
        (List.mem_append_left _ (List.mem_map_of_mem hsqe))
      rw [heq] at hsuspended
      exact hsuspended.not_returned hlater

def UringAction.twoReads : List UringAction :=
  [.read ⟨3,some 0,4,0⟩ true (.consumed 1),.kernel 0 4 [1,2,3,4],.waitOne (.counting 1 0),
    .drop 0,.read ⟨3,some 0,4,4⟩ true (.consumed 1),.kernel 0 (-5) [],.waitOne (.counting 0 0)]

theorem uring_safe_iff_twoReads : ∃ s,
    UringContext.system.exec (.initial fun _ => []) UringAction.twoReads = some s ∧
    (UringSafety (.initial fun _ => []) UringAction.twoReads ↔
      ∀ a ∈ UringAction.twoReads, a.Accepted) :=
  ⟨_,rfl,uring_safe_iff (fun _ => []) rfl⟩

/-- The submission of the first read fails. Its entry is consumed together with that of the
second read, and the kernel stores into the buffer of a read that was reported as failed. -/
def UringAction.staleEntry : List UringAction :=
  [.read ⟨3,some 0,4,0⟩ true (.failed EAGAIN),.drop 0,.read ⟨3,some 1,4,4⟩ true (.consumed 2),
    .kernel 0 4 [1,2,3,4]]

theorem stale_entry_writes_late : (∃ s,
    UringContext.system.exec (.initial fun _ => []) UringAction.staleEntry = some s ∧
    s.memory 0 = [1,2,3,4] ∧ s.coroutines = [.dropped,.returned (.error (.systemError EIO
      "io_uring read"))] ∧ s.ring.completed = [⟨some 0,4⟩]) ∧
    ¬ UringSafety (.initial fun _ => []) UringAction.staleEntry := by
  refine ⟨⟨_,rfl,rfl,rfl,rfl⟩,fun hsafe => ?_⟩
  have hvisits : UringContext.system.Visits (.initial fun _ => []) UringAction.staleEntry
      ⟨⟨[⟨3,some 0,4,0,some 0⟩],[],[]⟩,
        [.returned (.error (.systemError EAGAIN "io_uring read"))],fun _ => []⟩ :=
    ⟨[.read ⟨3,some 0,4,0⟩ true (.failed EAGAIN)],_,rfl,rfl⟩
  have hsuspended := hsafe.carried _ hvisits _ (List.mem_append_left _ List.mem_cons_self)
  exact hsuspended.not_returned (.inl ⟨_,rfl⟩)

end AsyncDataLoader
