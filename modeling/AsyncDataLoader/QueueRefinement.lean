import AsyncDataLoader.SPSCQueue

/-!
# The ring queue simulates a bounded queue

Every sequence of completed calls on a new ring queue has the responses of the abstract
bounded queue, and its ring indices, gauge and history stay consistent.
-/

namespace AsyncDataLoader
namespace SPSCQueue

open BoundedFifo

variable {α : Type*}

/-- What is observed of a ring queue, seen as observed of the bounded queue. -/
def abstraction (s : Observed (SPSCQueue α) α Failure) :
    Observed (BoundedFifo α Failure) α Failure := ⟨s.queue.toFifo,s.history,s.peak⟩

def fifoObserved (α : Type*) :
    TransitionSystem (Operation α Failure) (Observed (BoundedFifo α Failure) α Failure) :=
  observe BoundedFifo.perform fun q => q.items.length

def Consistent (s : Observed (SPSCQueue α) α Failure) : Prop := s.queue.WellFormed s.peak

theorem consistent_step (op : Operation α Failure) (s t : Observed (SPSCQueue α) α Failure)
    (h : Consistent s) (hstep : (observed α).step op s = some t) : Consistent t := by
  simp only [observed,observe,Option.map_eq_some_iff] at hstep
  obtain ⟨⟨q,r⟩,hop,rfl⟩ := hstep
  exact WellFormed.perform_wellFormed h hop

theorem abstraction_step (op : Operation α Failure) (s : Observed (SPSCQueue α) α Failure)
    (h : Consistent s) :
    ((observed α).step op s).map abstraction = (fifoObserved α).step op (abstraction s) := by
  have hsim := WellFormed.perform_simulates h op
  simp only [observed,fifoObserved,observe,abstraction,← hsim,Option.map_map]
  cases hop : s.queue.perform op with
  | none => rfl
  | some r =>
    have hwf : r.1.WellFormed (max s.peak r.1.size) := WellFormed.perform_wellFormed h hop
    simp [abstraction,toFifo,hwf.size_eq]

theorem depthMetric_step {q q' : SPSCQueue α} {op : Operation α Failure}
    {r : Response α Failure} (hop : q.perform op = some (q',r)) :
    q'.depthMetric.isSome = q.depthMetric.isSome := by
  have htake : ∀ {p : SPSCQueue α} {v : Except Failure (Option α)},
      q.takeHead = some (p,v) → p.depthMetric.isSome = q.depthMetric.isSome := by
    intro p v htake
    unfold takeHead at htake
    split at htake
    · obtain ⟨rfl,-⟩ := Prod.mk.inj (Option.some.inj htake)
      simp
    · cases htake
  cases op with
  | push v =>
    obtain ⟨⟨p,r'⟩,hpush,heq⟩ := Option.map_eq_some_iff.mp hop
    obtain ⟨rfl,-⟩ := Prod.mk.inj heq
    unfold push at hpush
    split at hpush
    · obtain ⟨rfl,-⟩ := Prod.mk.inj (Option.some.inj hpush); rfl
    · obtain ⟨rfl,-⟩ := Prod.mk.inj (Option.some.inj hpush); rfl
    · split at hpush
      · split at hpush
        · obtain ⟨rfl,-⟩ := Prod.mk.inj (Option.some.inj hpush)
          simp
        · cases hpush
      · cases hpush
  | pop =>
    obtain ⟨⟨p,r'⟩,hpop,heq⟩ := Option.map_eq_some_iff.mp hop
    obtain ⟨rfl,-⟩ := Prod.mk.inj heq
    unfold pop at hpop
    split at hpop
    · obtain ⟨rfl,-⟩ := Prod.mk.inj (Option.some.inj hpop); rfl
    · split at hpop
      · obtain ⟨rfl,-⟩ := Prod.mk.inj (Option.some.inj hpop); rfl
      · exact htake hpop
    · split at hpop
      · cases hpop
      · exact htake hpop
  | close =>
    obtain ⟨rfl,-⟩ := Prod.mk.inj (Option.some.inj hop)
    unfold close
    split <;> rfl
  | fail failure =>
    cases failure with
    | none =>
      obtain ⟨rfl,-⟩ := Prod.mk.inj (Option.some.inj hop)
      rfl
    | some failure =>
      cases hstate : q.state <;> simp only [perform,fail,hstate,Option.some.injEq,Prod.mk.injEq] at hop
      all_goals
        obtain ⟨rfl,-⟩ := hop
        simp [discardQueuedValues]

/-- The ring, life state, history and gauge of a queue that was made with this capacity
and this gauge. -/
structure RingContract (capacity : ℕ) (depth : Option Gauge)
    (s : Observed (SPSCQueue α) α Failure) : Prop where
  slots_length : s.queue.slots.length = capacity
  size_le : s.queue.size ≤ capacity
  tail_eq : s.queue.tail = (s.queue.head+s.queue.size)%capacity
  occupied_iff : ∀ i < capacity, (∃ v, s.queue.slots[i]? = some (some v)) ↔
    ∃ j < s.queue.size, i = (s.queue.head+j)%capacity
  push_true_iff : ∀ v, (∃ q, s.queue.push v = some (q,.ok true)) ↔
    s.queue.state = .opened ∧ s.queue.size < capacity
  push_appends : ∀ v q, s.queue.push v = some (q,.ok true) →
    q.contents = s.queue.contents++[v]
  push_false_iff : ∀ v, (∃ q, s.queue.push v = some (q,.ok false)) ↔ s.queue.state = .closed
  popped_prefix : poppedValues s.history <+: pushedValues s.history
  none_lost : (∀ failure, s.queue.state ≠ .failed failure) →
    pushedValues s.history = poppedValues s.history ++ s.queue.contents
  close_keeps : s.queue.close.contents = s.queue.contents
  pop_none_iff : (∃ q, s.queue.pop = some (q,.ok none)) ↔
    s.queue.state = .closed ∧ s.queue.contents = []
  fail_drops : ∀ failure q dropped, (∀ first, s.queue.state ≠ .failed first) →
    s.queue.fail (some failure) = .ok (q,dropped) →
      dropped.Perm s.queue.contents ∧ q.contents = [] ∧ q.state = .failed failure
  fail_keeps_first : ∀ failure first, s.queue.state = .failed first →
    s.queue.fail (some failure) = .ok (s.queue,[])
  failed_throws : ∀ first, s.queue.state = .failed first → ∀ ops t,
    (observed α).exec s ops = some t → t.queue.state = .failed first ∧
      (∀ v, t.queue.push v = some (t.queue,.error first)) ∧
      t.queue.pop = some (t.queue,.error first)
  gauge_kept : s.queue.depthMetric.isSome = depth.isSome
  gauge_shows : ∀ g, s.queue.depthMetric = some g →
    g.current = s.queue.size ∧ g.highWatermark = s.peak

theorem failed_step {s t : Observed (SPSCQueue α) α Failure} {op : Operation α Failure}
    {first : Failure} (h : Consistent s) (hfailed : s.queue.state = .failed first)
    (hstep : (observed α).step op s = some t) : t.queue.state = .failed first := by
  simp only [observed,observe,Option.map_eq_some_iff] at hstep
  obtain ⟨⟨q,r⟩,hop,rfl⟩ := hstep
  have hsim := WellFormed.perform_simulates h op
  rw [hop,Option.map_some] at hsim
  have hsame : q.toFifo = s.queue.toFifo := perform_failed hfailed hsim.symm
  have hlife : q.state = s.queue.state := congrArg BoundedFifo.life hsame
  exact hlife.trans hfailed

theorem failed_run {s t : Observed (SPSCQueue α) α Failure} {ops : List (Operation α Failure)}
    {first : Failure} (h : Consistent s) (hfailed : s.queue.state = .failed first)
    (hrun : (observed α).exec s ops = some t) : t.queue.state = .failed first := by
  have hboth : Consistent t ∧ t.queue.state = .failed first :=
    @TransitionSystem.exec_invariant _ _ (observed α) (fun _ => True)
      (fun u => Consistent u ∧ u.queue.state = .failed first)
      (fun op u w _ hu hstep => ⟨consistent_step op u w hu.1 hstep,failed_step hu.1 hu.2 hstep⟩)
      s t ops (by simp) ⟨h,hfailed⟩ hrun
  exact hboth.2

theorem WellFormed.push_true_iff {q : SPSCQueue α} {peak : ℕ} (h : q.WellFormed peak) (v : α) :
    (∃ q', q.push v = some (q',.ok true)) ↔ q.state = .opened ∧ q.size < q.slots.length := by
  constructor
  · rintro ⟨q',hpush⟩
    have hsim := h.push_simulates v
    rw [hpush,Option.map_some] at hsim
    rcases push_cases hsim.symm with ⟨-,hopen,hlt,-⟩ | ⟨hr,-,-⟩ | ⟨_,hr,-,-⟩
    · exact ⟨hopen,h.size_eq ▸ hlt⟩
    · cases hr
    · cases hr
  · rintro ⟨hopen,hlt⟩
    obtain ⟨q',hpush,-⟩ := h.push_opened hopen hlt v
    exact ⟨q',hpush⟩

theorem WellFormed.push_appends {q q' : SPSCQueue α} {peak : ℕ} {v : α} (h : q.WellFormed peak)
    (hpush : q.push v = some (q',.ok true)) : q'.contents = q.contents++[v] := by
  obtain ⟨hopen,hlt⟩ := (h.push_true_iff v).mp ⟨q',hpush⟩
  obtain ⟨q'',hpush',-,-,hcontents,-⟩ := h.push_opened hopen hlt v
  obtain ⟨rfl,-⟩ := Prod.mk.inj (Option.some.inj (hpush.symm.trans hpush'))
  exact hcontents

theorem WellFormed.push_false_iff {q : SPSCQueue α} {peak : ℕ} (h : q.WellFormed peak) (v : α) :
    (∃ q', q.push v = some (q',.ok false)) ↔ q.state = .closed := by
  constructor
  · rintro ⟨q',hpush⟩
    have hsim := h.push_simulates v
    rw [hpush,Option.map_some] at hsim
    rcases push_cases hsim.symm with ⟨hr,-⟩ | ⟨-,hclosed,-⟩ | ⟨_,hr,-⟩
    · cases hr
    · exact hclosed
    · cases hr
  · intro hclosed
    exact ⟨q,by simp [push,hclosed]⟩

theorem WellFormed.pop_none_iff {q : SPSCQueue α} {peak : ℕ} (h : q.WellFormed peak) :
    (∃ q', q.pop = some (q',.ok none)) ↔ q.state = .closed ∧ q.contents = [] := by
  constructor
  · rintro ⟨q',hpop⟩
    have hsim := h.pop_simulates
    rw [hpop,Option.map_some] at hsim
    rcases pop_cases hsim.symm with ⟨_,_,hr,-⟩ | ⟨-,hclosed,hempty,-⟩ | ⟨_,hr,-⟩
    · cases hr
    · exact ⟨hclosed,hempty⟩
    · cases hr
  · rintro ⟨hclosed,hempty⟩
    have hzero : q.size = 0 := by rw [← h.size_eq,hempty]; rfl
    exact ⟨q,by simp [pop,hclosed,hzero]⟩

theorem WellFormed.fail_drops {q q' : SPSCQueue α} {peak : ℕ} {failure : Failure}
    {dropped : List α} (h : q.WellFormed peak) (hlive : ∀ first, q.state ≠ .failed first)
    (hfail : q.fail (some failure) = .ok (q',dropped)) :
    dropped.Perm q.contents ∧ q'.contents = [] ∧ q'.state = .failed failure := by
  obtain ⟨p,dropped',hfail',hfifo,-,hperm⟩ := h.fail_simulates failure
  obtain ⟨rfl,rfl⟩ := Prod.mk.inj (Except.ok.inj (hfail.symm.trans hfail'))
  rw [@fail_of_live _ _ q.toFifo hlive] at hfifo
  refine ⟨?_,congrArg BoundedFifo.items hfifo,congrArg BoundedFifo.life hfifo⟩
  cases hstate : q.state with
  | failed first => exact absurd hstate (hlive first)
  | opened => simpa [hstate] using hperm
  | closed => simpa [hstate] using hperm

/-- The ring queue refines the bounded queue: its runs are the bounded queue's runs, and
its state stays consistent with what has been pushed and popped. -/
theorem ring_simulates_fifo [SlotSize α] {capacity : ℕ} {depth : Option Gauge} {q₀ : SPSCQueue α}
    (hmake : make α capacity depth = .ok q₀) :
    (∀ ops, ((observed α).exec ⟨q₀,[],0⟩ ops).map abstraction =
      (fifoObserved α).exec ⟨⟨capacity,[],.opened⟩,[],0⟩ ops) ∧
    ∀ ops s, (observed α).exec ⟨q₀,[],0⟩ ops = some s → RingContract capacity depth s := by
  obtain ⟨hmade,hlen₀,hempty₀,hopen₀,hdepth₀⟩ := make_wellFormed hmake
  have hwf₀ : Consistent ⟨q₀,[],0⟩ := hmade
  have hstart : abstraction ⟨q₀,[],0⟩ = ⟨⟨capacity,[],.opened⟩,[],0⟩ := by
    simp [abstraction,toFifo,hlen₀,hempty₀,hopen₀]
  have hsim : ∀ ops, ((observed α).exec ⟨q₀,[],0⟩ ops).map abstraction =
      (fifoObserved α).exec ⟨⟨capacity,[],.opened⟩,[],0⟩ ops := by
    intro ops
    rw [← hstart]
    exact TransitionSystem.exec_map consistent_step abstraction_step hwf₀ ops
  refine ⟨hsim,fun ops s hrun => ?_⟩
  have hwf : Consistent s :=
    @TransitionSystem.exec_invariant _ _ (observed α) (fun _ => True) Consistent
      (fun op u w _ hu hstep => consistent_step op u w hu hstep) _ s ops (by simp) hwf₀ hrun
  have hfifo := hsim ops
  rw [hrun,Option.map_some] at hfifo
  have hacc : Accounted (abstraction s) :=
    @TransitionSystem.exec_invariant _ _ (fifoObserved α) (fun _ => True) Accounted
      (fun op u w _ hu hstep => accounted_step hu hstep) _ _ ops (by simp)
      ⟨⟨[],rfl,fun _ => rfl⟩,by simp,by simp⟩ hfifo.symm
  have hcap : s.queue.slots.length = capacity :=
    @TransitionSystem.exec_invariant _ _ (fifoObserved α) (fun _ => True)
      (fun u => u.queue.capacity = capacity)
      (fun op u w _ hu hstep => by
        simp only [fifoObserved,observe,Option.map_eq_some_iff] at hstep
        obtain ⟨⟨q,r⟩,hop,rfl⟩ := hstep
        exact (perform_capacity hop).trans hu) _ _ ops (by simp) rfl hfifo.symm
  have hgauge : s.queue.depthMetric.isSome = depth.isSome :=
    @TransitionSystem.exec_invariant _ _ (observed α) (fun _ => True)
      (fun u => u.queue.depthMetric.isSome = depth.isSome)
      (fun op u w _ hu hstep => by
        simp only [observed,observe,Option.map_eq_some_iff] at hstep
        obtain ⟨⟨q,r⟩,hop,rfl⟩ := hstep
        exact (depthMetric_step hop).trans hu) _ s ops (by simp) (by rw [hdepth₀]) hrun
  obtain ⟨dropped,hpushed,hlive⟩ := hacc.accounted
  subst hcap
  exact {
    slots_length := rfl
    size_le := hwf.size_le
    tail_eq := hwf.tail_eq
    occupied_iff := fun i hi => by
      rw [hwf.holds.occupied_iff hi,hwf.size_eq]
    push_true_iff := hwf.push_true_iff
    push_appends := fun v q hpush => hwf.push_appends hpush
    push_false_iff := hwf.push_false_iff
    popped_prefix := ⟨s.queue.contents++dropped,by
      simpa [abstraction,toFifo,List.append_assoc] using hpushed.symm⟩
    none_lost := fun hnf => by
      obtain rfl := hlive hnf
      simpa [abstraction,toFifo] using hpushed
    close_keeps := close_contents s.queue
    pop_none_iff := hwf.pop_none_iff
    fail_drops := fun failure q dropped hnf hfail => hwf.fail_drops hnf hfail
    fail_keeps_first := fun failure first hfailed => by simp [fail,hfailed]
    failed_throws := fun first hfailed ops' t hrun' => by
      have ht := failed_run hwf hfailed hrun'
      exact ⟨ht,fun v => by simp [push,ht],by simp [pop,ht]⟩
    gauge_kept := hgauge
    gauge_shows := hwf.gauge_shows }

/-- Two slots, a wrapped tail and a gauge. -/
theorem ring_simulates_fifo_wrapped :
    RingContract 2 (some Gauge.zero) (⟨⟨[some 30,some 20],1,1,2,.opened,some ⟨2,2⟩⟩,
      [(.push 10,.pushed (.ok true)),(.push 20,.pushed (.ok true)),(.pop,.popped (.ok (some 10))),
        (.push 30,.pushed (.ok true))],2⟩ : Observed (SPSCQueue ℕ) ℕ Failure) := by
  have hmake : make ℕ 2 (some Gauge.zero) =
      .ok ⟨List.replicate 2 none,0,0,0,.opened,some Gauge.zero⟩ := by
    simp [make,maxCapacity,ptrdiffMax,SlotSize.bytes,Gauge.zero]
  exact (ring_simulates_fifo hmake).2 [.push 10,.push 20,.pop,.push 30] _ rfl

end SPSCQueue
end AsyncDataLoader
