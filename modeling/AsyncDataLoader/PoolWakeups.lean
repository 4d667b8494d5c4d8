import AsyncDataLoader.AlignedBufferPool
import AsyncDataLoader.ConditionVariable
import AsyncDataLoader.Population
import AsyncDataLoader.TransitionSystem

/-!
# The wakeups of a pool

The critical sections of `AlignedBufferPool` and the notification that follows a release, as steps
of any number of threads. A buffer may be taken by another thread before a thread that was woken
for it has the mutex again.
-/

namespace AsyncDataLoader

/-- Where a thread is. -/
inductive PoolPlace
  | idle
  | acquiring -- before the critical section of acquire
  | waiting -- parked in available_cv_
  | woken -- before it looks at the predicate again
  | notifying -- available_cv_.notify_one()
  deriving DecidableEq

/-- `held` are the indices of the handles that exist, whoever has them. -/
structure PoolMonitor (ι : Type*) where
  pool : AlignedBufferPool
  available : CondVar ι
  place : ι → PoolPlace
  held : List ℕ

/-- `woken` is the thread that a notification or a spurious wakeup reaches. -/
inductive PoolAction (ι : Type*)
  | callAcquire (t : ι)
  | enterAcquire (t : ι)
  | tryAcquire (t : ι)
  | release (t : ι) (index : ℕ)
  | notifyOne (t : ι) (woken : Option ι)
  | wakeSpuriously (woken : ι)

namespace PoolMonitor

variable {ι : Type*} [DecidableEq ι]

def start (ι : Type*) (pool : AlignedBufferPool) : PoolMonitor ι :=
  ⟨pool,.empty ι,fun _ => .idle,[]⟩

def move (s : PoolMonitor ι) (t : ι) (place : PoolPlace) : PoolMonitor ι :=
  { s with place := Function.update s.place t place }

def takeAvailable (s : PoolMonitor ι) : Option (PoolMonitor ι) :=
  s.pool.acquire.map fun (pool,index) => { s with pool := pool, held := index::s.held }

/-- The critical section of `acquire`, up to its end or to the wait in it. -/
def enterAcquire (s : PoolMonitor ι) (t : ι) : Option (PoolMonitor ι) :=
  if s.pool.availableIndices = [] then
    some { s.move t .waiting with available := s.available.wait t }
  else s.takeAvailable.map fun s => s.move t .idle

def step (s : PoolMonitor ι) : PoolAction ι → Option (PoolMonitor ι)
  | .callAcquire t => if s.place t = .idle then some (s.move t .acquiring) else none
  | .enterAcquire t =>
    if s.place t = .acquiring ∨ s.place t = .woken then s.enterAcquire t else none
  | .tryAcquire t =>
    if s.place t = .idle then
      if s.pool.availableIndices = [] then some s -- std::nullopt
      else s.takeAvailable
    else none
  | .release t index =>
    if s.place t = .idle ∧ index ∈ s.held then
      (s.pool.release index).map fun pool =>
        { s.move t .notifying with pool := pool, held := s.held.erase index }
    else none
  | .notifyOne t woken =>
    if s.place t = .notifying then
      (s.available.notifyOne woken).map fun available =>
        match woken with
        | some u => { (s.move t .idle).move u .woken with available := available }
        | none => { s.move t .idle with available := available }
    else none
  | .wakeSpuriously u => (s.available.wake u).map fun available =>
    { s.move u .woken with available := available }

end PoolMonitor

def poolMonitorSystem (ι : Type*) [DecidableEq ι] :
    TransitionSystem (PoolAction ι) (PoolMonitor ι) where
  step action s := s.step action

namespace AlignedBufferPool

variable {pool pool' : AlignedBufferPool} {index : ℕ}

theorem acquire_available (h : pool.acquire = some (pool',index)) :
    pool'.availableIndices.length+1 = pool.availableIndices.length := by
  unfold acquire at h
  split at h
  · cases h
  · rename_i hlast
    split at h
    · obtain ⟨rfl,-⟩ := Prod.mk.inj (Option.some.inj h)
      have hne : pool.availableIndices ≠ [] := by
        intro hnil
        rw [hnil] at hlast
        cases hlast
      have hpos := List.length_pos_of_ne_nil hne
      simp only [List.length_dropLast]
      omega
    · cases h

theorem release_available (h : pool.release index = some pool') :
    pool'.availableIndices.length = pool.availableIndices.length+1 := by
  unfold release at h
  split at h
  · obtain rfl := Option.some.inj h
    simp
  · cases h

end AlignedBufferPool

theorem AlignedBufferPool.Leased.acquire_isSome {pool : AlignedBufferPool} {held : List ℕ}
    (h : pool.Leased held) (hne : pool.availableIndices ≠ []) : ∃ r, pool.acquire = some r := by
  unfold AlignedBufferPool.acquire
  split
  · rename_i hnone
    exact absurd (List.getLast?_eq_none_iff.mp hnone) hne
  · rename_i index hindex
    have hmem : index ∈ pool.availableIndices := List.mem_of_getLast? hindex
    have hlt := (h.balanced.mem_iff index).mp (.inr hmem)
    have hnot : index ∉ held := fun hheld =>
      List.disjoint_of_nodup_append h.balanced.nodup hheld hmem
    rw [if_pos (h.not_inUse hlt hnot)]
    exact ⟨_,rfl⟩

namespace PoolMonitor

def weight : PoolPlace → ℕ
  | .notifying => 1
  | .woken => 1
  | _ => 0

section

variable {ι : Type*} [Fintype ι]

/-- The notifications that are still to come, and the threads that have been woken and have not
looked again. -/
def signals (s : PoolMonitor ι) : ℕ := population s.place .notifying+population s.place .woken

/-- While a thread is parked, each available buffer has a signal of its own. -/
structure Signalled (s : PoolMonitor ι) : Prop where
  leased : s.pool.Leased s.held
  nodup : s.available.parked.Nodup
  parked_iff : ∀ t, t ∈ s.available.parked ↔ s.place t = .waiting
  signals_ge : s.available.parked ≠ [] → s.pool.availableIndices.length ≤ s.signals

theorem signalled_start {pool : AlignedBufferPool} (h : pool.Leased []) :
    (start ι pool).Signalled :=
  ⟨h,.nil,by simp [start,CondVar.empty],fun hne => absurd rfl hne⟩

end

variable {ι : Type*} [DecidableEq ι] {s : PoolMonitor ι} {t u : ι} {q : PoolPlace}

theorem move_self (hplace : s.place t = q) : s.move t q = s := by
  rw [move,← hplace,Function.update_eq_self]

theorem mem_parked_move (h : ∀ v, v ∈ s.available.parked ↔ s.place v = .waiting)
    (hold : s.place t ≠ .waiting) (hnew : q ≠ .waiting) (v : ι) :
    v ∈ s.available.parked ↔ (s.move t q).place v = .waiting := by
  rw [h v]
  change _ ↔ Function.update s.place t q v = .waiting
  by_cases hv : v = t
  · subst hv
    rw [Function.update_self]
    exact iff_of_false hold hnew
  · rw [Function.update_of_ne hv]

theorem mem_parked_wake {available : CondVar ι} (hnodup : s.available.parked.Nodup)
    (h : ∀ v, v ∈ s.available.parked ↔ s.place v = .waiting)
    (hwake : s.available.wake u = some available) :
    s.place u = .waiting ∧ available.parked.Nodup ∧ s.available.parked ≠ [] ∧
      ∀ v, v ∈ available.parked ↔ (s.move u .woken).place v = .waiting := by
  unfold CondVar.wake at hwake
  split at hwake
  · rename_i hmem
    obtain rfl := Option.some.inj hwake
    refine ⟨(h u).mp hmem,hnodup.erase u,List.ne_nil_of_mem hmem,fun v => ?_⟩
    rw [hnodup.mem_erase_iff,h v]
    change _ ↔ Function.update s.place u .woken v = .waiting
    by_cases hv : v = u
    · subst hv
      rw [Function.update_self]
      simp
    · rw [Function.update_of_ne hv]
      exact and_iff_right hv
  · cases hwake

variable [Fintype ι]

theorem signals_move (s : PoolMonitor ι) (t : ι) (q : PoolPlace) :
    (s.move t q).signals+weight (s.place t) = s.signals+weight q := by
  have hnotifying := population_update s.place t q .notifying
  have hwoken := population_update s.place t q .woken
  unfold signals move
  cases hplace : s.place t <;> cases q <;>
    simp only [hplace,weight,reduceCtorEq,if_true,if_false] at hnotifying hwoken ⊢ <;> omega

/-- A thread goes from one place to another and neither parks nor is woken. It leaves no buffer
without a signal when it takes its buffer along, or brings a signal for the one it returns. -/
theorem Signalled.move (h : s.Signalled) (q : PoolPlace) (hold : s.place t ≠ .waiting) (hnew : q ≠ .waiting)
    {pool : AlignedBufferPool} {held : List ℕ} (hleased : pool.Leased held)
    (hcount : pool.availableIndices.length+weight (s.place t) ≤
      s.pool.availableIndices.length+weight q) :
    Signalled { s.move t q with pool := pool, held := held } := by
  refine ⟨hleased,h.nodup,mem_parked_move h.parked_iff hold hnew,fun hparked => ?_⟩
  have hge := h.signals_ge hparked
  have hmove := s.signals_move t q
  change pool.availableIndices.length ≤ (s.move t q).signals
  omega

theorem Signalled.park (h : s.Signalled) (hold : s.place t ≠ .waiting)
    (hempty : s.pool.availableIndices = []) :
    Signalled { s.move t .waiting with available := s.available.wait t } := by
  have hnot : t ∉ s.available.parked := fun hmem => hold ((h.parked_iff t).mp hmem)
  refine ⟨h.leased,List.nodup_cons.mpr ⟨hnot,h.nodup⟩,fun v => ?_,fun _ => ?_⟩
  · by_cases hv : v = t
    · subst hv
      simp [CondVar.wait,PoolMonitor.move]
    · simp [CondVar.wait,PoolMonitor.move,hv,h.parked_iff v]
  · change s.pool.availableIndices.length ≤ _
    rw [hempty]
    exact Nat.zero_le _

theorem Signalled.wakeSpuriously (h : s.Signalled) {available : CondVar ι}
    (hwake : s.available.wake u = some available) :
    Signalled { s.move u .woken with available := available } := by
  obtain ⟨hplace,hnodup,hparked,hiff⟩ := mem_parked_wake h.nodup h.parked_iff hwake
  refine ⟨h.leased,hnodup,hiff,fun _ => ?_⟩
  have hge := h.signals_ge hparked
  have hmove := s.signals_move u .woken
  rw [hplace] at hmove
  change s.pool.availableIndices.length ≤ (s.move u .woken).signals
  simp only [weight] at hmove
  omega

theorem Signalled.notifyOne (h : s.Signalled) (hplace : s.place t = .notifying)
    {available : CondVar ι} (hwake : s.available.wake u = some available) :
    Signalled { (s.move t .idle).move u .woken with available := available } := by
  have hold : s.place t ≠ .waiting := by rw [hplace]; nofun
  have hmoved := mem_parked_move h.parked_iff hold (q := .idle) nofun
  obtain ⟨hwaiting,hnodup,hparked,hiff⟩ := @mem_parked_wake ι _ (s.move t .idle) u available
    h.nodup hmoved hwake
  refine ⟨h.leased,hnodup,hiff,fun _ => ?_⟩
  have hge := h.signals_ge hparked
  have hleave := s.signals_move t .idle
  have henter := (s.move t .idle).signals_move u .woken
  rw [hplace] at hleave
  rw [hwaiting] at henter
  change s.pool.availableIndices.length ≤ ((s.move t .idle).move u .woken).signals
  simp only [weight] at hleave henter
  omega

theorem Signalled.take (h : s.Signalled) (hold : s.place t ≠ .waiting) {s' : PoolMonitor ι}
    (htake : s.takeAvailable = some s') : (s'.move t .idle).Signalled := by
  obtain ⟨⟨pool,index⟩,hacquire,rfl⟩ := Option.map_eq_some_iff.mp htake
  have hleased := (h.leased.acquire hacquire).1
  refine h.move .idle hold nofun hleased ?_
  have hcount := AlignedBufferPool.acquire_available hacquire
  have hweight : weight (s.place t) ≤ 1 := by cases s.place t <;> decide
  change pool.availableIndices.length+weight (s.place t) ≤ s.pool.availableIndices.length+0
  omega

theorem Signalled.enterAcquire (h : s.Signalled)
    (hplace : s.place t = .acquiring ∨ s.place t = .woken) {s' : PoolMonitor ι}
    (henter : s.enterAcquire t = some s') : s'.Signalled := by
  have hold : s.place t ≠ .waiting := by
    intro hwaiting
    rw [hwaiting] at hplace
    exact hplace.elim nofun nofun
  unfold PoolMonitor.enterAcquire at henter
  split at henter
  · rename_i hempty
    obtain rfl := Option.some.inj henter
    exact h.park hold hempty
  · obtain ⟨taken,htake,rfl⟩ := Option.map_eq_some_iff.mp henter
    exact h.take hold htake

theorem Signalled.release (h : s.Signalled) {index : ℕ} (hplace : s.place t = .idle)
    (hheld : index ∈ s.held) {pool : AlignedBufferPool} (hrelease : s.pool.release index = some pool) :
    Signalled { s.move t .notifying with pool := pool, held := s.held.erase index } := by
  have hleased := h.leased.released (List.perm_cons_erase hheld) hrelease
  refine h.move .notifying (by rw [hplace]; nofun) nofun hleased ?_
  rw [AlignedBufferPool.release_available hrelease,hplace]
  exact Nat.le_refl _

theorem Signalled.step (h : s.Signalled) {action : PoolAction ι} {s' : PoolMonitor ι}
    (hstep : s.step action = some s') : s'.Signalled := by
  cases action with
  | callAcquire t =>
    obtain ⟨hplace,hsome⟩ := Option.ite_none_right_eq_some.mp hstep
    obtain rfl := Option.some.inj hsome
    exact h.move .acquiring (by rw [hplace]; nofun) nofun h.leased
      (by rw [hplace]; exact Nat.le_refl _)
  | enterAcquire t =>
    obtain ⟨hplace,henter⟩ := Option.ite_none_right_eq_some.mp hstep
    exact h.enterAcquire hplace henter
  | tryAcquire t =>
    obtain ⟨hplace,htry⟩ := Option.ite_none_right_eq_some.mp hstep
    split at htry
    · obtain rfl := Option.some.inj htry
      exact h
    · have htaken := h.take (t := t) (by rw [hplace]; nofun) htry
      obtain ⟨_,-,rfl⟩ := Option.map_eq_some_iff.mp htry
      rwa [move_self (by exact hplace)] at htaken
  | release t index =>
    obtain ⟨⟨hplace,hheld⟩,hmap⟩ := Option.ite_none_right_eq_some.mp hstep
    obtain ⟨pool,hrelease,rfl⟩ := Option.map_eq_some_iff.mp hmap
    exact h.release hplace hheld hrelease
  | notifyOne t woken =>
    obtain ⟨hplace,hmap⟩ := Option.ite_none_right_eq_some.mp hstep
    obtain ⟨available,hnotify,rfl⟩ := Option.map_eq_some_iff.mp hmap
    cases woken with
    | some u => exact h.notifyOne hplace hnotify
    | none =>
      -- nobody is parked, so the signal is not needed
      obtain ⟨hnobody,hsame⟩ := Option.ite_none_right_eq_some.mp hnotify
      obtain rfl := Option.some.inj hsame
      have hold : s.place t ≠ .waiting := by rw [hplace]; nofun
      exact ⟨h.leased,h.nodup,mem_parked_move h.parked_iff hold nofun,
        fun hparked => absurd hnobody hparked⟩
  | wakeSpuriously u =>
    obtain ⟨available,hwake,rfl⟩ := Option.map_eq_some_iff.mp hstep
    exact h.wakeSpuriously hwake

/-- Nobody is stuck in a critical section: no assertion of the pool fails, and a notification is
always delivered or has nobody to reach. -/
theorem Signalled.enabled (h : s.Signalled) :
    (∀ t, s.place t = .acquiring ∨ s.place t = .woken → (s.step (.enterAcquire t)).isSome) ∧
    (∀ t, s.place t = .idle → (s.step (.tryAcquire t)).isSome) ∧
    (∀ t, ∀ index ∈ s.held, s.place t = .idle → (s.step (.release t index)).isSome) ∧
    ∀ t, s.place t = .notifying → ∃ woken, (s.step (.notifyOne t woken)).isSome := by
  have htake : s.pool.availableIndices ≠ [] → s.takeAvailable.isSome := by
    intro hne
    obtain ⟨r,hr⟩ := h.leased.acquire_isSome hne
    rw [takeAvailable,hr]
    rfl
  refine ⟨fun t hplace => ?_,fun t hplace => ?_,fun t index hheld hplace => ?_,fun t hplace => ?_⟩
  · simp only [PoolMonitor.step,if_pos hplace,PoolMonitor.enterAcquire]
    split
    · rfl
    · rename_i hne
      simpa using htake hne
  · simp only [PoolMonitor.step,if_pos hplace]
    split
    · rfl
    · rename_i hne
      exact htake hne
  · obtain ⟨pool,hrelease,-⟩ := (h.leased.of_perm (List.perm_cons_erase hheld)).release
    simp [PoolMonitor.step,hplace,hheld,hrelease]
  · cases hparked : s.available.parked with
    | nil => exact ⟨none,by simp [PoolMonitor.step,hplace,CondVar.notifyOne,hparked]⟩
    | cons u others =>
      exact ⟨some u,by simp [PoolMonitor.step,hplace,CondVar.notifyOne,CondVar.wake,hparked]⟩

theorem reachable_signalled {config : PipelineConfig} {inflightBuffers : Option Gauge}
    {memory : ℕ → ℕ → UInt8} {pool : AlignedBufferPool}
    (hmake : AlignedBufferPool.make config inflightBuffers memory = .ok pool)
    (hs : (poolMonitorSystem ι).Reachable (start ι pool) s) : s.Signalled :=
  @TransitionSystem.Reachable.invariant _ _ (poolMonitorSystem ι) Signalled
    (fun _ _ _ hu hstep => hu.step hstep) _ _
    (signalled_start (AlignedBufferPool.make_leased hmake).1) hs

end PoolMonitor

open PoolMonitor in
/-- While a thread is parked in `acquire`, every available buffer has a notification that is still
to come, or a thread that has been woken and will look again. -/
theorem acquire_no_lost_wakeup {ι : Type*} [Fintype ι] [DecidableEq ι] {config : PipelineConfig}
    {inflightBuffers : Option Gauge} {memory : ℕ → ℕ → UInt8} {pool : AlignedBufferPool}
    (hmake : AlignedBufferPool.make config inflightBuffers memory = .ok pool) {s : PoolMonitor ι}
    (hs : (poolMonitorSystem ι).Reachable (start ι pool) s)
    (hparked : s.available.parked ≠ []) :
    s.pool.availableIndices.length ≤ population s.place .notifying+population s.place .woken :=
  (reachable_signalled hmake hs).signals_ge hparked

/-- A thread waits for the only buffer, and the other gives it back. -/
def PoolAction.giveBack : List (PoolAction Bool) :=
  [.tryAcquire true,.callAcquire false,.enterAcquire false,.release true 0]

theorem acquire_no_lost_wakeup_giveBack : ∃ s,
    (poolMonitorSystem Bool).exec (.start Bool ⟨[List.replicate 8 0],[0],[false],none⟩)
      PoolAction.giveBack = some s ∧
    s.available.parked = [false] ∧ s.pool.availableIndices = [0] ∧
    s.pool.availableIndices.length ≤ population s.place .notifying+population s.place .woken :=
  ⟨_,rfl,rfl,rfl,@acquire_no_lost_wakeup Bool _ _ ⟨8,1,1,8⟩ none (fun _ _ => 0)
    ⟨[List.replicate 8 0],[0],[false],none⟩ rfl _ ⟨PoolAction.giveBack,rfl⟩
    (List.cons_ne_nil _ _)⟩

end AsyncDataLoader
