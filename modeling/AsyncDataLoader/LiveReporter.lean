import AsyncDataLoader.DemoOptions
import AsyncDataLoader.TransitionSystem

/-!
# The pace of the live reporter

The worker of `LiveTerminalReporter`, the steady clock and a thread that asks it to stop, step by
step. The deadline of a wait is computed in signed 64-bit nanoseconds, where an overflow wraps.
-/

namespace AsyncDataLoader

inductive ReporterPlace
  | testing -- while (!stop_token.stop_requested())
  | entering -- wakeup_.wait_for
  | waiting (deadline : ℤ)
  | woken -- if (stop_token.stop_requested())
  | unlocked -- before print_once
  | printing
  | ended
  deriving DecidableEq

/-- `interval` is in milliseconds; `clock` and `previous`, the end of the previous print, are in
nanoseconds of the steady clock. -/
structure LiveTerminalReporter where
  interval : ℤ
  clock : ℤ
  stopRequested : Bool
  place : ReporterPlace
  previous : Option ℤ
  deriving DecidableEq

inductive ReporterAction
  | tick (d : ℕ)
  | requestStop
  | test
  | wait
  | wake -- a timeout, a notification or a spurious wakeup
  | check
  | beginPrint
  | endPrint (thrown : Bool)
  deriving DecidableEq

namespace LiveTerminalReporter

def toNanoseconds (milliseconds : ℤ) : ℤ := wrapInt64 (milliseconds*1000000)

/-- `Clock::now() + interval_` in `wait_for` -/
def deadline (now interval : ℤ) : ℤ := wrapInt64 (now+toNanoseconds interval)

def DeadlineFits (now interval : ℤ) : Prop :=
  (-2^63 ≤ interval*1000000 ∧ interval*1000000 ≤ int64Max) ∧
    -2^63 ≤ now+toNanoseconds interval ∧ now+toNanoseconds interval ≤ int64Max

/-- The constructor starts the worker if there is an interval. The argument is the number that
`std::chrono::milliseconds` is constructed from. -/
def construct (intervalMs : ℕ) (clock : ℤ) : LiveTerminalReporter :=
  let interval := wrapInt64 intervalMs
  { interval := interval, clock := clock, stopRequested := false,
    place := if interval > 0 then .testing else .ended, previous := none }

def step (s : LiveTerminalReporter) : ReporterAction → Option LiveTerminalReporter
  | .tick d => if s.clock+d ≤ int64Max then some { s with clock := s.clock+d } else none
  | .requestStop => some { s with stopRequested := true }
  | .test =>
    if s.place = .testing then
      some { s with place := if s.stopRequested then .ended else .entering }
    else none
  | .wait =>
    if s.place = .entering then some { s with place := .waiting (deadline s.clock s.interval) }
    else none
  | .wake =>
    match s.place with
    -- The predicate of the wait is never true.
    | .waiting deadline =>
      if deadline ≤ s.clock ∨ s.stopRequested then some { s with place := .woken } else some s
    | _ => none
  | .check =>
    if s.place = .woken then
      some { s with place := if s.stopRequested then .ended else .unlocked }
    else none
  | .beginPrint => if s.place = .unlocked then some { s with place := .printing } else none
  | .endPrint thrown =>
    if s.place = .printing then
      if thrown then some { s with place := .ended } -- catch (...)
      else some { s with place := .testing, previous := some s.clock }
    else none

end LiveTerminalReporter

def reporterSystem : TransitionSystem ReporterAction LiveTerminalReporter where
  step action s := s.step action

namespace LiveTerminalReporter

variable {s s' : LiveTerminalReporter} {now interval : ℤ} {action : ReporterAction}

theorem deadlineFits_iff (hnow : 0 ≤ now) (hinterval : 0 ≤ interval) :
    DeadlineFits now interval ↔ now+interval*1000000 ≤ int64Max := by
  constructor
  · rintro ⟨⟨hlow,hhigh⟩,-,hsum⟩
    rwa [toNanoseconds,wrapInt64_eq hlow hhigh] at hsum
  · intro hfits
    have hhigh : interval*1000000 ≤ int64Max := by omega
    have hlow : -2^63 ≤ interval*1000000 := by omega
    rw [DeadlineFits,toNanoseconds,wrapInt64_eq hlow hhigh]
    exact ⟨⟨hlow,hhigh⟩,by omega,hfits⟩

theorem deadline_eq (hnow : 0 ≤ now) (hinterval : 0 ≤ interval)
    (hfits : now+interval*1000000 ≤ int64Max) : deadline now interval = now+interval*1000000 := by
  obtain ⟨⟨hlow,hhigh⟩,hsumLow,hsumHigh⟩ := (deadlineFits_iff hnow hinterval).mpr hfits
  rw [deadline,wrapInt64_eq hsumLow hsumHigh,toNanoseconds,wrapInt64_eq hlow hhigh]

/-- The interval has passed since the previous print, if there was one. -/
def Due (s : LiveTerminalReporter) : Prop :=
  ∀ p, s.previous = some p → p+s.interval*1000000 ≤ s.clock

/-- What holds between the prints. -/
structure Paced (interval : ℤ) (s : LiveTerminalReporter) : Prop where
  interval_eq : s.interval = interval
  clock_nonneg : 0 ≤ s.clock
  previous_le : ∀ p, s.previous = some p → p ≤ s.clock
  waiting : ∀ deadline, s.place = .waiting deadline →
    ∀ p, s.previous = some p → p+s.interval*1000000 ≤ deadline
  woken : s.place = .woken → s.stopRequested = true ∨ s.Due
  unlocked : s.place = .unlocked → s.Due

theorem Due.tick (h : s.Due) (d : ℕ) : Due { s with clock := s.clock+d } := by
  intro p hp
  have hdue := h p hp
  change p+s.interval*1000000 ≤ s.clock+d
  omega

theorem paced_construct (hnow : 0 ≤ now) {n : ℕ} (hn : (n : ℤ) ≤ int64Max) :
    Paced n (construct n now) := by
  have hinterval : wrapInt64 n = n := wrapInt64_eq (by omega) hn
  have hplace : (construct n now).place = if (n : ℤ) > 0 then .testing else .ended := by
    rw [construct,hinterval]
  refine ⟨hinterval,hnow,nofun,fun deadline hwaiting => ?_,fun hwoken => ?_,fun hunlocked => ?_⟩
  all_goals
    rw [hplace] at *
    split_ifs at *

theorem step_wake (hstep : s.step .wake = some s') :
    s' = s ∨ ∃ d, s.place = .waiting d ∧ (d ≤ s.clock ∨ s.stopRequested = true) ∧
      s' = { s with place := .woken } := by
  simp only [LiveTerminalReporter.step] at hstep
  split at hstep
  · rename_i d hplace
    split_ifs at hstep with hover
    · exact .inr ⟨d,hplace,hover,(Option.some.inj hstep).symm⟩
    · exact .inl (Option.some.inj hstep).symm
  · cases hstep

/-- Nothing but a wait whose deadline overflows breaks the pace. -/
theorem Paced.step (hinterval : 0 ≤ interval) (h : s.Paced interval)
    (hfits : action = .wait → s.clock+interval*1000000 ≤ int64Max)
    (hstep : s.step action = some s') : s'.Paced interval := by
  cases action with
  | tick d =>
    obtain ⟨-,hsome⟩ := Option.ite_none_right_eq_some.mp hstep
    obtain rfl := Option.some.inj hsome
    refine ⟨h.interval_eq,?_,fun p hp => ?_,h.waiting,fun hwoken => ?_,fun hunlocked => ?_⟩
    · have hclock := h.clock_nonneg
      change 0 ≤ s.clock+d
      omega
    · have hle := h.previous_le p hp
      change p ≤ s.clock+d
      omega
    · exact (h.woken hwoken).imp_right fun hdue => hdue.tick d
    · exact (h.unlocked hunlocked).tick d
  | requestStop =>
    obtain rfl := Option.some.inj hstep
    exact ⟨h.interval_eq,h.clock_nonneg,h.previous_le,h.waiting,fun _ => .inl rfl,h.unlocked⟩
  | test =>
    obtain ⟨-,hsome⟩ := Option.ite_none_right_eq_some.mp hstep
    obtain rfl := Option.some.inj hsome
    refine ⟨h.interval_eq,h.clock_nonneg,h.previous_le,?_,?_,?_⟩ <;> dsimp only <;>
      split_ifs <;> nofun
  | wait =>
    obtain ⟨-,hsome⟩ := Option.ite_none_right_eq_some.mp hstep
    obtain rfl := Option.some.inj hsome
    refine ⟨h.interval_eq,h.clock_nonneg,h.previous_le,fun d hd p hp => ?_,nofun,nofun⟩
    obtain rfl := ReporterPlace.waiting.inj hd
    have hle := h.previous_le p hp
    have hfits := hfits rfl
    rw [← h.interval_eq] at hfits hinterval
    rw [deadline_eq h.clock_nonneg hinterval hfits]
    change p+s.interval*1000000 ≤ s.clock+s.interval*1000000
    omega
  | wake =>
    obtain rfl | ⟨d,hplace,hover,rfl⟩ := step_wake hstep
    · exact h
    · refine ⟨h.interval_eq,h.clock_nonneg,h.previous_le,nofun,fun _ => ?_,nofun⟩
      refine hover.symm.imp_right fun hpassed p hp => ?_
      exact (h.waiting d hplace p hp).trans hpassed
  | check =>
    obtain ⟨hplace,hsome⟩ := Option.ite_none_right_eq_some.mp hstep
    obtain rfl := Option.some.inj hsome
    refine ⟨h.interval_eq,h.clock_nonneg,h.previous_le,?_,?_,fun hunlocked => ?_⟩
    · dsimp only
      split_ifs <;> nofun
    · dsimp only
      split_ifs <;> nofun
    · dsimp only at hunlocked
      split_ifs at hunlocked with hstop
      exact (h.woken hplace).resolve_left hstop
  | beginPrint =>
    obtain ⟨-,hsome⟩ := Option.ite_none_right_eq_some.mp hstep
    obtain rfl := Option.some.inj hsome
    exact ⟨h.interval_eq,h.clock_nonneg,h.previous_le,nofun,nofun,nofun⟩
  | endPrint thrown =>
    obtain ⟨-,hsome⟩ := Option.ite_none_right_eq_some.mp hstep
    split_ifs at hsome with hthrown
    · obtain rfl := Option.some.inj hsome
      exact ⟨h.interval_eq,h.clock_nonneg,h.previous_le,nofun,nofun,nofun⟩
    · obtain rfl := Option.some.inj hsome
      refine ⟨h.interval_eq,h.clock_nonneg,fun p hp => ?_,nofun,nofun,nofun⟩
      obtain rfl := Option.some.inj hp
      exact le_refl _

theorem step_steady (hstep : s.step action = some s') :
    s'.interval = s.interval ∧ s.clock ≤ s'.clock := by
  cases action with
  | tick d =>
    obtain ⟨-,hsome⟩ := Option.ite_none_right_eq_some.mp hstep
    obtain rfl := Option.some.inj hsome
    exact ⟨rfl,Int.le_add_of_nonneg_right (Int.natCast_nonneg d)⟩
  | requestStop =>
    obtain rfl := Option.some.inj hstep
    exact ⟨rfl,le_refl _⟩
  | wake =>
    obtain rfl | ⟨d,-,-,rfl⟩ := step_wake hstep <;> exact ⟨rfl,le_refl _⟩
  | endPrint thrown =>
    obtain ⟨-,hsome⟩ := Option.ite_none_right_eq_some.mp hstep
    split_ifs at hsome <;> obtain rfl := Option.some.inj hsome <;> exact ⟨rfl,le_refl _⟩
  | test | wait | check | beginPrint =>
    obtain ⟨-,hsome⟩ := Option.ite_none_right_eq_some.mp hstep
    obtain rfl := Option.some.inj hsome
    exact ⟨rfl,le_refl _⟩

theorem takes_steady {n : ℕ} (hn : (n : ℤ) ≤ int64Max) {start : ℤ} {actions : List ReporterAction}
    (h : reporterSystem.Takes (construct n start) actions s action) :
    s.interval = n ∧ start ≤ s.clock := by
  obtain ⟨before,after,-,hs⟩ := h
  have hinterval : wrapInt64 n = n := wrapInt64_eq (by omega) hn
  refine @TransitionSystem.Reachable.invariant _ _ reporterSystem
    (fun s => s.interval = n ∧ start ≤ s.clock) (fun _ u t hu hstep => ?_) (construct n start) s
    ⟨hinterval,le_refl start⟩ ⟨before,hs⟩
  obtain ⟨hinterval,hclock⟩ := step_steady hstep
  exact ⟨hinterval.trans hu.1,hu.2.trans hclock⟩

end LiveTerminalReporter

open LiveTerminalReporter PreprocessDemo

/-- The deadlines of the waits and the times of the prints, in one run of the reporter that the
options start. -/
structure PacedRun (options : Options) (start : ℤ) (actions : List ReporterAction) : Prop where
  deadlines : ∀ u, reporterSystem.Takes (construct options.reportIntervalMs start) actions u .wait →
    DeadlineFits u.clock u.interval
  prints : ∀ u, reporterSystem.Takes (construct options.reportIntervalMs start) actions u
    .beginPrint → ∀ p, u.previous = some p → p+options.reportIntervalMs*1000000 ≤ u.clock

/-- No deadline of a run overflows and no print of it comes early, exactly when the clock leaves
room for the interval whenever a wait begins. -/
theorem pacedRun_iff {argv : List (List Char)} {options : Options}
    (hparse : parseOptions argv = .ok options) (hpos : 0 < options.reportIntervalMs) {start : ℤ}
    (hstart : 0 ≤ start) {actions : List ReporterAction} {s : LiveTerminalReporter}
    (hrun : reporterSystem.exec (construct options.reportIntervalMs start) actions = some s) :
    PacedRun options start actions ↔
      ∀ u, reporterSystem.Takes (construct options.reportIntervalMs start) actions u .wait →
        u.clock+options.reportIntervalMs*1000000 ≤ int64Max := by
  have hn : (options.reportIntervalMs : ℤ) ≤ int64Max := by
    have hle := (parseOptions_ok hparse).reportIntervalMs_le
    simp only [millisecondsMax,int64Max] at *
    omega
  have hfits : ∀ {u action}, reporterSystem.Takes (construct options.reportIntervalMs start)
      actions u action → (DeadlineFits u.clock u.interval ↔
        u.clock+options.reportIntervalMs*1000000 ≤ int64Max) := by
    intro u action htakes
    obtain ⟨hinterval,hclock⟩ := takes_steady hn htakes
    rw [hinterval]
    exact deadlineFits_iff (hstart.trans hclock) (by omega)
  constructor
  · exact fun h u htakes => (hfits htakes).mp (h.deadlines u htakes)
  · intro h
    refine ⟨fun u htakes => (hfits htakes).mpr (h u htakes),fun u htakes p hp => ?_⟩
    have hpaced : u.Paced options.reportIntervalMs := by
      obtain ⟨before,after,hactions,hu⟩ := id htakes
      refine @TransitionSystem.Visits.invariant _ _ reporterSystem
        (fun v action => action = .wait → v.clock+options.reportIntervalMs*1000000 ≤ int64Max)
        (Paced options.reportIntervalMs)
        (fun _ _ _ hcondition hv hstep => hv.step (by omega) hcondition hstep) _ _ actions
        (fun v action hv hwait => h v (hwait ▸ hv)) (paced_construct hstart hn)
        ⟨before,_,hactions,hu⟩
    obtain ⟨t,hstep⟩ := htakes.enabled hrun
    have hplace := (Option.ite_none_right_eq_some.mp hstep).1
    have hdue := hpaced.unlocked hplace p hp
    rwa [hpaced.interval_eq] at hdue

def slowestArguments : List (List Char) :=
  ["preprocess_pipeline_demo".toList,"in".toList,"out".toList,"--report-ms=9223372036855".toList]

def ReporterAction.twice : List ReporterAction :=
  [.test,.wait,.wake,.check,.beginPrint,.endPrint false,.test,.wait,.wake,.check,.beginPrint]

theorem not_pacedRun : ∃ options s,
    parseOptions slowestArguments = .ok options ∧ options.reportIntervalMs = 9223372036855 ∧
    reporterSystem.exec (construct options.reportIntervalMs 0) ReporterAction.twice = some s ∧
    ¬PacedRun options 0 ReporterAction.twice := by
  refine ⟨{ inputPath := "in".toList, outputPath := "out".toList
            reportIntervalMs := 9223372036855 },_,by decide,rfl,rfl,fun h => ?_⟩
  have hearly := h.prints ⟨9223372036855,0,false,.unlocked,some 0⟩
    ⟨ReporterAction.twice.dropLast,[],rfl,rfl⟩ 0 rfl
  exact absurd hearly (by decide)

theorem pacedRun_iff_second : ∃ options s,
    parseOptions ["demo".toList,"in".toList,"out".toList,"--report-ms=1000".toList] = .ok options ∧
    reporterSystem.exec (construct options.reportIntervalMs 0) [.test,.wait] = some s ∧
    s.place = .waiting 1000000000 ∧
    (PacedRun options 0 [.test,.wait] ↔
      ∀ u, reporterSystem.Takes (construct options.reportIntervalMs 0) [.test,.wait] u .wait →
        u.clock+options.reportIntervalMs*1000000 ≤ int64Max) :=
  ⟨{ inputPath := "in".toList, outputPath := "out".toList, reportIntervalMs := 1000 },_,by decide,
    rfl,rfl,@pacedRun_iff ["demo".toList,"in".toList,"out".toList,"--report-ms=1000".toList] _
      (by decide) (by decide) 0 (le_refl 0) _ _ rfl⟩

end AsyncDataLoader
