import AsyncDataLoader.Gauge
import AsyncDataLoader.TransitionSystem
import Mathlib.Logic.Function.Basic
import Mathlib.Order.Bounds.Basic

/-!
# The high watermark of a gauge

Threads call `set`, `increment` and `decrement` at the same time. The value and the watermark are
two atomics: a call changes the first, and raises the second in a loop that others can overtake.
-/

namespace AsyncDataLoader

inductive GaugeOperation
  | set (newValue : ℤ)
  | increment
  | decrement
  deriving DecidableEq

/-- The value after the operation, in exact arithmetic. -/
def GaugeOperation.apply : GaugeOperation → ℤ → ℤ
  | .set newValue,_ => newValue
  | .increment,v => v+1
  | .decrement,v => v-1

/-- Where a thread stands in `update_high_watermark`. -/
inductive GaugePlace
  | outside
  | load (candidate : ℤ)
  | exchange (candidate observed : ℤ) -- the candidate has been found above what was observed
  deriving DecidableEq

structure GaugeState (ι : Type*) where
  gauge : Gauge
  place : ι → GaugePlace

/-- A call shows with its first atomic step, the `store`, `fetch_add` or `fetch_sub`. -/
inductive GaugeAction (ι : Type*)
  | modify (t : ι) (operation : GaugeOperation)
  | load (t : ι)
  | exchange (t : ι) (spurious : Bool)

namespace GaugeState

variable {ι : Type*} [DecidableEq ι]

def start (ι : Type*) : GaugeState ι := ⟨.zero,fun _ => .outside⟩

def move (s : GaugeState ι) (t : ι) (place : GaugePlace) : GaugeState ι :=
  { s with place := Function.update s.place t place }

def store (s : GaugeState ι) (current : ℤ) : GaugeState ι :=
  { s with gauge := { s.gauge with current := current } }

/-- The test `candidate > observed`, which ends the loop, or comes before the next attempt. -/
def compare (s : GaugeState ι) (t : ι) (candidate : ℤ) : GaugeState ι :=
  let observed := s.gauge.highWatermark
  s.move t (if candidate > observed then .exchange candidate observed else .outside)

def modify (s : GaugeState ι) (t : ι) : GaugeOperation → GaugeState ι
  | .set newValue => (s.store newValue).move t (.load newValue)
  | .increment =>
    let previous := s.gauge.current
    (s.store (wrapInt64 (previous+1))).move t
      (.load (if previous = int64Max then previous else previous+1))
  | .decrement => s.store (wrapInt64 (s.gauge.current-1))

def step (s : GaugeState ι) : GaugeAction ι → Option (GaugeState ι)
  | .modify t operation => if s.place t = .outside then some (s.modify t operation) else none
  | .load t =>
    match s.place t with
    | .load candidate => some (s.compare t candidate)
    | _ => none
  | .exchange t spurious =>
    match s.place t with
    | .exchange candidate observed =>
      if s.gauge.highWatermark = observed ∧ spurious = false then
        some { (s.move t .outside) with gauge := { s.gauge with highWatermark := candidate } }
      else some (s.compare t candidate)
    | _ => none

end GaugeState

def gaugeSystem (ι : Type*) [DecidableEq ι] : TransitionSystem (GaugeAction ι) (GaugeState ι) where
  step action s := s.step action

def gaugeOperations {ι : Type*} (actions : List (GaugeAction ι)) : List GaugeOperation :=
  actions.filterMap fun
    | .modify _ operation => some operation
    | _ => none

def GaugeOperation.perform : GaugeOperation → Gauge → Gauge
  | .set newValue,g => g.set newValue
  | .increment,g => g.increment
  | .decrement,g => g.decrement

/-- The loop records a candidate as `updateHighWatermark` does. -/
theorem exec_record {ι : Type*} [DecidableEq ι] (g : Gauge) (t : ι) (candidate : ℤ) :
    ∃ actions, (gaugeSystem ι).exec
      ⟨g,Function.update (fun _ => .outside) t (.load candidate)⟩ actions =
        some ⟨g.updateHighWatermark candidate,fun _ => .outside⟩ := by
  have hidle : Function.update (fun _ : ι => GaugePlace.outside) t .outside = fun _ => .outside :=
    Function.update_eq_self t _
  by_cases hgt : candidate > g.highWatermark
  · refine ⟨[.load t,.exchange t false],?_⟩
    simp only [TransitionSystem.exec_cons,TransitionSystem.exec_nil,gaugeSystem,GaugeState.step,
      GaugeState.compare,GaugeState.move,Function.update_self,Function.update_idem,if_pos hgt,
      Option.bind_some,and_self,if_true,hidle,Gauge.updateHighWatermark]
  · refine ⟨[.load t],?_⟩
    simp only [TransitionSystem.exec_cons,TransitionSystem.exec_nil,gaugeSystem,GaugeState.step,
      GaugeState.compare,GaugeState.move,Function.update_self,Function.update_idem,if_neg hgt,
      Option.bind_some,hidle,Gauge.updateHighWatermark]

/-- A call that no other overtakes does what the operation on the gauge does. -/
theorem exec_operation {ι : Type*} [DecidableEq ι] (g : Gauge) (t : ι)
    (operation : GaugeOperation) : ∃ actions, (gaugeSystem ι).exec ⟨g,fun _ => .outside⟩
      (.modify t operation::actions) = some ⟨operation.perform g,fun _ => .outside⟩ := by
  cases operation with
  | set newValue => exact exec_record { g with current := newValue } t newValue
  | increment =>
    obtain ⟨actions,hrun⟩ := exec_record { g with current := wrapInt64 (g.current+1) } t
      (if g.current = int64Max then g.current else g.current+1)
    refine ⟨actions,hrun.trans ?_⟩
    simp only [GaugeOperation.perform,Gauge.increment]
    split_ifs <;> rfl
  | decrement => exact ⟨[],rfl⟩

def InInt64 (v : ℤ) : Prop := -2^63 ≤ v ∧ v ≤ int64Max

def GaugePlace.candidate : GaugePlace → Option ℤ
  | .outside => none
  | .load candidate => some candidate
  | .exchange candidate _ => some candidate

def GaugePlace.Records (place : GaugePlace) (v : ℤ) : Prop :=
  ∃ candidate, place.candidate = some candidate ∧ v ≤ candidate

/-- What holds of the watermark when `V` are the values so far. -/
structure Watermarked {ι : Type*} (V : Set ℤ) (s : GaugeState ι) : Prop where
  greatest : ∃ peak, IsGreatest V peak
  current_mem : s.gauge.current ∈ V
  watermark_mem : s.gauge.highWatermark ∈ V
  candidate_mem : ∀ t candidate, (s.place t).candidate = some candidate → candidate ∈ V
  covered : ∀ v ∈ V, v ≤ s.gauge.highWatermark ∨ ∃ t, (s.place t).Records v
  exchange_lt : ∀ t candidate observed, s.place t = .exchange candidate observed →
    observed < candidate

namespace GaugeState

variable {ι : Type*} [DecidableEq ι] {s : GaugeState ι} {t : ι}

theorem modify_increment (hrange : InInt64 (s.gauge.current+1)) :
    s.modify t .increment = (s.store (s.gauge.current+1)).move t (.load (s.gauge.current+1)) := by
  have hne : s.gauge.current ≠ int64Max := by
    have hhigh := hrange.2
    omega
  simp only [modify,wrapInt64_eq hrange.1 hrange.2,if_neg hne]

theorem modify_decrement (hrange : InInt64 (s.gauge.current-1)) :
    s.modify t .decrement = s.store (s.gauge.current-1) := by
  rw [modify,wrapInt64_eq hrange.1 hrange.2]

theorem modify_current {operation : GaugeOperation}
    (hrange : InInt64 (operation.apply s.gauge.current)) :
    (s.modify t operation).gauge.current = operation.apply s.gauge.current := by
  cases operation with
  | set newValue => rfl
  | increment => rw [modify_increment hrange]; rfl
  | decrement => rw [modify_decrement hrange]; rfl

end GaugeState

namespace Watermarked

variable {ι : Type*} [DecidableEq ι] {V : Set ℤ} {s s' : GaugeState ι} {t : ι} {v w : ℤ}

theorem start (ι : Type*) : Watermarked {0} (.start ι) :=
  ⟨⟨0,isGreatest_singleton⟩,rfl,rfl,nofun,fun _ hv => .inl hv.le,nofun⟩

theorem moved (h : Watermarked V s) {V' : Set ℤ} {gauge : Gauge} {place : GaugePlace}
    (hgreatest : ∃ peak, IsGreatest V' peak) (hcurrent : gauge.current ∈ V')
    (hwatermark : gauge.highWatermark ∈ V') (hsub : V ⊆ V')
    (hgrows : s.gauge.highWatermark ≤ gauge.highWatermark)
    (hcandidate : ∀ candidate, place.candidate = some candidate → candidate ∈ V')
    (hkept : ∀ v, (s.place t).Records v → v ≤ gauge.highWatermark ∨ place.Records v)
    (hnew : ∀ v ∈ V', v ∈ V ∨ place.Records v)
    (hlt : ∀ candidate observed, place = .exchange candidate observed → observed < candidate) :
    Watermarked V' ⟨gauge,Function.update s.place t place⟩ := by
  refine ⟨hgreatest,hcurrent,hwatermark,?_,?_,?_⟩
  · intro u candidate hu
    by_cases hut : u = t
    · subst hut
      simp only [Function.update_self] at hu
      exact hcandidate candidate hu
    · simp only [Function.update_of_ne hut] at hu
      exact hsub (h.candidate_mem u candidate hu)
  · have hmoved : ∀ v, place.Records v → ∃ u, (Function.update s.place t place u).Records v :=
      fun v hv => ⟨t,by rwa [Function.update_self]⟩
    intro v hv
    obtain hold | hrecords := hnew v hv
    · obtain hle | ⟨u,hu⟩ := h.covered v hold
      · exact .inl (hle.trans hgrows)
      · by_cases hut : u = t
        · subst hut
          exact (hkept v hu).imp_right (hmoved v)
        · refine .inr ⟨u,?_⟩
          simp only [Function.update_of_ne hut]
          exact hu
    · exact .inr (hmoved v hrecords)
  · intro u candidate observed hu
    by_cases hut : u = t
    · subst hut
      simp only [Function.update_self] at hu
      exact hlt candidate observed hu
    · simp only [Function.update_of_ne hut] at hu
      exact h.exchange_lt u candidate observed hu

theorem raise (h : Watermarked V s) (hplace : s.place t = .outside) (v : ℤ) :
    Watermarked (insert v V) ((s.store v).move t (.load v)) := by
  obtain ⟨peak,hpeak⟩ := h.greatest
  refine h.moved ⟨_,hpeak.insert v⟩ (.inl rfl) (.inr h.watermark_mem) (Set.subset_insert v V)
    (le_refl _) ?_ ?_ ?_ nofun
  · intro candidate hcandidate
    exact .inl (Option.some.inj hcandidate).symm
  · rintro w ⟨candidate,hcandidate,-⟩
    rw [hplace] at hcandidate
    cases hcandidate
  · rintro w (rfl | hw)
    · exact .inr ⟨w,rfl,le_refl w⟩
    · exact .inl hw

omit [DecidableEq ι] in
theorem lower (h : Watermarked V s) (hw : w ∈ V) (hvw : v ≤ w) :
    Watermarked (insert v V) (s.store v) := by
  obtain ⟨peak,hpeak⟩ := h.greatest
  refine ⟨⟨_,hpeak.insert v⟩,.inl rfl,.inr h.watermark_mem,
    fun u candidate hu => .inr (h.candidate_mem u candidate hu),?_,h.exchange_lt⟩
  rintro x (rfl | hx)
  · exact (h.covered w hw).imp hvw.trans fun ⟨u,candidate,hu,hle⟩ =>
      ⟨u,candidate,hu,hvw.trans hle⟩
  · exact h.covered x hx

theorem modify (h : Watermarked V s) (hplace : s.place t = .outside) {operation : GaugeOperation}
    (hrange : InInt64 (operation.apply s.gauge.current)) :
    Watermarked (insert (operation.apply s.gauge.current) V) (s.modify t operation) := by
  cases operation with
  | set newValue => exact h.raise hplace newValue
  | increment =>
    rw [GaugeState.modify_increment hrange]
    exact h.raise hplace _
  | decrement =>
    rw [GaugeState.modify_decrement hrange]
    exact h.lower h.current_mem (Int.sub_le_self _ (by decide))

/-- A candidate that has been recorded, or overtaken, need not be kept. -/
theorem settle (h : Watermarked V s) {candidate watermark : ℤ}
    (hplace : (s.place t).candidate = some candidate) (hmem : watermark ∈ V)
    (hgrows : s.gauge.highWatermark ≤ watermark) (hle : candidate ≤ watermark) :
    Watermarked V ⟨{ s.gauge with highWatermark := watermark },
      Function.update s.place t .outside⟩ := by
  refine h.moved h.greatest h.current_mem hmem subset_rfl hgrows nofun ?_ (fun v hv => .inl hv)
    nofun
  rintro v ⟨other,hother,hv⟩
  obtain rfl := Option.some.inj (hplace.symm.trans hother)
  exact .inl (hv.trans hle)

theorem compare (h : Watermarked V s) {candidate : ℤ}
    (hplace : (s.place t).candidate = some candidate) : Watermarked V (s.compare t candidate) := by
  by_cases hgt : candidate > s.gauge.highWatermark
  · simp only [GaugeState.compare,GaugeState.move,if_pos hgt]
    refine h.moved h.greatest h.current_mem h.watermark_mem subset_rfl (le_refl _) ?_ ?_
      (fun v hv => .inl hv) ?_
    · intro other hother
      obtain rfl := Option.some.inj hother
      exact h.candidate_mem t candidate hplace
    · rintro v ⟨other,hother,hv⟩
      obtain rfl := Option.some.inj (hplace.symm.trans hother)
      exact .inr ⟨candidate,rfl,hv⟩
    · intro other observed heq
      obtain ⟨rfl,rfl⟩ := GaugePlace.exchange.inj heq
      exact hgt
  · simp only [GaugeState.compare,GaugeState.move,if_neg hgt]
    exact h.settle hplace h.watermark_mem (le_refl _) (le_of_not_gt hgt)

theorem exchange (h : Watermarked V s) {candidate observed : ℤ}
    (hplace : s.place t = .exchange candidate observed)
    (hsame : s.gauge.highWatermark = observed) :
    Watermarked V ⟨{ s.gauge with highWatermark := candidate },
      Function.update s.place t .outside⟩ := by
  have hcandidate : (s.place t).candidate = some candidate := by
    rw [hplace]
    rfl
  have hlt := h.exchange_lt t candidate observed hplace
  exact h.settle hcandidate (h.candidate_mem t candidate hcandidate) (by omega) (le_refl _)

theorem step (h : Watermarked V s) {action : GaugeAction ι}
    (hrange : ∀ t operation, action = .modify t operation →
      InInt64 (operation.apply s.gauge.current))
    (hstep : s.step action = some s') :
    Watermarked (insert s'.gauge.current V) s' ∧
      s'.gauge.current = (gaugeOperations [action]).foldl (fun v operation => operation.apply v)
        s.gauge.current := by
  have hinsert : insert s.gauge.current V = V := Set.insert_eq_of_mem h.current_mem
  cases action with
  | modify t operation =>
    obtain ⟨hplace,hsome⟩ := Option.ite_none_right_eq_some.mp hstep
    obtain rfl := Option.some.inj hsome
    have hrange := hrange t operation rfl
    rw [GaugeState.modify_current hrange]
    exact ⟨h.modify hplace hrange,rfl⟩
  | load t =>
    simp only [GaugeState.step] at hstep
    split at hstep
    · rename_i candidate hplace
      obtain rfl := Option.some.inj hstep
      refine ⟨?_,rfl⟩
      change Watermarked (insert s.gauge.current V) _
      rw [hinsert]
      exact h.compare (by rw [hplace]; rfl)
    · cases hstep
  | exchange t spurious =>
    simp only [GaugeState.step] at hstep
    split at hstep
    · rename_i candidate observed hplace
      split_ifs at hstep with hsuccess <;> obtain rfl := Option.some.inj hstep
      all_goals
        refine ⟨?_,rfl⟩
        change Watermarked (insert s.gauge.current V) _
        rw [hinsert]
      · exact h.exchange hplace hsuccess.1
      · exact h.compare (by rw [hplace]; rfl)
    · cases hstep

theorem step_le (h : Watermarked V s) {action : GaugeAction ι} (hstep : s.step action = some s') :
    s.gauge.highWatermark ≤ s'.gauge.highWatermark := by
  cases action with
  | modify t operation =>
    obtain ⟨-,hsome⟩ := Option.ite_none_right_eq_some.mp hstep
    obtain rfl := Option.some.inj hsome
    cases operation <;> exact le_refl _
  | load t =>
    simp only [GaugeState.step] at hstep
    split at hstep
    · obtain rfl := Option.some.inj hstep
      exact le_refl _
    · cases hstep
  | exchange t spurious =>
    simp only [GaugeState.step] at hstep
    split at hstep
    · rename_i candidate observed hplace
      have hlt := h.exchange_lt t candidate observed hplace
      split_ifs at hstep with hsuccess <;> obtain rfl := Option.some.inj hstep
      · change s.gauge.highWatermark ≤ candidate
        omega
      · exact le_refl _
    · cases hstep

end Watermarked

def takenValues {ι : Type*} [DecidableEq ι] (actions : List (GaugeAction ι)) : Set ℤ :=
  {v | v = 0 ∨ ∃ s, (gaugeSystem ι).Visits (.start ι) actions s ∧ s.gauge.current = v}

section Run

variable {ι : Type*} [DecidableEq ι] {actions : List (GaugeAction ι)} {s : GaugeState ι}

theorem takenValues_nil : takenValues ([] : List (GaugeAction ι)) = {0} := by
  ext v
  constructor
  · rintro (rfl | ⟨s,⟨before,after,hnil,hs⟩,rfl⟩)
    · rfl
    · obtain ⟨rfl,-⟩ := List.nil_eq_append_iff.mp hnil
      obtain rfl := Option.some.inj hs
      rfl
  · exact .inl

theorem takenValues_concat {action : GaugeAction ι}
    (h : (gaugeSystem ι).exec (.start ι) (actions++[action]) = some s) :
    takenValues (actions++[action]) = insert s.gauge.current (takenValues actions) := by
  ext v
  simp only [takenValues,Set.mem_ofPred_eq,Set.mem_insert_iff,TransitionSystem.visits_concat]
  constructor
  · rintro (rfl | ⟨u,hu | hu,rfl⟩)
    · exact .inr (.inl rfl)
    · exact .inr (.inr ⟨u,hu,rfl⟩)
    · obtain rfl := Option.some.inj (h.symm.trans hu)
      exact .inl rfl
  · rintro (rfl | rfl | ⟨u,hu,rfl⟩)
    · exact .inr ⟨s,.inr h,rfl⟩
    · exact .inl rfl
    · exact .inr ⟨u,.inl hu,rfl⟩

def GaugeState.Fits (s : GaugeState ι) (action : GaugeAction ι) : Prop :=
  ∀ t operation, action = .modify t operation → InInt64 (operation.apply s.gauge.current)

theorem exec_watermarked
    (hrange : ∀ u action, (gaugeSystem ι).Takes (.start ι) actions u action → u.Fits action)
    (hrun : (gaugeSystem ι).exec (.start ι) actions = some s) :
    Watermarked (takenValues actions) s ∧ s.gauge.current =
      (gaugeOperations actions).foldl (fun v operation => operation.apply v) 0 := by
  have hhistory : (gaugeSystem ι).exec (.start ι) actions = some s ∧
      Watermarked (takenValues actions) s ∧ s.gauge.current =
        (gaugeOperations actions).foldl (fun v operation => operation.apply v) 0 := by
    refine TransitionSystem.Takes.history (C := GaugeState.Fits)
      (I := fun actions s => (gaugeSystem ι).exec (.start ι) actions = some s ∧
        Watermarked (takenValues actions) s ∧ s.gauge.current =
          (gaugeOperations actions).foldl (fun v operation => operation.apply v) 0)
      ?_ hrange ⟨rfl,?_,rfl⟩ hrun
    · rintro before action u v hfits ⟨hexec,hu,hcurrent⟩ hstep
      obtain ⟨hv,hvalue⟩ := hu.step hfits hstep
      have hexec' := TransitionSystem.exec_concat hexec hstep
      refine ⟨hexec',?_,?_⟩
      · rw [takenValues_concat hexec']
        exact hv
      · have happend : gaugeOperations (before++[action]) =
            gaugeOperations before++gaugeOperations [action] := List.filterMap_append
        rw [hvalue,hcurrent,happend,List.foldl_append]
    · rw [takenValues_nil]
      exact .start ι
  exact hhistory.2

/-- The watermark never falls, never passes the greatest value that `current_` has taken, and is
that value when all calls have returned. The value is that of the operations in their order. -/
theorem gauge_watermark (hrun : (gaugeSystem ι).exec (.start ι) actions = some s)
    (hrange : ∀ u t operation,
      (gaugeSystem ι).Takes (.start ι) actions u (.modify t operation) →
        InInt64 (operation.apply u.gauge.current)) :
    (∀ u action v, (gaugeSystem ι).Takes (.start ι) actions u action →
      (gaugeSystem ι).step action u = some v → u.gauge.highWatermark ≤ v.gauge.highWatermark) ∧
    s.gauge.current =
      (gaugeOperations actions).foldl (fun v operation => operation.apply v) 0 ∧
    ∃ peak, IsGreatest (takenValues actions) peak ∧ s.gauge.highWatermark ≤ peak ∧
      ((∀ t, s.place t = .outside) → s.gauge.highWatermark = peak) := by
  have hfits : ∀ u action, (gaugeSystem ι).Takes (.start ι) actions u action → u.Fits action := by
    rintro u action htakes t operation rfl
    exact hrange u t operation htakes
  obtain ⟨h,hcurrent⟩ := exec_watermarked hfits hrun
  refine ⟨?_,hcurrent,?_⟩
  · rintro u action v ⟨before,after,rfl,hu⟩ hstep
    have hbefore : ∀ w k, (gaugeSystem ι).Takes (.start ι) before w k → w.Fits k := by
      rintro w k ⟨first,second,rfl,hw⟩
      exact hfits w k ⟨first,second++action::after,by simp,hw⟩
    exact (exec_watermarked hbefore hu).1.step_le hstep
  · obtain ⟨peak,hpeak⟩ := h.greatest
    have hle := hpeak.2 h.watermark_mem
    refine ⟨peak,hpeak,hle,fun hdone => le_antisymm hle ?_⟩
    obtain hcovered | ⟨t,candidate,hcandidate,-⟩ := h.covered peak hpeak.1
    · exact hcovered
    · rw [hdone t] at hcandidate
      cases hcandidate

end Run

/-- One thread raises the value and another lowers it again, before the first has recorded it. -/
def GaugeAction.momentary : List (GaugeAction Bool) :=
  [.modify false .increment,.modify true .decrement,.load false,.exchange false true,
    .exchange false false]

theorem gauge_watermark_momentary : ∃ s,
    (gaugeSystem Bool).exec (.start Bool) GaugeAction.momentary = some s ∧
    s.gauge = ⟨0,1⟩ ∧ IsGreatest (takenValues GaugeAction.momentary) 1 := by
  refine ⟨_,rfl,by decide,?_⟩
  obtain ⟨-,-,peak,hpeak,-,hdone⟩ := @gauge_watermark Bool _ GaugeAction.momentary _ rfl (by
    rintro u t operation ⟨before,after,hsplit,hu⟩
    rcases before with _ | ⟨first,_ | ⟨second,before⟩⟩
    · obtain ⟨hfirst,-⟩ := List.cons.inj hsplit
      obtain ⟨-,rfl⟩ := GaugeAction.modify.inj hfirst
      obtain rfl := Option.some.inj hu
      exact ⟨by decide,by decide⟩
    · obtain ⟨rfl,htail⟩ := List.cons.inj hsplit
      obtain ⟨hsecond,-⟩ := List.cons.inj htail
      obtain ⟨-,rfl⟩ := GaugeAction.modify.inj hsecond
      obtain rfl := Option.some.inj hu
      exact ⟨by decide,by decide⟩
    · obtain ⟨-,htail⟩ := List.cons.inj hsplit
      obtain ⟨-,hrest⟩ := List.cons.inj htail
      have hmem : GaugeAction.modify t operation ∈
          [.load false,.exchange false true,.exchange false false] := by
        rw [hrest]
        exact List.mem_append_right before List.mem_cons_self
      simp at hmem)
  rwa [← hdone (by decide)] at hpeak

end AsyncDataLoader
