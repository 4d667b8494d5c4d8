import AsyncDataLoader.LiveReporter

/-!
# Stopping the live reporter

The worker of `LiveTerminalReporter` beside the thread that owns the reporter, and the stream
that both write to. The owner calls `stop` any number of times, the last time in the destructor,
and has the stream for itself before the worker starts and after it is joined.
-/

namespace AsyncDataLoader

/-- Where the owner stands: outside of `stop`, or at the next call that `stop` makes. -/
inductive OwnerPlace
  | outside
  | requestStop
  | notifyAll
  | join
  | newline
  deriving DecidableEq, Repr

/-- `joinable` is that of `worker_`; `output` is the text that the stream has accepted. -/
structure OwnedReporter where
  worker : LiveTerminalReporter
  joinable : Bool
  interactive : Bool
  printed : Bool
  output : List Char
  owner : OwnerPlace
  deriving DecidableEq

/-- `accepted` says how much of a text the stream takes, and `thrown` whether it throws then. -/
inductive ReporterStep
  | tick (d : ℕ)
  | test
  | wait
  | wake
  | check
  | beginPrint
  | endPrint (line : List Char) (accepted : ℕ) (thrown : Bool)
  | stop
  | requestStop
  | notifyAll
  | join
  | newline (accepted : ℕ) (thrown : Bool)
  | write (text : List Char)
  deriving DecidableEq

namespace OwnedReporter

def lineText (interactive : Bool) (line : List Char) : List Char :=
  if interactive then "\r\x1b[2K".toList++line else "live ".toList++line++['\n']

def construct (intervalMs : ℕ) (clock : ℤ) (interactive : Bool) (output : List Char) :
    OwnedReporter :=
  let worker := LiveTerminalReporter.construct intervalMs clock
  ⟨worker,decide (worker.interval > 0),interactive,false,output,.outside⟩

def workerStep (s : OwnedReporter) (action : ReporterAction) : Option OwnedReporter :=
  (s.worker.step action).map fun worker => { s with worker := worker }

def step (s : OwnedReporter) : ReporterStep → Option OwnedReporter
  | .tick d => s.workerStep (.tick d)
  | .test => s.workerStep .test
  | .wait => s.workerStep .wait
  | .wake => s.workerStep .wake
  | .check => s.workerStep .check
  | .beginPrint => s.workerStep .beginPrint
  | .endPrint line accepted thrown =>
    (s.worker.step (.endPrint thrown)).map fun worker => { s with
      worker := worker
      output := s.output++(lineText s.interactive line).take accepted
      printed := s.printed || !thrown }
  | .stop =>
    if s.owner = .outside then
      if s.joinable then some { s with owner := .requestStop } else some s
    else none
  | .requestStop =>
    if s.owner = .requestStop then
      (s.worker.step .requestStop).map fun worker => { s with
        worker := worker
        owner := .notifyAll }
    else none
  | .notifyAll => if s.owner = .notifyAll then some { s with owner := .join } else none
  | .join =>
    if s.owner = .join ∧ s.worker.place = .ended then some { s with
      joinable := false
      owner := if s.interactive && s.printed then .newline else .outside }
    else none
  | .newline accepted _ =>
    if s.owner = .newline then some { s with
      output := s.output++['\n'].take accepted
      owner := .outside }
    else none
  | .write text =>
    if s.owner = .outside ∧ s.joinable = false then some { s with output := s.output++text }
    else none

end OwnedReporter

def ownedReporterSystem : TransitionSystem ReporterStep OwnedReporter where
  step action s := s.step action

namespace ReporterStep

def ofWorker : ReporterStep → List ReporterAction
  | .tick d => [.tick d]
  | .test => [.test]
  | .wait => [.wait]
  | .wake => [.wake]
  | .check => [.check]
  | .beginPrint => [.beginPrint]
  | .endPrint _ _ thrown => [.endPrint thrown]
  | .requestStop => [.requestStop]
  | .stop | .notifyAll | .join | .newline _ _ | .write _ => []

def liveText (interactive : Bool) : ReporterStep → List Char
  | .endPrint line accepted _ => (OwnedReporter.lineText interactive line).take accepted
  | _ => []

def newlineText : ReporterStep → List Char
  | .newline accepted _ => ['\n'].take accepted
  | _ => []

def ownerText : ReporterStep → List Char
  | .write text => text
  | _ => []

def isNewline : ReporterStep → Bool
  | .newline _ _ => true
  | _ => false

def takesNewline : ReporterStep → Bool
  | .newline accepted _ => decide (0 < accepted)
  | _ => false

def isPrinted : ReporterStep → Bool
  | .endPrint _ _ thrown => !thrown
  | _ => false

def isEndPrint : ReporterStep → Bool
  | .endPrint _ _ _ => true
  | _ => false

def ofThread : ReporterStep → Bool
  | .tick _ => false
  | _ => true

theorem newlineText_eq (step : ReporterStep) :
    step.newlineText = if step.takesNewline then ['\n'] else [] := by
  cases step with
  | newline accepted thrown => cases accepted <;> simp [newlineText,takesNewline]
  | _ => rfl

theorem isNewline_of_takesNewline {step : ReporterStep} (h : step.takesNewline = true) :
    step.isNewline = true := by
  cases step with
  | newline accepted thrown => rfl
  | _ => cases h

theorem flatMap_newlineText (steps : List ReporterStep) :
    steps.flatMap newlineText = List.replicate (steps.countP takesNewline) '\n' := by
  induction steps with
  | nil => rfl
  | cons step steps ih =>
    rw [List.flatMap_cons,ih,newlineText_eq,List.countP_cons]
    split_ifs
    · rfl
    · rfl

theorem flatMap_newlineText_of_countP {steps : List ReporterStep} {P : Prop} [Decidable P]
    (h : steps.countP isNewline = if P then 1 else 0) : steps.flatMap newlineText =
      if P ∧ steps.any takesNewline = true then ['\n'] else [] := by
  have hle : steps.countP takesNewline ≤ steps.countP isNewline :=
    List.countP_mono_left fun step _ htakes => isNewline_of_takesNewline htakes
  rw [flatMap_newlineText]
  by_cases hany : steps.any takesNewline = true
  · have hpos : 0 < steps.countP takesNewline := by
      rw [List.countP_pos_iff]
      exact List.any_eq_true.mp hany
    have hP : P := by
      by_contra hnot
      rw [if_neg hnot] at h
      omega
    rw [if_pos hP] at h
    have hone : steps.countP takesNewline = 1 := by omega
    rw [if_pos ⟨hP,hany⟩,hone]
    rfl
  · have hzero : steps.countP takesNewline = 0 := by
      rw [List.countP_eq_zero]
      intro step hstep htakes
      exact hany (List.any_eq_true.mpr ⟨step,hstep,htakes⟩)
    rw [if_neg (fun hand => hany hand.2),hzero]
    rfl

end ReporterStep

namespace LiveTerminalReporter

variable {s s' : LiveTerminalReporter} {action : ReporterAction}

theorem step_ended (hended : s.place = .ended) (hstep : s.step action = some s') :
    s'.place = .ended ∧ ∀ thrown, action ≠ .endPrint thrown := by
  cases action with
  | tick d =>
    obtain ⟨-,hsome⟩ := Option.ite_none_right_eq_some.mp hstep
    obtain rfl := Option.some.inj hsome
    exact ⟨hended,fun _ => by simp⟩
  | requestStop =>
    obtain rfl := Option.some.inj hstep
    exact ⟨hended,fun _ => by simp⟩
  | test | wait | wake | check | beginPrint | endPrint => simp [step,hended] at hstep

theorem step_stopRequested (hstop : s.stopRequested = true) (hstep : s.step action = some s') :
    s'.stopRequested = true := by
  cases action with
  | tick d | test | wait | check | beginPrint =>
    obtain ⟨-,hsome⟩ := Option.ite_none_right_eq_some.mp hstep
    obtain rfl := Option.some.inj hsome
    exact hstop
  | requestStop =>
    obtain rfl := Option.some.inj hstep
    rfl
  | wake =>
    obtain rfl | ⟨d,-,-,rfl⟩ := step_wake hstep <;> exact hstop
  | endPrint thrown =>
    obtain ⟨-,hsome⟩ := Option.ite_none_right_eq_some.mp hstep
    split_ifs at hsome <;> obtain rfl := Option.some.inj hsome <;> exact hstop

def remaining (s : LiveTerminalReporter) : ℕ :=
  match s.place with
  | .ended => 0
  | .testing | .woken => 1
  | .waiting _ | .printing => 2
  | .entering | .unlocked => 3

/-- With a stop requested each step of the worker is one of the last. -/
theorem remaining_step (hstop : s.stopRequested = true) (htick : ∀ d, action ≠ .tick d)
    (hrequest : action ≠ .requestStop) (hstep : s.step action = some s') :
    s'.remaining < s.remaining := by
  cases action with
  | tick d => exact absurd rfl (htick d)
  | requestStop => exact absurd rfl hrequest
  | wake =>
    cases hplace : s.place with
    | waiting d =>
      simp only [step,hplace,hstop,or_true,if_true,Option.some.injEq] at hstep
      obtain rfl := hstep
      simp [remaining,hplace]
    | _ => simp [step,hplace] at hstep
  | test | wait | check | beginPrint =>
    obtain ⟨hplace,hsome⟩ := Option.ite_none_right_eq_some.mp hstep
    obtain rfl := Option.some.inj hsome
    simp [remaining,hplace,hstop]
  | endPrint thrown =>
    obtain ⟨hplace,hsome⟩ := Option.ite_none_right_eq_some.mp hstep
    split_ifs at hsome <;> obtain rfl := Option.some.inj hsome <;> simp [remaining,hplace]

theorem step_enabled (hended : s.place ≠ .ended) :
    ∃ action s', s.step action = some s' ∧ (∀ d, action ≠ .tick d) ∧ action ≠ .requestStop := by
  cases hplace : s.place with
  | testing => exact ⟨.test,_,if_pos hplace,by simp,by simp⟩
  | entering => exact ⟨.wait,_,if_pos hplace,by simp,by simp⟩
  | waiting d =>
    refine ⟨.wake,
      if d ≤ s.clock ∨ s.stopRequested then { s with place := .woken } else s,?_,by simp,
      by simp⟩
    simp only [step,hplace]
    split_ifs <;> rfl
  | woken => exact ⟨.check,_,if_pos hplace,by simp,by simp⟩
  | unlocked => exact ⟨.beginPrint,_,if_pos hplace,by simp,by simp⟩
  | printing => exact ⟨.endPrint true,_,if_pos hplace,by simp,by simp⟩
  | ended => exact absurd hplace hended

def printsLeft (s : LiveTerminalReporter) : ℕ :=
  match s.place with
  | .unlocked | .printing => 1
  | _ => 0

theorem printsLeft_step (hstop : s.stopRequested = true) (hstep : s.step action = some s') :
    s'.printsLeft+(if ∃ thrown, action = .endPrint thrown then 1 else 0) ≤ s.printsLeft := by
  cases action with
  | tick d =>
    obtain ⟨-,hsome⟩ := Option.ite_none_right_eq_some.mp hstep
    obtain rfl := Option.some.inj hsome
    simp [printsLeft]
  | requestStop =>
    obtain rfl := Option.some.inj hstep
    simp [printsLeft]
  | wake =>
    obtain rfl | ⟨d,hplace,-,rfl⟩ := step_wake hstep <;> simp [printsLeft]
  | test | wait | check | beginPrint =>
    obtain ⟨hplace,hsome⟩ := Option.ite_none_right_eq_some.mp hstep
    obtain rfl := Option.some.inj hsome
    simp [printsLeft,hplace,hstop]
  | endPrint thrown =>
    obtain ⟨hplace,hsome⟩ := Option.ite_none_right_eq_some.mp hstep
    split_ifs at hsome <;> obtain rfl := Option.some.inj hsome <;> simp [printsLeft,hplace]

end LiveTerminalReporter

namespace OwnedReporter

variable {header : List Char} {interactive : Bool} {before : List ReporterStep}
  {s s' : OwnedReporter}

/-- A call of `stop` has requested it and has not returned. -/
def Stopping (s : OwnedReporter) : Prop :=
  s.owner = .notifyAll ∨ s.owner = .join ∨ s.owner = .newline

/-- What the steps so far have left in the state. -/
structure Ordered (header : List Char) (interactive : Bool) (before : List ReporterStep)
    (s : OwnedReporter) : Prop where
  interactive_eq : s.interactive = interactive
  printed_eq : s.printed = before.any ReporterStep.isPrinted
  output_eq : s.output = header++before.flatMap (ReporterStep.liveText interactive)++
    before.flatMap ReporterStep.newlineText++before.flatMap ReporterStep.ownerText
  joined : s.joinable = false → s.worker.place = .ended
  running : s.joinable = true →
    before.countP ReporterStep.isNewline = 0 ∧ before.flatMap ReporterStep.newlineText = [] ∧
      before.flatMap ReporterStep.ownerText = []
  newline : s.owner = .newline → s.joinable = false ∧ (s.interactive && s.printed) = true ∧
    before.countP ReporterStep.isNewline = 0 ∧ before.flatMap ReporterStep.newlineText = [] ∧
      before.flatMap ReporterStep.ownerText = []
  outside : s.owner = .outside → s.joinable = false →
    before.countP ReporterStep.isNewline = if s.interactive && s.printed then 1 else 0
  stopping : s.owner = .requestStop ∨ s.owner = .notifyAll ∨ s.owner = .join → s.joinable = true
  requested : s.Stopping → s.worker.stopRequested = true

theorem Ordered.workerStep (h : Ordered header interactive before s) {step : ReporterStep}
    {action : ReporterAction} (hlive : step.liveText interactive = [])
    (hnewline : step.newlineText = []) (howner : step.ownerText = [])
    (hcount : step.isNewline = false) (hprinted : step.isPrinted = false)
    (hstep : s.workerStep action = some s') :
    Ordered header interactive (before++[step]) s' := by
  obtain ⟨worker,hworker,rfl⟩ := Option.map_eq_some_iff.mp hstep
  constructor
  · exact h.interactive_eq
  · simpa [hprinted] using h.printed_eq
  · simpa [hlive,hnewline,howner] using h.output_eq
  · exact fun hjoined => (LiveTerminalReporter.step_ended (h.joined hjoined) hworker).1
  · simpa [hcount,hnewline,howner] using h.running
  · simpa [hcount,hnewline,howner] using h.newline
  · simpa [hcount] using h.outside
  · exact h.stopping
  · exact fun hplace => LiveTerminalReporter.step_stopRequested (h.requested hplace) hworker

/-- A line is only written while nothing has followed the lines. -/
theorem Ordered.endPrint (h : Ordered header interactive before s) {line : List Char}
    {accepted : ℕ} {thrown : Bool} (hstep : s.step (.endPrint line accepted thrown) = some s') :
    Ordered header interactive (before++[.endPrint line accepted thrown]) s' := by
  obtain ⟨worker,hworker,rfl⟩ := Option.map_eq_some_iff.mp hstep
  have hjoinable : s.joinable = true := by
    by_contra hjoined
    have hended := h.joined (Bool.eq_false_iff.mpr hjoined)
    exact (LiveTerminalReporter.step_ended hended hworker).2 thrown rfl
  obtain ⟨hcount,hnewline,howner⟩ := h.running hjoinable
  constructor
  · exact h.interactive_eq
  · simp [h.printed_eq,ReporterStep.isPrinted]
  · simp [h.output_eq,h.interactive_eq,hnewline,howner,ReporterStep.liveText,
      ReporterStep.newlineText,ReporterStep.ownerText]
  · exact fun hjoined => absurd (hjoinable.symm.trans hjoined) (by simp)
  · intro _
    simp [hcount,hnewline,howner,ReporterStep.isNewline,ReporterStep.newlineText,
      ReporterStep.ownerText]
  · exact fun hplace => absurd (hjoinable.symm.trans (h.newline hplace).1) (by simp)
  · exact fun _ hjoined => absurd (hjoinable.symm.trans hjoined) (by simp)
  · exact h.stopping
  · exact fun hplace => LiveTerminalReporter.step_stopRequested (h.requested hplace) hworker

theorem Ordered.silent (h : Ordered header interactive before s) {step : ReporterStep}
    (hlive : step.liveText interactive = []) (hnewline : step.newlineText = [])
    (howner : step.ownerText = []) (hcount : step.isNewline = false)
    (hprinted : step.isPrinted = false) : Ordered header interactive (before++[step]) s := by
  constructor
  · exact h.interactive_eq
  · simpa [hprinted] using h.printed_eq
  · simpa [hlive,hnewline,howner] using h.output_eq
  · exact h.joined
  · simpa [hcount,hnewline,howner] using h.running
  · simpa [hcount,hnewline,howner] using h.newline
  · simpa [hcount] using h.outside
  · exact h.stopping
  · exact h.requested

theorem Ordered.step {step : ReporterStep} (h : Ordered header interactive before s)
    (hstep : s.step step = some s') : Ordered header interactive (before++[step]) s' := by
  cases step with
  | tick d => exact h.workerStep rfl rfl rfl rfl rfl hstep
  | test => exact h.workerStep rfl rfl rfl rfl rfl hstep
  | wait => exact h.workerStep rfl rfl rfl rfl rfl hstep
  | wake => exact h.workerStep rfl rfl rfl rfl rfl hstep
  | check => exact h.workerStep rfl rfl rfl rfl rfl hstep
  | beginPrint => exact h.workerStep rfl rfl rfl rfl rfl hstep
  | endPrint line accepted thrown => exact h.endPrint hstep
  | stop =>
    obtain ⟨hplace,hsome⟩ := Option.ite_none_right_eq_some.mp hstep
    have hsilent : Ordered header interactive (before++[.stop]) s := h.silent rfl rfl rfl rfl rfl
    split_ifs at hsome with hjoinable <;> obtain rfl := Option.some.inj hsome
    · exact { hsilent with newline := by simp, outside := by simp
                           stopping := fun _ => hjoinable, requested := by simp [Stopping] }
    · exact hsilent
  | requestStop =>
    obtain ⟨hplace,hsome⟩ := Option.ite_none_right_eq_some.mp hstep
    obtain ⟨worker,hworker,rfl⟩ := Option.map_eq_some_iff.mp hsome
    have hsilent : Ordered header interactive (before++[.requestStop]) s :=
      h.silent rfl rfl rfl rfl rfl
    have hjoinable := h.stopping (.inl hplace)
    obtain rfl := Option.some.inj hworker
    exact { hsilent with newline := by simp, outside := by simp
                         stopping := fun _ => hjoinable, requested := fun _ => rfl }
  | notifyAll =>
    obtain ⟨hplace,hsome⟩ := Option.ite_none_right_eq_some.mp hstep
    obtain rfl := Option.some.inj hsome
    have hsilent : Ordered header interactive (before++[.notifyAll]) s :=
      h.silent rfl rfl rfl rfl rfl
    exact { hsilent with newline := by simp, outside := by simp
                         stopping := fun _ => h.stopping (.inr (.inl hplace))
                         requested := fun _ => h.requested (.inl hplace) }
  | join =>
    obtain ⟨⟨hplace,hended⟩,hsome⟩ := Option.ite_none_right_eq_some.mp hstep
    obtain rfl := Option.some.inj hsome
    have hsilent : Ordered header interactive (before++[.join]) s := h.silent rfl rfl rfl rfl rfl
    have hjoinable := h.stopping (.inr (.inr hplace))
    constructor
    · exact hsilent.interactive_eq
    · exact hsilent.printed_eq
    · exact hsilent.output_eq
    · exact fun _ => hended
    · simp
    · intro howner
      have hprinted : (s.interactive && s.printed) = true := by
        by_contra hnot
        simp [hnot] at howner
      exact ⟨rfl,hprinted,hsilent.running hjoinable⟩
    · intro howner _
      have hprinted : (s.interactive && s.printed) = false := by
        by_contra hnot
        simp [Bool.eq_true_of_not_eq_false hnot] at howner
      simpa [hprinted] using (hsilent.running hjoinable).1
    · dsimp only
      split_ifs <;> simp
    · exact fun _ => h.requested (.inr (.inl hplace))
  | newline accepted thrown =>
    obtain ⟨hplace,hsome⟩ := Option.ite_none_right_eq_some.mp hstep
    obtain rfl := Option.some.inj hsome
    obtain ⟨hjoined,hprinted,hcount,hnewline,howner⟩ := h.newline hplace
    constructor
    · exact h.interactive_eq
    · simpa [ReporterStep.isPrinted] using h.printed_eq
    · simp [h.output_eq,hnewline,howner,ReporterStep.liveText,ReporterStep.newlineText,
        ReporterStep.ownerText]
    · exact h.joined
    · exact fun hjoinable => absurd (hjoined.symm.trans hjoinable) (by simp)
    · simp
    · intro _ _
      simp [hcount,hprinted,ReporterStep.isNewline]
    · simp
    · simp [Stopping]
  | write text =>
    obtain ⟨⟨hplace,hjoined⟩,hsome⟩ := Option.ite_none_right_eq_some.mp hstep
    obtain rfl := Option.some.inj hsome
    constructor
    · exact h.interactive_eq
    · simpa [ReporterStep.isPrinted] using h.printed_eq
    · simp [h.output_eq,ReporterStep.liveText,ReporterStep.newlineText,ReporterStep.ownerText]
    · exact h.joined
    · exact fun hjoinable => absurd (hjoined.symm.trans hjoinable) (by simp)
    · simp [hplace]
    · intro _ _
      simpa [ReporterStep.isNewline] using h.outside hplace hjoined
    · simp [hplace]
    · simp [Stopping,hplace]

theorem construct_joined (intervalMs : ℕ) (clock : ℤ) (interactive : Bool) (header : List Char)
    (h : (construct intervalMs clock interactive header).joinable = false) :
    (construct intervalMs clock interactive header).worker.place = .ended := by
  by_cases hpos : wrapInt64 intervalMs > 0
  · simp [construct,LiveTerminalReporter.construct,hpos] at h
  · simp [construct,LiveTerminalReporter.construct,hpos]

theorem ordered_construct (intervalMs : ℕ) (clock : ℤ) (interactive : Bool) (header : List Char) :
    Ordered header interactive [] (construct intervalMs clock interactive header) where
  interactive_eq := rfl
  printed_eq := rfl
  output_eq := by simp [construct]
  joined := construct_joined intervalMs clock interactive header
  running := by simp
  newline := by simp [construct]
  outside := by simp [construct]
  stopping := by simp [construct]
  requested := by simp [construct,Stopping]

/-- The most steps of the two threads until a `stop` that is requested returns. -/
def remaining (s : OwnedReporter) : ℕ :=
  s.worker.remaining+match s.owner with
    | .notifyAll => 3
    | .join => 2
    | .newline => 1
    | .outside | .requestStop => 0

theorem Ordered.remaining_workerStep (h : Ordered header interactive before s) (hstop : s.Stopping)
    {action : ReporterAction} (htick : ∀ d, action ≠ .tick d) (hrequest : action ≠ .requestStop)
    (hstep : s.workerStep action = some s') : s'.remaining < s.remaining := by
  obtain ⟨worker,hworker,rfl⟩ := Option.map_eq_some_iff.mp hstep
  have hlt := LiveTerminalReporter.remaining_step (h.requested hstop) htick hrequest hworker
  simp only [remaining]
  omega

theorem Ordered.remaining_step (h : Ordered header interactive before s) (hstop : s.Stopping)
    {step : ReporterStep} (hthread : step.ofThread = true) (hstep : s.step step = some s') :
    s'.remaining < s.remaining := by
  cases step with
  | tick d => cases hthread
  | test => exact h.remaining_workerStep hstop (by simp) (by simp) hstep
  | wait => exact h.remaining_workerStep hstop (by simp) (by simp) hstep
  | wake => exact h.remaining_workerStep hstop (by simp) (by simp) hstep
  | check => exact h.remaining_workerStep hstop (by simp) (by simp) hstep
  | beginPrint => exact h.remaining_workerStep hstop (by simp) (by simp) hstep
  | endPrint line accepted thrown =>
    obtain ⟨worker,hworker,rfl⟩ := Option.map_eq_some_iff.mp hstep
    have hlt := LiveTerminalReporter.remaining_step (h.requested hstop) (by simp) (by simp) hworker
    simp only [remaining]
    omega
  | stop | requestStop =>
    obtain ⟨hplace,-⟩ := Option.ite_none_right_eq_some.mp hstep
    simp [Stopping,hplace] at hstop
  | write text =>
    obtain ⟨⟨hplace,-⟩,-⟩ := Option.ite_none_right_eq_some.mp hstep
    simp [Stopping,hplace] at hstop
  | notifyAll =>
    obtain ⟨hplace,hsome⟩ := Option.ite_none_right_eq_some.mp hstep
    obtain rfl := Option.some.inj hsome
    simp [remaining,hplace]
  | join =>
    obtain ⟨⟨hplace,hended⟩,hsome⟩ := Option.ite_none_right_eq_some.mp hstep
    obtain rfl := Option.some.inj hsome
    simp only [remaining,hplace]
    split_ifs <;> simp
  | newline accepted thrown =>
    obtain ⟨hplace,hsome⟩ := Option.ite_none_right_eq_some.mp hstep
    obtain rfl := Option.some.inj hsome
    simp [remaining,hplace]

theorem goes_on (hplace : s.owner ≠ .outside) :
    ∃ step s', s.step step = some s' ∧ step.ofThread = true := by
  cases howner : s.owner with
  | outside => exact absurd howner hplace
  | requestStop => exact ⟨.requestStop,_,if_pos howner,rfl⟩
  | notifyAll => exact ⟨.notifyAll,_,if_pos howner,rfl⟩
  | newline => exact ⟨.newline 1 false,_,if_pos howner,rfl⟩
  | join =>
    by_cases hended : s.worker.place = .ended
    · exact ⟨.join,_,if_pos ⟨howner,hended⟩,rfl⟩
    · obtain ⟨action,worker,hworker,htick,hrequest⟩ := LiveTerminalReporter.step_enabled hended
      cases action with
      | tick d => exact absurd rfl (htick d)
      | requestStop => exact absurd rfl hrequest
      | test => exact ⟨.test,_,Option.map_eq_some_iff.mpr ⟨worker,hworker,rfl⟩,rfl⟩
      | wait => exact ⟨.wait,_,Option.map_eq_some_iff.mpr ⟨worker,hworker,rfl⟩,rfl⟩
      | wake => exact ⟨.wake,_,Option.map_eq_some_iff.mpr ⟨worker,hworker,rfl⟩,rfl⟩
      | check => exact ⟨.check,_,Option.map_eq_some_iff.mpr ⟨worker,hworker,rfl⟩,rfl⟩
      | beginPrint => exact ⟨.beginPrint,_,Option.map_eq_some_iff.mpr ⟨worker,hworker,rfl⟩,rfl⟩
      | endPrint thrown =>
        exact ⟨.endPrint [] 0 thrown,_,Option.map_eq_some_iff.mpr ⟨worker,hworker,rfl⟩,rfl⟩

theorem exec_worker {steps : List ReporterStep} (h : ownedReporterSystem.exec s steps = some s') :
    reporterSystem.exec s.worker (steps.flatMap ReporterStep.ofWorker) = some s'.worker := by
  refine TransitionSystem.exec_history
    (I := fun before t => reporterSystem.exec s.worker (before.flatMap ReporterStep.ofWorker) =
      some t.worker) rfl (fun before step t t' ht hstep => ?_) h
  rw [List.flatMap_append,TransitionSystem.exec_append,ht]
  cases step with
  | tick | test | wait | wake | check | beginPrint | endPrint =>
    obtain ⟨worker,hworker,rfl⟩ := Option.map_eq_some_iff.mp hstep
    simpa [ReporterStep.ofWorker,TransitionSystem.exec_cons,reporterSystem] using hworker
  | requestStop =>
    obtain ⟨-,hsome⟩ := Option.ite_none_right_eq_some.mp hstep
    obtain ⟨worker,hworker,rfl⟩ := Option.map_eq_some_iff.mp hsome
    simpa [ReporterStep.ofWorker,TransitionSystem.exec_cons,reporterSystem] using hworker
  | stop =>
    obtain ⟨-,hsome⟩ := Option.ite_none_right_eq_some.mp hstep
    split_ifs at hsome <;> obtain rfl := Option.some.inj hsome <;> rfl
  | notifyAll | join | newline | write =>
    obtain ⟨-,hsome⟩ := Option.ite_none_right_eq_some.mp hstep
    obtain rfl := Option.some.inj hsome
    rfl

theorem remaining_tick {d : ℕ} (hstep : s.step (.tick d) = some s') :
    s'.remaining = s.remaining ∧ s'.worker.printsLeft = s.worker.printsLeft := by
  obtain ⟨worker,hworker,rfl⟩ := Option.map_eq_some_iff.mp hstep
  obtain ⟨-,hsome⟩ := Option.ite_none_right_eq_some.mp hworker
  obtain rfl := Option.some.inj hsome
  exact ⟨rfl,rfl⟩

theorem printsLeft_step {step : ReporterStep} (hstop : s.worker.stopRequested = true)
    (hstep : s.step step = some s') :
    s'.worker.printsLeft+(if step.isEndPrint then 1 else 0) ≤ s.worker.printsLeft := by
  cases step with
  | tick | test | wait | wake | check | beginPrint | endPrint =>
    obtain ⟨worker,hworker,rfl⟩ := Option.map_eq_some_iff.mp hstep
    simpa [ReporterStep.isEndPrint] using LiveTerminalReporter.printsLeft_step hstop hworker
  | requestStop =>
    obtain ⟨-,hsome⟩ := Option.ite_none_right_eq_some.mp hstep
    obtain ⟨worker,hworker,rfl⟩ := Option.map_eq_some_iff.mp hsome
    simpa [ReporterStep.isEndPrint] using LiveTerminalReporter.printsLeft_step hstop hworker
  | stop =>
    obtain ⟨-,hsome⟩ := Option.ite_none_right_eq_some.mp hstep
    split_ifs at hsome <;> obtain rfl := Option.some.inj hsome <;>
      simp [ReporterStep.isEndPrint]
  | notifyAll | join | newline | write =>
    obtain ⟨-,hsome⟩ := Option.ite_none_right_eq_some.mp hstep
    obtain rfl := Option.some.inj hsome
    simp [ReporterStep.isEndPrint]

theorem step_owner {step : ReporterStep} (howner : s.owner ≠ .outside)
    (hrequest : s.owner ≠ .requestStop) (hstep : s.step step = some s') :
    s'.owner ≠ .requestStop := by
  cases step with
  | tick | test | wait | wake | check | beginPrint | endPrint =>
    obtain ⟨worker,-,rfl⟩ := Option.map_eq_some_iff.mp hstep
    exact hrequest
  | stop =>
    exact absurd (Option.ite_none_right_eq_some.mp hstep).1 howner
  | write text =>
    exact absurd (Option.ite_none_right_eq_some.mp hstep).1.1 howner
  | requestStop =>
    exact absurd (Option.ite_none_right_eq_some.mp hstep).1 hrequest
  | notifyAll | newline =>
    obtain ⟨-,hsome⟩ := Option.ite_none_right_eq_some.mp hstep
    obtain rfl := Option.some.inj hsome
    simp
  | join =>
    obtain ⟨-,hsome⟩ := Option.ite_none_right_eq_some.mp hstep
    obtain rfl := Option.some.inj hsome
    dsimp only
    split_ifs <;> simp

/-- Until the call of `stop` returns, each step of a thread is counted. -/
theorem Ordered.counts (h : Ordered header interactive before s) (hstop : s.Stopping)
    {more : List ReporterStep} {t : OwnedReporter}
    (hmore : ownedReporterSystem.exec s more = some t)
    (hinside : ∀ u step, ownedReporterSystem.Takes s more u step → u.owner ≠ .outside) :
    more.countP ReporterStep.ofThread+t.remaining ≤ s.remaining ∧
      more.countP ReporterStep.isEndPrint+t.worker.printsLeft ≤ s.worker.printsLeft := by
  have hrequest : s.owner ≠ .requestStop := by
    rintro heq
    simp [Stopping,heq] at hstop
  refine (TransitionSystem.Takes.history (C := fun u _ => u.owner ≠ .outside)
    (I := fun more t => (Ordered header interactive (before++more) t ∧ t.owner ≠ .requestStop) ∧
      more.countP ReporterStep.ofThread+t.remaining ≤ s.remaining ∧
      more.countP ReporterStep.isEndPrint+t.worker.printsLeft ≤ s.worker.printsLeft)
    (fun more step u u' hplace hu hstep => ?_) hinside ⟨⟨by simpa using h,hrequest⟩,by simp⟩
    hmore).2
  obtain ⟨⟨hordered,hnot⟩,hthread,hprints⟩ := hu
  have hordered' := hordered.step hstep
  rw [List.append_assoc] at hordered'
  have hstopping : u.Stopping := by
    cases howner : u.owner <;> simp_all [Stopping]
  have hleft := printsLeft_step (hordered.requested hstopping) hstep
  refine ⟨⟨hordered',step_owner hplace hnot hstep⟩,?_,?_⟩
  · rw [List.countP_append,List.countP_singleton]
    cases hkind : step.ofThread with
    | false =>
      cases step with
      | tick d =>
        have heq := (remaining_tick hstep).1
        simp only [Bool.false_eq_true,if_false]
        omega
      | _ => cases hkind
    | true =>
      have hlt := hordered.remaining_step hstopping hkind hstep
      simp only [if_true]
      omega
  · rw [List.countP_append,List.countP_singleton]
    omega

theorem remaining_le (s : OwnedReporter) : s.remaining ≤ 6 ∧ s.worker.printsLeft ≤ 1 := by
  constructor
  · have hworker : s.worker.remaining ≤ 3 := by
      unfold LiveTerminalReporter.remaining
      split <;> omega
    have howner : s.remaining ≤ s.worker.remaining+3 := by
      unfold remaining
      split <;> omega
    omega
  · unfold LiveTerminalReporter.printsLeft
    split <;> omega

end OwnedReporter

open OwnedReporter

/-- What a run of the reporter and its owner has left behind. -/
structure StopContract (start : OwnedReporter) (steps : List ReporterStep) (s : OwnedReporter) :
    Prop where
  output : s.output = start.output++steps.flatMap (ReporterStep.liveText start.interactive)++
    steps.flatMap ReporterStep.newlineText++steps.flatMap ReporterStep.ownerText
  attempts : steps.countP ReporterStep.isNewline =
    if s.joinable = false ∧ s.owner = .outside ∧ start.interactive = true ∧
      steps.any ReporterStep.isPrinted = true then 1 else 0
  newlines : steps.flatMap ReporterStep.newlineText =
    if (s.joinable = false ∧ s.owner = .outside ∧ start.interactive = true ∧
      steps.any ReporterStep.isPrinted = true) ∧ steps.any ReporterStep.takesNewline = true
    then ['\n'] else []
  worker : reporterSystem.exec start.worker (steps.flatMap ReporterStep.ofWorker) = some s.worker
  joined : s.joinable = false → s.worker.place = .ended
  goes_on : s.owner ≠ .outside → ∃ step t, s.step step = some t ∧ step.ofThread = true
  returns : s.Stopping → ∀ more t, ownedReporterSystem.exec s more = some t →
    (∀ u step, ownedReporterSystem.Takes s more u step → u.owner ≠ .outside) →
    more.countP ReporterStep.ofThread ≤ 6 ∧ more.countP ReporterStep.isEndPrint ≤ 1

/-- The lines come first, then at most one newline, then what the owner writes; and a `stop` that
has been requested returns. -/
theorem reporter_stops {intervalMs : ℕ} {clock : ℤ} {interactive : Bool} {header : List Char}
    {steps : List ReporterStep} {s : OwnedReporter}
    (hrun : ownedReporterSystem.exec (construct intervalMs clock interactive header) steps =
      some s) :
    StopContract (construct intervalMs clock interactive header) steps s := by
  have hordered : Ordered header interactive steps s :=
    TransitionSystem.exec_history (ordered_construct intervalMs clock interactive header)
      (fun before step t t' ht hstep => ht.step hstep) hrun
  have hattempts : steps.countP ReporterStep.isNewline =
      if s.joinable = false ∧ s.owner = .outside ∧ interactive = true ∧
        steps.any ReporterStep.isPrinted = true then 1 else 0 := by
    cases hjoinable : s.joinable with
    | true => simpa using (hordered.running hjoinable).1
    | false =>
      cases howner : s.owner with
      | outside =>
        rw [hordered.outside howner hjoinable,hordered.interactive_eq,hordered.printed_eq]
        simp
      | newline => simpa using (hordered.newline howner).2.2.1
      | requestStop => simp [hordered.stopping (.inl howner)] at hjoinable
      | notifyAll => simp [hordered.stopping (.inr (.inl howner))] at hjoinable
      | join => simp [hordered.stopping (.inr (.inr howner))] at hjoinable
  refine ⟨hordered.output_eq,hattempts,ReporterStep.flatMap_newlineText_of_countP hattempts,
    exec_worker hrun,hordered.joined,goes_on,fun hstop more t hmore hinside => ?_⟩
  obtain ⟨hthread,hprints⟩ := hordered.counts hstop hmore hinside
  obtain ⟨hsix,hone⟩ := remaining_le s
  omega

def ReporterStep.oneLine : List ReporterStep :=
  [.test,.wait,.tick 1000000000,.wake,.check,.beginPrint,.endPrint "line".toList 20 false,.stop,
    .test,.requestStop,.notifyAll,.wait,.wake,.check,.join,.newline 1 false,.stop,
    .write "summary".toList]

theorem reporter_stops_oneLine : ∃ s, ownedReporterSystem.exec
    (construct 1000 0 true "header\n".toList) ReporterStep.oneLine = some s ∧
    s.output = "header\n\r\x1b[2Kline\nsummary".toList ∧
    StopContract (construct 1000 0 true "header\n".toList) ReporterStep.oneLine s :=
  ⟨_,rfl,by decide,reporter_stops rfl⟩

end AsyncDataLoader
