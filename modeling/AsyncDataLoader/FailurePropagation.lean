import AsyncDataLoader.ExecutorMoves

/-!
# Failures during a run

A failure is raised in one thread, stored as the first failure if there is none, and then
given to the two queues one after the other. The first failure and the failed queues agree
in every reachable state, and stay as they are.
-/

namespace AsyncDataLoader

variable {σ : Type*}

def Reader.places : Reader → List FailAll
  | .failing place => [place]
  | _ => []

def Processor.places : Processor → List FailAll
  | .failing place => [place]
  | _ => []

def Writer.places : Writer → List FailAll
  | .failing place => [place]
  | _ => []

def Caller.places : Caller → List FailAll
  | .failing place => [place]
  | _ => []

def RunState.places (s : RunState σ) : List FailAll :=
  s.reader.places++s.processor.places++s.writer.places++s.caller.places

namespace RunState

variable {s : RunState σ} {place : FailAll}

theorem mem_places : place ∈ s.places ↔ place ∈ s.reader.places ∨ place ∈ s.processor.places ∨
    place ∈ s.writer.places ∨ place ∈ s.caller.places := by
  simp only [places,List.mem_append,or_assoc]

theorem places_of_reader {r : Reader} {sh : Shared σ}
    (h : place ∈ places { s with reader := r, shared := sh }) :
    place ∈ s.places ∨ place ∈ r.places := by
  rcases mem_places.mp h with hr | hp | hw | hc
  · exact .inr hr
  · exact .inl (mem_places.mpr (.inr (.inl hp)))
  · exact .inl (mem_places.mpr (.inr (.inr (.inl hw))))
  · exact .inl (mem_places.mpr (.inr (.inr (.inr hc))))

theorem places_of_processor {p : Processor} {sh : Shared σ}
    (h : place ∈ places { s with processor := p, shared := sh }) :
    place ∈ s.places ∨ place ∈ p.places := by
  rcases mem_places.mp h with hr | hp | hw | hc
  · exact .inl (mem_places.mpr (.inl hr))
  · exact .inr hp
  · exact .inl (mem_places.mpr (.inr (.inr (.inl hw))))
  · exact .inl (mem_places.mpr (.inr (.inr (.inr hc))))

theorem places_of_writer {w : Writer} {sh : Shared σ}
    (h : place ∈ places { s with writer := w, shared := sh }) :
    place ∈ s.places ∨ place ∈ w.places := by
  rcases mem_places.mp h with hr | hp | hw | hc
  · exact .inl (mem_places.mpr (.inl hr))
  · exact .inl (mem_places.mpr (.inr (.inl hp)))
  · exact .inr hw
  · exact .inl (mem_places.mpr (.inr (.inr (.inr hc))))

theorem places_of_caller {c : Caller} {sh : Shared σ}
    (h : place ∈ places { s with caller := c, shared := sh }) :
    place ∈ s.places ∨ place ∈ c.places := by
  rcases mem_places.mp h with hr | hp | hw | hc
  · exact .inl (mem_places.mpr (.inl hr))
  · exact .inl (mem_places.mpr (.inr (.inl hp)))
  · exact .inl (mem_places.mpr (.inr (.inr (.inl hw))))
  · exact .inr hc

end RunState

theorem Reader.mem_places_next {place : FailAll} {next : Option FailAll}
    (h : place ∈ (next.elim Reader.terminated .failing).places) : place ∈ next := by
  cases next with
  | none => cases h
  | some next => exact Option.mem_some_iff.mpr (List.mem_singleton.mp h).symm

theorem Processor.mem_places_next {place : FailAll} {next : Option FailAll}
    (h : place ∈ (next.elim Processor.terminated .failing).places) : place ∈ next := by
  cases next with
  | none => cases h
  | some next => exact Option.mem_some_iff.mpr (List.mem_singleton.mp h).symm

theorem Writer.mem_places_next {place : FailAll} {next : Option FailAll}
    (h : place ∈ (next.elim Writer.terminated .failing).places) : place ∈ next := by
  cases next with
  | none => cases h
  | some next => exact Option.mem_some_iff.mpr (List.mem_singleton.mp h).symm

theorem Caller.mem_places_next {place : FailAll} {next : Option FailAll}
    (h : place ∈ (next.elim Caller.join .failing).places) : place ∈ next := by
  cases next with
  | none => cases h
  | some next => exact Option.mem_some_iff.mpr (List.mem_singleton.mp h).symm

namespace Shared

/-- No failure is stored, and no queue fails. -/
structure SameFailures (sh sh' : Shared σ) : Prop where
  firstFailure : sh'.firstFailure = sh.firstFailure
  readToProcess : ∀ failure, sh'.readToProcess.state = .failed failure ↔
    sh.readToProcess.state = .failed failure
  processToWrite : ∀ failure, sh'.processToWrite.state = .failed failure ↔
    sh.processToWrite.state = .failed failure

/-- Failures that are there stay there. -/
structure Extends (sh sh' : Shared σ) : Prop where
  firstFailure : ∀ failure, sh.firstFailure = some failure → sh'.firstFailure = some failure
  readToProcess : ∀ failure, sh.readToProcess.state = .failed failure →
    sh'.readToProcess.state = .failed failure
  processToWrite : ∀ failure, sh.processToWrite.state = .failed failure →
    sh'.processToWrite.state = .failed failure

/-- The failed queues have failed with the first failure, the first queue first. -/
structure Agrees (sh : Shared σ) : Prop where
  readToProcess : ∀ failure, sh.readToProcess.state = .failed failure →
    sh.firstFailure = some failure
  processToWrite : ∀ failure, sh.processToWrite.state = .failed failure →
    sh.readToProcess.state = .failed failure

/-- What a thread that is in `fail_all` has already done. -/
def Canonical (sh : Shared σ) : FailAll → Prop
  | .store _ => True
  | .failRead canonical => sh.firstFailure = some canonical
  | .failWrite canonical => sh.firstFailure = some canonical ∧
      sh.readToProcess.state = .failed canonical

theorem SameFailures.refl (sh : Shared σ) : sh.SameFailures sh :=
  ⟨rfl,fun _ => Iff.rfl,fun _ => Iff.rfl⟩

variable {sh sh' : Shared σ}

theorem SameFailures.extends (h : sh.SameFailures sh') : sh.Extends sh' :=
  ⟨fun _ hf => h.firstFailure.trans hf,fun f => (h.readToProcess f).mpr,
    fun f => (h.processToWrite f).mpr⟩

theorem SameFailures.agrees (h : sh.SameFailures sh') (hsh : sh.Agrees) : sh'.Agrees where
  readToProcess f hf := h.firstFailure.trans (hsh.readToProcess f ((h.readToProcess f).mp hf))
  processToWrite f hf :=
    (h.readToProcess f).mpr (hsh.processToWrite f ((h.processToWrite f).mp hf))

theorem Extends.refl (sh : Shared σ) : sh.Extends sh :=
  ⟨fun _ hf => hf,fun _ hf => hf,fun _ hf => hf⟩

theorem Extends.trans {sh'' : Shared σ} (h : sh.Extends sh') (k : sh'.Extends sh'') :
    sh.Extends sh'' :=
  ⟨fun f hf => k.firstFailure f (h.firstFailure f hf),
    fun f hf => k.readToProcess f (h.readToProcess f hf),
    fun f hf => k.processToWrite f (h.processToWrite f hf)⟩

theorem Extends.canonical (h : sh.Extends sh') {place : FailAll} (hp : sh.Canonical place) :
    sh'.Canonical place := by
  cases place with
  | store failure => trivial
  | failRead canonical => exact h.firstFailure _ hp
  | failWrite canonical => exact ⟨h.firstFailure _ hp.1,h.readToProcess _ hp.2⟩

end Shared

theorem CheckedQueue.fail_of_failed {α : Type*} {q : CheckedQueue α} {first : Failure}
    (h : q.state = .failed first) (failure : Failure) : (q.fail failure).1.state = .failed first := by
  rcases q.fail_cases failure with ⟨-,hq,-⟩ | ⟨hlive,-,-⟩
  · rw [hq]; exact h
  · exact absurd h (hlive first)

theorem CheckedQueue.fail_state {α : Type*} (q : CheckedQueue α) (failure first : Failure)
    (h : (q.fail failure).1.state = .failed first) :
    q.state = .failed first ∨ first = failure := by
  rcases q.fail_cases failure with ⟨-,hq,-⟩ | ⟨-,hstate,-⟩
  · rw [hq] at h
    exact .inl h
  · rw [hstate] at h
    exact .inr (Life.failed.inj h).symm

theorem FailMove.extends {sh sh' : Shared σ} {place : FailAll} {next : Option FailAll}
    (h : FailMove sh place sh' next) : sh.Extends sh' := by
  cases h with
  | store failure =>
    exact ⟨fun f hf => by simp [hf],fun _ hf => hf,fun _ hf => hf⟩
  | failRead canonical hpool =>
    exact ⟨fun _ hf => hf,fun f hf => CheckedQueue.fail_of_failed hf canonical,fun _ hf => hf⟩
  | failWrite canonical hpool =>
    exact ⟨fun _ hf => hf,fun _ hf => hf,fun f hf => CheckedQueue.fail_of_failed hf canonical⟩

theorem FailMove.agrees {sh sh' : Shared σ} {place : FailAll} {next : Option FailAll}
    (h : FailMove sh place sh' next) (hsh : sh.Agrees) (hplace : sh.Canonical place) :
    sh'.Agrees ∧ ∀ p ∈ next, sh'.Canonical p := by
  cases h with
  | store failure =>
    refine ⟨⟨fun f hf => ?_,hsh.processToWrite⟩,fun p hp => ?_⟩
    · have hfirst := hsh.readToProcess f hf
      simp [hfirst]
    · obtain rfl := Option.some.inj hp
      rfl
  | failRead canonical hpool =>
    have hfailed : (sh.readToProcess.fail canonical).1.state = .failed canonical := by
      obtain ⟨first,hfirst⟩ := sh.readToProcess.fail_state_failed canonical
      rcases sh.readToProcess.fail_state canonical first hfirst with hbefore | rfl
      · have heq : first = canonical :=
          Option.some.inj ((hsh.readToProcess first hbefore).symm.trans hplace)
        rw [hfirst,heq]
      · exact hfirst
    refine ⟨⟨fun f hf => ?_,fun f hf => ?_⟩,fun p hp => ?_⟩
    · have heq : f = canonical := Life.failed.inj (hf.symm.trans hfailed)
      exact heq ▸ hplace
    · exact CheckedQueue.fail_of_failed (hsh.processToWrite f hf) canonical
    · obtain rfl := Option.some.inj hp
      exact ⟨hplace,hfailed⟩
  | failWrite canonical hpool =>
    refine ⟨⟨hsh.readToProcess,fun f hf => ?_⟩,fun p hp => by cases hp⟩
    rcases sh.processToWrite.fail_state canonical f hf with hbefore | rfl
    · exact hsh.processToWrite f hbefore
    · exact hplace.2

theorem CheckedQueue.state_of_toFifo {α : Type*} {q r : CheckedQueue α} (h : q.toFifo = r.toFifo) :
    q.state = r.state := congrArg BoundedFifo.life h

theorem CheckedQueue.contents_of_toFifo {α : Type*} {q r : CheckedQueue α}
    (h : q.toFifo = r.toFifo) : q.contents = r.contents := congrArg BoundedFifo.items h

theorem CheckedQueue.close_failed_iff {α : Type*} (q : CheckedQueue α) (failure : Failure) :
    q.close.state = .failed failure ↔ q.state = .failed failure := by
  rw [close_state]
  cases q.state <;> simp

/-- A step of a thread is a step of `fail_all`, or changes no failure and leaves the thread
outside of `fail_all` or at its beginning. -/
theorem ReaderMove.failures {call : RunCall σ} {sh sh' : Shared σ} {r r' : Reader}
    (h : ReaderMove call sh r r' sh') :
    (sh.SameFailures sh' ∧ ∀ place ∈ r'.places, ∃ failure, place = .store failure) ∨
    ∃ place next, r = .failing place ∧ r' = next.elim .terminated .failing ∧
      FailMove sh place sh' next := by
  cases h with
  | failing hfail => exact .inr ⟨_,_,rfl,rfl,hfail⟩
  | pushed hopen hcontents hstate hcapacity =>
    exact .inl ⟨⟨rfl,fun f => by simp [hopen,hstate],fun _ => Iff.rfl⟩,by simp [Reader.places]⟩
  | refused hstate hqueue =>
    exact .inl ⟨⟨rfl,fun f => by simp [CheckedQueue.state_of_toFifo hqueue],fun _ => Iff.rfl⟩,
      by simp [Reader.places]⟩
  | closed =>
    exact .inl ⟨⟨rfl,fun f => CheckedQueue.close_failed_iff _ f,fun _ => Iff.rfl⟩,
      by simp [Reader.places]⟩
  | acquired | readFailed | readEof | rejected | received | released | unwound =>
    exact .inl ⟨⟨rfl,fun _ => Iff.rfl,fun _ => Iff.rfl⟩,by simp [Reader.places]⟩

theorem ProcessorMove.failures {sh sh' : Shared σ} {p p' : Processor}
    (h : ProcessorMove sh p p' sh') :
    (sh.SameFailures sh' ∧ ∀ place ∈ p'.places, ∃ failure, place = .store failure) ∨
    ∃ place next, p = .failing place ∧ p' = next.elim .terminated .failing ∧
      FailMove sh place sh' next := by
  cases h with
  | failing hfail => exact .inr ⟨_,_,rfl,rfl,hfail⟩
  | popped hcontents hstate hcapacity =>
    exact .inl ⟨⟨rfl,fun f => by simp [hstate],fun _ => Iff.rfl⟩,by simp [Processor.places]⟩
  | ended hstate hcontents hqueue =>
    exact .inl ⟨⟨rfl,fun f => by simp [CheckedQueue.state_of_toFifo hqueue],fun _ => Iff.rfl⟩,
      by simp [Processor.places]⟩
  | popFailed hstate hqueue =>
    exact .inl ⟨⟨rfl,fun f => by simp [CheckedQueue.state_of_toFifo hqueue],fun _ => Iff.rfl⟩,
      by simp [Processor.places]⟩
  | pushed hopen hcontents hstate hcapacity =>
    exact .inl ⟨⟨rfl,fun _ => Iff.rfl,fun f => by simp [hopen,hstate]⟩,by simp [Processor.places]⟩
  | refused hstate hqueue =>
    exact .inl ⟨⟨rfl,fun _ => Iff.rfl,fun f => by simp [CheckedQueue.state_of_toFifo hqueue]⟩,
      by simp [Processor.places]⟩
  | closed =>
    exact .inl ⟨⟨rfl,fun _ => Iff.rfl,fun f => CheckedQueue.close_failed_iff _ f⟩,
      by simp [Processor.places]⟩
  | stageFailed | processed | unwound =>
    exact .inl ⟨⟨rfl,fun _ => Iff.rfl,fun _ => Iff.rfl⟩,by simp [Processor.places]⟩

theorem WriterMove.failures {call : RunCall σ} {sh sh' : Shared σ} {w w' : Writer}
    (h : WriterMove call sh w w' sh') :
    (sh.SameFailures sh' ∧ ∀ place ∈ w'.places, ∃ failure, place = .store failure) ∨
    ∃ place next, w = .failing place ∧ w' = next.elim .terminated .failing ∧
      FailMove sh place sh' next := by
  cases h with
  | failing hfail => exact .inr ⟨_,_,rfl,rfl,hfail⟩
  | popped hcontents hstate hcapacity =>
    exact .inl ⟨⟨rfl,fun _ => Iff.rfl,fun f => by simp [hstate]⟩,by simp [Writer.places]⟩
  | ended hstate hcontents hqueue =>
    exact .inl ⟨⟨rfl,fun _ => Iff.rfl,fun f => by simp [CheckedQueue.state_of_toFifo hqueue]⟩,
      by simp [Writer.places]⟩
  | popFailed hstate hqueue =>
    exact .inl ⟨⟨rfl,fun _ => Iff.rfl,fun f => by simp [CheckedQueue.state_of_toFifo hqueue]⟩,
      by simp [Writer.places]⟩
  | wrote | finished | writeFailed | released | unwound =>
    exact .inl ⟨⟨rfl,fun _ => Iff.rfl,fun _ => Iff.rfl⟩,by simp [Writer.places]⟩

theorem CallerMove.failures {call : RunCall σ} {s s' : RunState σ} (h : CallerMove call s s') :
    (s.shared.SameFailures s'.shared ∧
      ∀ place ∈ s'.places, place ∈ s.places ∨ ∃ failure, place = .store failure) ∨
    ∃ place sh next, s.caller = .failing place ∧ FailMove s.shared place sh next ∧
      s' = { s with caller := next.elim .join .failing, shared := sh } := by
  cases h with
  | failing hcaller hfail => exact .inr ⟨_,_,_,hcaller,hfail,rfl⟩
  | startFailed hcaller hstart =>
    refine .inl ⟨.refl _,fun place hplace => (RunState.places_of_caller hplace).imp_right ?_⟩
    exact fun hnew => ⟨_,List.mem_singleton.mp hnew⟩
  | writerStarted =>
    refine .inl ⟨.refl _,fun place hplace => .inl ?_⟩
    have hothers := (@RunState.places_of_writer _ { s with caller := .startProcessor } _ _ s.shared
      hplace).resolve_right List.not_mem_nil
    exact (RunState.places_of_caller hothers).resolve_right List.not_mem_nil
  | processorStarted =>
    refine .inl ⟨.refl _,fun place hplace => .inl ?_⟩
    have hothers := (@RunState.places_of_processor _ { s with caller := .startReader } _ _ s.shared
      hplace).resolve_right List.not_mem_nil
    exact (RunState.places_of_caller hothers).resolve_right List.not_mem_nil
  | readerStarted =>
    refine .inl ⟨.refl _,fun place hplace => .inl ?_⟩
    have hothers := (@RunState.places_of_reader _ { s with caller := .join } _ _ s.shared
      hplace).resolve_right List.not_mem_nil
    exact (RunState.places_of_caller hothers).resolve_right List.not_mem_nil
  | joined =>
    exact .inl ⟨.refl _,fun place hplace =>
      .inl ((RunState.places_of_caller hplace).resolve_right List.not_mem_nil)⟩

theorem step_failures {call : RunCall σ} {s s' : RunState σ} {t : Thread}
    (h : call.system.step t s = some s') :
    (s.shared.SameFailures s'.shared ∧
      ∀ place ∈ s'.places, place ∈ s.places ∨ ∃ failure, place = .store failure) ∨
    ∃ place next, place ∈ s.places ∧ FailMove s.shared place s'.shared next ∧
      ∀ p ∈ s'.places, p ∈ s.places ∨ p ∈ next := by
  rcases RunCall.step_cases h with ⟨r,sh,hmove,rfl⟩ | ⟨p,sh,hmove,rfl⟩ | ⟨w,sh,hmove,rfl⟩ | hmove
  · rcases hmove.failures with ⟨hsame,hplaces⟩ | ⟨place,next,hr,rfl,hfail⟩
    · exact .inl ⟨hsame,fun place hplace =>
        (RunState.places_of_reader hplace).imp_right (hplaces place)⟩
    · refine .inr ⟨place,next,?_,hfail,fun p hp =>
        (RunState.places_of_reader hp).imp_right Reader.mem_places_next⟩
      exact RunState.mem_places.mpr (.inl (by simp [hr,Reader.places]))
  · rcases hmove.failures with ⟨hsame,hplaces⟩ | ⟨place,next,hp,rfl,hfail⟩
    · exact .inl ⟨hsame,fun place hplace =>
        (RunState.places_of_processor hplace).imp_right (hplaces place)⟩
    · refine .inr ⟨place,next,?_,hfail,fun p hp =>
        (RunState.places_of_processor hp).imp_right Processor.mem_places_next⟩
      exact RunState.mem_places.mpr (.inr (.inl (by simp [hp,Processor.places])))
  · rcases hmove.failures with ⟨hsame,hplaces⟩ | ⟨place,next,hw,rfl,hfail⟩
    · exact .inl ⟨hsame,fun place hplace =>
        (RunState.places_of_writer hplace).imp_right (hplaces place)⟩
    · refine .inr ⟨place,next,?_,hfail,fun p hp =>
        (RunState.places_of_writer hp).imp_right Writer.mem_places_next⟩
      exact RunState.mem_places.mpr (.inr (.inr (.inl (by simp [hw,Writer.places]))))
  · rcases hmove.failures with hsame | ⟨place,sh,next,hcaller,hfail,rfl⟩
    · exact .inl hsame
    · refine .inr ⟨place,next,?_,hfail,fun p hp =>
        (RunState.places_of_caller hp).imp_right Caller.mem_places_next⟩
      exact RunState.mem_places.mpr (.inr (.inr (.inr (by simp [hcaller,Caller.places]))))

theorem step_extends {call : RunCall σ} {s s' : RunState σ} {t : Thread}
    (h : call.system.step t s = some s') : s.shared.Extends s'.shared := by
  rcases step_failures h with ⟨hsame,-⟩ | ⟨place,next,-,hfail,-⟩
  · exact hsame.extends
  · exact hfail.extends

/-- Over a whole run no stored failure is replaced, and no failed queue opens or closes. -/
theorem reachable_extends {call : RunCall σ} {s s' : RunState σ}
    (h : call.system.Reachable s s') : s.shared.Extends s'.shared :=
  @TransitionSystem.Reachable.invariant _ _ call.system (fun u => s.shared.Extends u.shared)
    (fun _ _ _ hu hstep => hu.trans (step_extends hstep)) _ _ (.refl _) h

/-- The first failure, the failed queues and the threads in `fail_all` agree. -/
structure RunState.Agrees (s : RunState σ) : Prop where
  shared : s.shared.Agrees
  places : ∀ place ∈ s.places, s.shared.Canonical place

theorem agrees_step {call : RunCall σ} {s s' : RunState σ} {t : Thread} (hs : s.Agrees)
    (h : call.system.step t s = some s') : s'.Agrees := by
  have hext := step_extends h
  rcases step_failures h with ⟨hsame,hplaces⟩ | ⟨place,next,hplace,hfail,hplaces⟩
  · refine ⟨hsame.agrees hs.shared,fun p hp => ?_⟩
    rcases hplaces p hp with hbefore | ⟨failure,rfl⟩
    · exact hext.canonical (hs.places p hbefore)
    · trivial
  · obtain ⟨hagrees,hnext⟩ := hfail.agrees hs.shared (hs.places place hplace)
    refine ⟨hagrees,fun p hp => ?_⟩
    rcases hplaces p hp with hbefore | hnew
    · exact hext.canonical (hs.places p hbefore)
    · exact hnext p hnew

end AsyncDataLoader
