import AsyncDataLoader.DataFlow

/-!
# What a run returns or throws

A run throws exactly when an exception was in flight in some thread, and then rethrows the
one that was stored first. A run that returns has written everything.
-/

namespace AsyncDataLoader

variable {σ : Type*}

/-- The exception that is in flight in a thread, until `fail_all` has stored it. -/
def FailAll.raised : FailAll → List Failure
  | .store failure => [failure]
  | _ => []

def Reader.raised : Reader → List Failure
  | .unwind _ failure => [failure]
  | .failing place => place.raised
  | _ => []

def Processor.raised : Processor → List Failure
  | .unwind _ failure => [failure]
  | .failing place => place.raised
  | _ => []

def Writer.raised : Writer → List Failure
  | .unwind _ failure => [failure]
  | .failing place => place.raised
  | _ => []

def Caller.raised : Caller → List Failure
  | .failing place => place.raised
  | _ => []

def RunState.raised (s : RunState σ) : List Failure :=
  s.reader.raised++s.processor.raised++s.writer.raised++s.caller.raised

theorem FailAll.raised_of_store {place : FailAll} {failure : Failure}
    (h : .store failure ∈ [place]) : failure ∈ place.raised := by
  obtain rfl := List.mem_singleton.mp h
  exact List.mem_singleton_self failure

theorem Reader.raised_of_store {r : Reader} {failure : Failure} (h : .store failure ∈ r.places) :
    failure ∈ r.raised := by
  cases r with
  | failing => exact FailAll.raised_of_store h
  | _ => cases h

theorem Processor.raised_of_store {p : Processor} {failure : Failure}
    (h : .store failure ∈ p.places) : failure ∈ p.raised := by
  cases p with
  | failing => exact FailAll.raised_of_store h
  | _ => cases h

theorem Writer.raised_of_store {w : Writer} {failure : Failure} (h : .store failure ∈ w.places) :
    failure ∈ w.raised := by
  cases w with
  | failing => exact FailAll.raised_of_store h
  | _ => cases h

theorem Caller.raised_of_store {c : Caller} {failure : Failure} (h : .store failure ∈ c.places) :
    failure ∈ c.raised := by
  cases c with
  | failing => exact FailAll.raised_of_store h
  | _ => cases h

theorem raised_of_store {s : RunState σ} {failure : Failure} (h : .store failure ∈ s.places) :
    failure ∈ s.raised := by
  simp only [RunState.places,List.mem_append] at h
  simp only [RunState.raised,List.mem_append]
  rcases h with ((hr | hp) | hw) | hc
  · exact .inl (.inl (.inl (Reader.raised_of_store hr)))
  · exact .inl (.inl (.inr (Processor.raised_of_store hp)))
  · exact .inl (.inr (Writer.raised_of_store hw))
  · exact .inr (Caller.raised_of_store hc)

theorem FailMove.stored {sh sh' : Shared σ} {place : FailAll} {next : Option FailAll}
    (h : FailMove sh place sh' next) (hraised : place.raised ≠ []) : sh'.firstFailure ≠ none := by
  cases h with
  | store failure => simp
  | failRead | failWrite => exact absurd rfl hraised

theorem ReaderMove.raised {call : RunCall σ} {sh sh' : Shared σ} {r r' : Reader}
    (h : ReaderMove call sh r r' sh') (hraised : r.raised ≠ []) :
    r'.raised ≠ [] ∨ sh'.firstFailure ≠ none := by
  cases h with
  | failing hfail => exact .inr (hfail.stored hraised)
  | unwound => exact .inl (by simp [Reader.raised,FailAll.raised])
  | acquired | readFailed | readEof | rejected | received | pushed | refused | closed | released =>
    exact absurd rfl hraised

theorem ProcessorMove.raised {sh sh' : Shared σ} {p p' : Processor}
    (h : ProcessorMove sh p p' sh') (hraised : p.raised ≠ []) :
    p'.raised ≠ [] ∨ sh'.firstFailure ≠ none := by
  cases h with
  | failing hfail => exact .inr (hfail.stored hraised)
  | unwound => exact .inl (by simp [Processor.raised,FailAll.raised])
  | popped | ended | popFailed | stageFailed | processed | pushed | refused | closed =>
    exact absurd rfl hraised

theorem WriterMove.raised {call : RunCall σ} {sh sh' : Shared σ} {w w' : Writer}
    (h : WriterMove call sh w w' sh') (hraised : w.raised ≠ []) :
    w'.raised ≠ [] ∨ sh'.firstFailure ≠ none := by
  cases h with
  | failing hfail => exact .inr (hfail.stored hraised)
  | unwound => exact .inl (by simp [Writer.raised,FailAll.raised])
  | popped | ended | popFailed | wrote | finished | writeFailed | released =>
    exact absurd rfl hraised

theorem CallerMove.raised {call : RunCall σ} {s s' : RunState σ} (h : CallerMove call s s')
    (hraised : s.caller.raised ≠ []) : s'.shared.firstFailure ≠ none := by
  cases h with
  | failing hcaller hfail =>
    rw [hcaller] at hraised
    exact hfail.stored hraised
  | writerStarted hcaller | processorStarted hcaller | readerStarted hcaller | joined hcaller =>
    rw [hcaller] at hraised
    exact absurd rfl hraised
  | @startFailed w failure hcaller =>
    rw [hcaller] at hraised
    cases w <;> exact absurd rfl hraised

/-- A failure has been raised: it is in flight, or one has been stored. -/
def RunState.Failed (s : RunState σ) : Prop := s.raised ≠ [] ∨ s.shared.firstFailure ≠ none

theorem RunState.raised_ne_nil (s : RunState σ) : s.raised ≠ [] ↔
    s.reader.raised ≠ [] ∨ s.processor.raised ≠ [] ∨ s.writer.raised ≠ [] ∨ s.caller.raised ≠ [] := by
  simp only [RunState.raised,ne_eq,List.append_eq_nil_iff,not_and_or,or_assoc]

theorem CallerMove.keeps {call : RunCall σ} {s s' : RunState σ} (ho : s.Orderly)
    (h : CallerMove call s s') :
    (s.reader.raised ≠ [] → s'.reader.raised ≠ []) ∧
    (s.processor.raised ≠ [] → s'.processor.raised ≠ []) ∧
    (s.writer.raised ≠ [] → s'.writer.raised ≠ []) := by
  cases h with
  | writerStarted hcaller =>
    have hw := ho.writerWaits hcaller
    exact ⟨id,id,fun hne => absurd (by rw [hw]; rfl) hne⟩
  | processorStarted hcaller =>
    have hp := ho.processorWaits (.inr hcaller)
    exact ⟨id,fun hne => absurd (by rw [hp]; rfl) hne,id⟩
  | readerStarted hcaller =>
    have hr := ho.readerWaits (by rw [hcaller]; trivial)
    exact ⟨fun hne => absurd (by rw [hr]; rfl) hne,id,id⟩
  | startFailed | failing | joined => exact ⟨id,id,id⟩

theorem RunState.Failed.keep {s s' : RunState σ} (h : s.raised ≠ [])
    (hreader : s.reader.raised ≠ [] → s'.reader.raised ≠ [] ∨ s'.shared.firstFailure ≠ none)
    (hprocessor : s.processor.raised ≠ [] →
      s'.processor.raised ≠ [] ∨ s'.shared.firstFailure ≠ none)
    (hwriter : s.writer.raised ≠ [] → s'.writer.raised ≠ [] ∨ s'.shared.firstFailure ≠ none)
    (hcaller : s.caller.raised ≠ [] → s'.caller.raised ≠ [] ∨ s'.shared.firstFailure ≠ none) :
    s'.Failed := by
  rw [RunState.Failed,RunState.raised_ne_nil]
  rcases s.raised_ne_nil.mp h with hr | hp | hw | hc
  · exact (hreader hr).imp_left .inl
  · exact (hprocessor hp).imp_left fun h => .inr (.inl h)
  · exact (hwriter hw).imp_left fun h => .inr (.inr (.inl h))
  · exact (hcaller hc).imp_left fun h => .inr (.inr (.inr h))

theorem failed_step {call : RunCall σ} {s s' : RunState σ} {t : Thread} (ho : s.Orderly)
    (hs : s.Failed) (h : call.system.step t s = some s') : s'.Failed := by
  rcases hs with hraised | hstored
  · rcases RunCall.step_cases h with
      ⟨r,sh,hmove,rfl⟩ | ⟨p,sh,hmove,rfl⟩ | ⟨w,sh,hmove,rfl⟩ | hmove
    · exact .keep hraised hmove.raised .inl .inl .inl
    · exact .keep hraised .inl hmove.raised .inl .inl
    · exact .keep hraised .inl .inl hmove.raised .inl
    · obtain ⟨hreader,hprocessor,hwriter⟩ := hmove.keeps ho
      exact .keep hraised (fun hr => .inl (hreader hr)) (fun hp => .inl (hprocessor hp))
        (fun hw => .inl (hwriter hw)) fun hc => .inr (hmove.raised hc)
  · right
    obtain ⟨failure,hfailure⟩ := Option.ne_none_iff_exists'.mp hstored
    simp [(step_extends h).firstFailure failure hfailure]

/-- Only storing an exception in flight sets the first failure. -/
theorem first_stored {call : RunCall σ} {s s' : RunState σ} {t : Thread} {failure : Failure}
    (h : call.system.step t s = some s') (hnone : s.shared.firstFailure = none)
    (hsome : s'.shared.firstFailure = some failure) : .store failure ∈ s.places := by
  rcases step_failures h with ⟨hsame,-⟩ | ⟨place,next,hplace,hfail,-⟩
  · rw [hsame.firstFailure,hnone] at hsome
    cases hsome
  · generalize hsh : s'.shared = sh' at hfail hsome
    cases hfail with
    | store failure' =>
      rw [hnone] at hsome
      obtain rfl : failure' = failure := Option.some.inj hsome
      exact hplace
    | failRead canonical hpool => rw [hnone] at hsome; cases hsome
    | failWrite canonical hpool => rw [hnone] at hsome; cases hsome

/-- In the run `ts`, the exception `failure` was stored when no other was there. -/
def StoredFirst (call : RunCall σ) (s₀ : RunState σ) (ts : List Thread) (failure : Failure) : Prop :=
  ∃ before t after u v, ts = before++t::after ∧ call.system.exec s₀ before = some u ∧
    call.system.step t u = some v ∧ u.shared.firstFailure = none ∧ .store failure ∈ u.places ∧
    v.shared.firstFailure = some failure

theorem stored_first {call : RunCall σ} {s₀ s : RunState σ} {ts : List Thread} {failure : Failure}
    (h₀ : s₀.shared.firstFailure = none) (h : call.system.exec s₀ ts = some s)
    (hsome : s.shared.firstFailure = some failure) : StoredFirst call s₀ ts failure := by
  induction ts using List.reverseRecOn generalizing s with
  | nil =>
    obtain rfl := Option.some.inj h
    rw [h₀] at hsome
    cases hsome
  | append_singleton ts t ih =>
    rw [TransitionSystem.exec_append,Option.bind_eq_some_iff] at h
    obtain ⟨u,hu,hstep⟩ := h
    rw [TransitionSystem.exec_cons,Option.bind_eq_some_iff] at hstep
    obtain ⟨v,hstep,hv⟩ := hstep
    obtain rfl := Option.some.inj hv
    cases hfirst : u.shared.firstFailure with
    | none =>
      exact ⟨ts,t,[],u,v,rfl,hu,hstep,hfirst,first_stored hstep hfirst hsome,hsome⟩
    | some first =>
      have hkept := (step_extends hstep).firstFailure first hfirst
      obtain rfl := Option.some.inj (hkept.symm.trans hsome)
      obtain ⟨before,t',after,u',v',rfl,hrest⟩ := ih hu hfirst
      exact ⟨before,t',after++[t],u',v',by simp,hrest⟩

/-- The failures of a run `ts` that has reached `s`, and what `run` makes of them. -/
structure FailureContract (call : RunCall σ) (s₀ : RunState σ) (ts : List Thread)
    (s : RunState σ) : Prop where
  queues_agree : ∀ failure, s.shared.readToProcess.state = .failed failure ∨
    s.shared.processToWrite.state = .failed failure → s.shared.firstFailure = some failure
  kept : ∀ us t, call.system.exec s us = some t → s.shared.Extends t.shared
  stored_first : ∀ failure, s.shared.firstFailure = some failure → StoredFirst call s₀ ts failure
  throws_iff : ∀ outcome, s.caller = .done outcome → ((∃ failure, outcome = .error failure) ↔
    ∃ before after u, ts = before++after ∧ call.system.exec s₀ before = some u ∧ u.raised ≠ [])
  rethrown : ∀ failure, s.caller = .done (.error failure) → s.shared.firstFailure = some failure
  complete : ∀ result, s.caller = .done (.ok result) → Complete call result s.shared.output

theorem done_raised {s : RunState σ} {outcome : Except Failure PipelineRunResult} (ho : s.Orderly)
    (hdone : s.caller = .done outcome) : s.raised = [] := by
  obtain ⟨hr,hp,hw⟩ := (ho.finished outcome hdone).1
  have hr' : s.reader.raised = [] := by rcases hr with hr | hr <;> rw [hr] <;> rfl
  have hp' : s.processor.raised = [] := by rcases hp with hp | hp <;> rw [hp] <;> rfl
  have hw' : s.writer.raised = [] := by rcases hw with hw | hw <;> rw [hw] <;> rfl
  simp [RunState.raised,hr',hp',hw',hdone,Caller.raised]

theorem run_failures (call : RunCall σ) {s₀ s : RunState σ} {ts : List Thread}
    (h : call.start = .ok s₀) (hrun : call.system.exec s₀ ts = some s) :
    FailureContract call s₀ ts s := by
  have hs : call.system.Reachable s₀ s := ⟨ts,hrun⟩
  have hsound := reachable_sound h hs
  have hagrees := hsound.agrees.shared
  have hrethrown : ∀ failure, s.caller = .done (.error failure) →
      s.shared.firstFailure = some failure := by
    intro failure hdone
    have houtcome := (hsound.orderly.finished _ hdone).2
    unfold RunCall.outcome at houtcome
    split at houtcome
    · rename_i first hfirst
      rw [hfirst,Except.error.inj houtcome]
    · cases houtcome
  have hstored := fun failure => @stored_first σ call s₀ s ts failure (start_initial h).firstFailure hrun
  refine ⟨fun failure hq => ?_,fun us t ht => reachable_extends ⟨us,ht⟩,hstored,
    fun outcome hdone => ⟨?_,?_⟩,hrethrown,fun result hdone => done_complete h hs hdone⟩
  · rcases hq with hq | hq
    · exact hagrees.readToProcess failure hq
    · exact hagrees.readToProcess failure (hagrees.processToWrite failure hq)
  · rintro ⟨failure,rfl⟩
    obtain ⟨before,t,after,u,v,hsplit,hu,-,-,hplace,-⟩ := hstored failure (hrethrown failure hdone)
    exact ⟨before,t::after,u,hsplit,hu,List.ne_nil_of_mem (raised_of_store hplace)⟩
  · rintro ⟨before,after,u,rfl,hu,hraised⟩
    rw [TransitionSystem.exec_append,hu,Option.bind_some] at hrun
    have hinv : s.Failed ∧ s.Sound call :=
      @TransitionSystem.Reachable.invariant _ _ call.system (fun v => v.Failed ∧ v.Sound call)
        (fun _ _ _ hv hstep => ⟨failed_step hv.2.orderly hv.1 hstep,sound_step hv.2 hstep⟩) _ _
        ⟨.inl hraised,reachable_sound h ⟨before,hu⟩⟩ ⟨after,hrun⟩
    have houtcome := (hsound.orderly.finished outcome hdone).2
    rcases hinv.1 with hstill | hfirst
    · exact absurd (done_raised hsound.orderly hdone) hstill
    · obtain ⟨failure,hfailure⟩ := Option.ne_none_iff_exists'.mp hfirst
      exact ⟨failure,by rw [houtcome,RunCall.outcome,hfailure]⟩

/-- The calling thread fails the queues, which makes the processor and the writer fail. -/
theorem run_failures_withoutReader : ∃ s₀ s, RunCall.withoutReader.start = .ok s₀ ∧
    RunCall.withoutReader.system.exec s₀ [.caller,.caller,.caller,.caller,.caller,.caller,
      .worker .processor,.worker .processor,.worker .processor,.worker .processor,
      .worker .writer,.worker .writer,.worker .writer,.worker .writer,.caller] = some s ∧
    s.caller = .done (.error (.systemError EAGAIN "thread")) ∧
    FailureContract RunCall.withoutReader s₀ [.caller,.caller,.caller,.caller,.caller,.caller,
      .worker .processor,.worker .processor,.worker .processor,.worker .processor,
      .worker .writer,.worker .writer,.worker .writer,.worker .writer,.caller] s :=
  ⟨_,_,rfl,rfl,rfl,run_failures _ rfl rfl⟩

end AsyncDataLoader
