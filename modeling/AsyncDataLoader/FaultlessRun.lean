import AsyncDataLoader.RunOutcome

/-!
# Runs without a fault

When the block sequence has no fault and all threads start, no failure is raised in any
interleaving, so that the run can only return.
-/

namespace AsyncDataLoader

open FileIO

variable {σ : Type*}

/-- The sequence ends after `n` blocks, all of which are read, processed and written. -/
structure RunCall.Faultless (call : RunCall σ) (n : ℕ) : Prop where
  eof : call.EofAt n
  stages : call.stagesAt n ≠ none
  file : call.fileAt n ≠ none
  threads : ∀ w, call.startThread w = none

namespace RunCall

variable {call : RunCall σ}

theorem fileAt_mono {j k : ℕ} (hjk : j ≤ k) (h : call.fileAt k ≠ none) : call.fileAt j ≠ none := by
  induction hjk with
  | refl => exact h
  | step _ ih =>
    refine ih fun hnone => h ?_
    simp [fileAt,hnone]

theorem received_eq_ok {k o buffer bufferSize : ℕ} {data : Bytes} (hpos : data ≠ [])
    (hfit : data.length ≤ bufferSize) (hrange : o+data.length ≤ uint64Max) (hindex : k < uint64Max) :
    received k o data.length buffer bufferSize = .ok ⟨k,o,data.length,buffer⟩ := by
  have hzero : data.length ≠ 0 := fun h => hpos (List.length_eq_zero_iff.mp h)
  simp only [received,checkedAdd_eq_ok _ hrange,BlockWorkItem.make]
  rw [if_neg (Nat.ne_of_lt hindex),if_neg hzero,if_neg (Nat.not_lt.mpr hfit)]

namespace Faultless

variable {n : ℕ} (h : call.Faultless n)
include h

theorem read {k o : ℕ} (hk : call.offsetAt k = some o) :
    call.readAt o call.config.blockSize = .ok [] ∨
    ∃ data, call.readAt o call.config.blockSize = .ok data ∧ data ≠ [] ∧
      data.length ≤ call.config.blockSize ∧ o+data.length ≤ uint64Max ∧ k < uint64Max := by
  have hle : k ≤ n := h.eof.le (by simp [hk])
  rcases Nat.eq_or_lt_of_le hle with rfl | hlt
  · obtain ⟨o',ho',hread⟩ := h.eof
    obtain rfl := Option.some.inj (hk.symm.trans ho')
    exact .inl hread
  · obtain ⟨last,hlast,-⟩ := h.eof
    have hsome : call.offsetAt (k+1) ≠ none := offsetAt_mono hlt (by simp [hlast])
    obtain ⟨next,hnext⟩ := Option.ne_none_iff_exists'.mp hsome
    have hle := offsetAt_le hnext
    obtain ⟨o',ho',hread,hne,hfit,hrange,rfl⟩ := offsetAt_succ hnext
    obtain rfl := Option.some.inj (hk.symm.trans ho')
    exact .inr ⟨_,hread,hne,hfit,hrange,by omega⟩

theorem process {k : ℕ} {stages : List (StageEntry σ)} (hk : call.offsetAt (k+1) ≠ none)
    (hstages : call.stagesAt k = some stages) :
    (Pipeline.process stages (call.rawAt k)).failure = none := by
  have hsome := stagesAt_mono (h.eof.le hk) h.stages
  obtain ⟨next,hnext⟩ := Option.ne_none_iff_exists'.mp hsome
  obtain ⟨stages',hstages',hok,-⟩ := stagesAt_succ hnext
  obtain rfl := Option.some.inj (hstages.symm.trans hstages')
  exact hok

theorem write {k : ℕ} {file : Bytes} (hk : call.offsetAt (k+1) ≠ none)
    (hfile : call.fileAt k = some file) :
    (writeAllAtWith call.writeAt (call.processedAt k) file.length ⟨0,file⟩).1.errorNumber = 0 ∧
    (writeAllAtWith call.writeAt (call.processedAt k) file.length ⟨0,file⟩).1.bytesWritten =
      (call.processedAt k).length := by
  have hsome := fileAt_mono (h.eof.le hk) h.file
  obtain ⟨next,hnext⟩ := Option.ne_none_iff_exists'.mp hsome
  obtain ⟨file',hfile',result,hwrite,herror,hcount⟩ := fileAt_succ hnext
  obtain rfl := Option.some.inj (hfile.symm.trans hfile')
  rw [hwrite]
  exact ⟨herror,hcount⟩

end Faultless
end RunCall

/-- No failure is in flight or stored. -/
structure RunState.Clean (s : RunState σ) : Prop where
  raised : s.raised = []
  firstFailure : s.shared.firstFailure = none

namespace RunState.Clean

variable {s : RunState σ}

theorem places_nil (h : s.Clean) (hagrees : s.Agrees) : s.places = [] := by
  rw [List.eq_nil_iff_forall_not_mem]
  intro place hplace
  have hcanonical := hagrees.places place hplace
  cases place with
  | store failure => exact absurd (raised_of_store hplace) (by simp [h.raised])
  | failRead canonical => simp [Shared.Canonical,h.firstFailure] at hcanonical
  | failWrite canonical => simp [Shared.Canonical,h.firstFailure] at hcanonical

theorem not_failed (h : s.Clean) (hagrees : s.Agrees) (failure : Failure) :
    s.shared.readToProcess.state ≠ .failed failure ∧
    s.shared.processToWrite.state ≠ .failed failure := by
  have hread : s.shared.readToProcess.state ≠ .failed failure := fun hq => by
    have hstored := hagrees.shared.readToProcess failure hq
    simp [h.firstFailure] at hstored
  exact ⟨hread,fun hq => hread (hagrees.shared.processToWrite failure hq)⟩

end RunState.Clean

theorem ReaderMove.clean {call : RunCall σ} {sh sh' : Shared σ} {r r' : Reader} {m n : ℕ}
    (h : ReaderMove call sh r r' sh') (hf : call.Faultless n) (hr : r.At call sh m)
    (hsized : Sized call sh.pool r.held) (hclosed : sh.readToProcess.state = .closed → r.Ended)
    (hfailed : ∀ failure, sh.readToProcess.state ≠ .failed failure) (hplaces : r.places = [])
    (hraised : r.raised = []) : r'.raised = [] ∧ sh'.firstFailure = sh.firstFailure := by
  cases h with
  | @readFailed k o buffer failure hread =>
    obtain ⟨rfl,hat⟩ := hr
    rw [(hsized buffer (by simp [Reader.held])).2] at hread
    rcases hf.read hat with heof | ⟨data,hdata,-⟩
    · rw [heof] at hread; cases hread
    · rw [hdata] at hread; cases hread
  | @rejected k o buffer data failure hread hdata hitem =>
    obtain ⟨rfl,hat⟩ := hr
    rw [(hsized buffer (by simp [Reader.held])).2] at hread hitem
    rcases hf.read hat with heof | ⟨data',hdata',hne,hfit,hrange,hindex⟩
    · rw [heof] at hread
      exact absurd (Except.ok.inj hread).symm hdata
    · rw [hdata'] at hread
      obtain rfl := Except.ok.inj hread
      rw [RunCall.received_eq_ok hne hfit hrange hindex] at hitem
      cases hitem
  | refused hstate hqueue =>
    rcases hstate with hstate | hstate
    · exact (hclosed hstate).elim
    · exact absurd hstate (hfailed _)
  | unwound => cases hraised
  | failing => cases hplaces
  | acquired | readEof | received | pushed | closed | released => exact ⟨rfl,rfl⟩

theorem ProcessorMove.clean {call : RunCall σ} {sh sh' : Shared σ} {r r' : Processor} {p q n : ℕ}
    (h : ProcessorMove sh r r' sh') (hf : call.Faultless n) (hr : r.At call sh p q)
    (hclosed : sh.processToWrite.state = .closed → r = .terminated)
    (hread : ∀ failure, sh.readToProcess.state ≠ .failed failure)
    (hwrite : ∀ failure, sh.processToWrite.state ≠ .failed failure) (hplaces : r.places = [])
    (hraised : r.raised = []) : r'.raised = [] ∧ sh'.firstFailure = sh.firstFailure := by
  cases h with
  | popFailed hstate hqueue => exact absurd hstate (hread _)
  | @stageFailed item failure hstage =>
    obtain ⟨-,hstages,hraw⟩ := hr
    have hnext : call.offsetAt (q+1) ≠ none := by simp [hraw.next]
    rw [show sh.validData item = call.rawAt q from hraw.bytes,hf.process hnext hstages] at hstage
    cases hstage
  | refused hstate hqueue =>
    rcases hstate with hstate | hstate
    · cases hclosed hstate
    · exact absurd hstate (hwrite _)
  | unwound => cases hraised
  | failing => cases hplaces
  | popped | ended | processed | pushed | closed => exact ⟨rfl,rfl⟩

theorem WriterMove.clean {call : RunCall σ} {sh sh' : Shared σ} {r r' : Writer} {w n : ℕ}
    (h : WriterMove call sh r r' sh') (hf : call.Faultless n) (hr : r.At call sh w)
    (hfailed : ∀ failure, sh.processToWrite.state ≠ .failed failure) (hplaces : r.places = [])
    (hraised : r.raised = []) : r'.raised = [] ∧ sh'.firstFailure = sh.firstFailure := by
  cases h with
  | popFailed hstate hqueue => exact absurd hstate (hfailed _)
  | @writeFailed item writtenCount result failure bytesWritten hattempt hcause =>
    obtain ⟨-,base,hwriting⟩ := hr
    obtain ⟨hoffset,hbytes,hlen,hrange,hvalid⟩ := hwriting.geometry
    have hnext := hwriting.item.1.next
    rw [hvalid,hoffset] at hattempt
    have hdone := hwriting.same.symm.trans (writeAllAtWith_done hattempt)
    have hok := hf.write (by simp [hnext]) hwriting.file
    rw [hdone] at hok
    have hle := RunCall.offsetAt_le hnext
    rw [hvalid,hlen] at hcause
    rcases hcause with herror | hshort | hoverflow | hoverflow
    · exact absurd hok.1 herror
    · exact absurd (hok.2.trans hlen) hshort
    · omega
    · omega
  | unwound => cases hraised
  | failing => cases hplaces
  | popped | ended | wrote | finished | released => exact ⟨rfl,rfl⟩

theorem clean_step {call : RunCall σ} {s s' : RunState σ} {t : Thread} {n : ℕ}
    (hf : call.Faultless n) (hs : s.Sound call) (hflow : ∃ m p q w, s.Flows call m p q w)
    (h : s.Clean) (hstep : call.system.step t s = some s') : s'.Clean := by
  obtain ⟨m,p,q,w,hflow⟩ := hflow
  have ho := hs.orderly
  have hread := fun failure => (h.not_failed hs.agrees failure).1
  have hwrite := fun failure => (h.not_failed hs.agrees failure).2
  have hfirst := h.firstFailure
  obtain ⟨⟨⟨hr,hp⟩,hw⟩,hc⟩ : ((s.reader.raised = [] ∧ s.processor.raised = []) ∧
      s.writer.raised = []) ∧ s.caller.raised = [] := by
    simpa only [RunState.raised,List.append_eq_nil_iff] using h.raised
  obtain ⟨⟨⟨hrp,hpp⟩,hwp⟩,hcp⟩ : ((s.reader.places = [] ∧ s.processor.places = []) ∧
      s.writer.places = []) ∧ s.caller.places = [] := by
    simpa only [RunState.places,List.append_eq_nil_iff] using h.places_nil hs.agrees
  rcases RunCall.step_cases hstep with
    ⟨r,sh,hmove,rfl⟩ | ⟨r,sh,hmove,rfl⟩ | ⟨r,sh,hmove,rfl⟩ | hmove
  · have hsized : Sized call s.shared.pool s.reader.held := fun i hi =>
      hs.sized i (by simp [RunState.holders,hi])
    obtain ⟨hr',hsame⟩ := hmove.clean hf hflow.reader hsized ho.readClosed hread hrp hr
    exact ⟨by simp [RunState.raised,hr',hp,hw,hc],hsame.trans hfirst⟩
  · obtain ⟨hp',hsame⟩ := hmove.clean hf hflow.processor ho.writeClosed hread hwrite hpp hp
    exact ⟨by simp [RunState.raised,hr,hp',hw,hc],hsame.trans hfirst⟩
  · obtain ⟨hw',hsame⟩ := hmove.clean hf hflow.writer hwrite hwp hw
    exact ⟨by simp [RunState.raised,hr,hp,hw',hc],hsame.trans hfirst⟩
  · cases hmove with
    | startFailed hcaller hstart => rw [hf.threads] at hstart; cases hstart
    | failing hcaller hfail => rw [hcaller] at hcp; cases hcp
    | writerStarted => exact ⟨by simp [RunState.raised,hr,hp,Writer.raised,Caller.raised],hfirst⟩
    | processorStarted =>
      exact ⟨by simp [RunState.raised,hr,hw,Processor.raised,Caller.raised],hfirst⟩
    | readerStarted => exact ⟨by simp [RunState.raised,hp,hw,Reader.raised,Caller.raised],hfirst⟩
    | joined => exact ⟨by simp [RunState.raised,hr,hp,hw,Caller.raised],hfirst⟩

theorem reachable_clean {call : RunCall σ} {s₀ s : RunState σ} {n : ℕ} (hf : call.Faultless n)
    (h : call.start = .ok s₀) (hs : call.system.Reachable s₀ s) : s.Clean := by
  have h₀ : s₀.Clean := by
    have hinit := start_initial h
    refine ⟨?_,hinit.firstFailure⟩
    simp [RunState.raised,hinit.reader,hinit.processor,hinit.writer,hinit.caller,Reader.raised,
      Processor.raised,Writer.raised,Caller.raised]
  exact @TransitionSystem.Reachable.invariant_of_reachable _ _ call.system s₀
    (fun u => u.Clean) h₀
    (fun _ _ _ hu hclean hstep => clean_step hf (reachable_sound h hu) (reachable_flows h hu)
      hclean hstep) _ hs

theorem done_ok {call : RunCall σ} {s₀ s : RunState σ} {n : ℕ}
    {outcome : Except Failure PipelineRunResult} (hf : call.Faultless n)
    (h : call.start = .ok s₀) (hs : call.system.Reachable s₀ s) (hdone : s.caller = .done outcome) :
    outcome = .ok s.shared.runResult := by
  have houtcome := ((reachable_sound h hs).orderly.finished outcome hdone).2
  rw [houtcome,RunCall.outcome,(reachable_clean hf h hs).firstFailure]

end AsyncDataLoader
