import AsyncDataLoader.EndToEndSafety
import Mathlib.Data.Prod.Lex

/-!
# Runs of the end-to-end benchmark

Every run of the harness comes to an end, which is never a failure when the system refuses nothing
and every read of the input finds the same number of blocks.
-/

namespace AsyncDataLoader
namespace EndToEnd

open FileIO PreprocessDemo

/-- What is left of a run: the iterations to come, the methods to come in this one, and the steps
of the threads that are running. -/
def workOf (iterations methods steps : ℕ) : ℕ ×ₗ ℕ ×ₗ ℕ := toLex (iterations,toLex (methods,steps))

theorem workOf_lt {a b c a' b' c' : ℕ} :
    workOf a b c < workOf a' b' c' ↔ a < a' ∨ a = a' ∧ (b < b' ∨ b = b' ∧ c < c') := by
  simp [workOf,Prod.Lex.toLex_lt_toLex]

def BenchmarkPlace.work {Double : Type} (options : BenchmarkOptions) :
    BenchmarkPlace Double → ℕ ×ₗ ℕ ×ₗ ℕ
  | .parseOptions => workOf (2*options.iterations+3) 0 0
  | .checkOptions o => workOf (2*o.iterations+2) 0 0
  | .iterate o p => workOf (2*(o.iterations-p.iteration)+1) 0 0
  | .sample o p => workOf (2*(o.iterations-p.iteration)) (2*p.remaining.length+1) 0
  | .running o p _ _ _ r => workOf (2*(o.iterations-p.iteration)) (2*p.remaining.length) r.work
  | .report _ _ => workOf 0 1 0
  | .returned _ _ | .exited _ _ => workOf 0 0 0

section

variable {system : BenchmarkSystem} {argv : List (List Char)}
  {s s' : BenchmarkState system.fp.Double} {before files : FileSystem Path Bytes} {input : Bytes}
  {options : BenchmarkOptions} {p : Progress system.fp.Double} {method : Method} {inode : ℕ}
  {rest : List Method} {iterations methods steps : ℕ}

theorem work_after {α : Type} {r : Except Failure α} {next : α → BenchmarkState system.fp.Double}
    (hpos : 0 < iterations ∨ 0 < methods)
    (hnext : ∀ a, r = .ok a → (next a).place.work options < workOf iterations methods steps) :
    (system.after r next files).place.work options < workOf iterations methods steps := by
  cases r with
  | error failure =>
    refine workOf_lt.mpr ?_
    omega
  | ok a => exact hnext a rfl

/-- A method that has been timed does not come again in this iteration. -/
theorem work_finishSample (hremaining : p.remaining = method::rest)
    (hmethods : 2*rest.length+1 < methods) (blocksWritten bytesWritten : ℕ) :
    (system.finishSample options p method blocksWritten bytesWritten inode files).place.work
      options < workOf (2*(options.iterations-p.iteration)) methods steps := by
  refine work_after (.inr (by omega)) fun _ _ => workOf_lt.mpr (.inr ⟨rfl,.inl ?_⟩)
  rw [Progress.record,hremaining,List.tail_cons]
  exact hmethods

theorem work_beginSample (hremaining : p.remaining = method::rest) :
    (system.beginSample options p method files).place.work options <
      (BenchmarkPlace.sample options p).work options := by
  have hlength : p.remaining.length = rest.length+1 := congrArg List.length hremaining
  have hsample : (BenchmarkPlace.sample options p).work options =
    workOf (2*(options.iterations-p.iteration)) (2*rest.length+3) 0 := by
      rw [BenchmarkPlace.work,hlength]
      rfl
  rw [hsample]
  refine work_after (.inr (by omega)) fun ⟨file,inode,opened⟩ _ =>
    work_after (.inr (by omega)) fun _ _ => ?_
  cases method with
  | serial =>
    exact work_after (.inr (by omega)) fun _ _ => work_finishSample hremaining (by omega) _ _
  | noOverlap | overlap =>
    refine work_after (.inr (by omega)) fun s₀ hstart => workOf_lt.mpr (.inr ⟨rfl,.inl ?_⟩)
    omega

theorem work_main (hparse : parseOptions argv = some options)
    (hs : Consistent system options before input s.files s.place)
    (hstep : system.mainStep argv s.files s.place = some s') :
    s'.place.work options < s.place.work options := by
  obtain ⟨place,files⟩ := s
  cases mainStep_cases hstep with
  | rejected => exact workOf_lt.mpr (.inl (Nat.succ_pos _))
  | parsed o hsome =>
    obtain rfl := Option.some.inj (hsome.symm.trans hparse)
    exact workOf_lt.mpr (.inl (Nat.lt_succ_self _))
  | checked o =>
    exact work_after (.inl (by omega)) fun _ _ => workOf_lt.mpr (.inl (Nat.lt_succ_self _))
  | begun o p => exact workOf_lt.mpr (.inl (Nat.lt_succ_self _))
  | counted o p => exact workOf_lt.mpr (.inl (Nat.succ_pos _))
  | finished o p hremaining =>
    obtain ⟨rfl,timed,h⟩ := hs
    have hlt := h.iteration
    refine work_after (.inl (by omega)) fun p' hfinish => workOf_lt.mpr (.inl ?_)
    obtain ⟨expected,hexpect,rfl⟩ := finishIteration_eq hfinish
    have hiteration : expected.push.iteration = p.iteration+1 :=
      congrArg (·+1) (expect_iteration hexpect)
    omega
  | sampled o p method rest hremaining =>
    obtain ⟨rfl,-⟩ := hs
    exact work_beginSample hremaining
  | returned o p method call inode r =>
    obtain ⟨rfl,⟨timed,rest,h,hremaining⟩,-⟩ := hs
    have hlength : p.remaining.length = rest.length+1 := congrArg List.length hremaining
    exact work_after (.inr (by omega)) fun _ _ => work_finishSample hremaining (by omega) _ _
  | reported o p => exact work_after (.inr Nat.one_pos) fun _ _ => workOf_lt.mpr (by omega)

/-- Every step of the harness, or of a thread of its pipelines, leaves less to do. -/
theorem work_step (hparse : parseOptions argv = some options)
    (hs : Consistent system options before input s.files s.place) {action : RunFileAction}
    (hstep : (system.transitions argv).step action s = some s') :
    s'.place.work options < s.place.work options := by
  cases action with
  | main => exact work_main hparse hs hstep
  | thread t =>
    obtain ⟨place,files⟩ := s
    cases place with
    | running o p method call inode r =>
      obtain ⟨-,-,-,⟨s₀,hstart,hr⟩,-,-⟩ := hs
      obtain ⟨r',hr',rfl⟩ := Option.map_eq_some_iff.mp hstep
      exact workOf_lt.mpr (.inr ⟨rfl,.inr ⟨rfl,
        AsyncDataLoader.work_step (reachable_sound hstart hr).orderly hr'⟩⟩)
    | _ => cases hstep

end

section

variable (system : BenchmarkSystem) (options : BenchmarkOptions) (before : FileSystem Path Bytes)
  (input : Bytes)

structure Counted (n : ℕ) (p : Progress system.fp.Double) : Prop where
  expected : 0 < p.iteration → p.expectedBlocks = n
  results : ∀ method, method ∉ p.remaining → (p.results method).blocksWritten = n

end

section

variable {system : BenchmarkSystem} {options : BenchmarkOptions}
  {before files : FileSystem Path Bytes} {input : Bytes} {method : Method} {inode n : ℕ}
  {p : Progress system.fp.Double} {timed rest : List Method} {argv : List (List Char)}
  {s s' : BenchmarkState system.fp.Double}

theorem Counted.record (h : Counted system n p) (hremaining : p.remaining = method::rest)
    {result : TimedEndToEndResult system.fp.Double} (hblocks : result.blocksWritten = n) :
    Counted system n (p.record method result) := by
  refine ⟨h.expected,fun m hm => ?_⟩
  by_cases hne : m = method
  · subst hne
    rwa [Progress.record_self]
  · rw [Progress.record_ne hne]
    refine h.results m fun hmem => hm ?_
    rw [hremaining] at hmem
    rw [Progress.record,hremaining,List.tail_cons]
    exact List.mem_of_ne_of_mem hne hmem

end

section

variable (system : BenchmarkSystem) (options : BenchmarkOptions) (before : FileSystem Path Bytes)
  (input : Bytes)

end

section

def smallestArguments : List (List Char) :=
  ["bench","in","s","out","o","4096","3","1","2"].map String.toList

def smallestOptions : BenchmarkOptions where
  inputPath := "in".toList
  serialOutputPath := "s".toList
  noOverlapOutputPath := "out".toList
  overlapOutputPath := "o".toList
  overlapConfig := ⟨4096,3,1,4096⟩
  iterations := 2

open Classical in
noncomputable def newInode (files : FileSystem Path Bytes) : Except ℕ ℕ :=
  if h : ∃ inode, ∀ d n, files.entries d n ≠ some inode then .ok h.choose else .error 28

theorem newInode_ok {files : FileSystem Path Bytes} {inode : ℕ} (h : newInode files = .ok inode) :
    ∀ d n, files.entries d n ≠ some inode := by
  unfold newInode at h
  split_ifs at h with hunused
  exact Except.ok.inj h ▸ hunused.choose_spec

noncomputable def BenchmarkSystem.smallest : BenchmarkSystem where
  fp := .rational
  queries := ⟨fun path => .ok path.filename,fun l r => (l.filename = r.filename,0),
    fun _ => (true,0)⟩
  directory := fun _ => 1
  sample := fun i _ => {
    queries := ⟨fun path => .ok path.filename,fun l r => (l.filename = r.filename,0),
      fun _ => (true,0)⟩
    openInput := fun files => openSmall files "in".toList
    openOutput := newInode
    registerMemory := none
    inputFd := 3
    outputFd := 4
    memory := fun _ _ => 0
    writeAt := fun _ length => .counting 0 length
    startThread := fun _ => none
    fsyncOutput := .counting 0 0
    elapsedMs := (i+1 : ℚ) }
  openCompared := fun _ method files =>
    (openSmall files "s".toList,openSmall files (smallestOptions.outputPath method).filename)
  comparedMemory := fun _ _ => (⟨true,fun _ => 0⟩,⟨true,fun _ => 0⟩)

theorem BenchmarkSystem.smallest_honoured :
    BenchmarkSystem.smallest.Honoured smallestOptions withInput [1,2,3] where
  input := ⟨5,rfl⟩
  canonical := fun _ _ heq => congrArg Except.ok (Prod.mk.inj heq).2
  equivalent := by
    intro left right inode hleft hright
    have hname : left.filename = right.filename := by
      simp only [inodeAt,entry,smallest,withInput] at hleft hright
      split_ifs at hleft hright with hin hin' hout' hout hin' hout'
      · exact hin.2.trans hin'.2.symm
      · exact absurd (hleft.trans hright.symm) (by decide)
      · exact absurd (hleft.trans hright.symm) (by decide)
      · exact hout.2.trans hout'.2.symm
    exact Prod.ext (decide_eq_true hname) rfl
  new := fun _ _ _ _ hopen _ => newInode_ok hopen
  openedInput := by
    intro i method files file inode contents hopen hentry
    obtain ⟨hshort,hbytes⟩ := openSmall_ok hopen
    exact ⟨hbytes inode contents hentry,hshort.nonzeroBeforeEof⟩
  openedCompared := by
    intro i method files left right inode inode' contents contents' hopen hserial hmethod
    obtain ⟨hleft,hright⟩ := Prod.mk.inj hopen
    exact ⟨(openSmall_ok hleft).2 inode contents hserial,
      (openSmall_ok hright).2 inode' contents' hmethod⟩

end

end EndToEnd
end AsyncDataLoader
