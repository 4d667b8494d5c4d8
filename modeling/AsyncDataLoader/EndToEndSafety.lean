import AsyncDataLoader.EndToEndBenchmark

/-!
# What the benchmark compares

When the harness returns, each of its methods has written the whole input incremented, and has been
timed once in every iteration. The input is never changed.
-/

namespace AsyncDataLoader

open FileIO

theorem SyncBackend.readsFrom {σ : Type*} {call : RunCall σ} {input : InputFile}
    (hread : call.readAt = SyncBackend.readAt input) (h : input.NonzeroBeforeEof) :
    call.ReadsFrom input.bytes := by
  refine ⟨fun offset length data hdata => ?_,fun offset length hlength hnil => ?_⟩
  · rcases sync_read hread offset length with ⟨failure,hfailed,-⟩ | ⟨data',hok,-,-,heq,-⟩
    · rw [hfailed] at hdata
      cases hdata
    · obtain rfl := Except.ok.inj (hok.symm.trans hdata)
      exact heq
  · rcases sync_read hread offset length with ⟨failure,hfailed,-⟩ | ⟨data,hok,hnumber,hcount,-⟩
    · rw [hfailed] at hnil
      cases hnil
    · obtain rfl := Except.ok.inj (hok.symm.trans hnil)
      by_contra hlt
      have hpos := h offset length hlength (Nat.lt_of_not_le hlt) hnumber
      rw [hcount] at hpos
      exact absurd hpos (Nat.lt_irrefl 0)

namespace SerialReference

variable {σ : Type*} {input : InputFile} {call : RunCall σ} {memory : ℕ → UInt8}
  {result : SerialPipelineResult} {output : Bytes}

theorem accepted_of_ok (h : runSerialPipelineReference input call memory = (.ok result,output)) :
    call.Accepted := by
  unfold runSerialPipelineReference at h
  split at h
  · cases h
  · rename_i hconfig
    split_ifs at h with hdescriptors hsame hstages
    · cases h
    · cases h
    · cases h
    · obtain ⟨hinput,houtput⟩ := not_or.mp hdescriptors
      exact ⟨hconfig,not_lt.mp hinput,not_lt.mp houtput,hsame,
        fun hnil => hstages (by rw [hnil]; rfl)⟩

theorem complete_of_ok (hread : call.readAt = SyncBackend.readAt input)
    (h : runSerialPipelineReference input call memory = (.ok result,output)) :
    Complete call ⟨result.blocksWritten,result.bytesWritten⟩ output := by
  rw [runSerialPipelineReference_eq input memory (accepted_of_ok h)] at h
  obtain ⟨n,heof,hstages,hfile⟩ :=
    serial_returns hread (serialStart_at call memory) (congrArg Prod.fst h)
  obtain ⟨file,hfile⟩ := Option.ne_none_iff_exists'.mp hfile
  obtain ⟨offset,hoffset,-⟩ := id heof
  have hcomplete : Complete call ⟨n,offset⟩ file := ⟨hoffset,heof,hstages,hfile⟩
  rw [serial_complete hread (serialStart_at call memory) hcomplete] at h
  obtain ⟨hresult,rfl⟩ := Prod.mk.inj h
  obtain rfl := Except.ok.inj hresult
  exact hcomplete

end SerialReference

namespace EndToEnd

open PreprocessDemo

def BenchmarkOptions.path (options : BenchmarkOptions) : Option Method → Path
  | none => options.inputPath
  | some method => options.outputPath method

section

variable {queries : PathQueries} {left right : Path} {message : String}

theorem rejectSameFile_ok (h : rejectSameFile queries left right message = .ok ()) :
    queries.weaklyCanonical left ≠ queries.weaklyCanonical right ∧
      queries.equivalent left right ≠ (true,0) := by
  obtain ⟨normalizedLeft,hleft,h⟩ := bind_eq_ok h
  obtain ⟨normalizedRight,hright,h⟩ := bind_eq_ok h
  have hcanonical : ∀ {path normalized}, normalizedPath queries path = .ok normalized →
      queries.weaklyCanonical path = .ok normalized := by
    intro path normalized hpath
    unfold normalizedPath at hpath
    split at hpath
    · cases hpath
    · rename_i heq
      rw [heq,Except.ok.inj hpath]
  split_ifs at h with hsame
  refine ⟨fun heq => hsame ?_,fun heq => ?_⟩
  · exact Except.ok.inj ((hcanonical hleft).symm.trans (heq.trans (hcanonical hright)))
  · rw [heq] at h
    simp at h

theorem checkOptions_ok {options : BenchmarkOptions} (h : checkOptions queries options = .ok ()) :
    options.overlapConfig.validate = .ok () ∧ (options.config .noOverlap).validate = .ok () ∧
      ∀ file file', file ≠ file' →
        queries.weaklyCanonical (options.path file) ≠
          queries.weaklyCanonical (options.path file') ∧
        (queries.equivalent (options.path file) (options.path file') ≠ (true,0) ∨
          queries.equivalent (options.path file') (options.path file) ≠ (true,0)) := by
  obtain ⟨_,hvalid,h⟩ := bind_eq_ok h
  obtain ⟨_,-,h⟩ := bind_eq_ok h
  obtain ⟨_,hdistinct,hsmall⟩ := bind_eq_ok h
  obtain ⟨_,h₁,h⟩ := bind_eq_ok hdistinct
  obtain ⟨_,h₂,h⟩ := bind_eq_ok h
  obtain ⟨_,h₃,h⟩ := bind_eq_ok h
  obtain ⟨_,h₄,h⟩ := bind_eq_ok h
  obtain ⟨_,h₅,h₆⟩ := bind_eq_ok h
  refine ⟨hvalid,hsmall,fun file file' hne => ?_⟩
  have hpair : ∀ {left right : Path},
      queries.weaklyCanonical left ≠ queries.weaklyCanonical right ∧
        queries.equivalent left right ≠ (true,0) →
      (queries.weaklyCanonical left ≠ queries.weaklyCanonical right ∧
        (queries.equivalent left right ≠ (true,0) ∨ queries.equivalent right left ≠ (true,0))) ∧
      (queries.weaklyCanonical right ≠ queries.weaklyCanonical left ∧
        (queries.equivalent right left ≠ (true,0) ∨ queries.equivalent left right ≠ (true,0))) :=
    fun h => ⟨⟨h.1,.inl h.2⟩,⟨h.1.symm,.inr h.2⟩⟩
  have h₁ := hpair (rejectSameFile_ok h₁)
  have h₂ := hpair (rejectSameFile_ok h₂)
  have h₃ := hpair (rejectSameFile_ok h₃)
  have h₄ := hpair (rejectSameFile_ok h₄)
  have h₅ := hpair (rejectSameFile_ok h₅)
  have h₆ := hpair (rejectSameFile_ok h₆)
  rcases file with _ | _ | _ | _ <;> rcases file' with _ | _ | _ | _
  all_goals first
    | exact absurd rfl hne
    | exact h₁.1
    | exact h₁.2
    | exact h₂.1
    | exact h₂.2
    | exact h₃.1
    | exact h₃.2
    | exact h₄.1
    | exact h₄.2
    | exact h₅.1
    | exact h₅.2
    | exact h₆.1
    | exact h₆.2

theorem parsePositiveSize_ok {text : List Char} {maximum value : ℕ}
    (h : parsePositiveSize text maximum = some value) : 0 < value ∧ value ≤ maximum := by
  unfold parsePositiveSize at h
  split_ifs at h
  split at h
  · split_ifs at h with hbounds
    obtain rfl := Option.some.inj h
    omega
  · cases h

theorem parseOptions_ok {argv : List (List Char)} {options : BenchmarkOptions}
    (h : parseOptions argv = some options) : 0 < options.iterations ∧
      0 < options.overlapConfig.queueDepth ∧
      options.overlapConfig.queueDepth ≤ kMaxBenchmarkCapacity := by
  unfold parseOptions at h
  split at h
  · split_ifs at h
    obtain ⟨blockSize,-,h⟩ := Option.bind_eq_some_iff.mp h
    obtain ⟨buffers,-,h⟩ := Option.bind_eq_some_iff.mp h
    obtain ⟨queueDepth,hdepth,h⟩ := Option.bind_eq_some_iff.mp h
    obtain ⟨iterations,hiterations,h⟩ := Option.bind_eq_some_iff.mp h
    obtain rfl := Option.some.inj h
    refine ⟨?_,parsePositiveSize_ok hdepth⟩
    unfold parseIterations at hiterations
    split at hiterations
    · obtain rfl := Option.some.inj hiterations
      exact Nat.one_pos
    · exact (parsePositiveSize_ok hiterations).1
  · cases h

end

theorem mem_order (iteration : ℕ) (method : Method) : method ∈ order iteration := by
  unfold order
  split <;> cases method <;> simp

theorem nodup_order (iteration : ℕ) : (order iteration).Nodup := by
  unfold order
  split <;> decide

def inodeAt (files : FileSystem Path Bytes) (entry : ℕ × Path) : Option ℕ :=
  files.entries entry.1 entry.2

theorem at?_eq (files : FileSystem Path Bytes) (entry : ℕ × Path) :
    at? files entry = (inodeAt files entry).map fun inode => (inode,files.contents inode) := rfl

def Apart (files : FileSystem Path Bytes) (left right : ℕ × Path) : Prop :=
  ∀ inode, inodeAt files left = some inode → inodeAt files right ≠ some inode

theorem Apart.symm {files : FileSystem Path Bytes} {left right : ℕ × Path}
    (h : Apart files left right) : Apart files right left :=
  fun inode hright hleft => h inode hleft hright

/-- Only what one name denotes has changed; a file that it denotes now is its former one or new. -/
structure Frame (entry : ℕ × Path) (files files' : FileSystem Path Bytes) : Prop where
  entries : ∀ x, x ≠ entry → inodeAt files' x = inodeAt files x
  contents : ∀ x inode, x ≠ entry → Apart files x entry → inodeAt files x = some inode →
    files'.contents inode = files.contents inode ∧ files'.durable inode = files.durable inode
  apart : ∀ x, x ≠ entry → Apart files x entry → Apart files' x entry

section

variable {files files' : FileSystem Path Bytes} {entry x y : ℕ × Path} {inode : ℕ}

theorem Frame.at?_eq (h : Frame entry files files') (hne : x ≠ entry)
    (hapart : Apart files x entry) : at? files' x = at? files x := by
  rw [EndToEnd.at?_eq,EndToEnd.at?_eq,h.entries x hne]
  cases hinode : inodeAt files x with
  | none => rfl
  | some inode => simp [(h.contents x inode hne hapart hinode).1]

/-- Names apart stay so, whatever one of the other names denotes now. -/
theorem Frame.keeps (h : Frame entry files files') (hx : x ≠ entry) (hxy : Apart files x y)
    (hxentry : Apart files x entry) : Apart files' x y := by
  by_cases hy : y = entry
  · subst hy
    exact h.apart x hx hxentry
  · intro inode hinode
    rw [h.entries x hx] at hinode
    rw [h.entries y hy]
    exact hxy inode hinode

theorem frame_of_inode (hinode : inodeAt files entry = some inode)
    (hentries : files'.entries = files.entries)
    (hsame : ∀ j, j ≠ inode → files'.contents j = files.contents j ∧
      files'.durable j = files.durable j) : Frame entry files files' := by
  have heq : ∀ x, inodeAt files' x = inodeAt files x := fun x => by
    rw [inodeAt,inodeAt,hentries]
  refine ⟨fun x _ => heq x,fun x j _ hapart hj => hsame j ?_,fun x _ hapart j hj => ?_⟩
  · rintro rfl
    exact hapart j hj hinode
  · rw [heq] at hj ⊢
    exact hapart j hj

theorem frame_write (hinode : inodeAt files entry = some inode) (content : Bytes) :
    Frame entry files (files.write inode content) :=
  frame_of_inode hinode rfl fun _ hne => ⟨if_neg hne,rfl⟩

theorem frame_sync (hinode : inodeAt files entry = some inode) :
    Frame entry files (files.sync inode) :=
  frame_of_inode hinode rfl fun _ hne => ⟨rfl,if_neg hne⟩

theorem frame_create (hunused : ∀ d n, files.entries d n ≠ some inode) :
    Frame entry files (files.create entry.1 entry.2 inode []) := by
  have hother : ∀ x, x ≠ entry →
      inodeAt (files.create entry.1 entry.2 inode []) x = inodeAt files x :=
    fun x hne => if_neg fun heq => hne (Prod.ext heq.1 heq.2)
  refine ⟨hother,fun x j _ _ hj => ⟨if_neg fun heq => hunused _ _ (heq ▸ hj),rfl⟩,
    fun x hne _ j hj hentry => ?_⟩
  rw [hother x hne] at hj
  obtain rfl := Option.some.inj ((if_pos ⟨rfl,rfl⟩).symm.trans hentry)
  exact hunused _ _ hj

theorem openTruncatedOutput_ok {answer : Except ℕ ℕ}
    (hnew : ∀ new, answer = .ok new → inodeAt files entry = none →
      ∀ d n, files.entries d n ≠ some new)
    (hopen : openTruncatedOutput answer entry files = .ok (inode,files')) :
    Frame entry files files' ∧ inodeAt files' entry = some inode ∧ files'.contents inode = [] := by
  unfold openTruncatedOutput at hopen
  cases answer with
  | error errorNumber => cases hopen
  | ok new =>
    cases hinode : inodeAt files entry with
    | some old =>
      simp only [show files.entries _ _ = some old from hinode] at hopen
      obtain ⟨rfl,rfl⟩ := Prod.mk.inj (Except.ok.inj hopen)
      exact ⟨frame_write hinode [],hinode,if_pos rfl⟩
    | none =>
      simp only [show files.entries _ _ = none from hinode] at hopen
      obtain ⟨rfl,rfl⟩ := Prod.mk.inj (Except.ok.inj hopen)
      exact ⟨frame_create (hnew new rfl hinode),if_pos ⟨rfl,rfl⟩,if_pos rfl⟩

end

section

variable (system : BenchmarkSystem) (options : BenchmarkOptions) (before : FileSystem Path Bytes)
  (input : Bytes)

def BenchmarkSystem.inputEntry : ℕ × Path := system.entry options.inputPath

def BenchmarkSystem.outputEntry (method : Method) : ℕ × Path :=
  system.entry (options.outputPath method)

/-- What the system promises to the harness: the input is there, one entry has one canonical path,
two names of one file are equivalent, new files are new, and what is opened is the file that the
path denotes. -/
structure BenchmarkSystem.Honoured : Prop where
  input : ∃ inode, at? before (system.inputEntry options) = some (inode,input)
  canonical : ∀ left right, system.entry left = system.entry right →
    system.queries.weaklyCanonical left = system.queries.weaklyCanonical right
  equivalent : ∀ left right inode, inodeAt before (system.entry left) = some inode →
    inodeAt before (system.entry right) = some inode →
    system.queries.equivalent left right = (true,0)
  new : ∀ i method files inode, (system.sample i method).openOutput files = .ok inode →
    inodeAt files (system.outputEntry options method) = none → ∀ d n, files.entries d n ≠ some inode
  openedInput : ∀ i method files file inode contents,
    (system.sample i method).openInput files = .ok file →
    at? files (system.inputEntry options) = some (inode,contents) →
    file.bytes = contents ∧ file.NonzeroBeforeEof
  openedCompared : ∀ i method files left right inode inode' contents contents',
    system.openCompared i method files = (.ok left,.ok right) →
    at? files (system.outputEntry options .serial) = some (inode,contents) →
    at? files (system.outputEntry options method) = some (inode',contents') →
    left.bytes = contents ∧ right.bytes = contents'

/-- A name of a file that no output denotes. -/
def Spared (x : ℕ × Path) : Prop :=
  ∀ method, x ≠ system.outputEntry options method ∧
    Apart before x (system.outputEntry options method)

/-- The outputs are three files, and every file that is no output is as it was. -/
structure Standing (files : FileSystem Path Bytes) : Prop where
  checked : checkOptions system.queries options = .ok ()
  entries : ∀ method method', method ≠ method' →
    system.outputEntry options method ≠ system.outputEntry options method'
  apart : ∀ method method', method ≠ method' →
    Apart files (system.outputEntry options method) (system.outputEntry options method')
  input : Spared system options before (system.inputEntry options)
  spared : ∀ x, Spared system options before x → at? files x = at? before x ∧
    ∀ method, Apart files x (system.outputEntry options method)

/-- The output of a method is the whole input incremented, and it is durable. -/
def Delivered (files : FileSystem Path Bytes) (method : Method) : Prop :=
  ∃ inode, at? files (system.outputEntry options method) =
      some (inode,input.map IncrementVerification.expectedByte) ∧
    files.durable inode = input.map IncrementVerification.expectedByte

structure Timed (p : Progress system.fp.Double) (files : FileSystem Path Bytes) (method : Method) :
    Prop where
  delivered : Delivered system options input files method
  bytesWritten : (p.results method).bytesWritten = input.length
  elapsedMs : (p.results method).elapsedMs = (system.sample p.iteration method).elapsedMs

structure Kept (p : Progress system.fp.Double) : Prop where
  iteration : p.iteration ≤ options.iterations
  samples : ∀ method, p.samplesMs method =
    (List.range p.iteration).map fun i => (system.sample i method).elapsedMs
  expected : 0 < p.iteration → p.expectedBytes = input.length

/-- An iteration in which some methods have been timed. -/
structure Sampling (p : Progress system.fp.Double) (files : FileSystem Path Bytes)
    (timed : List Method) : Prop where
  standing : Standing system options before files
  kept : Kept system options input p
  iteration : p.iteration < options.iterations
  order : order p.iteration = timed++p.remaining
  timed : ∀ method ∈ timed, Timed system options input p files method

structure Running (p : Progress system.fp.Double) (files : FileSystem Path Bytes) (method : Method)
    (call : RunCall Unit) (inode : ℕ) (s : RunState Unit) : Prop where
  sampling : ∃ timed rest, Sampling system options before input p files timed ∧
    p.remaining = method::rest
  made : ∃ file, call = (system.sample p.iteration method).call (options.config method) file ∧
    file.bytes = input ∧ file.NonzeroBeforeEof
  reachable : ∃ s₀, call.start = .ok s₀ ∧ call.system.Reachable s₀ s
  entry : inodeAt files (system.outputEntry options method) = some inode
  contents : files.contents inode = s.shared.output

/-- All outputs are complete, and the times of all iterations are there. -/
structure Done (p : Progress system.fp.Double) (files : FileSystem Path Bytes) : Prop where
  standing : Standing system options before files
  kept : Kept system options input p
  iteration : p.iteration = options.iterations
  delivered : ∀ method, Delivered system options input files method

def OnlyOutputs (files : FileSystem Path Bytes) : Prop :=
  at? files (system.inputEntry options) = at? before (system.inputEntry options) ∧
    ∀ x, Spared system options before x → at? files x = at? before x

/-- What holds at each place. -/
def Consistent (files : FileSystem Path Bytes) : BenchmarkPlace system.fp.Double → Prop
  | .parseOptions => files = before
  | .checkOptions o => o = options ∧ files = before
  | .iterate o p => o = options ∧ Standing system options before files ∧
      Kept system options input p ∧
      (0 < p.iteration → ∀ method, Delivered system options input files method)
  | .sample o p => o = options ∧ ∃ timed, Sampling system options before input p files timed
  | .running o p method call inode s => o = options ∧
      Running system options before input p files method call inode s
  | .report o p | .returned o p => o = options ∧ Done system options before input p files
  | .exited code failure => (code = 2 ∧ failure ≠ none) ∧ OnlyOutputs system options before files

end

section

variable {system : BenchmarkSystem} {options : BenchmarkOptions}
  {before files files' : FileSystem Path Bytes} {input : Bytes} {method : Method} {inode : ℕ}
  {p : Progress system.fp.Double} {timed rest : List Method}

theorem standing_of_checkOptions (hh : system.Honoured options before input)
    (h : checkOptions system.queries options = .ok ()) :
    Standing system options before before := by
  obtain ⟨-,-,hdistinct⟩ := checkOptions_ok h
  have hentries : ∀ file file', file ≠ file' →
      system.entry (options.path file) ≠ system.entry (options.path file') :=
    fun file file' hne heq => (hdistinct file file' hne).1 (hh.canonical _ _ heq)
  have hapart : ∀ file file', file ≠ file' →
      Apart before (system.entry (options.path file)) (system.entry (options.path file')) := by
    intro file file' hne inode hfile hfile'
    rcases (hdistinct file file' hne).2 with hequivalent | hequivalent
    · exact hequivalent (hh.equivalent _ _ inode hfile hfile')
    · exact hequivalent (hh.equivalent _ _ inode hfile' hfile)
  refine ⟨h,fun m m' hne => ?_,fun m m' hne => ?_,fun m => ?_,
    fun x hx => ⟨rfl,fun m => (hx m).2⟩⟩
  · exact hentries (some m) (some m') fun heq => hne (Option.some.inj heq)
  · exact hapart (some m) (some m') fun heq => hne (Option.some.inj heq)
  · exact ⟨hentries none (some m) nofun,hapart none (some m) nofun⟩

theorem Standing.frame (h : Standing system options before files)
    (hframe : Frame (system.outputEntry options method) files files') :
    Standing system options before files' := by
  refine ⟨h.checked,h.entries,fun m m' hne => ?_,h.input,fun x hx => ⟨?_,fun m => ?_⟩⟩
  · by_cases hm : m = method
    · subst hm
      exact (hframe.apart _ (h.entries _ _ hne.symm) (h.apart _ _ hne.symm)).symm
    · exact hframe.keeps (h.entries _ _ hm) (h.apart _ _ hne) (h.apart _ _ hm)
  · exact (hframe.at?_eq (hx method).1 ((h.spared x hx).2 method)).trans (h.spared x hx).1
  · exact hframe.keeps (hx method).1 ((h.spared x hx).2 m) ((h.spared x hx).2 method)

theorem Standing.onlyOutputs (h : Standing system options before files) :
    OnlyOutputs system options before files :=
  ⟨(h.spared _ h.input).1,fun x hx => (h.spared x hx).1⟩

theorem OnlyOutputs.refl : OnlyOutputs system options before before := ⟨rfl,fun _ _ => rfl⟩

theorem Delivered.frame {m : Method} (hstanding : Standing system options before files)
    (hm : m ≠ method) (h : Delivered system options input files m)
    (hframe : Frame (system.outputEntry options method) files files') :
    Delivered system options input files' m := by
  obtain ⟨inode,hentry,hdurable⟩ := h
  have hne := hstanding.entries m method hm
  have hapart := hstanding.apart m method hm
  refine ⟨inode,(hframe.at?_eq hne hapart).trans hentry,?_⟩
  obtain ⟨inode',hinode,heq⟩ := Option.map_eq_some_iff.mp hentry
  obtain ⟨rfl,-⟩ := Prod.mk.inj heq
  rw [(hframe.contents _ inode' hne hapart hinode).2,hdurable]

@[simp] theorem Progress.record_self (result : TimedEndToEndResult system.fp.Double) :
    (p.record method result).results method = result := if_pos rfl

theorem Progress.record_ne {m : Method} (hne : m ≠ method)
    (result : TimedEndToEndResult system.fp.Double) :
    (p.record method result).results m = p.results m := if_neg hne

/-- A method that comes next has not been timed in this iteration. -/
theorem Sampling.notMem (h : Sampling system options before input p files timed)
    (hremaining : p.remaining = method::rest) : method ∉ timed := by
  have hnodup := nodup_order p.iteration
  rw [h.order,hremaining] at hnodup
  exact fun hmem => List.disjoint_of_nodup_append hnodup hmem List.mem_cons_self

/-- The next method may do to its output what it likes. -/
theorem Sampling.frame (h : Sampling system options before input p files timed)
    (hremaining : p.remaining = method::rest)
    (hframe : Frame (system.outputEntry options method) files files') :
    Sampling system options before input p files' timed := by
  refine ⟨h.standing.frame hframe,h.kept,h.iteration,h.order,fun m hm => ?_⟩
  have hne : m ≠ method := fun heq => h.notMem hremaining (heq ▸ hm)
  exact { h.timed m hm with delivered := (h.timed m hm).delivered.frame h.standing hne hframe }

theorem consistent_after {α : Type} {r : Except Failure α}
    {next : α → BenchmarkState system.fp.Double} (hfailed : OnlyOutputs system options before files)
    (hnext : ∀ a, r = .ok a →
      Consistent system options before input (next a).files (next a).place) :
    Consistent system options before input (system.after r next files).files
      (system.after r next files).place := by
  cases r with
  | error failure => exact ⟨⟨rfl,nofun⟩,hfailed⟩
  | ok a => exact hnext a rfl

theorem consistent_finishSample (h : Sampling system options before input p files timed)
    (hremaining : p.remaining = method::rest)
    (hentry : inodeAt files (system.outputEntry options method) = some inode)
    (hcontents : files.contents inode = input.map IncrementVerification.expectedByte)
    {blocksWritten bytesWritten : ℕ} (hbytes : bytesWritten = input.length) :
    let s := system.finishSample options p method blocksWritten bytesWritten inode files
    Consistent system options before input s.files s.place := by
  refine consistent_after h.standing.onlyOutputs fun _ _ => ⟨rfl,timed++[method],?_⟩
  have hframe := frame_sync hentry
  have hsynced := h.frame hremaining hframe
  refine ⟨hsynced.standing,⟨h.kept.iteration,h.kept.samples,h.kept.expected⟩,h.iteration,?_,?_⟩
  · rw [List.append_assoc]
    exact h.order.trans (by rw [Progress.record,hremaining]; rfl)
  · intro m hm
    rcases List.mem_append.mp hm with hm | hm
    · have hne : m ≠ method := fun heq => h.notMem hremaining (heq ▸ hm)
      obtain ⟨hdelivered,hwritten,hms⟩ := hsynced.timed m hm
      exact ⟨hdelivered,by rwa [Progress.record_ne hne],by rwa [Progress.record_ne hne]⟩
    · obtain rfl := List.mem_singleton.mp hm
      have hdelivered : Delivered system options input (files.sync inode) m :=
        ⟨inode,Option.map_eq_some_iff.mpr ⟨inode,hentry,congrArg (inode,·) hcontents⟩,
          (if_pos rfl).trans hcontents⟩
      exact ⟨hdelivered,by rwa [Progress.record_self],by rw [Progress.record_self]; rfl⟩

theorem written_of_complete {call : RunCall Unit} {result : PipelineRunResult} {output : Bytes}
    {i : ℕ} {config : PipelineConfig} {file : InputFile}
    (hcall : call = (system.sample i method).call config file) (hfile : file.bytes = input)
    (hnonzero : file.NonzeroBeforeEof) (hvalid : config.Valid)
    (hcomplete : Complete call result output) :
    output = input.map IncrementVerification.expectedByte ∧
      result.bytesWritten = input.length := by
  subst hcall hfile
  have hreads : ((system.sample i method).call config file).ReadsFrom file.bytes :=
    SyncBackend.readsFrom rfl hnonzero
  exact ⟨(hcomplete.transformed hreads hvalid.blockSize_pos).increment rfl,
    hcomplete.bytesWritten hreads hvalid.blockSize_pos⟩

theorem openFiles_ok (hh : system.Honoured options before input)
    (h : Sampling system options before input p files timed)
    (hremaining : p.remaining = method::rest) {file : InputFile}
    (hopen : (system.sample p.iteration method).openFiles (options.config method) options.inputPath
      (options.outputPath method) (system.outputEntry options method) files =
      .ok (file,inode,files')) :
    Sampling system options before input p files' timed ∧
      inodeAt files' (system.outputEntry options method) = some inode ∧
      files'.contents inode = [] ∧ file.bytes = input ∧ file.NonzeroBeforeEof := by
  obtain ⟨_,-,hopen⟩ := bind_eq_ok hopen
  obtain ⟨_,-,hopen⟩ := bind_eq_ok hopen
  obtain ⟨input',hinput,hopen⟩ := bind_eq_ok hopen
  obtain ⟨⟨inode',opened⟩,houtput,hopen⟩ := bind_eq_ok hopen
  obtain ⟨rfl,heq⟩ := Prod.mk.inj (Except.ok.inj hopen)
  obtain ⟨rfl,rfl⟩ := Prod.mk.inj heq
  obtain ⟨hframe,hentry,hempty⟩ := openTruncatedOutput_ok
    (fun new hnew hnone => hh.new p.iteration method files new hnew hnone) houtput
  have hfile : (system.sample p.iteration method).openInput files = .ok input' := by
    unfold FileComparison.openComparisonInput at hinput
    split at hinput
    · cases hinput
    · rename_i heq
      rw [heq,Except.ok.inj hinput]
  obtain ⟨old,hold⟩ := hh.input
  have hnow := (h.standing.spared _ h.standing.input).1.trans hold
  exact ⟨h.frame hremaining hframe,hentry,hempty,
    hh.openedInput _ _ _ _ _ _ hfile hnow⟩

theorem consistent_serialSample (h : Sampling system options before input p files timed)
    (hremaining : p.remaining = .serial::rest)
    (hentry : inodeAt files (system.outputEntry options .serial) = some inode) {file : InputFile}
    (hfile : file.bytes = input) (hnonzero : file.NonzeroBeforeEof) :
    let s := system.serialSample options p file inode files
    Consistent system options before input s.files s.place := by
  generalize hrun : SerialReference.runSerialPipelineReference file
    ((system.sample p.iteration .serial).call (options.config .serial) file)
    ((system.sample p.iteration .serial).memory 0) = run
  obtain ⟨outcome,output⟩ := run
  have hwritten := h.frame hremaining (frame_write hentry output)
  have hs : system.serialSample options p file inode files = system.after outcome
      (fun result => system.finishSample options p .serial result.blocksWritten
        result.bytesWritten inode (files.write inode output)) (files.write inode output) := by
    rw [BenchmarkSystem.serialSample,hrun]
  rw [hs]
  refine consistent_after hwritten.standing.onlyOutputs fun result hresult => ?_
  rw [hresult] at hrun
  have hvalid := PipelineConfig.valid_of_validate (SerialReference.accepted_of_ok hrun).config
  obtain ⟨houtput,hbytes⟩ := written_of_complete rfl hfile hnonzero hvalid
    (SerialReference.complete_of_ok rfl hrun)
  exact consistent_finishSample hwritten hremaining hentry ((if_pos rfl).trans houtput) hbytes

theorem consistent_pipelineSample (h : Sampling system options before input p files timed)
    (hremaining : p.remaining = method::rest)
    (hentry : inodeAt files (system.outputEntry options method) = some inode)
    (hempty : files.contents inode = []) {file : InputFile} (hfile : file.bytes = input)
    (hnonzero : file.NonzeroBeforeEof) :
    let s := system.pipelineSample options p method file inode files
    Consistent system options before input s.files s.place := by
  refine consistent_after h.standing.onlyOutputs fun s hstart => ⟨rfl,?_⟩
  exact ⟨⟨timed,rest,h,hremaining⟩,⟨file,rfl,hfile,hnonzero⟩,⟨s,hstart,.refl s⟩,hentry,
    hempty.trans (start_initial hstart).output.symm⟩

theorem consistent_beginSample (hh : system.Honoured options before input)
    (h : Sampling system options before input p files timed)
    (hremaining : p.remaining = method::rest) :
    let s := system.beginSample options p method files
    Consistent system options before input s.files s.place := by
  refine consistent_after h.standing.onlyOutputs fun ⟨file,inode,opened⟩ hopen => ?_
  obtain ⟨hopened,hentry,hempty,hfile,hnonzero⟩ := openFiles_ok hh h hremaining hopen
  refine consistent_after hopened.standing.onlyOutputs fun _ _ => ?_
  cases method with
  | serial => exact consistent_serialSample hopened hremaining hentry hfile hnonzero
  | noOverlap | overlap =>
    exact consistent_pipelineSample hopened hremaining hentry hempty hfile hnonzero

theorem Sampling.all (h : Sampling system options before input p files timed)
    (hremaining : p.remaining = []) (m : Method) : Timed system options input p files m := by
  have hmem := mem_order p.iteration m
  rw [h.order,hremaining,List.append_nil] at hmem
  exact h.timed m hmem

/-- An iteration ends with the sizes that are expected of the others. -/
theorem finishIteration_eq {p' : Progress system.fp.Double}
    (hfinish : system.finishIteration options p files = .ok p') :
    ∃ expected, p.expect = .ok expected ∧ p' = expected.push := by
  obtain ⟨_,-,hfinish⟩ := bind_eq_ok hfinish
  obtain ⟨_,-,hfinish⟩ := bind_eq_ok hfinish
  obtain ⟨_,-,hfinish⟩ := bind_eq_ok hfinish
  obtain ⟨_,-,hfinish⟩ := bind_eq_ok hfinish
  obtain ⟨expected,hexpect,hfinish⟩ := bind_eq_ok hfinish
  exact ⟨expected,hexpect,(Except.ok.inj hfinish).symm⟩

theorem expect_iteration {expected : Progress system.fp.Double}
    (hexpect : p.expect = .ok expected) : expected.iteration = p.iteration := by
  unfold Progress.expect at hexpect
  split_ifs at hexpect
  · exact Except.ok.inj hexpect ▸ rfl
  · exact Except.ok.inj hexpect ▸ rfl

theorem kept_of_finishIteration (h : Sampling system options before input p files timed)
    (hremaining : p.remaining = []) {p' : Progress system.fp.Double}
    (hfinish : system.finishIteration options p files = .ok p') :
    Kept system options input p' := by
  have hall := h.all hremaining
  obtain ⟨expected,hexpect,rfl⟩ := finishIteration_eq hfinish
  have hkeeps : expected.iteration = p.iteration ∧ expected.samplesMs = p.samplesMs ∧
      expected.results = p.results ∧ expected.expectedBytes = input.length := by
    unfold Progress.expect at hexpect
    split_ifs at hexpect with hfirst hsame
    · obtain rfl := Except.ok.inj hexpect
      exact ⟨rfl,rfl,rfl,(hall .serial).bytesWritten⟩
    · obtain rfl := Except.ok.inj hexpect
      exact ⟨rfl,rfl,rfl,h.kept.expected (Nat.pos_of_ne_zero hfirst)⟩
  obtain ⟨hiteration,hsamples,hresults,hbytes⟩ := hkeeps
  refine ⟨?_,fun m => ?_,fun _ => hbytes⟩
  · exact (congrArg (·+1) hiteration).trans_le h.iteration
  · change expected.samplesMs m++[(expected.results m).elapsedMs] =
      (List.range (expected.iteration+1)).map _
    rw [hsamples,hresults,hiteration,List.range_succ,List.map_append,h.kept.samples,
      (hall m).elapsedMs]
    rfl

variable {argv : List (List Char)} {s s' : BenchmarkState system.fp.Double}

theorem mainStep_method (hremaining : p.remaining = method::rest) :
    system.mainStep argv files (.sample options p) =
      some (system.beginSample options p method files) := by
  simp only [BenchmarkSystem.mainStep,hremaining]

theorem mainStep_finish (hremaining : p.remaining = []) :
    system.mainStep argv files (.sample options p) =
      some (system.after (system.finishIteration options p files)
        (fun p => ⟨.iterate options p,files⟩) files) := by
  simp only [BenchmarkSystem.mainStep,hremaining]

/-- A step of the main thread: where it is taken, what it has found there, and where it leads. -/
inductive MainStepped (system : BenchmarkSystem) (argv : List (List Char))
    (files : FileSystem Path Bytes) :
    BenchmarkPlace system.fp.Double → BenchmarkState system.fp.Double → Prop
  | rejected (hparse : parseOptions argv = none) :
      MainStepped system argv files .parseOptions ⟨.exited 1 none,files⟩
  | parsed (o : BenchmarkOptions) (hparse : parseOptions argv = some o) :
      MainStepped system argv files .parseOptions ⟨.checkOptions o,files⟩
  | checked (o : BenchmarkOptions) : MainStepped system argv files (.checkOptions o)
      (system.after (checkOptions system.queries o)
        (fun _ => ⟨.iterate o (.start (.zero system.fp)),files⟩) files)
  | begun (o : BenchmarkOptions) (p : Progress system.fp.Double)
      (hlt : p.iteration < o.iterations) : MainStepped system argv files (.iterate o p)
      ⟨.sample o (p.begin (.zero system.fp)),files⟩
  | counted (o : BenchmarkOptions) (p : Progress system.fp.Double)
      (hle : o.iterations ≤ p.iteration) : MainStepped system argv files (.iterate o p)
      ⟨.report o p,files⟩
  | finished (o : BenchmarkOptions) (p : Progress system.fp.Double)
      (hremaining : p.remaining = []) : MainStepped system argv files (.sample o p)
      (system.after (system.finishIteration o p files)
        (fun p => ⟨.iterate o p,files⟩) files)
  | sampled (o : BenchmarkOptions) (p : Progress system.fp.Double) (method : Method)
      (rest : List Method) (hremaining : p.remaining = method::rest) :
      MainStepped system argv files (.sample o p) (system.beginSample o p method files)
  | returned (o : BenchmarkOptions) (p : Progress system.fp.Double) (method : Method)
      (call : RunCall Unit) (inode : ℕ) (r : RunState Unit)
      (outcome : Except Failure PipelineRunResult) (hdone : r.caller = .done outcome) :
      MainStepped system argv files (.running o p method call inode r)
        (system.after outcome (fun result => system.finishSample o p method result.blocksWritten
          result.bytesWritten inode files) files)
  | reported (o : BenchmarkOptions) (p : Progress system.fp.Double) :
      MainStepped system argv files (.report o p)
        (system.after (do
            checkSamples system.fp (p.samplesMs .serial)
            checkSamples system.fp (p.samplesMs .noOverlap)
            checkSamples system.fp (p.samplesMs .overlap))
          (fun _ => ⟨.returned o p,files⟩) files)

theorem mainStep_cases {place : BenchmarkPlace system.fp.Double}
    (hstep : system.mainStep argv files place = some s') :
    MainStepped system argv files place s' := by
  cases place with
  | parseOptions =>
    simp only [BenchmarkSystem.mainStep] at hstep
    split at hstep
    · obtain rfl := Option.some.inj hstep
      exact .rejected (by assumption)
    · obtain rfl := Option.some.inj hstep
      exact .parsed _ (by assumption)
  | checkOptions o =>
    obtain rfl := Option.some.inj hstep
    exact .checked o
  | iterate o p =>
    simp only [BenchmarkSystem.mainStep] at hstep
    split_ifs at hstep with hlt
    · obtain rfl := Option.some.inj hstep
      exact .begun o p hlt
    · obtain rfl := Option.some.inj hstep
      exact .counted o p (not_lt.mp hlt)
  | sample o p =>
    cases hremaining : p.remaining with
    | nil =>
      obtain rfl := Option.some.inj ((mainStep_finish hremaining).symm.trans hstep)
      exact .finished o p hremaining
    | cons method rest =>
      obtain rfl := Option.some.inj ((mainStep_method hremaining).symm.trans hstep)
      exact .sampled o p method rest hremaining
  | running o p method call inode r =>
    simp only [BenchmarkSystem.mainStep] at hstep
    split at hstep
    · obtain rfl := Option.some.inj hstep
      exact .returned o p method call inode r _ (by assumption)
    · cases hstep
  | report o p =>
    obtain rfl := Option.some.inj hstep
    exact .reported o p
  | returned o p => cases hstep
  | exited code failure => cases hstep

theorem consistent_main (hh : system.Honoured options before input)
    (hparse : parseOptions argv = some options)
    (hs : Consistent system options before input s.files s.place)
    (hstep : system.mainStep argv s.files s.place = some s') :
    Consistent system options before input s'.files s'.place := by
  obtain ⟨place,files⟩ := s
  cases mainStep_cases hstep with
  | rejected hnone => cases hnone.symm.trans hparse
  | parsed o hsome => exact ⟨Option.some.inj (hsome.symm.trans hparse),hs⟩
  | checked o =>
    obtain ⟨rfl,rfl⟩ := hs
    refine consistent_after .refl fun _ hcheck => ?_
    exact ⟨rfl,standing_of_checkOptions hh hcheck,⟨Nat.zero_le _,fun _ => rfl,nofun⟩,nofun⟩
  | begun o p hlt =>
    obtain ⟨rfl,hstanding,hkept,-⟩ := hs
    exact ⟨rfl,[],hstanding,⟨hkept.iteration,hkept.samples,hkept.expected⟩,hlt,rfl,nofun⟩
  | counted o p hle =>
    obtain ⟨rfl,hstanding,hkept,hdelivered⟩ := hs
    have hend := hkept.iteration.antisymm hle
    have hpos := (parseOptions_ok hparse).1
    exact ⟨rfl,hstanding,hkept,hend,hdelivered (hend ▸ hpos)⟩
  | finished o p hremaining =>
    obtain ⟨rfl,timed,h⟩ := hs
    refine consistent_after h.standing.onlyOutputs fun p' hfinish => ?_
    exact ⟨rfl,h.standing,kept_of_finishIteration h hremaining hfinish,
      fun _ m => (h.all hremaining m).delivered⟩
  | sampled o p method rest hremaining =>
    obtain ⟨rfl,timed,h⟩ := hs
    exact consistent_beginSample hh h hremaining
  | returned o p method call inode r outcome hdone =>
    obtain ⟨rfl,⟨timed,rest,h,hremaining⟩,⟨file,hcall,hfile,hnonzero⟩,⟨s₀,hstart,hr⟩,hentry,
      hcontents⟩ := hs
    refine consistent_after h.standing.onlyOutputs fun result hresult => ?_
    subst hresult
    have hvalid := (start_initial hstart).valid
    rw [hcall] at hvalid
    obtain ⟨houtput,hbytes⟩ := written_of_complete hcall hfile hnonzero hvalid
      (done_complete hstart hr hdone)
    exact consistent_finishSample h hremaining hentry (hcontents.trans houtput) hbytes
  | reported o p =>
    obtain ⟨rfl,hdone⟩ := hs
    exact consistent_after hdone.standing.onlyOutputs fun _ _ => ⟨rfl,hdone⟩

theorem consistent_thread {t : Thread}
    (hs : Consistent system options before input s.files s.place)
    (hstep : system.threadStep t s.files s.place = some s') :
    Consistent system options before input s'.files s'.place := by
  obtain ⟨place,files⟩ := s
  cases place with
  | running o p method call inode r =>
    obtain ⟨rfl,⟨timed,rest,h,hremaining⟩,hmade,⟨s₀,hstart,hr⟩,hentry,-⟩ := hs
    obtain ⟨r',hr',rfl⟩ := Option.map_eq_some_iff.mp hstep
    exact ⟨rfl,⟨timed,rest,h.frame hremaining (frame_write hentry _),hremaining⟩,hmade,
      ⟨s₀,hstart,hr.tail hr'⟩,hentry,if_pos rfl⟩
  | _ => cases hstep

theorem reachable_consistent (hh : system.Honoured options before input)
    (hparse : parseOptions argv = some options)
    (hs : (system.transitions argv).Reachable ⟨.parseOptions,before⟩ s) :
    Consistent system options before input s.files s.place := by
  refine @TransitionSystem.Reachable.invariant _ _ (system.transitions argv)
    (fun u => Consistent system options before input u.files u.place) (fun l u v hu hstep => ?_)
    ⟨.parseOptions,before⟩ s rfl hs
  cases l with
  | main => exact consistent_main hh hparse hu hstep
  | thread t => exact consistent_thread hu hstep

theorem Consistent.onlyOutputs {place : BenchmarkPlace system.fp.Double}
    (hs : Consistent system options before input files place) :
    OnlyOutputs system options before files := by
  cases place with
  | parseOptions =>
    obtain rfl := hs
    exact .refl
  | checkOptions o =>
    obtain ⟨-,rfl⟩ := hs
    exact .refl
  | iterate o p => exact hs.2.1.onlyOutputs
  | sample o p =>
    obtain ⟨-,timed,h⟩ := hs
    exact h.standing.onlyOutputs
  | running o p method call inode r =>
    obtain ⟨-,⟨timed,rest,h,-⟩,-⟩ := hs
    exact h.standing.onlyOutputs
  | report o p | returned o p => exact hs.2.standing.onlyOutputs
  | exited code failure => exact hs.2

end

end EndToEnd
end AsyncDataLoader
