import AsyncDataLoader.PreprocessDemo

/-!
# What the demo leaves behind

Whatever fails, and at whatever point the process ends, the output is what it was or the whole
input incremented, and the metrics tell of an output that is published and verified.
-/

namespace AsyncDataLoader

open FileIO

namespace RunCall

variable {σ : Type*} {call : RunCall σ}

theorem offsetAt_length {k offset : ℕ} (h : call.offsetAt k = some offset) :
    ((List.range k).flatMap call.rawAt).length = offset := by
  induction k generalizing offset with
  | zero =>
    obtain rfl := Option.some.inj h
    rfl
  | succ k ih =>
    obtain ⟨before,hbefore,-,-,-,-,rfl⟩ := offsetAt_succ h
    simp [List.range_succ,ih hbefore]

end RunCall

theorem Complete.bytesWritten {σ : Type*} {call : RunCall σ} {input output : Bytes}
    {result : PipelineRunResult} (h : Complete call result output) (hreads : call.ReadsFrom input)
    (hblock : 0 < call.config.blockSize) : result.bytesWritten = input.length := by
  obtain ⟨hoffset,⟨o,ho,heof⟩,-,-⟩ := h
  obtain rfl := Option.some.inj (hoffset.symm.trans ho)
  have hend := hreads.eof _ _ hblock heof
  have hlength := RunCall.offsetAt_length hoffset
  rw [hreads.flatMap_rawAt hoffset,List.length_take] at hlength
  omega

namespace RunFileCall

variable {σ : Type*} {call : RunFileCall σ} {before : FileSystem Path Bytes}

def Counted (call : RunFileCall σ) : RunFilePlace σ → Prop
  | .fsyncTemporary _ result | .renameTemporary _ result | .fsyncDirectory result
  | .returned result => ∃ output, Complete call.executor result output
  | _ => True

theorem counted_main {s s' : RunFileState σ} (hs : call.Consistent before s.files s.place)
    (hcounted : call.Counted s.place) (hstep : call.mainStep s.files s.place = some s') :
    call.Counted s'.place := by
  obtain ⟨place,files⟩ := s
  cases place with
  | validateInput | validateOutput | openInput | statOutput | validateFilename | openDirectory =>
    obtain rfl := Option.some.inj hstep
    unfold check
    split <;> trivial
  | statInput | makeTemporary | copyPath | startRun =>
    simp only [mainStep] at hstep
    split at hstep <;> obtain rfl := Option.some.inj hstep <;> trivial
  | running temporary r =>
    obtain ⟨-,-,s₀,hstart,hr⟩ := hs
    simp only [mainStep] at hstep
    split at hstep
    · rename_i result hdone
      obtain rfl := Option.some.inj hstep
      exact ⟨_,done_complete hstart hr hdone⟩
    · obtain rfl := Option.some.inj hstep
      trivial
    · cases hstep
  | fsyncTemporary | renameTemporary | fsyncDirectory =>
    simp only [mainStep] at hstep
    split at hstep <;> obtain rfl := Option.some.inj hstep
    all_goals first
      | exact hcounted
      | trivial
  | unwind =>
    obtain rfl := Option.some.inj hstep
    trivial
  | returned | thrown => cases hstep

end RunFileCall

namespace RunFileCall

variable {σ : Type*} {call : RunFileCall σ}

def Compared (call : RunFileCall σ) : Prop :=
  ∃ status, call.statInput = .ok status ∧ rejectSame status call.statOutput = .ok ()

/-- Nothing is made before the two files have been compared. -/
def Distinguished (call : RunFileCall σ) : RunFilePlace σ → Prop
  | .validateInput | .validateOutput | .openInput | .statInput | .thrown false _ => True
  | .statOutput status => call.statInput = .ok status
  | _ => call.Compared

theorem distinguished_check {files : FileSystem Path Bytes} {next : RunFilePlace σ}
    {result : Except Failure Unit} (h : result = .ok () → call.Distinguished next) :
    call.Distinguished (check files next result).place := by
  cases result with
  | ok _ => exact h rfl
  | error failure => trivial

theorem distinguished_main {s s' : RunFileState σ} (hs : call.Distinguished s.place)
    (hstep : call.mainStep s.files s.place = some s') : call.Distinguished s'.place := by
  obtain ⟨place,files⟩ := s
  cases place with
  | validateInput | validateOutput | openInput =>
    obtain rfl := Option.some.inj hstep
    exact distinguished_check fun _ => trivial
  | statInput =>
    simp only [mainStep] at hstep
    split at hstep
    · obtain rfl := Option.some.inj hstep
      trivial
    · rename_i status hstatus
      obtain rfl := Option.some.inj hstep
      exact hstatus
  | statOutput status =>
    obtain rfl := Option.some.inj hstep
    exact distinguished_check fun hok => ⟨status,hs,hok⟩
  | validateFilename | openDirectory =>
    obtain rfl := Option.some.inj hstep
    exact distinguished_check fun _ => hs
  | makeTemporary | copyPath | startRun | fsyncTemporary | renameTemporary | fsyncDirectory =>
    simp only [mainStep] at hstep
    split at hstep <;> obtain rfl := Option.some.inj hstep
    all_goals first
      | exact hs
      | trivial
  | running temporary r =>
    simp only [mainStep] at hstep
    split at hstep
    · obtain rfl := Option.some.inj hstep
      exact hs
    · obtain rfl := Option.some.inj hstep
      exact hs
    · cases hstep
  | unwind =>
    obtain rfl := Option.some.inj hstep
    trivial
  | returned | thrown => cases hstep

end RunFileCall

namespace RunFileCall

variable {σ : Type*} {call : RunFileCall σ} {before files : FileSystem Path Bytes}
  {place : RunFilePlace σ}

theorem Consistent.final_name (h : call.Honoured before) (hs : call.Consistent before files place) :
    files.denotes call.parent call.finalName = before.denotes call.parent call.finalName ∨
      call.Published before files := by
  cases place with
  | validateInput | validateOutput | openInput | statInput | statOutput | validateFilename
  | openDirectory | makeTemporary =>
    obtain rfl : files = before := hs
    exact .inl rfl
  | copyPath | startRun | running | fsyncTemporary | renameTemporary =>
    exact .inl (hs.1.untouched h).1
  | unwind => exact .inl (Standing.untouched h hs).1
  | fsyncDirectory | returned => exact .inr hs
  | thrown committed failure =>
    cases committed with
    | true => exact .inr hs
    | false => exact .inl (hs.1 _ _)

theorem Consistent.denotes (hs : call.Consistent before files place)
    (hdistinguished : call.Distinguished place) {d : ℕ} {n : Path}
    (hfree : ∀ temporary, call.makeTemporary = .ok temporary → before.entries d n = none →
      ¬ (d = call.parent ∧ n = call.temporaryName temporary))
    (hother : call.Compared → ¬ (d = call.parent ∧ n = call.finalName)) :
    files.denotes d n = before.denotes d n := by
  have hstanding : ∀ {temporary : Temporary}, call.Standing before files temporary →
      files.denotes d n = before.denotes d n := by
    intro temporary h
    refine h.2.denotes fun heq => hfree temporary h.1 ?_ heq
    rw [heq.1,heq.2]
    exact h.2.absent
  have hpublished : call.Published before files → call.Compared →
      files.denotes d n = before.denotes d n := by
    rintro ⟨_,-,hreplaced,-⟩ hcompared
    exact hreplaced.others d n (hother hcompared)
  cases place with
  | validateInput | validateOutput | openInput | statInput | statOutput | validateFilename
  | openDirectory | makeTemporary =>
    obtain rfl : files = before := hs
    rfl
  | copyPath | startRun | running | fsyncTemporary => exact hstanding hs.1
  | renameTemporary => exact hstanding hs.1
  | unwind => exact hstanding hs
  | fsyncDirectory | returned => exact hpublished hs hdistinguished
  | thrown committed failure =>
    cases committed with
    | true => exact hpublished hs hdistinguished
    | false => exact hs.1 d n

end RunFileCall

namespace MetricsJsonCall

variable {call : MetricsJsonCall} {before : FileSystem Path Bytes} {s s' : MetricsJsonState} {j : ℕ}

theorem frame_main (hs : call.Consistent before s s.place)
    (hj : ∀ temporary, call.makeTemporary = .ok temporary → j ≠ temporary.inode)
    (hstep : call.mainStep s s.place = some s') :
    s'.files.contents j = s.files.contents j ∧ s'.files.durable j = s.files.durable j := by
  obtain ⟨place,files,position⟩ := s
  cases place with
  | render | validatePath | openDirectory | makeTemplate | copyPath | fsyncDirectory
  | renameTemporary =>
    simp only [mainStep] at hstep
    split at hstep <;> obtain rfl := Option.some.inj hstep <;> exact ⟨rfl,rfl⟩
  | makeTemporary contents =>
    simp only [mainStep] at hstep
    split at hstep
    · obtain rfl := Option.some.inj hstep
      exact ⟨rfl,rfl⟩
    · rename_i temporary htemporary
      obtain rfl := Option.some.inj hstep
      exact ⟨if_neg (hj temporary htemporary),rfl⟩
  | writing temporary contents written =>
    simp only [mainStep] at hstep
    split at hstep
    · cases hstep
    · obtain rfl := Option.some.inj hstep
      exact ⟨rfl,rfl⟩
  | fsyncTemporary temporary contents =>
    simp only [mainStep] at hstep
    split at hstep
    · obtain rfl := Option.some.inj hstep
      exact ⟨rfl,rfl⟩
    · obtain rfl := Option.some.inj hstep
      exact ⟨rfl,if_neg (hj temporary hs.2.1.1)⟩
  | abandon | unwind =>
    obtain rfl := Option.some.inj hstep
    exact ⟨rfl,rfl⟩
  | returned | thrown => cases hstep

theorem frame_write {answer : SyscallResult} (hs : call.Consistent before s s.place)
    (hj : ∀ temporary, call.makeTemporary = .ok temporary → j ≠ temporary.inode)
    (hstep : writeStep answer s s.place = some s') :
    s'.files.contents j = s.files.contents j ∧ s'.files.durable j = s.files.durable j := by
  obtain ⟨place,files,position⟩ := s
  cases place with
  | writing temporary contents written =>
    simp only [writeStep] at hstep
    split at hstep
    · split at hstep
      · split at hstep <;> obtain rfl := Option.some.inj hstep <;> exact ⟨rfl,rfl⟩
      · obtain rfl := Option.some.inj hstep
        exact ⟨rfl,rfl⟩
      · split at hstep
        · obtain rfl := Option.some.inj hstep
          exact ⟨if_neg (hj temporary hs.2.1.1),rfl⟩
        · cases hstep
    · cases hstep
  | _ => cases hstep

theorem Consistent.denotes (hs : call.Consistent before s s.place) {d : ℕ} {n : Path}
    (hpresent : before.entries d n ≠ none) (hother : ¬ (d = call.parent ∧ n = call.finalName)) :
    s.files.denotes d n = before.denotes d n := by
  have hstanding : ∀ {temporary : Temporary}, call.Standing before s.files temporary →
      s.files.denotes d n = before.denotes d n := by
    intro temporary h
    refine h.2.denotes ?_
    rintro ⟨rfl,rfl⟩
    exact hpresent h.2.absent
  have hpublished : call.Published before s.files → s.files.denotes d n = before.denotes d n := by
    rintro ⟨_,_,-,-,hreplaced,-⟩
    exact hreplaced.others d n hother
  obtain ⟨place,files,position⟩ := s
  cases place with
  | render =>
    obtain rfl : files = before := hs
    rfl
  | validatePath | openDirectory | makeTemplate | makeTemporary =>
    obtain rfl : files = before := hs.2
    rfl
  | copyPath | writing | fsyncTemporary => exact hstanding hs.2.1
  | renameTemporary => exact hstanding hs.1.2.1
  | abandon | unwind => exact hstanding hs.2
  | fsyncDirectory | returned => exact hpublished hs
  | thrown committed failure =>
    cases committed with
    | true => exact hpublished hs
    | false => exact hs.1 d n

theorem Consistent.others {committed : Bool} {failure : Failure} {files : FileSystem Path Bytes}
    {position : ℕ} (hs : call.Consistent before ⟨.thrown committed failure,files,position⟩
      (.thrown committed failure)) {d : ℕ} {n : Path}
    (hother : ¬ (d = call.parent ∧ n = call.finalName)) :
    files.denotes d n = before.denotes d n := by
  cases committed with
  | true =>
    obtain ⟨_,_,-,-,hreplaced,-⟩ := hs
    exact hreplaced.others d n hother
  | false => exact hs.1 d n

theorem Consistent.final_name (h : call.Honoured before) (hs : call.Consistent before s s.place) :
    s.files.denotes call.parent call.finalName = before.denotes call.parent call.finalName ∨
      call.NamesRendered s.files :=
  (MetricsJsonContract.of_consistent h hs).final_name

end MetricsJsonCall

namespace RunCall

variable {call : RunCall Unit} {latency : Option Counter}

theorem stagesAt_increment (hstages : call.stages = [⟨byteIncrementStage,(),latency⟩]) (k : ℕ)
    {stages : List (StageEntry Unit)} (h : call.stagesAt k = some stages) :
    ∃ latency', stages = [⟨byteIncrementStage,(),latency'⟩] := by
  induction k generalizing stages with
  | zero =>
    obtain rfl := Option.some.inj h
    exact ⟨latency,hstages⟩
  | succ k ih =>
    obtain ⟨stages₀,h₀,-,rfl,-⟩ := stagesAt_succ h
    obtain ⟨latency',rfl⟩ := ih h₀
    exact ⟨latency'.map fun samples => samples.increment 1,rfl⟩

theorem processedAt_increment (hstages : call.stages = [⟨byteIncrementStage,(),latency⟩]) {k : ℕ}
    (h : call.stagesAt k ≠ none) :
    call.processedAt k = (call.rawAt k).map IncrementVerification.expectedByte := by
  obtain ⟨stages,hk⟩ := Option.ne_none_iff_exists'.mp h
  obtain ⟨latency',rfl⟩ := stagesAt_increment hstages k hk
  rw [processedAt,hk]
  rfl

end RunCall

theorem Transformed.increment {call : RunCall Unit} {latency : Option Counter}
    {input output : Bytes} (hstages : call.stages = [⟨byteIncrementStage,(),latency⟩])
    (h : Transformed call input output) :
    output = input.map IncrementVerification.expectedByte := by
  obtain ⟨n,hinput,hn,rfl⟩ := h
  rw [← hinput,List.map_flatMap]
  refine List.flatMap_congr fun k hk => ?_
  have hlt := List.mem_range.mp hk
  exact RunCall.processedAt_increment hstages (RunCall.stagesAt_mono hlt.le hn)

namespace PreprocessDemo

variable (env : DemoEnvironment) (options : Options) (before : FileSystem Path Bytes)

def DemoEnvironment.entry (path : Path) : ℕ × Path :=
  (env.directory (PathQueries.parentDirectory path),path.filename)

def at? (files : FileSystem Path Bytes) (entry : ℕ × Path) : Option (ℕ × Bytes) :=
  files.denotes entry.1 entry.2

/-- What the system promises to the demo: the input is there, one entry has one status and one
canonical path, `mkstemp` makes new files, and reads deliver the files that are opened. -/
structure DemoEnvironment.Honoured : Prop where
  input : at? before (env.entry options.inputPath) =
    some (env.inputInode,before.contents env.inputInode)
  status : env.entry options.inputPath = env.entry options.outputPath →
    env.statOutput = env.statInput
  canonical : ∀ left right, env.entry left = env.entry right →
    env.queries.weaklyCanonical left = env.queries.weaklyCanonical right
  temporary : ∀ temporary, env.makeTemporary before = .ok temporary →
    before.entries (env.entry options.outputPath).1
        (options.outputPath.temporaryName temporary.suffix) = none ∧
      temporary.inode ≠ env.inputInode ∧ ∀ d n, before.entries d n ≠ some temporary.inode
  jsonTemporary : ∀ files temporary path, options.metricsJsonPath = some path →
    env.makeJsonTemporary files = .ok temporary →
    files.entries (env.entry path).1 (path.temporaryName temporary.suffix) = none ∧
      temporary.inode ≠ env.inputInode ∧ ∀ d n, files.entries d n ≠ some temporary.inode
  reads : (env.executor options before).ReadsFrom (before.contents env.inputInode)
  openedInput : ∀ files input inode contents, (env.openVerified files).1 = .ok input →
    at? files (env.entry options.inputPath) = some (inode,contents) → input.bytes = contents
  openedOutput : ∀ files output inode contents, (env.openVerified files).2 = .ok output →
    at? files (env.entry options.outputPath) = some (inode,contents) → output.bytes = contents

def DemoEnvironment.Delivered (files : FileSystem Path Bytes) : Prop :=
  ∃ inode, at? files (env.entry options.outputPath) =
      some (inode,(before.contents env.inputInode).map IncrementVerification.expectedByte) ∧
    files.durable inode = (before.contents env.inputInode).map IncrementVerification.expectedByte

/-- A path that denotes nothing, under the name that `mkstemp` chooses beside the output. -/
def DemoEnvironment.ChosenName (path : Path) : Prop :=
  ∃ temporary, env.makeTemporary before = .ok temporary ∧ env.entry path =
    ((env.entry options.outputPath).1,options.outputPath.temporaryName temporary.suffix) ∧
      at? before (env.entry path) = none

def DemoEnvironment.MetricsDelivered (path : Path) (files : FileSystem Path Bytes) : Prop :=
  ∃ context result inode contents, context.options = options ∧
    result.bytesWritten = (before.contents env.inputInode).length ∧
    Reporting.renderMetricsJson env.fp env.snapshot (env.report context result) = .ok contents ∧
    at? files (env.entry path) = some (inode,contents) ∧ files.durable inode = contents

variable {env options before}

theorem DemoEnvironment.Honoured.runFile (h : env.Honoured options before) :
    (env.runFileCall options before).Honoured before where
  absent := fun _ htemporary => (h.temporary _ htemporary).1
  unused := fun _ htemporary => (h.temporary _ htemporary).2
  reads := h.reads

theorem DemoEnvironment.Honoured.metricsJson (h : env.Honoured options before) {path : Path}
    (hpath : options.metricsJsonPath = some path) (context : DemoContext)
    (result : PipelineRunResult) (files : FileSystem Path Bytes) :
    (env.metricsJsonCall context result path files).Honoured files where
  absent := fun _ htemporary => (h.jsonTemporary _ _ _ hpath htemporary).1
  unused := fun _ htemporary => (h.jsonTemporary _ _ _ hpath htemporary).2.2

theorem rejectSameFile_ok (h : env.Honoured options before) {left right : Path} {message : String}
    (hreject : env.queries.rejectSameFile left right message = .ok ()) :
    env.entry left ≠ env.entry right := by
  intro heq
  have hcanonical := h.canonical left right heq
  obtain ⟨normalizedLeft,hleft,hrest⟩ := bind_eq_ok hreject
  obtain ⟨normalizedRight,hright,hdiffer⟩ := bind_eq_ok hrest
  rw [PathQueries.normalizedPath,hcanonical] at hleft
  rw [PathQueries.normalizedPath] at hright
  have hsame : normalizedLeft = normalizedRight := by
    cases hnormal : env.queries.weaklyCanonical right with
    | error errorNumber =>
      rw [hnormal] at hleft
      cases hleft
    | ok normalized =>
      rw [hnormal] at hleft hright
      exact (Except.ok.inj hleft).symm.trans (Except.ok.inj hright)
  rw [if_pos hsame] at hdiffer
  cases hdiffer

theorem validateMetricsJsonPath_ok (h : env.Honoured options before) {path : Path}
    (hpath : options.metricsJsonPath = some path)
    (hvalid : env.queries.validateMetricsJsonPath options = .ok ()) :
    env.entry options.inputPath ≠ env.entry path ∧
      env.entry options.outputPath ≠ env.entry path := by
  simp only [PathQueries.validateMetricsJsonPath,hpath] at hvalid
  split at hvalid
  · cases hvalid
  · split at hvalid
    · cases hvalid
    · split at hvalid
      · cases hvalid
      · split at hvalid
        · cases hvalid
        · split at hvalid
          · cases hvalid
          · obtain ⟨_,hinput,houtput⟩ := bind_eq_ok hvalid
            exact ⟨rejectSameFile_ok h hinput,rejectSameFile_ok h houtput⟩

theorem compared_entry (h : env.Honoured options before)
    (hcompared : (env.runFileCall options before).Compared) :
    env.entry options.inputPath ≠ env.entry options.outputPath := by
  intro heq
  obtain ⟨status,hinput,hreject⟩ := hcompared
  have hsame : (env.runFileCall options before).statOutput = .ok status :=
    (h.status heq).trans hinput
  rw [hsame] at hreject
  simp [RunFileCall.rejectSame] at hreject

/-- The output is published. -/
structure Renamed (env : DemoEnvironment) (options : Options)
    (before files : FileSystem Path Bytes) : Prop where
  checked : env.queries.validateMetricsJsonPath options = .ok ()
  published : (env.runFileCall options before).Published before files
  compared : (env.runFileCall options before).Compared

/-- The output is published, and `run_file` has returned. -/
structure Committed (env : DemoEnvironment) (options : Options) (before : FileSystem Path Bytes)
    (context : DemoContext) (result : PipelineRunResult) (files : FileSystem Path Bytes) : Prop
    extends Renamed env options before files where
  options_eq : context.options = options
  complete : ∃ output, Complete (env.executor options before) result output

/-- The metrics are being written behind the run that has left the files `mid`. -/
structure WritingMetrics (env : DemoEnvironment) (options : Options)
    (before : FileSystem Path Bytes) (context : DemoContext) (result : PipelineRunResult)
    (path : Path) (mid : FileSystem Path Bytes) (s : MetricsJsonState) : Prop where
  committed : Committed env options before context result mid
  path_eq : options.metricsJsonPath = some path
  consistent : (env.metricsJsonCall context result path mid).Consistent mid s s.place
  frame : ∀ j, (∀ temporary, env.makeJsonTemporary mid = .ok temporary → j ≠ temporary.inode) →
    s.files.contents j = mid.contents j ∧ s.files.durable j = mid.durable j

def OthersKept (env : DemoEnvironment) (options : Options) (before files : FileSystem Path Bytes) :
    Prop :=
  ∀ e, e ≠ env.entry options.outputPath →
    (∀ path, options.metricsJsonPath = some path → e ≠ env.entry path) →
    at? files e = at? before e

def InputKept (env : DemoEnvironment) (options : Options) (before files : FileSystem Path Bytes) :
    Prop :=
  at? files (env.entry options.inputPath) = at? before (env.entry options.inputPath)

def MetricsKept (env : DemoEnvironment) (options : Options) (before files : FileSystem Path Bytes) :
    Prop :=
  ∀ path, options.metricsJsonPath = some path →
    at? files (env.entry path) = at? before (env.entry path) ∨
      env.MetricsDelivered options before path files

/-- What an exit without a failure leaves. -/
structure Succeeded (env : DemoEnvironment) (options : Options)
    (before files : FileSystem Path Bytes) : Prop where
  delivered : env.Delivered options before files
  input : InputKept env options before files
  others : OthersKept env options before files
  metrics : ∀ path, options.metricsJsonPath = some path →
    env.MetricsDelivered options before path files

/-- What an exit with a failure leaves. -/
def LeftBehind (env : DemoEnvironment) (options : Options) (before files : FileSystem Path Bytes) :
    Prop :=
  before.Untouched files ∨ env.Delivered options before files ∧ InputKept env options before files ∧
    OthersKept env options before files ∧ MetricsKept env options before files

variable {context : DemoContext} {result : PipelineRunResult} {files mid : FileSystem Path Bytes}
  {path : Path} {s : MetricsJsonState}

theorem delivered_of_published (h : (env.runFileCall options before).Published before files) :
    env.Delivered options before files := by
  obtain ⟨inode,-,hreplaced,htransformed,hdurable⟩ := h
  have houtput := htransformed.increment rfl
  exact ⟨inode,hreplaced.entry.trans (by rw [houtput]; rfl),hdurable.trans houtput⟩

namespace Renamed

theorem delivered (h : Renamed env options before files) : env.Delivered options before files :=
  delivered_of_published h.published

theorem kept (h : Renamed env options before files) {e : ℕ × Path}
    (he : e ≠ env.entry options.outputPath) : at? files e = at? before e := by
  obtain ⟨inode,-,hreplaced,-,-⟩ := h.published
  exact hreplaced.others e.1 e.2 fun heq => he (Prod.ext heq.1 heq.2)

theorem leftBehind (hh : env.Honoured options before) (h : Renamed env options before files) :
    LeftBehind env options before files := by
  refine .inr ⟨h.delivered,h.kept (compared_entry hh h.compared),fun _ he _ => h.kept he,
    fun path hpath => .inl (h.kept ?_)⟩
  exact (validateMetricsJsonPath_ok hh hpath h.checked).2.symm

end Renamed

theorem Committed.bytesWritten (hh : env.Honoured options before) (hvalid : options.pipeline.Valid)
    (h : Committed env options before context result files) :
    result.bytesWritten = (before.contents env.inputInode).length := by
  obtain ⟨output,hcomplete⟩ := h.complete
  exact hcomplete.bytesWritten hh.reads hvalid.blockSize_pos

theorem WritingMetrics.othersKept
    (h : WritingMetrics env options before context result path mid s)
    (hsame : ∀ e, e ≠ env.entry path → at? s.files e = at? mid e) :
    OthersKept env options before s.files := by
  intro e he hother
  rw [hsame e (hother path h.path_eq),h.committed.kept he]

namespace WritingMetrics

variable (hh : env.Honoured options before)
  (h : WritingMetrics env options before context result path mid s)

include hh h

theorem present {e : ℕ × Path} {inode : ℕ} {contents : Bytes}
    (hpresent : at? mid e = some (inode,contents)) (he : e ≠ env.entry path) :
    at? s.files e = some (inode,contents) ∧ s.files.durable inode = mid.durable inode := by
  have hentry : mid.entries e.1 e.2 = some inode := by
    obtain ⟨i,hi,heq⟩ := Option.map_eq_some_iff.mp hpresent
    rw [hi,(Prod.mk.inj heq).1]
  have hnew : ∀ temporary, env.makeJsonTemporary mid = .ok temporary → inode ≠ temporary.inode := by
    rintro temporary htemporary rfl
    exact (hh.jsonTemporary mid temporary path h.path_eq htemporary).2.2 _ _ hentry
  refine ⟨?_,(h.frame inode hnew).2⟩
  rw [← hpresent]
  exact h.consistent.denotes (by simp [hentry]) fun heq => he (Prod.ext heq.1 heq.2)

theorem delivered : env.Delivered options before s.files := by
  obtain ⟨inode,hentry,hdurable⟩ := h.committed.delivered
  obtain ⟨-,hne⟩ := validateMetricsJsonPath_ok hh h.path_eq h.committed.checked
  obtain ⟨hkept,hsame⟩ := h.present hh hentry hne
  exact ⟨inode,hkept,hsame.trans hdurable⟩

theorem inputKept : InputKept env options before s.files := by
  obtain ⟨hne,-⟩ := validateMetricsJsonPath_ok hh h.path_eq h.committed.checked
  have hmid := (h.committed.kept (compared_entry hh h.committed.compared)).trans hh.input
  rw [InputKept,(h.present hh hmid hne).1,hh.input]

theorem metricsDelivered (hvalid : options.pipeline.Valid)
    (hnames : (env.metricsJsonCall context result path mid).NamesRendered s.files) :
    env.MetricsDelivered options before path s.files := by
  obtain ⟨inode,contents,hrendered,hentry,hdurable⟩ := hnames
  exact ⟨context,result,inode,contents,h.committed.options_eq,h.committed.bytesWritten hh hvalid,
    hrendered,hentry,hdurable⟩

theorem metricsKept (hvalid : options.pipeline.Valid) : MetricsKept env options before s.files := by
  intro other hother
  obtain rfl : path = other := Option.some.inj (h.path_eq.symm.trans hother)
  obtain ⟨-,hne⟩ := validateMetricsJsonPath_ok hh h.path_eq h.committed.checked
  have hjson := hh.metricsJson h.path_eq context result mid
  rcases h.consistent.final_name hjson with hsame | hnames
  · exact .inl (hsame.trans (h.committed.kept hne.symm))
  · exact .inr (h.metricsDelivered hh hvalid hnames)

end WritingMetrics

def Consistent (env : DemoEnvironment) (options : Options) (before files : FileSystem Path Bytes) :
    DemoPlace → Prop
  | .parseOptions => files = before
  | .validateMetricsJsonPath options' => options' = options ∧ files = before
  | .fileSize options' | .createBackend options' _ => options' = options ∧
      env.queries.validateMetricsJsonPath options = .ok () ∧ files = before
  | .register context | .header context | .startReporter context => context.options = options ∧
      env.queries.validateMetricsJsonPath options = .ok () ∧ files = before
  | .runFile context call place => context.options = options ∧
      env.queries.validateMetricsJsonPath options = .ok () ∧
      call = env.runFileCall options before ∧ call.Consistent before files place ∧
      call.Counted place ∧ call.Distinguished place
  | .stopReporter context (.ok result) => Committed env options before context result files
  | .stopReporter context (.error _) => context.options = options ∧
      LeftBehind env options before files
  | .verify context result | .metrics context result =>
      Committed env options before context result files
  | .metricsJson context call place position => ∃ result mid path,
      call = env.metricsJsonCall context result path mid ∧
      WritingMetrics env options before context result path mid ⟨place,files,position⟩
  | .summary _ => Succeeded env options before files
  | .exited code none => code = 0 ∧ Succeeded env options before files
  | .exited code (some failure) => code = exitCode failure ∧ LeftBehind env options before files

theorem LeftBehind.refl : LeftBehind env options before before := .inl fun _ _ => rfl

variable {argv : List (List Char)}

theorem parseOptions_no_help (h : parseOptions argv = .ok options) :
    argv.tail ≠ ["--help".toList] := by
  intro hhelp
  obtain _ | ⟨program,arguments⟩ := argv
  · cases hhelp
  · obtain rfl : arguments = _ := hhelp
    cases h

theorem Consistent.after {α : Type} {r : Except Failure α} {next : α → DemoPlace}
    (hfailed : LeftBehind env options before files)
    (hnext : ∀ a, r = .ok a → Consistent env options before files (next a)) :
    Consistent env options before files (.after r next) := by
  cases r with
  | error failure => exact ⟨rfl,hfailed⟩
  | ok a => exact hnext a rfl

theorem leftBehind_thrown (hh : env.Honoured options before) {committed : Bool} {failure : Failure}
    (hchecked : env.queries.validateMetricsJsonPath options = .ok ())
    (hs : (env.runFileCall options before).Consistent before files (.thrown committed failure))
    (hcompared : (env.runFileCall options before).Distinguished
      (RunFilePlace.thrown committed failure)) : LeftBehind env options before files := by
  cases committed with
  | true => exact Renamed.leftBehind hh ⟨hchecked,hs,hcompared⟩
  | false => exact .inl hs.1

theorem consistent_runFile (hh : env.Honoured options before) {call : RunFileCall Unit}
    {place : RunFilePlace Unit} {s' : DemoState}
    (hs : Consistent env options before files (.runFile context call place))
    (hstep : env.mainStep argv files (.runFile context call place) = some s') :
    Consistent env options before s'.files s'.place := by
  obtain ⟨hoptions,hchecked,rfl,hconsistent,hcounted,hcompared⟩ := hs
  have hother : ∀ r, (env.runFileCall options before).mainStep files place = some r →
      Consistent env options before r.files
        (.runFile context (env.runFileCall options before) r.place) := by
    intro r hr
    exact ⟨hoptions,hchecked,rfl,
      @RunFileCall.consistent_main _ _ _ hh.runFile ⟨place,files⟩ r hconsistent hr,
      @RunFileCall.counted_main _ _ _ ⟨place,files⟩ r hconsistent hcounted hr,
      @RunFileCall.distinguished_main _ _ ⟨place,files⟩ r hcompared hr⟩
  cases place with
  | returned result =>
    obtain rfl := Option.some.inj hstep
    exact ⟨⟨hchecked,hconsistent,hcompared⟩,hoptions,hcounted⟩
  | thrown committed failure =>
    obtain rfl := Option.some.inj hstep
    exact ⟨hoptions,leftBehind_thrown hh hchecked hconsistent hcompared⟩
  | _ =>
    simp only [DemoEnvironment.mainStep] at hstep
    obtain ⟨r,hr,rfl⟩ := Option.map_eq_some_iff.mp hstep
    exact hother r hr

theorem WritingMetrics.step {s' : MetricsJsonState}
    (h : WritingMetrics env options before context result path mid s)
    (hconsistent : (env.metricsJsonCall context result path mid).Consistent mid s' s'.place)
    (hframe : ∀ j, (∀ temporary, env.makeJsonTemporary mid = .ok temporary → j ≠ temporary.inode) →
      s'.files.contents j = s.files.contents j ∧ s'.files.durable j = s.files.durable j) :
    WritingMetrics env options before context result path mid s' := by
  refine ⟨h.committed,h.path_eq,hconsistent,fun j hj => ?_⟩
  obtain ⟨hcontents,hdurable⟩ := hframe j hj
  obtain ⟨hcontents',hdurable'⟩ := h.frame j hj
  exact ⟨hcontents.trans hcontents',hdurable.trans hdurable'⟩

theorem consistent_metricsJson (hh : env.Honoured options before)
    (hvalid : options.pipeline.Valid) {call : MetricsJsonCall} {place : MetricsJsonPlace}
    {position : ℕ} {s' : DemoState}
    (hs : Consistent env options before files (.metricsJson context call place position))
    (hstep : env.mainStep argv files (.metricsJson context call place position) = some s') :
    Consistent env options before s'.files s'.place := by
  obtain ⟨result,mid,path,rfl,hwriting⟩ := hs
  have hother : ∀ r, (env.metricsJsonCall context result path mid).mainStep
      ⟨place,files,position⟩ place = some r → Consistent env options before r.files
        (.metricsJson context (env.metricsJsonCall context result path mid) r.place
          r.position) := by
    intro r hr
    have hjson := hh.metricsJson hwriting.path_eq context result mid
    exact ⟨result,mid,path,rfl,hwriting.step
      (MetricsJsonCall.consistent_main hjson hwriting.consistent hr)
      fun j hj => MetricsJsonCall.frame_main hwriting.consistent hj hr⟩
  cases place with
  | returned =>
    obtain rfl := Option.some.inj hstep
    obtain ⟨_,_,-,-,hreplaced,-⟩ := id hwriting.consistent
    have hothers := hwriting.othersKept fun e he =>
      hreplaced.others e.1 e.2 fun heq => he (Prod.ext heq.1 heq.2)
    refine ⟨hwriting.delivered hh,hwriting.inputKept hh,hothers,fun other hpath => ?_⟩
    obtain rfl := Option.some.inj (hwriting.path_eq.symm.trans hpath)
    exact hwriting.metricsDelivered hh hvalid
      (MetricsJsonCall.Published.namesRendered hwriting.consistent).1
  | thrown committed failure =>
    obtain rfl := Option.some.inj hstep
    have hothers := hwriting.othersKept fun e he =>
      MetricsJsonCall.Consistent.others hwriting.consistent fun heq => he (Prod.ext heq.1 heq.2)
    exact ⟨rfl,.inr ⟨hwriting.delivered hh,hwriting.inputKept hh,hothers,
      hwriting.metricsKept hh hvalid⟩⟩
  | _ =>
    simp only [DemoEnvironment.mainStep] at hstep
    obtain ⟨r,hr,rfl⟩ := Option.map_eq_some_iff.mp hstep
    exact hother r hr

theorem consistent_main (hh : env.Honoured options before)
    (hparse : parseOptions argv = .ok options) {u u' : DemoState}
    (hs : Consistent env options before u.files u.place)
    (hstep : env.mainStep argv u.files u.place = some u') :
    Consistent env options before u'.files u'.place := by
  have hvalid := (parseOptions_ok hparse).pipeline
  obtain ⟨place,files⟩ := u
  cases place with
  | parseOptions =>
    obtain rfl : files = before := hs
    rw [DemoEnvironment.mainStep,if_neg (parseOptions_no_help hparse)] at hstep
    obtain rfl := Option.some.inj hstep
    exact .after .refl fun options' hok => ⟨Except.ok.inj (hok.symm.trans hparse),rfl⟩
  | validateMetricsJsonPath options' =>
    obtain ⟨rfl,rfl⟩ := hs
    obtain rfl := Option.some.inj hstep
    exact .after .refl fun _ hok => ⟨rfl,hok,rfl⟩
  | fileSize options' =>
    obtain ⟨rfl,hchecked,rfl⟩ := hs
    obtain rfl := Option.some.inj hstep
    exact .after .refl fun _ _ => ⟨rfl,hchecked,rfl⟩
  | createBackend options' inputBytes =>
    obtain ⟨rfl,hchecked,rfl⟩ := hs
    obtain rfl := Option.some.inj hstep
    exact .after .refl fun _ _ => ⟨rfl,hchecked,rfl⟩
  | register context | header context =>
    obtain ⟨hoptions,hchecked,rfl⟩ := hs
    obtain rfl := Option.some.inj hstep
    exact .after .refl fun _ _ => ⟨hoptions,hchecked,rfl⟩
  | startReporter context =>
    obtain ⟨rfl,hchecked,rfl⟩ := hs
    obtain rfl := Option.some.inj hstep
    exact .after .refl fun _ _ => ⟨rfl,hchecked,rfl,rfl,trivial,trivial⟩
  | runFile context call place => exact consistent_runFile hh hs hstep
  | stopReporter context outcome =>
    obtain rfl := Option.some.inj hstep
    cases outcome with
    | error failure => exact ⟨rfl,hs.2⟩
    | ok result => exact hs
  | verify context result =>
    obtain rfl := Option.some.inj hstep
    have hcommitted : Committed env options before context result files := hs
    exact .after (hcommitted.leftBehind hh) fun _ _ => hcommitted
  | metrics context result =>
    have hcommitted : Committed env options before context result files := hs
    obtain rfl := hcommitted.options_eq
    simp only [DemoEnvironment.mainStep] at hstep
    split at hstep
    · rename_i hnone
      obtain rfl := Option.some.inj hstep
      exact ⟨hcommitted.delivered,hcommitted.kept (compared_entry hh hcommitted.compared),
        fun _ he _ => hcommitted.kept he,by simp [hnone]⟩
    · rename_i path hpath
      obtain rfl := Option.some.inj hstep
      exact ⟨result,files,path,rfl,hcommitted,hpath,rfl,fun _ _ => ⟨rfl,rfl⟩⟩
  | metricsJson context call place position => exact consistent_metricsJson hh hvalid hs hstep
  | summary context =>
    have hsucceeded : Succeeded env options before files := hs
    obtain rfl := Option.some.inj hstep
    refine .after (.inr ⟨hsucceeded.delivered,hsucceeded.input,hsucceeded.others,
      fun path hpath => .inr ?_⟩) fun _ _ => ⟨rfl,hsucceeded⟩
    exact hsucceeded.metrics path hpath
  | exited code failure => cases hstep

theorem consistent_thread {t : Thread} {u u' : DemoState}
    (hs : Consistent env options before u.files u.place)
    (hstep : DemoEnvironment.threadStep t u.files u.place = some u') :
    Consistent env options before u'.files u'.place := by
  obtain ⟨place,files⟩ := u
  cases place with
  | runFile context call place =>
    obtain ⟨hoptions,hchecked,rfl,hconsistent,hcounted,hcompared⟩ := hs
    obtain ⟨r,hr,rfl⟩ := Option.map_eq_some_iff.mp hstep
    have hconsistent' := @RunFileCall.consistent_thread _ (env.runFileCall options before) before t
      ⟨place,files⟩ r hconsistent hr
    cases place with
    | running temporary s =>
      obtain ⟨s',-,rfl⟩ := Option.map_eq_some_iff.mp hr
      exact ⟨hoptions,hchecked,rfl,hconsistent',trivial,hcompared⟩
    | _ => cases hr
  | _ => cases hstep

theorem consistent_write {answer : SyscallResult} {u u' : DemoState}
    (hs : Consistent env options before u.files u.place)
    (hstep : DemoEnvironment.writeStep answer u.files u.place = some u') :
    Consistent env options before u'.files u'.place := by
  obtain ⟨place,files⟩ := u
  cases place with
  | metricsJson context call place position =>
    obtain ⟨result,mid,path,rfl,hwriting⟩ := hs
    obtain ⟨r,hr,rfl⟩ := Option.map_eq_some_iff.mp hstep
    exact ⟨result,mid,path,rfl,hwriting.step
      (MetricsJsonCall.consistent_write hwriting.consistent hr)
      fun j hj => MetricsJsonCall.frame_write hwriting.consistent hj hr⟩
  | _ => cases hstep

theorem reachable_consistent (hh : env.Honoured options before)
    (hparse : parseOptions argv = .ok options) {u : DemoState}
    (hu : (env.system argv).Reachable ⟨.parseOptions,before⟩ u) :
    Consistent env options before u.files u.place := by
  refine @TransitionSystem.Reachable.invariant _ _ (env.system argv)
    (fun u => Consistent env options before u.files u.place) (fun l v w hv hstep => ?_)
    ⟨.parseOptions,before⟩ u rfl hu
  cases l with
  | main => exact consistent_main hh hparse hv hstep
  | thread t => exact consistent_thread hv hstep
  | write answer => exact consistent_write hv hstep

/-- What the demo guarantees at every point of a run with these options, and in its end. -/
structure DemoContract (env : DemoEnvironment) (options : Options)
    (before : FileSystem Path Bytes) (u : DemoState) : Prop where
  output : at? u.files (env.entry options.outputPath) =
      at? before (env.entry options.outputPath) ∨ env.Delivered options before u.files
  input : InputKept env options before u.files
  metrics : ∀ path, options.metricsJsonPath = some path →
    at? u.files (env.entry path) = at? before (env.entry path) ∨
      env.MetricsDelivered options before path u.files ∧ env.Delivered options before u.files ∨
      env.ChosenName options before path ∧
        ∃ context call place, u.place = .runFile context call place
  verified : ∀ context result input output, u.place = .verify context result →
    env.openVerified u.files = (.ok input,.ok output) → input.ShortAtEofOnly →
    output.ShortAtEofOnly → env.inputBlock = none → env.outputBlock = none →
    env.verify context.options u.files = .ok ()
  succeeded : ∀ code, u.place = .exited code none →
    code = 0 ∧ Succeeded env options before u.files
  failed : ∀ code failure, u.place = .exited code (some failure) → code = exitCode failure ∧
    LeftBehind env options before u.files

theorem Committed.verified (hh : env.Honoured options before) (hvalid : options.pipeline.Valid)
    (h : Committed env options before context result files) {input output : InputFile}
    (hopened : env.openVerified files = (.ok input,.ok output)) (hinput : input.ShortAtEofOnly)
    (houtput : output.ShortAtEofOnly) (hinputBlock : env.inputBlock = none)
    (houtputBlock : env.outputBlock = none) : env.verify context.options files = .ok () := by
  obtain ⟨inode,hentry,-⟩ := h.delivered
  have hkept := (h.kept (compared_entry hh h.compared)).trans hh.input
  have hbytes : output.bytes = input.bytes.map IncrementVerification.expectedByte := by
    rw [hh.openedInput files input _ _ (by rw [hopened]) hkept,
      hh.openedOutput files output _ _ (by rw [hopened]) hentry]
  have hverify : env.verify context.options files =
      (IncrementVerification.verification input output
        (List.replicate options.pipeline.blockSize (0 : UInt8)).length).run 0 := by
    rw [DemoEnvironment.verify,hopened,hinputBlock,houtputBlock,h.options_eq]
    rfl
  rw [hverify,List.length_replicate]
  exact (IncrementVerification.run_eq_ok hinput houtput hvalid.blockSize_pos).mpr hbytes

theorem LeftBehind.output (h : LeftBehind env options before files) :
    at? files (env.entry options.outputPath) = at? before (env.entry options.outputPath) ∨
      env.Delivered options before files :=
  h.imp (fun huntouched => huntouched _ _) And.left

theorem LeftBehind.input (h : LeftBehind env options before files) :
    InputKept env options before files :=
  h.elim (fun huntouched => huntouched _ _) fun hdelivered => hdelivered.2.1

theorem LeftBehind.metrics (h : LeftBehind env options before files)
    (hpath : options.metricsJsonPath = some path) :
    at? files (env.entry path) = at? before (env.entry path) ∨
      env.MetricsDelivered options before path files ∧ env.Delivered options before files := by
  rcases h with huntouched | ⟨hdelivered,-,-,hmetrics⟩
  · exact .inl (huntouched _ _)
  · exact (hmetrics path hpath).imp_right fun hnames => ⟨hnames,hdelivered⟩

/-- The contract where nothing is being verified and `main` has not ended. -/
theorem DemoContract.of_between {u : DemoState}
    (houtput : at? u.files (env.entry options.outputPath) =
      at? before (env.entry options.outputPath) ∨ env.Delivered options before u.files)
    (hinput : InputKept env options before u.files)
    (hmetrics : ∀ path, options.metricsJsonPath = some path →
      at? u.files (env.entry path) = at? before (env.entry path) ∨
        env.MetricsDelivered options before path u.files ∧ env.Delivered options before u.files ∨
        env.ChosenName options before path ∧
          ∃ context call place, u.place = .runFile context call place)
    (hverify : ∀ context result, u.place ≠ .verify context result)
    (hexited : ∀ code failure, u.place ≠ .exited code failure) :
    DemoContract env options before u where
  output := houtput
  input := hinput
  metrics := hmetrics
  verified := fun _ _ _ _ hplace => absurd hplace (hverify _ _)
  succeeded := fun _ hplace => absurd hplace (hexited _ _)
  failed := fun _ _ hplace => absurd hplace (hexited _ _)

theorem Renamed.metrics (hh : env.Honoured options before) (h : Renamed env options before files)
    (hpath : options.metricsJsonPath = some path) :
    at? files (env.entry path) = at? before (env.entry path) :=
  h.kept (validateMetricsJsonPath_ok hh hpath h.checked).2.symm

/-- The file `in` holds three bytes and the file `out` one. -/
def withInput : FileSystem Path Bytes where
  entries := fun d n => if d = 1 ∧ n = ['i','n'] then some 5
    else if d = 1 ∧ n = ['o','u','t'] then some 7 else none
  contents := fun j => if j = 5 then [1,2,3] else if j = 7 then [9] else []
  durable := fun _ => []

/-- A file of the directory that is read in whole, if it is small. -/
def openSmall (files : FileSystem Path Bytes) (name : Path) : OpenFileResult :=
  match files.denotes 1 name with
  | none => .error ENOENT
  | some (_,bytes) =>
    if h : bytes.length ≤ 8 then .ok {
      bytes := bytes
      size_le := by omega
      pread := fun offset length => .counting 0 (min length (bytes.length-offset))
      pread_le := by
        intro offset length n h
        obtain rfl := SyscallResult.count.inj h
        omega }
    else .error EIO

theorem openSmall_ok {files : FileSystem Path Bytes} {name : Path} {input : InputFile}
    (h : openSmall files name = .ok input) : input.ShortAtEofOnly ∧
      ∀ inode contents, files.denotes 1 name = some (inode,contents) → input.bytes = contents := by
  unfold openSmall at h
  split at h
  · cases h
  · rename_i inode bytes hdenotes
    split at h
    · obtain rfl := Except.ok.inj h
      refine ⟨fun _ _ => readAtWith_count rfl,fun inode' contents hcontents => ?_⟩
      exact (Prod.mk.inj (Option.some.inj (hdenotes.symm.trans hcontents))).2
    · cases h

def DemoEnvironment.smallest : DemoEnvironment where
  queries := ⟨fun path => .ok path.filename,fun _ _ => (false,0),fun _ => (true,0)⟩
  directory := fun _ => 1
  inputInode := 5
  inputSize := .ok 3
  backends := ⟨true,fun _ => none,none,none,fun _ => none⟩
  resources := ⟨0,1⟩
  registerMemory := none
  header := none
  startReporter := none
  openInput := none
  statInput := .ok ⟨0,5⟩
  statOutput := .ok ⟨0,7⟩
  openDirectory := none
  makeTemporary := fun _ => .ok ⟨['a','b','c','d','e','f'],8⟩
  copyPath := none
  fsyncTemporary := .counting 1 0
  renameTemporary := none
  fsyncDirectory := .counting 0 0
  inputFd := 3
  outputFd := 4
  memory := fun _ _ => 0
  readAt := fun input offset length => .ok ((input.drop offset).take length)
  writeAt := fun _ length => .counting 0 length
  startThread := fun _ => none
  openVerified := fun files => (openSmall files ['i','n'],openSmall files ['o','u','t'])
  inputBlock := none
  outputBlock := none
  fp := .rational
  elapsedSeconds := (1 : ℚ)
  snapshot := ⟨[],[],[]⟩
  openJsonDirectory := none
  makeJsonTemplate := none
  makeJsonTemporary := fun _ => .error ENOENT
  copyJsonPath := none
  fsyncJson := .counting 0 0
  renameJson := none
  fsyncJsonDirectory := .counting 0 0
  summary := none

def smallestArguments : List (List Char) :=
  ["demo".toList,"in".toList,"out".toList,"--backend=sync".toList,"--block-size=8".toList,
    "--alignment=8".toList,"--buffers=1".toList,"--queue-depth=1".toList]

def smallestOptions : Options where
  inputPath := "in".toList
  outputPath := "out".toList
  pipeline := ⟨8,1,1,8⟩
  backendKind := .sync

def smallestActions : List DemoAction :=
  List.replicate 7 .main++RunFileCall.smallestSteps.map (fun
    | .main => DemoAction.main
    | .thread t => .thread t)++List.replicate 5 .main

theorem DemoEnvironment.smallest_honoured :
    DemoEnvironment.smallest.Honoured smallestOptions withInput where
  input := rfl
  status := fun heq => absurd heq (by decide)
  canonical := fun _ _ heq => congrArg Except.ok (Prod.mk.inj heq).2
  temporary := by
    intro temporary h
    obtain rfl := Except.ok.inj h
    refine ⟨rfl,by decide,fun d n => ?_⟩
    simp only [withInput]
    split
    · simp
    · split <;> simp
  jsonTemporary := by
    intro files temporary path hpath
    cases hpath
  reads := by
    refine ⟨fun offset length data h => ?_,fun offset length hlength h => ?_⟩
    · obtain rfl := Except.ok.inj h
      simp [withInput,smallest]
    · have hnil := congrArg List.length (Except.ok.inj h)
      simp only [List.length_take,List.length_drop,List.length_nil] at hnil
      simp only [withInput,smallest,if_pos] at hnil ⊢
      omega
  openedInput := fun _ _ _ _ hopened hentry => (openSmall_ok hopened).2 _ _ hentry
  openedOutput := fun _ _ _ _ hopened hentry => (openSmall_ok hopened).2 _ _ hentry

end PreprocessDemo
end AsyncDataLoader
