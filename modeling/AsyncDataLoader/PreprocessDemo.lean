import AsyncDataLoader.AtomicJsonFile
import AsyncDataLoader.BackendFactory
import AsyncDataLoader.IncrementVerification
import AsyncDataLoader.StageMetrics

/-!
# The preprocessing demo

`main` of the demo around the parts of the library: the checks of its arguments, `run_file` with
its threads, the verification of what was published, and the metrics. Every call that `main` makes
is a step, and so is every step that the calls of `run_file` and of the metrics writer take.
-/

namespace AsyncDataLoader

open FileIO

namespace PreprocessDemo

/-- What `<filesystem>` says about paths. A query that may fail without an exception gives its
result beside its error number, which is zero if there is none. -/
structure PathQueries where
  weaklyCanonical : Path → Except ℕ Path
  equivalent : Path → Path → Bool × ℕ
  isDirectory : Path → Bool × ℕ

namespace PathQueries

variable (queries : PathQueries)

def normalizedPath (path : Path) : Except Failure Path :=
  match queries.weaklyCanonical path with
  | .error errorNumber => .error (.systemError errorNumber "normalize metrics JSON path")
  | .ok normalized => .ok normalized

def rejectSameFile (left right : Path) (message : String) : Except Failure Unit := do
  let normalizedLeft ← queries.normalizedPath left
  let normalizedRight ← queries.normalizedPath right
  if normalizedLeft = normalizedRight then .error (.invalidArgument message)
  else
    let (equivalent,errorNumber) := queries.equivalent left right
    if errorNumber = 0 ∧ equivalent then .error (.invalidArgument message)
    else if errorNumber ≠ 0 ∧ errorNumber ≠ ENOENT then
      .error (.systemError errorNumber "compare metrics JSON paths")
    else .ok ()

/-- The parent of a path; an empty one is the current directory. -/
def parentDirectory (path : Path) : Path := if path.parentPath = [] then ['.'] else path.parentPath

def validateMetricsJsonPath (options : Options) : Except Failure Unit :=
  match options.metricsJsonPath with
  | none => .ok ()
  | some path =>
    if path.filename = [] ∨ path.filename = ['.'] ∨ path.filename = ['.','.'] then
      .error (.invalidArgument "--metrics-json must name a file")
    else
      let (parentIsDirectory,parentError) := queries.isDirectory (parentDirectory path)
      if parentError ≠ 0 then
        .error (.systemError parentError "inspect metrics JSON directory")
      else if !parentIsDirectory then
        .error (.invalidArgument "--metrics-json parent directory must already exist")
      else
        let (targetIsDirectory,targetError) := queries.isDirectory path
        if targetError ≠ 0 ∧ targetError ≠ ENOENT then
          .error (.systemError targetError "inspect metrics JSON target")
        else if targetIsDirectory then
          .error (.invalidArgument "--metrics-json must not be a directory")
        else do
          queries.rejectSameFile options.inputPath path "metrics JSON path must differ from input"
          queries.rejectSameFile options.outputPath path
            "metrics JSON path must differ from pipeline output"

end PathQueries

def checkedFileSize (size : Except Failure ℕ) : Except Failure ℕ :=
  match size with
  | .error failure => .error failure
  | .ok size =>
    if size > uint64Max then .error (.overflowError "input file size exceeds uint64_t")
    else .ok size

def backendName : BackendKind → String
  | .auto => "auto"
  | .uring => "uring"
  | .threadPool => "threadpool"
  | .sync => "sync"

def backendConfig (options : Options) : BackendConfig where
  kind := some options.backendKind
  uringQueueDepth := options.pipeline.maxInflightBuffers%2^32
  threadPoolWorkerCount := options.threadWorkers
  maxInflight := options.pipeline.maxInflightBuffers
  autoTryUring := !options.disableUring
  autoTryThreadPool := !options.disableThreadPool

/-- The metrics of the pipeline and the executor in a fresh registry. -/
def register (options : Options) : Except Failure Instrumentation := do
  let s ← instrument [.stage (ascii "byte_increment")]
  options.pipeline.validate
  Setup.executor.apply s

def pathBytes (path : Path) : Bytes := path.map fun c => UInt8.ofNat c.toNat

/-- What the system answers to the calls of one run of the demo. What a call finds in the file
system depends on the files that are there then. -/
structure DemoEnvironment where
  queries : PathQueries
  directory : Path → ℕ
  inputInode : ℕ
  inputSize : Except Failure ℕ
  backends : BackendEnvironment
  resources : BackendResources
  registerMemory : Option Failure
  header : Option Failure
  startReporter : Option Failure
  -- `run_file`
  openInput : Option ℕ
  statInput : Except ℕ FileStatus
  statOutput : Except ℕ FileStatus
  openDirectory : Option ℕ
  makeTemporary : FileSystem Path Bytes → Except ℕ Temporary
  copyPath : Option Failure
  fsyncTemporary : SyscallScript
  renameTemporary : Option ℕ
  fsyncDirectory : SyscallScript
  inputFd : ℤ
  outputFd : ℤ
  memory : ℕ → ℕ → UInt8
  readAt : Bytes → ℕ → ℕ → Except Failure Bytes
  writeAt : ℕ → ℕ → SyscallScript
  startThread : Worker → Option Failure
  -- the verification
  openVerified : FileSystem Path Bytes → OpenFileResult × OpenFileResult
  inputBlock : Option AllocationFailure
  outputBlock : Option AllocationFailure
  -- the metrics
  fp : FloatingPoint
  elapsedSeconds : fp.Double
  snapshot : Snapshot
  openJsonDirectory : Option ℕ
  makeJsonTemplate : Option Failure
  makeJsonTemporary : FileSystem Path Bytes → Except ℕ Temporary
  copyJsonPath : Option Failure
  fsyncJson : SyscallScript
  renameJson : Option ℕ
  fsyncJsonDirectory : SyscallScript
  summary : Option Failure

/-- What `main` knows when the pipeline starts. -/
structure DemoContext where
  options : Options
  inputBytes : ℕ
  backend : Backend

namespace DemoEnvironment

variable (env : DemoEnvironment)

/-- The executor of the demo: one stage, and the metrics of a fresh registry. -/
def executor (options : Options) (files : FileSystem Path Bytes) : RunCall Unit where
  config := options.pipeline
  stages := [⟨byteIncrementStage,(),some ⟨0⟩⟩]
  metrics := some ⟨.zero,.zero,.zero,⟨⟨0⟩,⟨0⟩,⟨0⟩,⟨0⟩,⟨0⟩,⟨0⟩,⟨0⟩,⟨0⟩,⟨0⟩⟩⟩
  started := false
  inputFd := env.inputFd
  outputFd := env.outputFd
  memory := env.memory
  readAt := env.readAt (files.contents env.inputInode)
  writeAt := env.writeAt
  startThread := env.startThread

def runFileCall (options : Options) (files : FileSystem Path Bytes) : RunFileCall Unit where
  inputPath := options.inputPath
  finalOutputPath := options.outputPath
  executor := env.executor options files
  inputInode := env.inputInode
  directory := env.directory
  openInput := env.openInput
  statInput := env.statInput
  statOutput := env.statOutput
  openDirectory := env.openDirectory
  makeTemporary := env.makeTemporary files
  copyPath := env.copyPath
  fsyncTemporary := env.fsyncTemporary
  renameTemporary := env.renameTemporary
  fsyncDirectory := env.fsyncDirectory

def report (context : DemoContext) (result : PipelineRunResult) :
    PipelineRunReport env.fp.Double where
  inputPath := pathBytes context.options.inputPath
  outputPath := pathBytes context.options.outputPath
  requestedBackend := ascii (backendName context.options.backendKind)
  selectedBackend := ascii context.backend.name
  stageName := ascii "byte_increment"
  pipelineConfig := context.options.pipeline
  inputBytes := context.inputBytes
  blocksWritten := result.blocksWritten
  bytesWritten := result.bytesWritten
  elapsedSeconds := env.elapsedSeconds
  outputCommitted := true
  verificationPassed := true

def metricsJsonCall (context : DemoContext) (result : PipelineRunResult) (path : Path)
    (files : FileSystem Path Bytes) : MetricsJsonCall where
  path := path
  rendered := Reporting.renderMetricsJson env.fp env.snapshot (env.report context result)
  directory := env.directory
  openDirectory := env.openJsonDirectory
  makeTemplate := env.makeJsonTemplate
  makeTemporary := env.makeJsonTemporary files
  copyPath := env.copyJsonPath
  fsyncTemporary := env.fsyncJson
  renameTemporary := env.renameJson
  fsyncDirectory := env.fsyncJsonDirectory

def verify (options : Options) (files : FileSystem Path Bytes) : Except Failure Unit :=
  verifyIncrementedOutput (env.openVerified files).1 (env.openVerified files).2 env.inputBlock
    env.outputBlock options.pipeline.blockSize

end DemoEnvironment

/-- Where `main` stands. A call is fixed by the files that it finds when it begins. -/
inductive DemoPlace
  | parseOptions
  | validateMetricsJsonPath (options : Options)
  | fileSize (options : Options)
  | createBackend (options : Options) (inputBytes : ℕ)
  | register (context : DemoContext)
  | header (context : DemoContext)
  | startReporter (context : DemoContext)
  | runFile (context : DemoContext) (call : RunFileCall Unit) (place : RunFilePlace Unit)
  | stopReporter (context : DemoContext) (outcome : Except Failure PipelineRunResult)
  | verify (context : DemoContext) (result : PipelineRunResult)
  | metrics (context : DemoContext) (result : PipelineRunResult)
  | metricsJson (context : DemoContext) (call : MetricsJsonCall) (place : MetricsJsonPlace)
      (position : ℕ)
  | summary (context : DemoContext)
  | exited (code : ℕ) (failure : Option Failure)

structure DemoState where
  place : DemoPlace
  files : FileSystem Path Bytes

/-- The handlers of `main`. -/
def exitCode : Failure → ℕ
  | .invalidArgument _ => 2
  | _ => 1

def DemoPlace.failed (failure : Failure) : DemoPlace := .exited (exitCode failure) (some failure)

def DemoPlace.after {α : Type} (result : Except Failure α) (next : α → DemoPlace) : DemoPlace :=
  match result with
  | .error failure => .failed failure
  | .ok a => next a

def unlessThrown (failure : Option Failure) : Except Failure Unit :=
  match failure with
  | some failure => .error failure
  | none => .ok ()

inductive DemoAction
  | main
  | thread (t : Thread)
  | write (answer : SyscallResult)

namespace DemoEnvironment

variable (env : DemoEnvironment) (argv : List (List Char))

def mainStep (files : FileSystem Path Bytes) : DemoPlace → Option DemoState
  | .parseOptions =>
    if argv.tail = ["--help".toList] then some ⟨.exited 0 none,files⟩
    else some ⟨.after (parseOptions argv) .validateMetricsJsonPath,files⟩
  | .validateMetricsJsonPath options =>
    some ⟨.after (env.queries.validateMetricsJsonPath options) fun () => .fileSize options,files⟩
  | .fileSize options =>
    some ⟨.after (checkedFileSize env.inputSize) (.createBackend options),files⟩
  | .createBackend options inputBytes =>
    some ⟨.after (env.backends.create (backendConfig options) env.resources).1 fun backend =>
      .register ⟨options,inputBytes,backend⟩,files⟩
  | .register context =>
    some ⟨.after (do unlessThrown env.registerMemory; PreprocessDemo.register context.options)
      fun _ => .header context,files⟩
  | .header context =>
    some ⟨.after (unlessThrown env.header) fun () => .startReporter context,files⟩
  | .startReporter context =>
    some ⟨.after (if context.options.reportIntervalMs = 0 then .ok ()
        else unlessThrown env.startReporter) fun () =>
      .runFile context (env.runFileCall context.options files) .validateInput,files⟩
  | .runFile context call place =>
    match place with
    | .returned result => some ⟨.stopReporter context (.ok result),files⟩
    | .thrown _ failure => some ⟨.stopReporter context (.error failure),files⟩
    | place => (call.mainStep files place).map fun s => ⟨.runFile context call s.place,s.files⟩
  | .stopReporter context outcome => some ⟨.after outcome (.verify context),files⟩
  | .verify context result =>
    some ⟨.after (env.verify context.options files) fun () => .metrics context result,files⟩
  | .metrics context result =>
    match context.options.metricsJsonPath with
    | none => some ⟨.summary context,files⟩
    | some path =>
      some ⟨.metricsJson context (env.metricsJsonCall context result path files) .render 0,files⟩
  | .metricsJson context call place position =>
    match place with
    | .returned => some ⟨.summary context,files⟩
    | .thrown _ failure => some ⟨.failed failure,files⟩
    | place => (call.mainStep ⟨place,files,position⟩ place).map fun s =>
        ⟨.metricsJson context call s.place s.position,s.files⟩
  | .summary _ => some ⟨.after (unlessThrown env.summary) fun () => .exited 0 none,files⟩
  | .exited _ _ => none

def threadStep (t : Thread) (files : FileSystem Path Bytes) : DemoPlace → Option DemoState
  | .runFile context call place =>
    (call.threadStep t files place).map fun s => ⟨.runFile context call s.place,s.files⟩
  | _ => none

def writeStep (answer : SyscallResult) (files : FileSystem Path Bytes) :
    DemoPlace → Option DemoState
  | .metricsJson context call place position =>
    (MetricsJsonCall.writeStep answer ⟨place,files,position⟩ place).map fun s =>
      ⟨.metricsJson context call s.place s.position,s.files⟩
  | _ => none

def system : TransitionSystem DemoAction DemoState where
  step
    | .main,s => env.mainStep argv s.files s.place
    | .thread t,s => threadStep t s.files s.place
    | .write answer,s => writeStep answer s.files s.place

end DemoEnvironment
end PreprocessDemo
end AsyncDataLoader
