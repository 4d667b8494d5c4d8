import AsyncDataLoader.DemoSafety
import AsyncDataLoader.FileComparison

/-!
# The end-to-end benchmark

The harness that runs the serial reference, the pipeline with one buffer and the pipeline with all
buffers over the same input, and compares what they have written. Each iteration begins with
another of the three methods.
-/

namespace AsyncDataLoader
namespace EndToEnd

open FileIO PreprocessDemo

inductive Method
  | serial
  | noOverlap
  | overlap
  deriving DecidableEq, Repr

structure BenchmarkOptions where
  inputPath : Path
  serialOutputPath : Path
  noOverlapOutputPath : Path
  overlapOutputPath : Path
  overlapConfig : PipelineConfig
  iterations : ℕ
  deriving DecidableEq

def kMaxBenchmarkCapacity : ℕ := 65536
def kBenchmarkAlignment : ℕ := 4096
def kMinimumThreeStageOverlapBuffers : ℕ := 3
def kMaxBenchmarkIterations : ℕ := 1000000
def kMaxBenchmarkBlockSize : ℕ := 1024*1024*1024

def parsePositiveSize (text : List Char) (maximum : ℕ) : Option ℕ :=
  if text = [] ∨ maximum = 0 then none
  else
    match fromChars text with
    | some (value,[]) => if value = 0 ∨ value > maximum then none else some value
    | _ => none

def parseIterations : List (List Char) → Option ℕ
  | [] => some 1
  | iterations::_ => parsePositiveSize iterations kMaxBenchmarkIterations

/-- `argv` begins with the name of the program; without a result `main` returns 1. -/
def parseOptions : (argv : List (List Char)) → Option BenchmarkOptions
  | _::input::serial::noOverlap::overlap::blockSize::buffers::queueDepth::rest =>
    if rest.length > 1 then none
    else if input = [] ∨ serial = [] ∨ noOverlap = [] ∨ overlap = [] then none
    else do
      let blockSize ← parsePositiveSize blockSize kMaxBenchmarkBlockSize
      let buffers ← parsePositiveSize buffers kMaxBenchmarkCapacity
      let queueDepth ← parsePositiveSize queueDepth kMaxBenchmarkCapacity
      let iterations ← parseIterations rest
      return ⟨input,serial,noOverlap,overlap,⟨blockSize,buffers,queueDepth,kBenchmarkAlignment⟩,
        iterations⟩
  | _ => none

namespace BenchmarkOptions

variable (options : BenchmarkOptions)

def outputPath : Method → Path
  | .serial => options.serialOutputPath
  | .noOverlap => options.noOverlapOutputPath
  | .overlap => options.overlapOutputPath

/-- The configuration of a method; one buffer leaves nothing to overlap. -/
def config : Method → PipelineConfig
  | .noOverlap => { options.overlapConfig with maxInflightBuffers := 1 }
  | _ => options.overlapConfig

end BenchmarkOptions

def normalizedPath (queries : PathQueries) (path : Path) : Except Failure Path :=
  match queries.weaklyCanonical path with
  | .error errorNumber => .error (.systemError errorNumber "normalize benchmark path")
  | .ok normalized => .ok normalized

def rejectSameFile (queries : PathQueries) (left right : Path) (message : String) :
    Except Failure Unit := do
  let normalizedLeft ← normalizedPath queries left
  let normalizedRight ← normalizedPath queries right
  if normalizedLeft = normalizedRight then .error (.invalidArgument message)
  else
    let (equivalent,errorNumber) := queries.equivalent left right
    if errorNumber = 0 ∧ equivalent then .error (.invalidArgument message)
    else if errorNumber ≠ 0 ∧ errorNumber ≠ ENOENT then
      .error (.systemError errorNumber "compare benchmark paths")
    else .ok ()

def validateDistinctPaths (queries : PathQueries) (options : BenchmarkOptions) :
    Except Failure Unit := do
  rejectSameFile queries options.inputPath options.serialOutputPath
    "benchmark input and serial output must differ"
  rejectSameFile queries options.inputPath options.noOverlapOutputPath
    "benchmark input and no-overlap output must differ"
  rejectSameFile queries options.inputPath options.overlapOutputPath
    "benchmark input and overlap output must differ"
  rejectSameFile queries options.serialOutputPath options.noOverlapOutputPath
    "serial and no-overlap outputs must differ"
  rejectSameFile queries options.serialOutputPath options.overlapOutputPath
    "serial and overlap outputs must differ"
  rejectSameFile queries options.noOverlapOutputPath options.overlapOutputPath
    "no-overlap and overlap outputs must differ"

def checkOverlapBuffers (options : BenchmarkOptions) : Except Failure Unit :=
  if options.overlapConfig.maxInflightBuffers < kMinimumThreeStageOverlapBuffers then
    .error (.invalidArgument "overlap_max_inflight_buffers must be at least 3")
  else .ok ()

def checkOptions (queries : PathQueries) (options : BenchmarkOptions) : Except Failure Unit := do
  options.overlapConfig.validate
  checkOverlapBuffers options
  validateDistinctPaths queries options
  (options.config .noOverlap).validate

structure TimedEndToEndResult (Double : Type) where
  blocksWritten : ℕ
  bytesWritten : ℕ
  elapsedMs : Double

def TimedEndToEndResult.zero (fp : FloatingPoint) : TimedEndToEndResult fp.Double :=
  ⟨0,0,fp.ofNat 0⟩

/-- What the system answers to the calls of one sample. What a call finds in the file system depends
on the files that are there then; `openOutput` gives the inode that a new file would have. -/
structure SampleSystem (Double : Type) where
  queries : PathQueries
  openInput : FileSystem Path Bytes → OpenFileResult
  openOutput : FileSystem Path Bytes → Except ℕ ℕ
  registerMemory : Option Failure
  inputFd : ℤ
  outputFd : ℤ
  memory : ℕ → ℕ → UInt8
  writeAt : ℕ → ℕ → SyscallScript
  startThread : Worker → Option Failure
  fsyncOutput : SyscallScript
  elapsedMs : Double

/-- What the system answers to the calls of one run of the harness: for every iteration, to the
samples of the three methods, and to the comparisons with the output of the serial reference. -/
structure BenchmarkSystem where
  fp : FloatingPoint
  queries : PathQueries
  directory : Path → ℕ
  sample : ℕ → Method → SampleSystem fp.Double
  openCompared : ℕ → Method → FileSystem Path Bytes → OpenFileResult × OpenFileResult
  comparedMemory : ℕ → Method → BufferMemory × BufferMemory

def BenchmarkSystem.entry (system : BenchmarkSystem) (path : Path) : ℕ × Path :=
  (system.directory (PathQueries.parentDirectory path),path.filename)

/-- `open` with `O_CREAT` and `O_TRUNC` -/
def openTruncatedOutput (answer : Except ℕ ℕ) (entry : ℕ × Path) (files : FileSystem Path Bytes) :
    Except Failure (ℕ × FileSystem Path Bytes) :=
  match answer with
  | .error errorNumber => .error (.systemError errorNumber "open benchmark output")
  | .ok new =>
    match files.entries entry.1 entry.2 with
    | some inode => .ok (inode,files.write inode [])
    | none => .ok (new,files.create entry.1 entry.2 new [])

/-- `fsync_output`, which throws after what has been written. -/
def fsyncOutput (script : SyscallScript) : Except Failure Unit :=
  if fsyncFdWith script ≠ 0 then
    .error (.systemError (fsyncFdWith script) "fsync benchmark output")
  else .ok ()

namespace SampleSystem

variable {Double : Type} (sample : SampleSystem Double)

/-- The stage of the benchmark, and the executor of a pipeline in a fresh registry. -/
def call (config : PipelineConfig) (input : InputFile) : RunCall Unit where
  config := config
  stages := [⟨byteIncrementStage,(),some ⟨0⟩⟩]
  metrics := some ⟨.zero,.zero,.zero,⟨⟨0⟩,⟨0⟩,⟨0⟩,⟨0⟩,⟨0⟩,⟨0⟩,⟨0⟩,⟨0⟩,⟨0⟩⟩⟩
  started := false
  inputFd := sample.inputFd
  outputFd := sample.outputFd
  memory := sample.memory
  readAt := SyncBackend.readAt input
  writeAt := sample.writeAt
  startThread := sample.startThread

def openFiles (config : PipelineConfig) (inputPath outputPath : Path) (entry : ℕ × Path)
    (files : FileSystem Path Bytes) : Except Failure (InputFile × ℕ × FileSystem Path Bytes) := do
  config.validate
  rejectSameFile sample.queries inputPath outputPath "benchmark input and output must differ"
  let input ← FileComparison.openComparisonInput (sample.openInput files) "open benchmark input"
  let (inode,files) ← openTruncatedOutput (sample.openOutput files) entry files
  return (input,inode,files)

end SampleSystem

def order (iteration : ℕ) : List Method :=
  match iteration%3 with
  | 0 => [.serial,.noOverlap,.overlap]
  | 1 => [.noOverlap,.overlap,.serial]
  | _ => [.overlap,.serial,.noOverlap]

structure Progress (Double : Type) where
  iteration : ℕ
  remaining : List Method
  results : Method → TimedEndToEndResult Double
  samplesMs : Method → List Double
  expectedBlocks : ℕ
  expectedBytes : ℕ

/-- Where the harness stands; in `running` it is in `run` of a pipeline. -/
inductive BenchmarkPlace (Double : Type)
  | parseOptions
  | checkOptions (options : BenchmarkOptions)
  | iterate (options : BenchmarkOptions) (progress : Progress Double)
  | sample (options : BenchmarkOptions) (progress : Progress Double)
  | running (options : BenchmarkOptions) (progress : Progress Double) (method : Method)
      (call : RunCall Unit) (inode : ℕ) (s : RunState Unit)
  | report (options : BenchmarkOptions) (progress : Progress Double)
  | returned (options : BenchmarkOptions) (progress : Progress Double)
  | exited (code : ℕ) (failure : Option Failure)

structure BenchmarkState (Double : Type) where
  place : BenchmarkPlace Double
  files : FileSystem Path Bytes

def validateAgainstSerial {Double : Type} (serial candidate : TimedEndToEndResult Double)
    (verifiedBytes : ℕ) (candidateName : String) : Except Failure Unit :=
  if serial.blocksWritten ≠ candidate.blocksWritten ∨
      serial.bytesWritten ≠ candidate.bytesWritten then
    .error (.runtimeError (candidateName++" byte/block counts differ from serial"))
  else if verifiedBytes ≠ serial.bytesWritten then
    .error (.runtimeError (candidateName++" verified length differs from processed bytes"))
  else .ok ()

namespace Progress

variable {Double : Type} (p : Progress Double)

def start (zero : TimedEndToEndResult Double) : Progress Double :=
  ⟨0,[],fun _ => zero,fun _ => [],0,0⟩

def begin (zero : TimedEndToEndResult Double) : Progress Double :=
  { p with remaining := order p.iteration, results := fun _ => zero }

def record (method : Method) (result : TimedEndToEndResult Double) : Progress Double :=
  { p with
    remaining := p.remaining.tail
    results := fun m => if m = method then result else p.results m }

/-- The sizes of the first iteration are expected of the others. -/
def expect : Except Failure (Progress Double) :=
  if p.iteration = 0 then
    .ok { p with
      expectedBlocks := (p.results .serial).blocksWritten
      expectedBytes := (p.results .serial).bytesWritten }
  else if (p.results .serial).blocksWritten ≠ p.expectedBlocks ∨
      (p.results .serial).bytesWritten ≠ p.expectedBytes then
    .error (.runtimeError "benchmark input size changed between iterations")
  else .ok p

def push : Progress Double :=
  { p with
    iteration := p.iteration+1
    samplesMs := fun m => p.samplesMs m++[(p.results m).elapsedMs] }

end Progress

/-- `summarize_latencies` takes no other samples. -/
def checkSamples (fp : FloatingPoint) (samplesMs : List fp.Double) : Except Failure Unit :=
  if samplesMs.all fun x => fp.le (fp.ofNat 0) x && fp.isFinite x then .ok ()
  else .error (.invalidArgument "latency samples must be finite and non-negative")

namespace BenchmarkSystem

variable (system : BenchmarkSystem)

def verified (options : BenchmarkOptions) (iteration : ℕ) (method : Method)
    (files : FileSystem Path Bytes) : Except Failure ℕ :=
  let opened := system.openCompared iteration method files
  let memory := system.comparedMemory iteration method
  verifyFilesEqualBounded opened.1 opened.2 memory.1 memory.2 options.overlapConfig

def finishIteration (options : BenchmarkOptions) (p : Progress system.fp.Double)
    (files : FileSystem Path Bytes) : Except Failure (Progress system.fp.Double) := do
  let noOverlapVerified ← system.verified options p.iteration .noOverlap files
  let overlapVerified ← system.verified options p.iteration .overlap files
  validateAgainstSerial (p.results .serial) (p.results .noOverlap) noOverlapVerified
    "no-overlap pipeline"
  validateAgainstSerial (p.results .serial) (p.results .overlap) overlapVerified
    "overlap pipeline"
  let p ← p.expect
  return p.push

/-- The next place, or the exit with what a call has thrown: the handler of `main` returns 2. -/
def after {α : Type} (result : Except Failure α) (next : α → BenchmarkState system.fp.Double)
    (files : FileSystem Path Bytes) : BenchmarkState system.fp.Double :=
  match result with
  | .error failure => ⟨.exited 2 (some failure),files⟩
  | .ok a => next a

def finishSample (options : BenchmarkOptions) (p : Progress system.fp.Double) (method : Method)
    (blocksWritten bytesWritten inode : ℕ) (files : FileSystem Path Bytes) :
    BenchmarkState system.fp.Double :=
  let sample := system.sample p.iteration method
  system.after (fsyncOutput sample.fsyncOutput) (fun () =>
    ⟨.sample options (p.record method ⟨blocksWritten,bytesWritten,sample.elapsedMs⟩),
      files.sync inode⟩) files

/-- `run_timed_serial_byte_increment` behind the opening of the files. -/
def serialSample (options : BenchmarkOptions) (p : Progress system.fp.Double) (input : InputFile)
    (inode : ℕ) (files : FileSystem Path Bytes) : BenchmarkState system.fp.Double :=
  let sample := system.sample p.iteration .serial
  let (outcome,output) := SerialReference.runSerialPipelineReference input
    (sample.call (options.config .serial) input) (sample.memory 0)
  let files := files.write inode output
  system.after outcome (fun result => system.finishSample options p .serial result.blocksWritten
    result.bytesWritten inode files) files

/-- `run_timed_pipeline_byte_increment` behind the opening of the files, up to the start of the
threads. -/
def pipelineSample (options : BenchmarkOptions) (p : Progress system.fp.Double) (method : Method)
    (input : InputFile) (inode : ℕ) (files : FileSystem Path Bytes) :
    BenchmarkState system.fp.Double :=
  let call := (system.sample p.iteration method).call (options.config method) input
  system.after call.start (fun s => ⟨.running options p method call inode s,files⟩) files

def beginSample (options : BenchmarkOptions) (p : Progress system.fp.Double) (method : Method)
    (files : FileSystem Path Bytes) : BenchmarkState system.fp.Double :=
  let sample := system.sample p.iteration method
  system.after (sample.openFiles (options.config method) options.inputPath
      (options.outputPath method) (system.entry (options.outputPath method)) files)
    (fun (input,inode,files) => system.after (unlessThrown sample.registerMemory) (fun () =>
      match method with
      | .serial => system.serialSample options p input inode files
      | _ => system.pipelineSample options p method input inode files) files) files

def mainStep (argv : List (List Char)) (files : FileSystem Path Bytes) :
    BenchmarkPlace system.fp.Double → Option (BenchmarkState system.fp.Double)
  | .parseOptions =>
    match parseOptions argv with
    | none => some ⟨.exited 1 none,files⟩
    | some options => some ⟨.checkOptions options,files⟩
  | .checkOptions options =>
    some (system.after (checkOptions system.queries options)
      (fun () => ⟨.iterate options (.start (.zero system.fp)),files⟩) files)
  | .iterate options p =>
    if p.iteration < options.iterations then
      some ⟨.sample options (p.begin (.zero system.fp)),files⟩
    else some ⟨.report options p,files⟩
  | .sample options p =>
    match p.remaining with
    | [] => some (system.after (system.finishIteration options p files)
        (fun p => ⟨.iterate options p,files⟩) files)
    | method::_ => some (system.beginSample options p method files)
  | .running options p method _ inode s =>
    match s.caller with
    | .done outcome => some (system.after outcome (fun result => system.finishSample options p
        method result.blocksWritten result.bytesWritten inode files) files)
    | _ => none
  | .report options p =>
    some (system.after (do
        checkSamples system.fp (p.samplesMs .serial)
        checkSamples system.fp (p.samplesMs .noOverlap)
        checkSamples system.fp (p.samplesMs .overlap))
      (fun () => ⟨.returned options p,files⟩) files)
  | .returned _ _ => none
  | .exited _ _ => none

def threadStep (t : Thread) (files : FileSystem Path Bytes) :
    BenchmarkPlace system.fp.Double → Option (BenchmarkState system.fp.Double)
  | .running options p method call inode s => (call.system.step t s).map fun s' =>
      ⟨.running options p method call inode s',files.write inode s'.shared.output⟩
  | _ => none

def transitions (argv : List (List Char)) :
    TransitionSystem RunFileAction (BenchmarkState system.fp.Double) where
  step
    | .main,s => system.mainStep argv s.files s.place
    | .thread t,s => system.threadStep t s.files s.place

end BenchmarkSystem
end EndToEnd
end AsyncDataLoader
