import AsyncDataLoader.RunPlan
import AsyncDataLoader.KeyValueParser
import AsyncDataLoader.PythonFloats

/-!
# One sample of a sweep

What `run_sample` makes of what a run of the pipeline has printed.
-/

namespace AsyncDataLoader
namespace Sweep

open Benchmark Python KeyValue

/-- The exceptions of a sweep. An `OSError` is known by its number, a `SweepError` by its text;
`other` stands for one that `main` does not catch. -/
inductive SweepFailure
  | osError (errorNumber : ℕ)
  | message (text : String)
  | path (text : String) (path : Text) -- "...: ..."
  | missing (name : String) -- "pipeline output is missing ..."
  | invalid (name : String) (text : Text) -- "pipeline output has invalid ...: ..."
  | failedRun (backend : RequestedBackend) (exitCode : ℤ) (stdout stderr : Text)
  | invalidPeakRss (text : Text) -- "GNU time returned invalid peak RSS: ..."
  | other (tag : ℕ)
  deriving DecidableEq

/-- `repr(float(text))`, which is a text of the same number on one line. -/
structure FloatText (py : Interpreter) where
  repr : Text → Text
  one_line : ∀ text, '\r' ∉ repr text
  float_repr : ∀ text x, py.float text = some x → py.float (strip (repr text)) = some x

def FloatText.trimmed (py : Interpreter) : FloatText py where
  repr := fun text =>
    if (py.float text).isSome then stripBy isCSpace (text.map py.toAscii) else []
  one_line := by
    intro text hmem
    split_ifs at hmem with hsome
    · obtain ⟨x,hx⟩ := Option.isSome_iff_exists.mp hsome
      have hspace := Interpreter.spaceless_of_float hx _ hmem
      exact absurd hspace (by decide)
    · exact absurd hmem List.not_mem_nil
  float_repr := by
    intro text x hx
    rw [if_pos (by rw [hx]; rfl)]
    exact Interpreter.float_trim hx

def requireValue (values : Dictionary) (name : String) : Except SweepFailure Text :=
  match values name.toList with
  | none => .error (.missing name)
  | some value => .ok value

def requireInteger (py : Interpreter) (values : Dictionary) (name : String) :
    Except SweepFailure ℤ := do
  let text ← requireValue values name
  match py.int text with
  | none => .error (.invalid name text)
  | some value => .ok value

/-- A `float` is kept as the text that the writer of the records makes of it. -/
def requireFloat {py : Interpreter} (floats : FloatText py) (values : Dictionary) (name : String) :
    Except SweepFailure Text := do
  let text ← requireValue values name
  match py.float text with
  | none => .error (.invalid name text)
  | some _ => .ok (floats.repr text)

def check (passed : Bool) (message : String) : Except SweepFailure Unit :=
  if passed then .ok () else .error (.message message)

def readOutcome {py : Interpreter} (floats : FloatText py) (config : RunConfig) (inputPath : Text)
    (peakRssKib : ℤ) (stdout : Text) : Except SweepFailure Outcome := do
  let values := parseKeyValueOutput stdout
  let status ← requireValue values "status"
  check (status = "complete".toList) "pipeline did not report status=complete"
  let verification ← requireValue values "verification"
  check (verification = "passed".toList) "pipeline output verification did not pass"
  let committed ← requireValue values "output_committed"
  check (committed = "true".toList) "pipeline did not reliably commit its output"
  let inputBytes ← requireInteger py values "input_bytes"
  let bytesWritten ← requireInteger py values "bytes_written"
  check (bytesWritten = inputBytes) "written bytes differ from input bytes"
  let bufferPoolBytes ← requireInteger py values "buffer_pool_bytes"
  check (bufferPoolBytes = config.blockSize*config.maxInflightBuffers)
    "reported buffer-pool bytes differ from configuration"
  let inflightPeak ← requireInteger py values "pipeline.buffer_pool.inflight.peak"
  let readQueuePeak ← requireInteger py values "pipeline.queue.read_process.depth.peak"
  let writeQueuePeak ← requireInteger py values "pipeline.queue.process_write.depth.peak"
  check (inflightPeak ≤ config.maxInflightBuffers)
    "in-flight buffer peak exceeded its configured bound"
  check (readQueuePeak ≤ config.queueDepth && writeQueuePeak ≤ config.queueDepth)
    "queue peak exceeded its configured bound"
  let elapsedMs ← requireFloat floats values "elapsed_ms"
  let throughputMibS ← requireFloat floats values "throughput_mib_s"
  let selectedBackend ← requireValue values "selected_backend"
  let blocksWritten ← requireInteger py values "blocks_written"
  let readAverageUs ← requireFloat floats values "pipeline.read.latency_ns.average_us"
  let processAverageUs ← requireFloat floats values "pipeline.process.latency_ns.average_us"
  let writeAverageUs ← requireFloat floats values "pipeline.write.latency_ns.average_us"
  let stageAverageUs ← requireFloat floats values "stage.0.byte_increment.latency_ns.average_us"
  return ⟨inputPath,inputBytes,selectedBackend,bufferPoolBytes,blocksWritten,bytesWritten,
    inflightPeak,readQueuePeak,writeQueuePeak,readAverageUs,processAverageUs,writeAverageUs,
    stageAverageUs,elapsedMs,throughputMibS,peakRssKib,verification⟩

structure CompletedRun where
  returncode : ℤ
  stdout : Text
  stderr : Text

/-- What is done inside the `try` of `run_sample` with a run that has ended: it must have succeeded,
and GNU time must have written a number. `rssText` is the file read and stripped. -/
def peakRss (py : Interpreter) (config : RunConfig) (completed : CompletedRun)
    (rssText : Except SweepFailure Text) : Except SweepFailure ℤ :=
  if completed.returncode ≠ 0 then
    .error (.failedRun config.backend completed.returncode completed.stdout completed.stderr)
  else do
    let text ← rssText
    match py.int text with
    | none => .error (.invalidPeakRss text)
    | some value => .ok value

/-- A number that was read as text, and may be written again. -/
def IntegerOf (py : Interpreter) (values : Dictionary) (name : String) (value : ℤ) : Prop :=
  ∃ text, values name.toList = some text ∧ py.int text = some value

def FloatOf {py : Interpreter} (floats : FloatText py) (values : Dictionary) (name : String)
    (written : Text) : Prop :=
  ∃ text x, values name.toList = some text ∧ py.float text = some x ∧ written = floats.repr text

section
variable {py : Interpreter} {floats : FloatText py} {values : Dictionary} {name : String}

theorem requireValue_ok {text : Text} (h : requireValue values name = .ok text) :
    values name.toList = some text := by
  unfold requireValue at h
  split at h
  · cases h
  · rename_i found hfound
    rw [hfound,Except.ok.inj h]

theorem requireInteger_ok {value : ℤ} (h : requireInteger py values name = .ok value) :
    IntegerOf py values name value := by
  obtain ⟨text,htext,h⟩ := bind_eq_ok h
  refine ⟨text,requireValue_ok htext,?_⟩
  split at h
  · cases h
  · rename_i found hfound
    rw [hfound,Except.ok.inj h]

theorem requireFloat_ok {written : Text} (h : requireFloat floats values name = .ok written) :
    FloatOf floats values name written := by
  obtain ⟨text,htext,h⟩ := bind_eq_ok h
  split at h
  · cases h
  · rename_i x hx
    exact ⟨text,x,requireValue_ok htext,hx,(Except.ok.inj h).symm⟩

theorem check_ok {passed : Bool} {message : String} (h : check passed message = .ok ()) :
    passed = true := by
  unfold check at h
  split_ifs at h with hpassed
  exact hpassed

end

/-- What `run_sample` has checked of an outcome, and where it comes from. -/
structure OutcomeOf {py : Interpreter} (floats : FloatText py) (config : RunConfig)
    (values : Dictionary) (outcome : Outcome) : Prop where
  inputBytes : IntegerOf py values "input_bytes" outcome.inputBytes
  written : IntegerOf py values "bytes_written" outcome.bytesWritten
  bytesWritten : outcome.bytesWritten = outcome.inputBytes
  bufferPoolBytes : IntegerOf py values "buffer_pool_bytes" outcome.bufferPoolBytes
  pool : outcome.bufferPoolBytes = config.blockSize*config.maxInflightBuffers
  inflightPeak : IntegerOf py values "pipeline.buffer_pool.inflight.peak" outcome.inflightPeak
  readQueuePeak :
    IntegerOf py values "pipeline.queue.read_process.depth.peak" outcome.readProcessQueuePeak
  writeQueuePeak :
    IntegerOf py values "pipeline.queue.process_write.depth.peak" outcome.processWriteQueuePeak
  peaks : outcome.inflightPeak ≤ config.maxInflightBuffers ∧
    outcome.readProcessQueuePeak ≤ config.queueDepth ∧
    outcome.processWriteQueuePeak ≤ config.queueDepth
  elapsedMs : FloatOf floats values "elapsed_ms" outcome.elapsedMs
  throughputMibS : FloatOf floats values "throughput_mib_s" outcome.throughputMibS
  selectedBackend : values "selected_backend".toList = some outcome.selectedBackend
  blocksWritten : IntegerOf py values "blocks_written" outcome.blocksWritten
  averages : FloatOf floats values "pipeline.read.latency_ns.average_us" outcome.readAverageUs ∧
    FloatOf floats values "pipeline.process.latency_ns.average_us" outcome.processAverageUs ∧
    FloatOf floats values "pipeline.write.latency_ns.average_us" outcome.writeAverageUs ∧
    FloatOf floats values "stage.0.byte_increment.latency_ns.average_us" outcome.stageAverageUs
  verification : outcome.verification = "passed".toList

theorem readOutcome_ok {py : Interpreter} {floats : FloatText py} {config : RunConfig}
    {inputPath stdout : Text} {peakRssKib : ℤ} {outcome : Outcome}
    (h : readOutcome floats config inputPath peakRssKib stdout = .ok outcome) :
    OutcomeOf floats config (parseKeyValueOutput stdout) outcome ∧
      outcome.inputPath = inputPath ∧ outcome.peakRssKib = peakRssKib := by
  obtain ⟨status,-,h⟩ := bind_eq_ok h
  obtain ⟨_,-,h⟩ := bind_eq_ok h
  obtain ⟨verification,-,h⟩ := bind_eq_ok h
  obtain ⟨_,hpassed,h⟩ := bind_eq_ok h
  obtain ⟨committed,-,h⟩ := bind_eq_ok h
  obtain ⟨_,-,h⟩ := bind_eq_ok h
  obtain ⟨inputBytes,hinputBytes,h⟩ := bind_eq_ok h
  obtain ⟨bytesWritten,hbytesWritten,h⟩ := bind_eq_ok h
  obtain ⟨_,hwritten,h⟩ := bind_eq_ok h
  obtain ⟨bufferPoolBytes,hbufferPoolBytes,h⟩ := bind_eq_ok h
  obtain ⟨_,hpool,h⟩ := bind_eq_ok h
  obtain ⟨inflightPeak,hinflightPeak,h⟩ := bind_eq_ok h
  obtain ⟨readQueuePeak,hreadQueuePeak,h⟩ := bind_eq_ok h
  obtain ⟨writeQueuePeak,hwriteQueuePeak,h⟩ := bind_eq_ok h
  obtain ⟨_,hinflight,h⟩ := bind_eq_ok h
  obtain ⟨_,hqueues,h⟩ := bind_eq_ok h
  obtain ⟨elapsedMs,helapsedMs,h⟩ := bind_eq_ok h
  obtain ⟨throughputMibS,hthroughputMibS,h⟩ := bind_eq_ok h
  obtain ⟨selectedBackend,hselected,h⟩ := bind_eq_ok h
  obtain ⟨blocksWritten,hblocksWritten,h⟩ := bind_eq_ok h
  obtain ⟨readAverageUs,hread,h⟩ := bind_eq_ok h
  obtain ⟨processAverageUs,hprocess,h⟩ := bind_eq_ok h
  obtain ⟨writeAverageUs,hwrite,h⟩ := bind_eq_ok h
  obtain ⟨stageAverageUs,hstage,h⟩ := bind_eq_ok h
  obtain rfl := Except.ok.inj h
  have hqueues := check_ok hqueues
  rw [Bool.and_eq_true,decide_eq_true_eq,decide_eq_true_eq] at hqueues
  exact ⟨{
    inputBytes := requireInteger_ok hinputBytes
    written := requireInteger_ok hbytesWritten
    bytesWritten := of_decide_eq_true (check_ok hwritten)
    bufferPoolBytes := requireInteger_ok hbufferPoolBytes
    pool := of_decide_eq_true (check_ok hpool)
    inflightPeak := requireInteger_ok hinflightPeak
    readQueuePeak := requireInteger_ok hreadQueuePeak
    writeQueuePeak := requireInteger_ok hwriteQueuePeak
    peaks := ⟨of_decide_eq_true (check_ok hinflight),hqueues⟩
    elapsedMs := requireFloat_ok helapsedMs
    throughputMibS := requireFloat_ok hthroughputMibS
    selectedBackend := requireValue_ok hselected
    blocksWritten := requireInteger_ok hblocksWritten
    averages := ⟨requireFloat_ok hread,requireFloat_ok hprocess,requireFloat_ok hwrite,
      requireFloat_ok hstage⟩
    verification := of_decide_eq_true (check_ok hpassed) },rfl,rfl⟩

end Sweep
end AsyncDataLoader
