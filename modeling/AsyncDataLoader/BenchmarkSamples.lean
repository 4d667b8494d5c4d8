import AsyncDataLoader.Failure
import AsyncDataLoader.PythonText
import AsyncDataLoader.Grouping
import Mathlib.Data.List.Dedup
import Mathlib.Tactic.NormNum

/-!
# Benchmark samples

What `parse_sample` and `read_samples` of the analysis script make of the records of its CSV files.
-/

namespace AsyncDataLoader
namespace Benchmark

open Grouping Python

abbrev Text := List Char

def MAX_ROWS : ℕ := 100000

def REQUIRED_FIELDS : List String :=
  ["environment_id","input_path","input_bytes","requested_backend","selected_backend","block_size",
    "max_inflight_buffers","queue_depth","thread_workers","sample_index","buffer_pool_bytes",
    "blocks_written","bytes_written","inflight_peak","read_process_queue_peak",
    "process_write_queue_peak","read_average_us","process_average_us","write_average_us",
    "stage_average_us","elapsed_ms","throughput_mib_s","peak_rss_kib","rss_limit_mib",
    "rss_within_limit","verification"]

inductive RequestedBackend
  | sync
  | threadpool
  | uring
  | auto
  deriving DecidableEq, Repr

inductive SelectedBackend
  | sync
  | threadPool
  | ioUring
  deriving DecidableEq, Repr

def RequestedBackend.label : RequestedBackend → Text
  | .sync => "sync".toList
  | .threadpool => "threadpool".toList
  | .uring => "uring".toList
  | .auto => "auto".toList

def SelectedBackend.label : SelectedBackend → Text
  | .sync => "sync".toList
  | .threadPool => "thread_pool".toList
  | .ioUring => "io_uring".toList

/-- The backend that an explicit request selects; `auto` is not explicit. -/
def EXPLICIT_SELECTION : RequestedBackend → Option SelectedBackend
  | .sync => some .sync
  | .threadpool => some .threadPool
  | .uring => some .ioUring
  | .auto => none

def RequestedBackend.all : List RequestedBackend := [.sync,.threadpool,.uring,.auto]

def SelectedBackend.all : List SelectedBackend := [.sync,.threadPool,.ioUring]

def RequestedBackend.ofLabel? (text : Text) : Option RequestedBackend :=
  RequestedBackend.all.find? fun backend => backend.label = text

def SelectedBackend.ofLabel? (text : Text) : Option SelectedBackend :=
  SelectedBackend.all.find? fun backend => backend.label = text

/-- A row of `csv.DictReader`: the cells by their names, later ones last, `none` for a cell that the
record lacks, and whether the record had more cells than there are names. -/
structure Row where
  cells : List (Text × Option Text)
  extra : Bool

def Row.of (fieldnames : List Text) (record : List Text) : Row where
  cells := fieldnames.zip
    (record.map some++List.replicate (fieldnames.length-record.length) none)
  extra := fieldnames.length < record.length

def Row.get (row : Row) (field : String) : Option Text :=
  (row.cells.reverse.lookup field.toList).join

/-- What an `AnalysisError` says after the name of the row. -/
inductive RowProblem
  | noValue (field : String) -- "... has no value"
  | invalidInteger (field : String) (text : Text) -- "invalid integer ...=..."
  | atLeast (field : String) (minimum : ℕ) -- "... must be at least ..."
  | invalidNumber (field : String) (text : Text) -- "invalid number ...=..."
  | notFinite (field : String) (minimum : ℚ) -- "... must be finite and >= ..."
  | unknownRequestedBackend (requested : Text) -- "unknown requested backend ..."
  | unknownSelectedBackend (selected : Text) -- "unknown selected backend ..."
  | message (text : String)
  deriving DecidableEq

def textValue (row : Row) (field : String) : Except RowProblem Text :=
  match row.get field with
  | none => .error (.noValue field)
  | some value => .ok (strip value)

def integerValue (py : Interpreter) (row : Row) (field : String) (minimum : ℕ) :
    Except RowProblem ℕ := do
  let text ← textValue row field
  match py.int text with
  | none => .error (.invalidInteger field text)
  | some value => if value < minimum then .error (.atLeast field minimum) else .ok value.toNat

def floatValue (py : Interpreter) (row : Row) (field : String) (minimum : ℚ) :
    Except RowProblem ℚ := do
  let text ← textValue row field
  match py.float text with
  | none => .error (.invalidNumber field text)
  | some (.finite value) =>
    if value < minimum then .error (.notFinite field minimum) else .ok value
  | some _ => .error (.notFinite field minimum)

structure Sample where
  environmentId : Text
  inputPath : Text
  inputBytes : ℕ
  requestedBackend : RequestedBackend
  selectedBackend : SelectedBackend
  blockSize : ℕ
  maxInflightBuffers : ℕ
  queueDepth : ℕ
  threadWorkers : ℕ
  sampleIndex : ℕ
  bufferPoolBytes : ℕ
  blocksWritten : ℕ
  bytesWritten : ℕ
  inflightPeak : ℕ
  readProcessQueuePeak : ℕ
  processWriteQueuePeak : ℕ
  elapsedMs : ℚ
  throughputMibS : ℚ
  peakRssKib : ℕ
  rssLimitMib : Option ℕ
  rssWithinLimit : Option Bool
  deriving DecidableEq

def checkAll : List (Bool × String) → Except RowProblem Unit
  | [] => .ok ()
  | (passed,message)::checks => if passed then checkAll checks else .error (.message message)

def parseRssLimit (py : Interpreter) (row : Row) (peakRssKib : ℕ) :
    Except RowProblem (Option ℕ × Option Bool) := do
  let rssLimitText ← textValue row "rss_limit_mib"
  let rssFlag ← textValue row "rss_within_limit"
  if rssLimitText = [] then
    if rssFlag ≠ [] then .error (.message "RSS result exists without an RSS limit")
    else .ok (none,none)
  else
    let rssLimit ← integerValue py row "rss_limit_mib" 1
    let expected : Bool := peakRssKib ≤ rssLimit*1024
    if rssFlag ≠ "true".toList ∧ rssFlag ≠ "false".toList ∨
        decide (rssFlag = "true".toList) ≠ expected then
      .error (.message "RSS limit result contradicts peak RSS")
    else .ok (some rssLimit,some expected)

def requireRequested (requested : Text) : Except RowProblem RequestedBackend :=
  match RequestedBackend.ofLabel? requested with
  | none => .error (.unknownRequestedBackend requested)
  | some backend => .ok backend

def requireSelected (selected : Text) : Except RowProblem SelectedBackend :=
  match SelectedBackend.ofLabel? selected with
  | none => .error (.unknownSelectedBackend selected)
  | some backend => .ok backend

def parseSample (py : Interpreter) (row : Row) : Except RowProblem Sample := do
  let environmentId ← textValue row "environment_id"
  let inputPath ← textValue row "input_path"
  let inputBytes ← integerValue py row "input_bytes" 0
  let requested ← textValue row "requested_backend"
  let selected ← textValue row "selected_backend"
  let blockSize ← integerValue py row "block_size" 1
  let maxInflightBuffers ← integerValue py row "max_inflight_buffers" 1
  let queueDepth ← integerValue py row "queue_depth" 1
  let threadWorkers ← integerValue py row "thread_workers" 1
  let sampleIndex ← integerValue py row "sample_index" 1
  let bufferPoolBytes ← integerValue py row "buffer_pool_bytes" 1
  let blocksWritten ← integerValue py row "blocks_written" 0
  let bytesWritten ← integerValue py row "bytes_written" 0
  let inflightPeak ← integerValue py row "inflight_peak" 0
  let readProcessQueuePeak ← integerValue py row "read_process_queue_peak" 0
  let processWriteQueuePeak ← integerValue py row "process_write_queue_peak" 0
  let elapsedMs ← floatValue py row "elapsed_ms" (py.double (1/1000000))
  let throughputMibS ← floatValue py row "throughput_mib_s" 0
  let peakRssKib ← integerValue py row "peak_rss_kib" 0
  checkAll [(!environmentId.isEmpty && !inputPath.isEmpty,
    "environment_id and input_path must not be empty")]
  let _ ← floatValue py row "read_average_us" 0
  let _ ← floatValue py row "process_average_us" 0
  let _ ← floatValue py row "write_average_us" 0
  let _ ← floatValue py row "stage_average_us" 0
  let requestedBackend ← requireRequested requested
  let selectedBackend ← requireSelected selected
  checkAll [((EXPLICIT_SELECTION requestedBackend).all (· = selectedBackend),
    "explicit backend selection was mislabeled")]
  let expectedBlocks := (inputBytes+blockSize-1)/blockSize
  let verification ← textValue row "verification"
  checkAll [
    (bytesWritten = inputBytes,"wrong bytes_written"),
    (blocksWritten = expectedBlocks,"wrong blocks_written"),
    (bufferPoolBytes = blockSize*maxInflightBuffers,"wrong buffer_pool_bytes"),
    (inflightPeak ≤ maxInflightBuffers,"in-flight peak exceeded bound"),
    (readProcessQueuePeak ≤ queueDepth && processWriteQueuePeak ≤ queueDepth,
      "queue peak exceeded bound"),
    (verification = "passed".toList,"output verification did not pass")]
  let (rssLimitMib,rssWithinLimit) ← parseRssLimit py row peakRssKib
  return ⟨environmentId,inputPath,inputBytes,requestedBackend,selectedBackend,blockSize,
    maxInflightBuffers,queueDepth,threadWorkers,sampleIndex,bufferPoolBytes,blocksWritten,
    bytesWritten,inflightPeak,readProcessQueuePeak,processWriteQueuePeak,elapsedMs,throughputMibS,
    peakRssKib,rssLimitMib,rssWithinLimit⟩

/-- The fields `GROUP_FIELDS`. -/
structure GroupKey where
  environmentId : Text
  inputPath : Text
  inputBytes : ℕ
  requestedBackend : RequestedBackend
  selectedBackend : SelectedBackend
  blockSize : ℕ
  maxInflightBuffers : ℕ
  queueDepth : ℕ
  threadWorkers : ℕ
  bufferPoolBytes : ℕ
  deriving DecidableEq

def Sample.groupKey (s : Sample) : GroupKey :=
  ⟨s.environmentId,s.inputPath,s.inputBytes,s.requestedBackend,s.selectedBackend,s.blockSize,
    s.maxInflightBuffers,s.queueDepth,s.threadWorkers,s.bufferPoolBytes⟩

/-- What the samples of one file may not share. -/
def Sample.identity (s : Sample) : GroupKey × ℕ := (s.groupKey,s.sampleIndex)

inductive AnalysisError
  | headerIsMissing (path : Text) (fields : List String) -- "...: CSV header is missing ..."
  | row (path : Text) (line : ℕ) (problem : RowProblem) -- "...:...: ..."
  | message (text : String)
  deriving DecidableEq

structure CsvFile where
  path : Text
  records : List (List Text)

/-- The rows of `csv.DictReader`, numbered from two; it skips empty records. -/
def CsvFile.rows (file : CsvFile) : List (Row × ℕ) :=
  ((file.records.tail.filter (· ≠ [])).map (Row.of (file.records.headD []))).zipIdx 2

/-- One turn of the inner loop, on what has been seen in the file and on all samples so far. -/
def readRow (py : Interpreter) (path : Text) (state : List (GroupKey × ℕ) × List Sample)
    (row : Row × ℕ) : Except AnalysisError (List (GroupKey × ℕ) × List Sample) :=
  if row.1.extra then .error (.row path row.2 (.message "too many columns"))
  else match parseSample py row.1 with
    | .error problem => .error (.row path row.2 problem)
    | .ok sample =>
      if sample.identity ∈ state.1 then
        .error (.row path row.2 (.message "duplicate sample index for config"))
      else
        let samples := state.2++[sample]
        if samples.length > MAX_ROWS then .error (.message "raw sample count exceeds 100000")
        else .ok (state.1++[sample.identity],samples)

def readFile (py : Interpreter) (samples : List Sample) (file : CsvFile) :
    Except AnalysisError (List Sample) :=
  let missing := REQUIRED_FIELDS.filter fun field => field.toList ∉ file.records.headD []
  if missing ≠ [] then .error (.headerIsMissing file.path missing)
  else (file.rows.foldlM (readRow py file.path) ([],samples)).map Prod.snd

def readSamples (py : Interpreter) (files : List CsvFile) : Except AnalysisError (List Sample) :=
  match files.foldlM (readFile py) [] with
  | .error failure => .error failure
  | .ok samples =>
    if samples = [] then .error (.message "no raw sample rows were found")
    else if (samples.map Sample.environmentId).dedup.length ≠ 1 then
      .error (.message "different environment_id values must be analyzed separately")
    else if (groupBy Sample.inputPath samples).any fun sizes =>
        (sizes.2.map Sample.inputBytes).dedup.length ≠ 1 then
      .error (.message "one input_path has conflicting input_bytes values")
    else .ok samples

/-- What `parse_sample` has checked of a sample. -/
structure Sample.Valid (py : Interpreter) (s : Sample) : Prop where
  pool : s.bufferPoolBytes = s.blockSize*s.maxInflightBuffers
  selection : ∀ backend, EXPLICIT_SELECTION s.requestedBackend = some backend →
    s.selectedBackend = backend
  elapsed : py.double (1/1000000) ≤ s.elapsedMs
  written : s.bytesWritten = s.inputBytes ∧ s.blocksWritten = (s.inputBytes+s.blockSize-1)/s.blockSize
  peaks : s.inflightPeak ≤ s.maxInflightBuffers ∧ s.readProcessQueuePeak ≤ s.queueDepth ∧
    s.processWriteQueuePeak ≤ s.queueDepth
  limit : s.rssWithinLimit = s.rssLimitMib.map fun limit => decide (s.peakRssKib ≤ limit*1024)

theorem floatValue_ok {py : Interpreter} {row : Row} {field : String} {minimum value : ℚ}
    (h : floatValue py row field minimum = .ok value) : minimum ≤ value := by
  obtain ⟨text,-,h⟩ := bind_eq_ok h
  split at h
  · cases h
  · split_ifs at h with hlt
    obtain rfl := Except.ok.inj h
    exact not_lt.mp hlt
  · cases h

theorem checkAll_ok {checks : List (Bool × String)} (h : checkAll checks = .ok ()) :
    ∀ check ∈ checks, check.1 = true := by
  induction checks with
  | nil => simp
  | cons check checks ih =>
    unfold checkAll at h
    split_ifs at h with hpassed
    exact List.forall_mem_cons.mpr ⟨hpassed,ih h⟩

theorem parseRssLimit_ok {py : Interpreter} {row : Row} {peakRssKib : ℕ}
    {limit : Option ℕ} {within : Option Bool}
    (h : parseRssLimit py row peakRssKib = .ok (limit,within)) :
    within = limit.map fun limit => decide (peakRssKib ≤ limit*1024) := by
  obtain ⟨rssLimitText,-,h⟩ := bind_eq_ok h
  obtain ⟨rssFlag,-,h⟩ := bind_eq_ok h
  split_ifs at h
  · obtain ⟨rfl,rfl⟩ := Prod.mk.inj (Except.ok.inj h)
    rfl
  · obtain ⟨rssLimit,-,h⟩ := bind_eq_ok h
    simp only at h
    split_ifs at h
    obtain ⟨rfl,rfl⟩ := Prod.mk.inj (Except.ok.inj h)
    rfl

/-- Where the fields of a sample come from, and the checks that its row has passed. -/
structure ParsedFrom (py : Interpreter) (row : Row) (s : Sample) : Prop where
  requested : (textValue row "requested_backend" >>= requireRequested) = .ok s.requestedBackend
  blockSize : integerValue py row "block_size" 1 = .ok s.blockSize
  buffers : integerValue py row "max_inflight_buffers" 1 = .ok s.maxInflightBuffers
  queueDepth : integerValue py row "queue_depth" 1 = .ok s.queueDepth
  sampleIndex : integerValue py row "sample_index" 1 = .ok s.sampleIndex
  elapsed : floatValue py row "elapsed_ms" (py.double (1/1000000)) = .ok s.elapsedMs
  selection : (EXPLICIT_SELECTION s.requestedBackend).all (· = s.selectedBackend) = true
  written : s.bytesWritten = s.inputBytes ∧
    s.blocksWritten = (s.inputBytes+s.blockSize-1)/s.blockSize
  pool : s.bufferPoolBytes = s.blockSize*s.maxInflightBuffers
  peaks : s.inflightPeak ≤ s.maxInflightBuffers ∧ s.readProcessQueuePeak ≤ s.queueDepth ∧
    s.processWriteQueuePeak ≤ s.queueDepth
  limit : parseRssLimit py row s.peakRssKib = .ok (s.rssLimitMib,s.rssWithinLimit)

theorem parseSample_parsedFrom {py : Interpreter} {row : Row} {s : Sample}
    (h : parseSample py row = .ok s) : ParsedFrom py row s := by
  obtain ⟨environmentId,-,h⟩ := bind_eq_ok h
  obtain ⟨inputPath,-,h⟩ := bind_eq_ok h
  obtain ⟨inputBytes,-,h⟩ := bind_eq_ok h
  obtain ⟨requested,hrequested,h⟩ := bind_eq_ok h
  obtain ⟨selected,-,h⟩ := bind_eq_ok h
  obtain ⟨blockSize,hblockSize,h⟩ := bind_eq_ok h
  obtain ⟨maxInflightBuffers,hbuffers,h⟩ := bind_eq_ok h
  obtain ⟨queueDepth,hqueueDepth,h⟩ := bind_eq_ok h
  obtain ⟨threadWorkers,-,h⟩ := bind_eq_ok h
  obtain ⟨sampleIndex,hsampleIndex,h⟩ := bind_eq_ok h
  obtain ⟨bufferPoolBytes,-,h⟩ := bind_eq_ok h
  obtain ⟨blocksWritten,-,h⟩ := bind_eq_ok h
  obtain ⟨bytesWritten,-,h⟩ := bind_eq_ok h
  obtain ⟨inflightPeak,-,h⟩ := bind_eq_ok h
  obtain ⟨readProcessQueuePeak,-,h⟩ := bind_eq_ok h
  obtain ⟨processWriteQueuePeak,-,h⟩ := bind_eq_ok h
  obtain ⟨elapsedMs,helapsed,h⟩ := bind_eq_ok h
  obtain ⟨throughputMibS,-,h⟩ := bind_eq_ok h
  obtain ⟨peakRssKib,-,h⟩ := bind_eq_ok h
  -- the check of the names, then the four averages
  obtain ⟨_,-,h⟩ := bind_eq_ok h
  obtain ⟨_,-,h⟩ := bind_eq_ok h
  obtain ⟨_,-,h⟩ := bind_eq_ok h
  obtain ⟨_,-,h⟩ := bind_eq_ok h
  obtain ⟨_,-,h⟩ := bind_eq_ok h
  obtain ⟨requestedBackend,hbackend,h⟩ := bind_eq_ok h
  obtain ⟨selectedBackend,-,h⟩ := bind_eq_ok h
  obtain ⟨_,hexplicit,h⟩ := bind_eq_ok h
  obtain ⟨verification,-,h⟩ := bind_eq_ok h
  obtain ⟨_,hchecks,h⟩ := bind_eq_ok h
  obtain ⟨⟨limit,within⟩,hlimit,h⟩ := bind_eq_ok h
  obtain rfl := Except.ok.inj h
  have hexplicit := checkAll_ok hexplicit
  have hchecks := checkAll_ok hchecks
  simp only [List.mem_cons,List.not_mem_nil,or_false,forall_eq_or_imp,forall_eq,
    decide_eq_true_eq,Bool.and_eq_true] at hexplicit hchecks
  obtain ⟨hbytes,hblocks,hpool,hinflight,hqueues,-⟩ := hchecks
  refine ⟨?_,hblockSize,hbuffers,hqueueDepth,hsampleIndex,helapsed,hexplicit,⟨hbytes,hblocks⟩,
    hpool,⟨hinflight,hqueues⟩,hlimit⟩
  rw [hrequested]
  exact hbackend

theorem parseSample_valid {py : Interpreter} {row : Row} {s : Sample}
    (h : parseSample py row = .ok s) : s.Valid py := by
  have hparsed := parseSample_parsedFrom h
  refine ⟨hparsed.pool,fun backend hbackend => ?_,floatValue_ok hparsed.elapsed,hparsed.written,
    hparsed.peaks,parseRssLimit_ok hparsed.limit⟩
  have hselection := hparsed.selection
  rw [hbackend] at hselection
  exact (of_decide_eq_true hselection).symm

theorem textValue_of_get {row : Row} {field : String} {text : Text}
    (h : row.get field = some text) : textValue row field = .ok (strip text) := by
  rw [textValue,h]

theorem integerValue_toDigits {py : Interpreter} {row : Row} {field : String} {n minimum value : ℕ}
    (hget : row.get field = some (Nat.toDigits 10 n))
    (h : integerValue py row field minimum = .ok value) : value = n := by
  have hstrip : strip (Nat.toDigits 10 n) = Nat.toDigits 10 n :=
    stripBy_eq_self fun c hc => Interpreter.isSpace_of_isDigit
      (Nat.isDigit_of_mem_toDigits (by decide) (by decide) hc)
  obtain ⟨text,htext,h⟩ := bind_eq_ok h
  rw [textValue_of_get hget,hstrip] at htext
  obtain rfl := Except.ok.inj htext
  split at h
  · cases h
  · rename_i read hread
    split_ifs at h
    rw [← Except.ok.inj h,py.int_toDigits hread,Int.toNat_natCast]

theorem requireRequested_label {row : Row} {field : String} {backend backend' : RequestedBackend}
    (hget : row.get field = some backend.label)
    (h : (textValue row field >>= requireRequested) = .ok backend') : backend' = backend := by
  have hstrip : strip backend.label = backend.label := by cases backend <;> rfl
  have hlabel : requireRequested backend.label = .ok backend := by cases backend <;> rfl
  rw [textValue_of_get hget,hstrip] at h
  exact (Except.ok.inj (hlabel.symm.trans h)).symm

theorem Sample.Valid.elapsed_pos {py : Interpreter} {s : Sample} (h : s.Valid py) :
    0 < s.elapsedMs :=
  (py.double_pos _ (by norm_num)).trans_le h.elapsed

/-- The samples that `read_samples` returns. -/
structure Accepted (py : Interpreter) (samples : List Sample) : Prop where
  valid : ∀ s ∈ samples, s.Valid py
  environment : ∀ s ∈ samples, ∀ t ∈ samples, s.environmentId = t.environmentId
  size : ∀ s ∈ samples, ∀ t ∈ samples, s.inputPath = t.inputPath → s.inputBytes = t.inputBytes

theorem Accepted.perm {py : Interpreter} {samples samples' : List Sample}
    (h : Accepted py samples) (hperm : samples.Perm samples') : Accepted py samples' where
  valid := fun s hs => h.valid s (hperm.mem_iff.mpr hs)
  environment := fun s hs t ht =>
    h.environment s (hperm.mem_iff.mpr hs) t (hperm.mem_iff.mpr ht)
  size := fun s hs t ht => h.size s (hperm.mem_iff.mpr hs) t (hperm.mem_iff.mpr ht)

theorem readRow_valid {py : Interpreter} {path : Text}
    {state state' : List (GroupKey × ℕ) × List Sample} {row : Row × ℕ}
    (h : readRow py path state row = .ok state') (hstate : ∀ s ∈ state.2, s.Valid py) :
    ∀ s ∈ state'.2, s.Valid py := by
  unfold readRow at h
  split_ifs at h
  split at h
  · cases h
  · rename_i sample hsample
    simp only at h
    split_ifs at h
    obtain rfl := Except.ok.inj h
    refine List.forall_mem_append.mpr ⟨hstate,fun s hs => ?_⟩
    rw [List.mem_singleton.mp hs]
    exact parseSample_valid hsample

theorem readFile_valid {py : Interpreter} {samples samples' : List Sample} {file : CsvFile}
    (hsamples : ∀ s ∈ samples, s.Valid py) (h : readFile py samples file = .ok samples') :
    ∀ s ∈ samples', s.Valid py := by
  unfold readFile at h
  simp only at h
  split_ifs at h
  cases hfold : file.rows.foldlM (readRow py file.path) ([],samples) with
  | error failure =>
    rw [hfold] at h
    cases h
  | ok state =>
    rw [hfold] at h
    obtain rfl := Except.ok.inj h
    exact foldlM_invariant (I := fun state => ∀ s ∈ state.2,s.Valid py)
      (fun _ _ _ hstate hrow => readRow_valid hrow hstate) hsamples hfold

theorem eq_of_dedup_length {α : Type*} [DecidableEq α] {xs : List α} (h : xs.dedup.length = 1)
    {x y : α} (hx : x ∈ xs) (hy : y ∈ xs) : x = y := by
  obtain ⟨z,hz⟩ := List.length_eq_one_iff.mp h
  rw [← List.mem_dedup,hz,List.mem_singleton] at hx hy
  rw [hx,hy]

theorem readSamples_accepted {py : Interpreter} {files : List CsvFile} {samples : List Sample}
    (h : readSamples py files = .ok samples) : Accepted py samples := by
  unfold readSamples at h
  split at h
  · cases h
  · rename_i all hall
    split_ifs at h with hempty henvironment hsizes
    obtain rfl := Except.ok.inj h
    refine ⟨?_,fun s hs t ht => ?_,fun s hs t ht hpath => ?_⟩
    · exact foldlM_invariant (fun _ _ _ hsamples hfile => readFile_valid hsamples hfile)
        (by simp) hall
    · exact eq_of_dedup_length (not_not.mp henvironment) (List.mem_map_of_mem hs)
        (List.mem_map_of_mem ht)
    · have hgroups := groupBy_partitions Sample.inputPath all
      obtain ⟨group,⟨hgroup,hmem⟩,-⟩ := hgroups.existsUnique hs
      have hother : t ∈ group.2 := by
        rw [hgroups.group_eq group hgroup,List.mem_filter] at hmem ⊢
        exact ⟨ht,by simpa [← hpath] using hmem.2⟩
      have hone : (group.2.map Sample.inputBytes).dedup.length = 1 := by
        by_contra hne
        exact hsizes (List.any_eq_true.mpr ⟨group,hgroup,by simpa using hne⟩)
      exact eq_of_dedup_length hone (List.mem_map_of_mem hmem) (List.mem_map_of_mem hother)

end Benchmark
end AsyncDataLoader
