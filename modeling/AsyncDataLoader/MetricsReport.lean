import AsyncDataLoader.JsonText
import AsyncDataLoader.MetricsRegistry
import AsyncDataLoader.PipelineConfig

/-!
# The metrics document

What `render_metrics_json` prints of a run and of the last snapshot of its metrics. A parser
of JSON gets all of it back.
-/

namespace AsyncDataLoader

open FileIO

/-- The operations on `double` that the reports use. `fixed3` is the output of a stream after
`std::fixed` and `std::setprecision(3)`. -/
structure FloatingPoint where
  Double : Type
  ofNat : ℕ → Double
  mul : Double → Double → Double
  div : Double → Double → Double
  le : Double → Double → Bool
  isFinite : Double → Bool
  fixed3 : Double → Bytes

def FloatingPoint.PrintsNumerals (fp : FloatingPoint) : Prop :=
  ∀ x, fp.isFinite x = true → ∃ r, Numeral.parse (fp.fixed3 x) = some r

/-- The nearest natural number; a tie goes to the even one. -/
def roundHalfEven (numerator denominator : ℕ) : ℕ :=
  let quotient := numerator/denominator
  let twice := 2*(numerator%denominator)
  if twice < denominator ∨ twice = denominator ∧ quotient%2 = 0 then quotient else quotient+1

/-- A rational number to the nearest thousandth. -/
def rationalFixed3 (x : ℚ) : Bytes :=
  let thousandths := roundHalfEven (1000*x.num.natAbs) x.den
  (if x < 0 then [45] else [])++(Numeral.decimal (thousandths/1000)++46::
    [Numeral.digit (thousandths/100%10),Numeral.digit (thousandths/10%10),
      Numeral.digit (thousandths%10)])

theorem rationalFixed3_numeral (x : ℚ) : ∃ r, Numeral.parse (rationalFixed3 x) = some r := by
  let thousandths := roundHalfEven (1000*x.num.natAbs) x.den
  let digits := [Numeral.digit (thousandths/100%10),Numeral.digit (thousandths/10%10),
    Numeral.digit (thousandths%10)]
  have hdigit : ∀ n, Numeral.isDigit (Numeral.digit (n%10)) = true :=
    fun n => Numeral.isDigit_digit (Nat.mod_lt n (by decide))
  have hdigits : ∀ b ∈ digits, Numeral.isDigit b = true := by
    simp only [digits,List.forall_mem_cons,hdigit,true_and]
    exact by simp
  have hparse := Numeral.parseUnsigned_fraction (thousandths/1000) (List.cons_ne_nil _ _) hdigits
  unfold rationalFixed3
  by_cases hneg : x < 0
  · rw [if_pos hneg]
    exact ⟨_,Numeral.parse_minus hparse⟩
  · rw [if_neg hneg]
    exact ⟨_,(Numeral.parse_decimal_append _ _).trans hparse⟩

def FloatingPoint.rational : FloatingPoint :=
  ⟨ℚ,fun n => n,(·*·),(·/·),fun x y => x ≤ y,fun _ => true,rationalFixed3⟩

theorem FloatingPoint.rational_printsNumerals : rational.PrintsNumerals :=
  fun x _ => rationalFixed3_numeral x

structure PipelineRunReport (Double : Type) where
  inputPath : Bytes
  outputPath : Bytes
  requestedBackend : Bytes
  selectedBackend : Bytes
  stageName : Bytes
  pipelineConfig : PipelineConfig
  inputBytes : ℕ
  blocksWritten : ℕ
  bytesWritten : ℕ
  elapsedSeconds : Double
  outputCommitted : Bool
  verificationPassed : Bool

def PipelineConfig.bufferPoolBytes (c : PipelineConfig) : Except Failure ℕ := do
  c.validate
  return c.blockSize*c.maxInflightBuffers%2^64

theorem PipelineConfig.bufferPoolBytes_eq_ok {c : PipelineConfig} {n : ℕ} :
    c.bufferPoolBytes = .ok n ↔ c.validate = .ok () ∧ n = c.blockSize*c.maxInflightBuffers := by
  unfold bufferPoolBytes
  cases hvalid : c.validate with
  | error failure => exact ⟨fun h => (nomatch h),fun h => (nomatch h.1)⟩
  | ok =>
    have hle := (valid_of_validate hvalid).poolBytes_le
    have hmod : c.blockSize*c.maxInflightBuffers%2^64 = c.blockSize*c.maxInflightBuffers :=
      Nat.mod_eq_of_lt (by simp only [uint64Max] at hle; omega)
    constructor
    · intro h
      exact ⟨rfl,by rw [← hmod]; exact (Except.ok.inj h).symm⟩
    · rintro ⟨-,rfl⟩
      exact congrArg Except.ok hmod

namespace Reporting

open Json Numeral

variable (fp : FloatingPoint)

def averageUs (histogram : HistogramSnapshot) : fp.Double :=
  if histogram.data.sampleCount = 0 then fp.ofNat 0
  else fp.div (fp.div (fp.ofNat histogram.data.sampleSum) (fp.ofNat histogram.data.sampleCount))
    (fp.ofNat 1000)

def throughputMibS (report : PipelineRunReport fp.Double) : fp.Double :=
  if fp.le report.elapsedSeconds (fp.ofNat 0) then fp.ofNat 0
  else fp.div (fp.ofNat report.bytesWritten)
    (fp.mul (fp.mul (fp.ofNat 1024) (fp.ofNat 1024)) report.elapsedSeconds)

def elapsedMs (report : PipelineRunReport fp.Double) : fp.Double :=
  fp.mul report.elapsedSeconds (fp.ofNat 1000)

def requireFinite (value : fp.Double) (name : String) : Except Failure Unit :=
  if fp.isFinite value then .ok ()
  else .error (.invalidArgument (name++" must be a finite number"))

def hexDigits : Bytes := ascii "0123456789abcdef"

/-- One turn of the loop of `write_json_string`. -/
def escapeByte (byte : UInt8) : Bytes :=
  if byte = 34 then ascii "\\\""
  else if byte = 92 then ascii "\\\\"
  else if byte = 8 then ascii "\\b"
  else if byte = 12 then ascii "\\f"
  else if byte = 10 then ascii "\\n"
  else if byte = 13 then ascii "\\r"
  else if byte = 9 then ascii "\\t"
  else if byte.toNat < 0x20 then
    ascii "\\u00"++[hexDigits.getD (byte.toNat>>>4) 0,hexDigits.getD (byte.toNat&&&0x0F) 0]
  else [byte]

def writeJsonString (value : Bytes) : Bytes := ascii "\""++value.flatMap escapeByte++ascii "\""

def writeJsonNamedString (indentation name : String) (value : Bytes) (comma : Bool) : Bytes :=
  ascii indentation++writeJsonString (ascii name)++ascii ": "++writeJsonString value++
    (if comma then ascii ",\n" else ascii "\n")

def renderRun (report : PipelineRunReport fp.Double) : Bytes :=
  writeJsonNamedString "    " "input_path" report.inputPath true++
  writeJsonNamedString "    " "output_path" report.outputPath true++
  writeJsonNamedString "    " "requested_backend" report.requestedBackend true++
  writeJsonNamedString "    " "selected_backend" report.selectedBackend true++
  writeJsonNamedString "    " "stage" report.stageName true++
  ascii "    \"input_bytes\": "++decimal report.inputBytes++ascii "\n"

def renderConfig (config : PipelineConfig) (poolBytes : ℕ) : Bytes :=
  ascii "    \"block_size\": "++decimal config.blockSize++
  ascii ",\n    \"max_inflight_buffers\": "++decimal config.maxInflightBuffers++
  ascii ",\n    \"queue_depth\": "++decimal config.queueDepth++
  ascii ",\n    \"buffer_alignment\": "++decimal config.bufferAlignment++
  ascii ",\n    \"buffer_pool_bytes\": "++decimal poolBytes++ascii "\n"

def renderResult (report : PipelineRunReport fp.Double) : Bytes :=
  ascii "    \"blocks_written\": "++decimal report.blocksWritten++
  ascii ",\n    \"bytes_written\": "++decimal report.bytesWritten++
  ascii ",\n    \"elapsed_ms\": "++fp.fixed3 (elapsedMs fp report)++
  ascii ",\n    \"throughput_mib_s\": "++fp.fixed3 (throughputMibS fp report)++
  ascii ",\n    \"output_committed\": "++
  (if report.outputCommitted then ascii "true" else ascii "false")++
  ascii ",\n    \"verification\": "++
  (if report.verificationPassed then ascii "\"passed\"" else ascii "\"failed\"")++ascii "\n"

def renderCounter (counter : CounterSnapshot) : Bytes :=
  ascii "      \x7b\"name\": "++writeJsonString counter.name++
  ascii ", \"value\": "++decimal counter.value++ascii "\x7d"

def renderGauge (gauge : GaugeSnapshot) : Bytes :=
  ascii "      \x7b\"name\": "++writeJsonString gauge.name++
  ascii ", \"current\": "++decimalInt gauge.value++
  ascii ", \"high_watermark\": "++decimalInt gauge.highWatermark++ascii "\x7d"

def renderHistogram (histogram : HistogramSnapshot) : Bytes :=
  ascii "      \x7b\"name\": "++writeJsonString histogram.name++
  ascii ", \"sample_count\": "++decimal histogram.data.sampleCount++
  ascii ", \"sample_sum_ns\": "++decimal histogram.data.sampleSum++
  ascii ", \"average_us\": "++fp.fixed3 (averageUs fp histogram)++
  ascii ", \"upper_bounds_ns\": ["++separated [] (ascii ", ") decimal histogram.bounds++
  ascii "], \"bucket_counts\": ["++separated [] (ascii ", ") decimal histogram.buckets++
  ascii "]\x7d"

/-- The loop over one kind of metric, and the line break after a loop that has run. -/
def renderMetrics {α : Type} (item : α → Bytes) (metrics : List α) : Bytes :=
  separated (ascii "\n") (ascii ",\n") item metrics++
    (if metrics.isEmpty then [] else ascii "\n")

def metricsText (snapshot : Snapshot) (report : PipelineRunReport fp.Double) (poolBytes : ℕ) :
    Bytes :=
  ascii "\x7b\n  \"schema_version\": 1,\n"++
  ascii "  \"status\": \"complete\",\n"++
  ascii "  \"run\": \x7b\n"++renderRun fp report++
  ascii "  \x7d,\n  \"pipeline_config\": \x7b\n"++renderConfig report.pipelineConfig poolBytes++
  ascii "  \x7d,\n  \"result\": \x7b\n"++renderResult fp report++
  ascii "  \x7d,\n  \"metrics\": \x7b\n    \"counters\": ["++
  renderMetrics renderCounter snapshot.counters++
  ascii "    ],\n    \"gauges\": ["++renderMetrics renderGauge snapshot.gauges++
  ascii "    ],\n    \"histograms\": ["++renderMetrics (renderHistogram fp) snapshot.histograms++
  ascii "    ]\n  \x7d\n\x7d\n"

def renderMetricsJson (snapshot : Snapshot) (report : PipelineRunReport fp.Double) :
    Except Failure Bytes := do
  requireFinite fp report.elapsedSeconds "elapsed_seconds"
  requireFinite fp (throughputMibS fp report) "throughput_mib_s"
  let poolBytes ← report.pipelineConfig.bufferPoolBytes
  return metricsText fp snapshot report poolBytes

theorem renderMetricsJson_eq_ok {fp : FloatingPoint} {snapshot : Snapshot}
    {report : PipelineRunReport fp.Double} {text : Bytes} :
    renderMetricsJson fp snapshot report = .ok text ↔
      fp.isFinite report.elapsedSeconds = true ∧ fp.isFinite (throughputMibS fp report) = true ∧
      report.pipelineConfig.validate = .ok () ∧
      text = metricsText fp snapshot report
        (report.pipelineConfig.blockSize*report.pipelineConfig.maxInflightBuffers) := by
  unfold renderMetricsJson requireFinite
  cases helapsed : fp.isFinite report.elapsedSeconds with
  | false => simp [bind,Except.bind]
  | true =>
    cases hrate : fp.isFinite (throughputMibS fp report) with
    | false => simp [bind,Except.bind]
    | true =>
      cases hpool : report.pipelineConfig.bufferPoolBytes with
      | error failure =>
        have hinvalid : report.pipelineConfig.validate ≠ .ok () := fun hvalid => by
          rw [PipelineConfig.bufferPoolBytes_eq_ok.mpr ⟨hvalid,rfl⟩] at hpool
          cases hpool
        simp [bind,Except.bind,hinvalid]
      | ok poolBytes =>
        obtain ⟨hvalid,rfl⟩ := PipelineConfig.bufferPoolBytes_eq_ok.mp hpool
        simp [bind,Except.bind,pure,Except.pure,hvalid,eq_comm]

def natural (n : ℕ) : Json := .number n 0

def integer (z : ℤ) : Json := .number z 0

def printed (x : fp.Double) : Json :=
  match Numeral.parse (fp.fixed3 x) with
  | some r => .number r.1 r.2
  | none => .null

def runMembers (report : PipelineRunReport fp.Double) : List (Bytes × Json) := [
  (ascii "input_path",.string report.inputPath),
  (ascii "output_path",.string report.outputPath),
  (ascii "requested_backend",.string report.requestedBackend),
  (ascii "selected_backend",.string report.selectedBackend),
  (ascii "stage",.string report.stageName),
  (ascii "input_bytes",natural report.inputBytes)]

def configMembers (config : PipelineConfig) : List (Bytes × Json) := [
  (ascii "block_size",natural config.blockSize),
  (ascii "max_inflight_buffers",natural config.maxInflightBuffers),
  (ascii "queue_depth",natural config.queueDepth),
  (ascii "buffer_alignment",natural config.bufferAlignment),
  (ascii "buffer_pool_bytes",natural (config.blockSize*config.maxInflightBuffers))]

def verification (passed : Bool) : Bytes := if passed then ascii "passed" else ascii "failed"

def resultMembers (report : PipelineRunReport fp.Double) : List (Bytes × Json) := [
  (ascii "blocks_written",natural report.blocksWritten),
  (ascii "bytes_written",natural report.bytesWritten),
  (ascii "elapsed_ms",printed fp (elapsedMs fp report)),
  (ascii "throughput_mib_s",printed fp (throughputMibS fp report)),
  (ascii "output_committed",.bool report.outputCommitted),
  (ascii "verification",.string (verification report.verificationPassed))]

def counterMembers (counter : CounterSnapshot) : List (Bytes × Json) := [
  (ascii "name",.string counter.name),
  (ascii "value",natural counter.value)]

def gaugeMembers (gauge : GaugeSnapshot) : List (Bytes × Json) := [
  (ascii "name",.string gauge.name),
  (ascii "current",integer gauge.value),
  (ascii "high_watermark",integer gauge.highWatermark)]

def histogramMembers (histogram : HistogramSnapshot) : List (Bytes × Json) := [
  (ascii "name",.string histogram.name),
  (ascii "sample_count",natural histogram.data.sampleCount),
  (ascii "sample_sum_ns",natural histogram.data.sampleSum),
  (ascii "average_us",printed fp (averageUs fp histogram)),
  (ascii "upper_bounds_ns",.array (histogram.bounds.map natural)),
  (ascii "bucket_counts",.array (histogram.buckets.map natural))]

def metricsMembers (snapshot : Snapshot) : List (Bytes × Json) := [
  (ascii "counters",.array (snapshot.counters.map fun c => .object (counterMembers c))),
  (ascii "gauges",.array (snapshot.gauges.map fun g => .object (gaugeMembers g))),
  (ascii "histograms",.array (snapshot.histograms.map fun h => .object (histogramMembers fp h)))]

def metricsDocument (snapshot : Snapshot) (report : PipelineRunReport fp.Double) : Json := .object [
  (ascii "schema_version",natural 1),
  (ascii "status",.string (ascii "complete")),
  (ascii "run",.object (runMembers fp report)),
  (ascii "pipeline_config",.object (configMembers report.pipelineConfig)),
  (ascii "result",.object (resultMembers fp report)),
  (ascii "metrics",.object (metricsMembers fp snapshot))]

structure HistogramRecord where
  name : Bytes
  sampleCount : ℕ
  sampleSum : ℕ
  upperBounds : List ℕ
  bucketCounts : List ℕ

def histogramRecord (histogram : HistogramSnapshot) : HistogramRecord where
  name := histogram.name
  sampleCount := histogram.data.sampleCount
  sampleSum := histogram.data.sampleSum
  upperBounds := histogram.bounds
  bucketCounts := histogram.buckets

structure ReportData where
  strings : List Bytes
  pipelineConfig : PipelineConfig
  inputBytes : ℕ
  blocksWritten : ℕ
  bytesWritten : ℕ
  outputCommitted : Bool
  verificationPassed : Bool
  counters : List CounterSnapshot
  gauges : List GaugeSnapshot
  histograms : List HistogramRecord

def reportStrings (report : PipelineRunReport fp.Double) : List Bytes :=
  [report.inputPath,report.outputPath,report.requestedBackend,report.selectedBackend,
    report.stageName]

def reportData (snapshot : Snapshot) (report : PipelineRunReport fp.Double) : ReportData where
  strings := reportStrings fp report
  pipelineConfig := report.pipelineConfig
  inputBytes := report.inputBytes
  blocksWritten := report.blocksWritten
  bytesWritten := report.bytesWritten
  outputCommitted := report.outputCommitted
  verificationPassed := report.verificationPassed
  counters := snapshot.counters
  gauges := snapshot.gauges
  histograms := snapshot.histograms.map histogramRecord

end Reporting
end AsyncDataLoader
