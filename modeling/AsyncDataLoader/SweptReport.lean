import AsyncDataLoader.DemoCommand
import AsyncDataLoader.DemoSafety
import AsyncDataLoader.KeyValueReport
import AsyncDataLoader.SweepSample

/-!
# The report of the demo in the sweep

What the sweep makes of the output of a run of the demo: whatever has been printed before the
key-value report, the sweep finds the numbers of the report.
-/

namespace AsyncDataLoader
namespace KeyValue

/-- What a stream in text mode makes of the ends of lines. -/
def universalNewlines : List Char → List Char
  | '\r':: '\n'::cs => '\n'::universalNewlines cs
  | '\r'::cs => '\n'::universalNewlines cs
  | c::cs => c::universalNewlines cs
  | [] => []

theorem universalNewlines_eq_self {text : List Char} (h : '\r' ∉ text) :
    universalNewlines text = text := by
  induction text with
  | nil => rfl
  | cons c cs ih =>
    rw [List.mem_cons,not_or] at h
    have hrest := ih h.2
    unfold universalNewlines
    split
    · rename_i heq
      exact absurd (List.cons.inj heq).1.symm h.1
    · rename_i heq
      exact absurd (List.cons.inj heq).1.symm h.1
    · rename_i heq
      obtain ⟨rfl,rfl⟩ := List.cons.inj heq
      rw [hrest]
    · rename_i heq
      cases heq

theorem universalNewlines_append (front rest : List Char) : ∃ front',
    universalNewlines (front++ '\n'::rest) = front'++ '\n'::universalNewlines rest := by
  fun_induction universalNewlines front with
  | case1 cs ih =>
    obtain ⟨front',hfront⟩ := ih
    exact ⟨'\n'::front',congrArg ('\n'::·) hfront⟩
  | case2 cs hcs ih =>
    cases cs with
    | nil => exact ⟨[],rfl⟩
    | cons c cs =>
      obtain ⟨front',hfront⟩ := ih
      refine ⟨'\n'::front',?_⟩
      rw [List.cons_append] at hfront
      simp only [List.cons_append]
      rw [universalNewlines,hfront]
      exact fun cs' heq => hcs cs (by rw [(List.cons.inj heq).1])
  | case3 c cs hpair hreturn ih =>
    obtain ⟨front',hfront⟩ := ih
    refine ⟨c::front',?_⟩
    rw [List.cons_append,universalNewlines,hfront,List.cons_append]
    · exact fun cs' hc _ => hreturn hc
    · exact hreturn
  | case4 => exact ⟨[],rfl⟩

theorem splitFrom_append_break {line : List Char} {r : Bool} (hr : r = true → line = [])
    (front rest : List Char) : ∃ lines,
    splitFrom line r (front++ '\n'::rest) = lines++splitlines rest := by
  induction front generalizing line r with
  | nil =>
    cases r with
    | true =>
      obtain rfl := hr rfl
      exact ⟨[],rfl⟩
    | false => exact ⟨[line],rfl⟩
  | cons c cs ih =>
    rw [List.cons_append,splitFrom]
    split
    · exact ih (by simp)
    · split
      · obtain ⟨lines,hlines⟩ := @ih [] (c == '\r') (fun _ => rfl)
        exact ⟨line::lines,congrArg (line::·) hlines⟩
      · exact ih (by simp)

variable {ps : List (List Char × List Char)}

theorem splitlines_printed (h : ∀ p ∈ ps, PlainKey p.1 ∧ Plain p.2) :
    splitlines (ps.flatMap printLine) = ps.map fun p => p.1++ '='::p.2 := by
  induction ps with
  | nil => rfl
  | cons p ps ih =>
    obtain ⟨⟨hkey,hvalue⟩,hps⟩ := List.forall_mem_cons.mp h
    rw [List.flatMap_cons,printLine,List.append_assoc,List.singleton_append,
      splitlines_line (plain_pair hkey hvalue),ih hps,List.map_cons]

theorem foldl_assign_apply (h : Functional ps) (values : Dictionary)
    {p : List Char × List Char} (hp : p ∈ ps) :
    ps.foldl (fun values p => values.assign p.1 p.2) values p.1 = some p.2 := by
  induction ps using List.reverseRecOn with
  | nil => cases hp
  | append_singleton ps q ih =>
    rw [List.foldl_append,List.foldl_cons,List.foldl_nil,Dictionary.assign]
    split_ifs with heq
    · rw [h p hp q (by simp) heq]
    · obtain hp | hp := List.mem_append.mp hp
      · exact ih (h.of_subset fun r hr => List.mem_append_left _ hr) hp
      · exact absurd (congrArg Prod.fst (List.mem_singleton.mp hp)) heq

theorem return_not_mem_printed (h : ∀ p ∈ ps, PlainKey p.1 ∧ Plain p.2) :
    '\r' ∉ ps.flatMap printLine := by
  intro hmem
  obtain ⟨p,hp,hmem⟩ := List.mem_flatMap.mp hmem
  obtain hmem | hmem := List.mem_append.mp hmem
  · exact absurd (plain_pair (h p hp).1 (h p hp).2 _ hmem) (by decide)
  · exact absurd (List.mem_singleton.mp hmem) (by decide)

theorem parse_printed_behind (h : ∀ p ∈ ps, PlainKey p.1 ∧ Plain p.2) (hfun : Functional ps)
    (front : List Char) {p : List Char × List Char} (hp : p ∈ ps) :
    parseKeyValueOutput (universalNewlines (front++ '\n'::ps.flatMap printLine)) p.1 =
      some p.2 := by
  obtain ⟨front',hfront⟩ := universalNewlines_append front (ps.flatMap printLine)
  obtain ⟨lines,hlines⟩ := @splitFrom_append_break [] false (by simp) front'
    (ps.flatMap printLine)
  rw [hfront,universalNewlines_eq_self (return_not_mem_printed h),parseKeyValueOutput,splitlines,
    hlines,splitlines_printed h,List.foldl_append,List.foldl_map]
  rw [List.foldl_ext _ _ _ fun values q hq => readLine_pair values q.2 (h q hq).1]
  exact foldl_assign_apply hfun _ hp

end KeyValue

namespace Reporting

open FileIO KeyValue Utf8

theorem encode_toList (name : String) : encode name.toList = ascii name := by
  have hbytes : (encode name.toList).toByteArray = name.toByteArray := String.utf8Encode_toList
  have hlist := congrArg (fun b : ByteArray => b.data.toList) hbytes
  rw [List.data_toByteArray] at hlist
  exact hlist

variable {fp : FloatingPoint} {snapshot : Snapshot} {report : PipelineRunReport fp.Double}

def Found (values : Dictionary) (pairs : List (Bytes × Bytes)) : Prop :=
  ∀ p ∈ pairs, ∃ key value, encode key = p.1 ∧ encode value = p.2 ∧ values key = some value

/-- The report is found behind everything that has been printed before it. -/
theorem found_of_printed (hfp : Documented fp) (hinstrumented : Instrumented snapshot)
    (hnames : ∀ name ∈ metricNames snapshot, PlainName name ∧ name ≠ [])
    (hlines : OneLineStrings report) {configuration lead : Bytes} {output : List Char}
    (hconfiguration : writeKeyValueConfiguration fp report = .ok configuration)
    (houtput : encode output =
      lead++10::(configuration++writeKeyValueResult fp snapshot report)) :
    Found (parseKeyValueOutput (universalNewlines output)) (printedPairs fp snapshot report) := by
  obtain ⟨decoded,hdecoded,hall⟩ := exists_decoded (printedPairs_plain hfp hnames hlines)
  have hfun : Functional decoded := by
    intro p hp q hq heq
    have hpair : ∀ r ∈ decoded, (encode r.1,encode r.2) ∈ printedPairs fp snapshot report :=
      fun r hr => hdecoded ▸ List.mem_map_of_mem hr
    have hvalue := printedPairs_functional hinstrumented report _ (hpair p hp) _ (hpair q hq)
      (congrArg encode heq)
    exact encode_injective hvalue
  rw [printed_eq hconfiguration] at houtput
  obtain ⟨front,text,rfl,-,htext⟩ := encode_split (by decide) houtput
  have hprinted : text = decoded.flatMap printLine := by
    refine encode_injective (htext.trans ?_)
    rw [← hdecoded,List.flatMap_map,encode,List.flatMap_assoc]
    exact List.flatMap_congr fun q _ => (encode_printLine q).symm
  intro p hp
  rw [← hdecoded] at hp
  obtain ⟨q,hq,rfl⟩ := List.mem_map.mp hp
  refine ⟨q.1,q.2,rfl,rfl,?_⟩
  rw [hprinted]
  exact parse_printed_behind hall hfun front hq

theorem Found.word {values : Dictionary} {pairs : List (Bytes × Bytes)} (h : Found values pairs)
    {name value : String} (hmem : (ascii name,ascii value) ∈ pairs) :
    values name.toList = some value.toList := by
  obtain ⟨key,text,hkey,htext,hfound⟩ := h _ hmem
  have hname : key = name.toList := encode_injective (hkey.trans (encode_toList name).symm)
  have hsame : text = value.toList := encode_injective (htext.trans (encode_toList value).symm)
  rw [← hname,hfound,hsame]

theorem Found.apply {values : Dictionary} {pairs : List (Bytes × Bytes)} (h : Found values pairs)
    {name : String} {value : Bytes} (hmem : (ascii name,value) ∈ pairs)
    (hvalue : ∀ b ∈ value, b.toNat < 128) :
    values name.toList = some (value.map character) := by
  obtain ⟨key,text,hkey,htext,hfound⟩ := h _ hmem
  have hname : key = name.toList := encode_injective (hkey.trans (encode_toList name).symm)
  have hsame : text = value.map character :=
    encode_injective (htext.trans (encode_characters hvalue).symm)
  rw [← hname,hfound,hsame]

end Reporting

namespace Sweep

open Benchmark FileIO KeyValue Python Reporting Utf8

/-- The gauges and the histograms of the demo. -/
structure DemoMetrics where
  inflight : GaugeSnapshot
  readProcess : GaugeSnapshot
  processWrite : GaugeSnapshot
  stage : HistogramSnapshot
  read : HistogramSnapshot
  process : HistogramSnapshot
  write : HistogramSnapshot

/-- They are those of the snapshot, in the order of their registration. -/
structure DemoMetrics.Of (m : DemoMetrics) (snapshot : Snapshot) : Prop where
  gauges : snapshot.gauges = [m.inflight,m.readProcess,m.processWrite]
  histograms : snapshot.histograms = [m.stage,m.read,m.process,m.write]
  gaugeNames : [m.inflight,m.readProcess,m.processWrite].map GaugeSnapshot.name =
    PipelineMetricNames.gauges
  histogramNames : [m.stage,m.read,m.process,m.write].map HistogramSnapshot.name =
    makeStageLatencyMetricName 0 (ascii "byte_increment")::PipelineMetricNames.histograms

section

variable {py : Interpreter} (floats : FloatText py) {fp : FloatingPoint}

/-- A `float` of the report as the sweep writes it. -/
def rewritten (x : fp.Double) : Text := floats.repr ((fp.fixed3 x).map character)

def reportedOutcome (report : PipelineRunReport fp.Double) (m : DemoMetrics) (inputPath : Text)
    (peakRssKib : ℤ) : Outcome where
  inputPath := inputPath
  inputBytes := report.inputBytes
  selectedBackend := report.selectedBackend.map character
  bufferPoolBytes := report.pipelineConfig.blockSize*report.pipelineConfig.maxInflightBuffers
  blocksWritten := report.blocksWritten
  bytesWritten := report.bytesWritten
  inflightPeak := m.inflight.highWatermark
  readProcessQueuePeak := m.readProcess.highWatermark
  processWriteQueuePeak := m.processWrite.highWatermark
  readAverageUs := rewritten floats (averageUs fp m.read)
  processAverageUs := rewritten floats (averageUs fp m.process)
  writeAverageUs := rewritten floats (averageUs fp m.write)
  stageAverageUs := rewritten floats (averageUs fp m.stage)
  elapsedMs := rewritten floats (elapsedMs fp report)
  throughputMibS := rewritten floats (throughputMibS fp report)
  peakRssKib := peakRssKib
  verification := "passed".toList

/-- The numbers of the report that the sweep reads as integers. -/
def reportedIntegers (report : PipelineRunReport fp.Double) (m : DemoMetrics) : List ℤ :=
  [report.inputBytes,
    report.pipelineConfig.blockSize*report.pipelineConfig.maxInflightBuffers,
    report.blocksWritten,report.bytesWritten,m.inflight.highWatermark,m.readProcess.highWatermark,
    m.processWrite.highWatermark]

/-- What the sweep checks of a report that is committed and verified. -/
structure WithinBounds (config : RunConfig) (report : PipelineRunReport fp.Double)
    (m : DemoMetrics) : Prop where
  bytes : report.bytesWritten = report.inputBytes
  pool : report.pipelineConfig.blockSize*report.pipelineConfig.maxInflightBuffers =
    config.blockSize*config.maxInflightBuffers
  inflight : m.inflight.highWatermark ≤ config.maxInflightBuffers
  queues : m.readProcess.highWatermark ≤ config.queueDepth ∧
    m.processWrite.highWatermark ≤ config.queueDepth

end

section

variable {py : Interpreter} {fp : FloatingPoint} {snapshot : Snapshot}
  {report : PipelineRunReport fp.Double} {m : DemoMetrics} {values : Dictionary}

theorem lt_of_mem_decimalInt {z : ℤ} : ∀ b ∈ Numeral.decimalInt z, b.toNat < 128 := fun _ hb =>
  toNat_lt_of_isPart ((Numeral.parse_isPart (Numeral.parse_decimalInt z)).2 _ hb)

theorem lt_of_mem_decimal {n : ℕ} : ∀ b ∈ Numeral.decimal n, b.toNat < 128 := fun _ hb =>
  toNat_lt_of_isPart ((Numeral.parse_isPart (Numeral.parse_decimal n)).2 _ hb)

theorem fixed3_readable (py : Interpreter) (hfp : Documented fp) (x : fp.Double) :
    (∀ b ∈ fp.fixed3 x, b.toNat < 128) ∧
      (py.float ((fp.fixed3 x).map character)).isSome = true := by
  cases hfinite : fp.isFinite x with
  | true =>
    obtain ⟨r,hr⟩ := hfp.numeral x hfinite
    exact ⟨fun b hb => toNat_lt_of_isPart ((Numeral.parse_isPart hr).2 b hb),float_isSome py hr⟩
  | false =>
    have hword := hfp.word x hfinite
    simp only [List.mem_cons,List.not_mem_nil,or_false] at hword
    obtain h | h | h | h := hword <;> rw [h] <;> exact ⟨toNat_lt_of_isAscii rfl,rfl⟩

theorem requireValue_eq {name : String} {text : Text} (h : values name.toList = some text) :
    requireValue values name = .ok text := by
  rw [requireValue,h]

theorem requireInteger_eq {name : String} {z : ℤ} (h : values name.toList = some (str z))
    (hz : py.Readable z.natAbs) : requireInteger py values name = .ok z := by
  refine (bind_of_ok (requireValue_eq h)).trans ?_
  rw [Interpreter.int_str hz]

theorem requireFloat_eq (floats : FloatText py) (hfp : Documented fp) {name : String}
    {x : fp.Double} (h : values name.toList = some ((fp.fixed3 x).map character)) :
    requireFloat floats values name = .ok (rewritten floats x) := by
  obtain ⟨value,hvalue⟩ := Option.isSome_iff_exists.mp (fixed3_readable py hfp x).2
  refine (bind_of_ok (requireValue_eq h)).trans ?_
  rw [hvalue]
  rfl

theorem IntegerOf.eq {name : String} {z z' : ℤ} (h : IntegerOf py values name z)
    (hvalue : values name.toList = some (str z')) (hz' : py.Readable z'.natAbs) : z = z' := by
  obtain ⟨text,htext,hint⟩ := h
  obtain rfl := Option.some.inj (htext.symm.trans hvalue)
  exact Option.some.inj (hint.symm.trans (Interpreter.int_str hz'))

theorem FloatOf.eq {floats : FloatText py} {name : String} {written : Text} {x : fp.Double}
    (h : FloatOf floats values name written)
    (hvalue : values name.toList = some ((fp.fixed3 x).map character)) :
    written = rewritten floats x := by
  obtain ⟨text,_,htext,-,rfl⟩ := h
  obtain rfl := Option.some.inj (htext.symm.trans hvalue)
  rfl

/-- What the dictionary says of a report that is committed and verified. -/
structure Reported (values : Dictionary) (report : PipelineRunReport fp.Double) (m : DemoMetrics) :
    Prop where
  texts : values "status".toList = some "complete".toList ∧
    values "verification".toList = some "passed".toList ∧
    values "output_committed".toList = some "true".toList
  inputBytes : values "input_bytes".toList = some (str report.inputBytes)
  bytesWritten : values "bytes_written".toList = some (str report.bytesWritten)
  pool : values "buffer_pool_bytes".toList = some
    (str (report.pipelineConfig.blockSize*report.pipelineConfig.maxInflightBuffers : ℕ))
  blocksWritten : values "blocks_written".toList = some (str report.blocksWritten)
  inflight : values "pipeline.buffer_pool.inflight.peak".toList =
    some (str m.inflight.highWatermark)
  readProcess : values "pipeline.queue.read_process.depth.peak".toList =
    some (str m.readProcess.highWatermark)
  processWrite : values "pipeline.queue.process_write.depth.peak".toList =
    some (str m.processWrite.highWatermark)
  elapsed : values "elapsed_ms".toList = some ((fp.fixed3 (elapsedMs fp report)).map character)
  throughput : values "throughput_mib_s".toList =
    some ((fp.fixed3 (throughputMibS fp report)).map character)
  selected : values "selected_backend".toList = some (report.selectedBackend.map character)
  read : values "pipeline.read.latency_ns.average_us".toList =
    some ((fp.fixed3 (averageUs fp m.read)).map character)
  process : values "pipeline.process.latency_ns.average_us".toList =
    some ((fp.fixed3 (averageUs fp m.process)).map character)
  write : values "pipeline.write.latency_ns.average_us".toList =
    some ((fp.fixed3 (averageUs fp m.write)).map character)
  stage : values "stage.0.byte_increment.latency_ns.average_us".toList =
    some ((fp.fixed3 (averageUs fp m.stage)).map character)

theorem reported_of_found (hfp : Documented fp)
    (hfound : Found values (printedPairs fp snapshot report)) (hm : m.Of snapshot)
    (hcommitted : report.outputCommitted = true) (hverified : report.verificationPassed = true)
    (hselected : ∀ b ∈ report.selectedBackend, b.toNat < 128) : Reported values report m := by
  obtain ⟨hinflight,hreadProcess,hprocessWrite⟩ : m.inflight.name = _ ∧ m.readProcess.name = _ ∧
      m.processWrite.name = _ := by simpa [PipelineMetricNames.gauges] using hm.gaugeNames
  obtain ⟨hstage,hread,hprocess,hwrite⟩ : m.stage.name = _ ∧ m.read.name = _ ∧
      m.process.name = _ ∧ m.write.name = _ := by
    simpa [PipelineMetricNames.histograms] using hm.histogramNames
  have hfixed : ∀ {name value}, (ascii name,value) ∈ fixedPairs fp report →
      (ascii name,value) ∈ printedPairs fp snapshot report := fun h => by
    simp only [printedPairs,List.mem_append]
    exact .inl (.inl (.inl (.inl h)))
  have htime : ∀ {name value}, (ascii name,value) ∈ timePairs fp report →
      (ascii name,value) ∈ printedPairs fp snapshot report := fun h => by
    simp only [printedPairs,List.mem_append]
    exact .inr h
  have hpeak : ∀ (name : String) (gauge : GaugeSnapshot),
      gauge ∈ [m.inflight,m.readProcess,m.processWrite] → gauge.name++ascii ".peak" = ascii name →
      values name.toList = some (str gauge.highWatermark) := by
    intro name gauge hgauge hname
    rw [← character_decimalInt]
    refine hfound.apply ?_ lt_of_mem_decimalInt
    simp only [printedPairs,List.mem_append]
    refine .inl (.inl (.inr (List.mem_flatMap.mpr ⟨gauge,hm.gauges ▸ hgauge,?_⟩)))
    rw [gaugePairs,hname]
    exact List.mem_cons_of_mem _ List.mem_cons_self
  have haverage : ∀ (name : String) (histogram : HistogramSnapshot),
      histogram ∈ [m.stage,m.read,m.process,m.write] →
      histogram.name++ascii ".average_us" = ascii name →
      values name.toList = some ((fp.fixed3 (averageUs fp histogram)).map character) := by
    intro name histogram hhistogram hname
    refine hfound.apply ?_ (fixed3_readable exact hfp _).1
    simp only [printedPairs,List.mem_append]
    refine .inl (.inr (List.mem_flatMap.mpr ⟨histogram,hm.histograms ▸ hhistogram,?_⟩))
    rw [histogramPairs,hname]
    exact List.mem_cons_of_mem _ List.mem_cons_self
  have hnumber : ∀ (name : String) (n : ℕ), (ascii name,Numeral.decimal n) ∈ fixedPairs fp report →
      values name.toList = some (str n) := by
    intro name n hmem
    rw [← character_decimal]
    exact hfound.apply (hfixed hmem) lt_of_mem_decimal
  have hword : ∀ name value : String, (ascii name,ascii value) ∈ fixedPairs fp report →
      values name.toList = some value.toList := fun _ _ hmem => hfound.word (hfixed hmem)
  exact {
    texts := by
      refine ⟨hword _ _ (by simp [fixedPairs]),hword _ _ ?_,hword _ _ ?_⟩
      · simp [fixedPairs,hverified,verification]
      · simp [fixedPairs,hcommitted]
    inputBytes := hnumber _ _ (by simp [fixedPairs])
    bytesWritten := hnumber _ _ (by simp [fixedPairs])
    pool := hnumber _ _ (by simp [fixedPairs])
    blocksWritten := hnumber _ _ (by simp [fixedPairs])
    inflight := hpeak _ _ (by simp) (by rw [hinflight]; rfl)
    readProcess := hpeak _ _ (by simp) (by rw [hreadProcess]; rfl)
    processWrite := hpeak _ _ (by simp) (by rw [hprocessWrite]; rfl)
    elapsed := hfound.apply (htime (by simp [timePairs])) (fixed3_readable exact hfp _).1
    throughput := hfound.apply (htime (by simp [timePairs])) (fixed3_readable exact hfp _).1
    selected := hfound.apply (hfixed (by simp [fixedPairs])) hselected
    read := haverage _ _ (by simp) (by rw [hread]; rfl)
    process := haverage _ _ (by simp) (by rw [hprocess]; rfl)
    write := haverage _ _ (by simp) (by rw [hwrite]; rfl)
    stage := haverage _ _ (by simp) (by rw [hstage]; rfl) }

theorem check_eq_ok {passed : Bool} (h : passed = true) (message : String) :
    check passed message = .ok () := if_pos h

/-- The sweep takes a report that keeps the bounds, and no other. -/
theorem readOutcome_iff (floats : FloatText py) (hfp : Documented fp) {config : RunConfig}
    (hreported : Reported values report m)
    (hreadable : ∀ z ∈ reportedIntegers report m, py.Readable z.natAbs)
    {stdout inputPath : Text} (hvalues : parseKeyValueOutput stdout = values) {peakRssKib : ℤ}
    {outcome : Outcome} :
    readOutcome floats config inputPath peakRssKib stdout = .ok outcome ↔
      WithinBounds config report m ∧
        outcome = reportedOutcome floats report m inputPath peakRssKib := by
  simp only [reportedIntegers,List.forall_mem_cons] at hreadable
  obtain ⟨hinput,hpool,hblocks,hwritten,hinflight,hreadPeak,hwritePeak,-⟩ := hreadable
  obtain ⟨hstatus,hverification,hcommitted⟩ := hreported.texts
  constructor
  · intro h
    obtain ⟨houtcome,hpath,hpeak⟩ := readOutcome_ok h
    rw [hvalues] at houtcome
    have hinputBytes := houtcome.inputBytes.eq hreported.inputBytes hinput
    have hpoolBytes := houtcome.bufferPoolBytes.eq hreported.pool hpool
    have hinflightPeak := houtcome.inflightPeak.eq hreported.inflight hinflight
    have hreadQueue := houtcome.readQueuePeak.eq hreported.readProcess hreadPeak
    have hwriteQueue := houtcome.writeQueuePeak.eq hreported.processWrite hwritePeak
    have hbytesWritten := houtcome.written.eq hreported.bytesWritten hwritten
    have hblocksWritten := houtcome.blocksWritten.eq hreported.blocksWritten hblocks
    obtain ⟨hread,hprocess,hwrite,hstage⟩ := houtcome.averages
    have hselected := Option.some.inj (houtcome.selectedBackend.symm.trans hreported.selected)
    have hbytes := houtcome.bytesWritten
    have hpoolEq := houtcome.pool
    have hpeaks := houtcome.peaks
    rw [hinputBytes,hbytesWritten] at hbytes
    rw [hpoolBytes] at hpoolEq
    rw [hinflightPeak,hreadQueue,hwriteQueue] at hpeaks
    refine ⟨⟨by exact_mod_cast hbytes,by exact_mod_cast hpoolEq,hpeaks.1,hpeaks.2⟩,?_⟩
    have helapsed := houtcome.elapsedMs.eq hreported.elapsed
    have hthroughput := houtcome.throughputMibS.eq hreported.throughput
    have hverified := houtcome.verification
    have hread := hread.eq hreported.read
    have hprocess := hprocess.eq hreported.process
    have hwrite := hwrite.eq hreported.write
    have hstage := hstage.eq hreported.stage
    obtain ⟨⟩ := outcome
    simp only at *
    subst hpath hpeak hinputBytes hpoolBytes hinflightPeak hreadQueue hwriteQueue hbytesWritten
    subst hblocksWritten hselected helapsed hthroughput hverified hread hprocess hwrite hstage
    rfl
  · rintro ⟨hbounds,rfl⟩
    unfold readOutcome
    rw [hvalues]
    refine (bind_of_ok (requireValue_eq hstatus)).trans ?_
    refine (bind_of_ok (check_eq_ok rfl _)).trans ?_
    refine (bind_of_ok (requireValue_eq hverification)).trans ?_
    refine (bind_of_ok (check_eq_ok rfl _)).trans ?_
    refine (bind_of_ok (requireValue_eq hcommitted)).trans ?_
    refine (bind_of_ok (check_eq_ok rfl _)).trans ?_
    refine (bind_of_ok (requireInteger_eq hreported.inputBytes hinput)).trans ?_
    refine (bind_of_ok (requireInteger_eq hreported.bytesWritten hwritten)).trans ?_
    refine (bind_of_ok (check_eq_ok (decide_eq_true (by rw [hbounds.bytes])) _)).trans ?_
    refine (bind_of_ok (requireInteger_eq hreported.pool hpool)).trans ?_
    refine (bind_of_ok (check_eq_ok (decide_eq_true (by exact_mod_cast hbounds.pool)) _)).trans ?_
    refine (bind_of_ok (requireInteger_eq hreported.inflight hinflight)).trans ?_
    refine (bind_of_ok (requireInteger_eq hreported.readProcess hreadPeak)).trans ?_
    refine (bind_of_ok (requireInteger_eq hreported.processWrite hwritePeak)).trans ?_
    refine (bind_of_ok (check_eq_ok (decide_eq_true hbounds.inflight) _)).trans ?_
    refine (bind_of_ok (check_eq_ok (by simpa using hbounds.queues) _)).trans ?_
    refine (bind_of_ok (requireFloat_eq floats hfp hreported.elapsed)).trans ?_
    refine (bind_of_ok (requireFloat_eq floats hfp hreported.throughput)).trans ?_
    refine (bind_of_ok (requireValue_eq hreported.selected)).trans ?_
    refine (bind_of_ok (requireInteger_eq hreported.blocksWritten hblocks)).trans ?_
    refine (bind_of_ok (requireFloat_eq floats hfp hreported.read)).trans ?_
    refine (bind_of_ok (requireFloat_eq floats hfp hreported.process)).trans ?_
    refine (bind_of_ok (requireFloat_eq floats hfp hreported.write)).trans ?_
    exact bind_of_ok (requireFloat_eq floats hfp hreported.stage)

end

end Sweep
end AsyncDataLoader
