import AsyncDataLoader.MetricsReport

/-!
# Reading the metrics document

Each part of the printed text has the tokens of its part of the document.
-/

namespace AsyncDataLoader
namespace Reporting

open FileIO Json Numeral

variable {fp : FloatingPoint}

/-- What a byte becomes in a string literal: other control characters have no short escape. -/
def piece (byte : UInt8) : Piece :=
  if byte.toNat < 0x20 ∧ byte ≠ 8 ∧ byte ≠ 12 ∧ byte ≠ 10 ∧ byte ≠ 13 ∧ byte ≠ 9 then
    .unit byte.toNat
  else .byte byte

theorem hexValue_hexDigits : ∀ k < 16, hexValue (hexDigits.getD k 0) = some k := by decide

theorem scans_code (pieces : List Piece) {byte : UInt8} (h : byte.toNat < 0x20) :
    Scans (.string pieces)
      (ascii "\\u00"++[hexDigits.getD (byte.toNat>>>4) 0,hexDigits.getD (byte.toNat&&&0x0F) 0]) []
      (.string (pieces++[.unit byte.toNat])) := by
  have hhigh : byte.toNat>>>4 = byte.toNat/16 := Nat.shiftRight_eq_div_pow _ 4
  have hlow : byte.toNat&&&0x0F = byte.toNat%16 := Nat.and_two_pow_sub_one_eq_mod _ 4
  have hdigits := @scans_unit pieces _ _ _ _ _ _ _ _ (hexValue_hexDigits 0 (by decide))
    (hexValue_hexDigits 0 (by decide)) (hexValue_hexDigits (byte.toNat/16) (by omega))
    (hexValue_hexDigits (byte.toNat%16) (by omega))
  have hcode : 16*(16*(16*0+0)+byte.toNat/16)+byte.toNat%16 = byte.toNat := by omega
  rw [hcode] at hdigits
  rw [hhigh,hlow]
  exact hdigits

theorem scans_escapeByte (pieces : List Piece) (byte : UInt8) :
    Scans (.string pieces) (escapeByte byte) [] (.string (pieces++[piece byte])) := by
  by_cases hshort : byte = 34 ∨ byte = 92 ∨ byte = 8 ∨ byte = 12 ∨ byte = 10 ∨ byte = 13 ∨ byte = 9
  · obtain rfl | rfl | rfl | rfl | rfl | rfl | rfl := hshort <;> exact scans_escape rfl
  · obtain ⟨hquote,hescape,h8,h12,h10,h13,h9⟩ : byte ≠ 34 ∧ byte ≠ 92 ∧ byte ≠ 8 ∧ byte ≠ 12 ∧
        byte ≠ 10 ∧ byte ≠ 13 ∧ byte ≠ 9 := by simpa only [not_or] using hshort
    unfold escapeByte
    rw [if_neg hquote,if_neg hescape,if_neg h8,if_neg h12,if_neg h10,if_neg h13,if_neg h9]
    by_cases hcontrol : byte.toNat < 0x20
    · rw [if_pos hcontrol,piece,if_pos ⟨hcontrol,h8,h12,h10,h13,h9⟩]
      exact scans_code pieces hcontrol
    · rw [if_neg hcontrol,piece,if_neg fun h => hcontrol h.1]
      exact scans_byte hquote hescape (Nat.le_of_not_gt hcontrol)

theorem scans_escaped (pieces : List Piece) (value : Bytes) :
    Scans (.string pieces) (value.flatMap escapeByte) [] (.string (pieces++value.map piece)) := by
  induction value generalizing pieces with
  | nil => simpa using Scans.nil _
  | cons byte value ih =>
    have hboth := (scans_escapeByte pieces byte).append (ih (pieces++[piece byte]))
    simpa only [List.flatMap_cons,List.map_cons,List.append_nil,List.append_assoc,
      List.singleton_append] using hboth

theorem decode_piece (byte : UInt8) (pieces : List Piece) :
    decode (piece byte::pieces) = byte::decode pieces := by
  unfold piece
  split
  · rename_i h
    have hhigh : isHighSurrogate byte.toNat = false := by
      simp only [isHighSurrogate,Bool.and_eq_false_imp,decide_eq_true_eq,decide_eq_false_iff_not]
      omega
    have hbyte : utf8 byte.toNat = [byte] := by
      rw [utf8,if_pos (by omega)]
      exact congrArg (fun b => [b]) UInt8.ofNat_toNat
    rw [decode_unit _ hhigh,hbyte,List.singleton_append]
  · rfl

theorem decode_pieces (value : Bytes) : decode (value.map piece) = value := by
  induction value with
  | nil => rfl
  | cons byte value ih => rw [List.map_cons,decode_piece,ih]

theorem scans_writeJsonString (value : Bytes) :
    Scans .between (writeJsonString value) [.string value] .between := by
  have hopen : Scans .between (ascii "\"") [] (.string []) := rfl
  have hclose := scans_quote (value.map piece)
  rw [decode_pieces] at hclose
  exact (hopen.append (scans_escaped [] value)).append hclose

theorem scans_named (name : String) (value : Bytes) :
    Scans .between (writeJsonNamedString "    " name value true)
      [.string (ascii name),.colon,.string value,.comma] .between := by
  have hindent : Scans .between (ascii "    ") [] .between := rfl
  have hname := (hindent.append (scans_writeJsonString (ascii name))).append (t:=[.colon])
    (b:=ascii ": ") rfl
  exact (hname.append (scans_writeJsonString value)).append (t:=[.comma]) (b:=ascii ",\n") rfl

theorem emits_decimal (n : ℕ) : Emits (decimal n) (natural n).tokens :=
  emits_numeral (parse_decimal n)

theorem emits_decimalInt (z : ℤ) : Emits (decimalInt z) (integer z).tokens :=
  emits_numeral (parse_decimalInt z)

theorem emits_fixed3 (hfp : fp.PrintsNumerals) {x : fp.Double} (h : fp.isFinite x = true) :
    Emits (fp.fixed3 x) (printed fp x).tokens := by
  obtain ⟨r,hr⟩ := hfp x h
  have hnumber : printed fp x = .number r.1 r.2 := by rw [printed,hr]
  rw [hnumber]
  exact emits_numeral hr

theorem scans_renderRun (report : PipelineRunReport fp.Double) :
    Scans .between (renderRun fp report) (members (runMembers fp report)) .between := by
  have hstrings := (((scans_named "input_path" report.inputPath).append
    (scans_named "output_path" report.outputPath)).append
    (scans_named "requested_backend" report.requestedBackend)).append
    (scans_named "selected_backend" report.selectedBackend) |>.append
    (scans_named "stage" report.stageName)
  have hkey : Scans .between (ascii "    \"input_bytes\": ")
      [.string (ascii "input_bytes"),.colon] .between := rfl
  have hend : Scans .between (ascii "\n") [] .between := rfl
  exact (hstrings.append hkey).item (emits_decimal report.inputBytes) rfl hend

def nextKey (name : String) : List Token := [.comma,.string (ascii name),.colon]

theorem scans_renderConfig {config : PipelineConfig} {poolBytes : ℕ}
    (hpool : poolBytes = config.blockSize*config.maxInflightBuffers) :
    Scans .between (renderConfig config poolBytes) (members (configMembers config)) .between := by
  subst hpool
  have hkey : Scans .between (ascii "    \"block_size\": ")
      [.string (ascii "block_size"),.colon] .between := rfl
  have hend : Scans .between (ascii "\n") [] .between := rfl
  have hbuffers := hkey.item (t:=nextKey "max_inflight_buffers")
    (emits_decimal config.blockSize) (l:=ascii ",\n    \"max_inflight_buffers\": ") rfl rfl
  have hdepth := hbuffers.item (t:=nextKey "queue_depth")
    (emits_decimal config.maxInflightBuffers) (l:=ascii ",\n    \"queue_depth\": ") rfl rfl
  have halign := hdepth.item (t:=nextKey "buffer_alignment")
    (emits_decimal config.queueDepth) (l:=ascii ",\n    \"buffer_alignment\": ") rfl rfl
  have hbytes := halign.item (t:=nextKey "buffer_pool_bytes")
    (emits_decimal config.bufferAlignment) (l:=ascii ",\n    \"buffer_pool_bytes\": ") rfl rfl
  exact hbytes.item (emits_decimal _) rfl hend

theorem emits_bool (value : Bool) :
    Emits (if value then ascii "true" else ascii "false") (Json.bool value).tokens := by
  cases value with
  | true => exact emits_word rfl rfl
  | false => exact emits_word rfl rfl

theorem scans_verification (passed : Bool) :
    Scans .between (if passed then ascii "\"passed\"" else ascii "\"failed\"")
      [.string (verification passed)] .between := by
  cases passed <;> rfl

/-- The times and rates that the document shows are finite. -/
structure PrintedFinite (fp : FloatingPoint) (snapshot : Snapshot)
    (report : PipelineRunReport fp.Double) : Prop where
  elapsedSeconds : fp.isFinite report.elapsedSeconds = true
  elapsedMs : fp.isFinite (elapsedMs fp report) = true
  throughput : fp.isFinite (throughputMibS fp report) = true
  average : ∀ histogram ∈ snapshot.histograms, fp.isFinite (averageUs fp histogram) = true

theorem PrintedFinite.renders {snapshot : Snapshot} {report : PipelineRunReport fp.Double}
    (h : PrintedFinite fp snapshot report) (hvalid : report.pipelineConfig.validate = .ok ()) :
    renderMetricsJson fp snapshot report = .ok (metricsText fp snapshot report
      (report.pipelineConfig.blockSize*report.pipelineConfig.maxInflightBuffers)) :=
  renderMetricsJson_eq_ok.mpr ⟨h.elapsedSeconds,h.throughput,hvalid,rfl⟩

theorem scans_renderResult (hfp : fp.PrintsNumerals) {report : PipelineRunReport fp.Double}
    (helapsed : fp.isFinite (elapsedMs fp report) = true)
    (hthroughput : fp.isFinite (throughputMibS fp report) = true) :
    Scans .between (renderResult fp report) (members (resultMembers fp report)) .between := by
  have hkey : Scans .between (ascii "    \"blocks_written\": ")
      [.string (ascii "blocks_written"),.colon] .between := rfl
  have hend : Scans .between (ascii "\n") [] .between := rfl
  have hbytes := hkey.item (t:=nextKey "bytes_written")
    (emits_decimal report.blocksWritten) (l:=ascii ",\n    \"bytes_written\": ") rfl rfl
  have hms := hbytes.item (t:=nextKey "elapsed_ms")
    (emits_decimal report.bytesWritten) (l:=ascii ",\n    \"elapsed_ms\": ") rfl rfl
  have hrate := hms.item (t:=nextKey "throughput_mib_s")
    (emits_fixed3 hfp helapsed) (l:=ascii ",\n    \"throughput_mib_s\": ") rfl rfl
  have hcommitted := hrate.item (t:=nextKey "output_committed")
    (emits_fixed3 hfp hthroughput) (l:=ascii ",\n    \"output_committed\": ") rfl rfl
  have hverified := hcommitted.item (t:=nextKey "verification")
    (emits_bool report.outputCommitted) (l:=ascii ",\n    \"verification\": ") rfl rfl
  refine ((hverified.append (scans_verification report.verificationPassed)).append hend).of_eq ?_
  simp [members,moreMembers,resultMembers,nextKey,natural,tokens]

theorem emits_counter (counter : CounterSnapshot) :
    Emits (renderCounter counter) (object (counterMembers counter)).tokens := by
  have hkey : Scans .between (ascii "      \x7b\"name\": ")
      [.leftBrace,.string (ascii "name"),.colon] .between := rfl
  have hend : Scans .between (ascii "\x7d") [.rightBrace] .between := rfl
  have hvalue := hkey.item (t:=nextKey "value")
    (scans_writeJsonString counter.name).emits (l:=ascii ", \"value\": ") rfl rfl
  exact (hvalue.item (emits_decimal counter.value) rfl hend).emits

theorem emits_gauge (gauge : GaugeSnapshot) :
    Emits (renderGauge gauge) (object (gaugeMembers gauge)).tokens := by
  have hkey : Scans .between (ascii "      \x7b\"name\": ")
      [.leftBrace,.string (ascii "name"),.colon] .between := rfl
  have hend : Scans .between (ascii "\x7d") [.rightBrace] .between := rfl
  have hcurrent := hkey.item (t:=nextKey "current")
    (scans_writeJsonString gauge.name).emits (l:=ascii ", \"current\": ") rfl rfl
  have hpeak := hcurrent.item (t:=nextKey "high_watermark")
    (emits_decimalInt gauge.value) (l:=ascii ", \"high_watermark\": ") rfl rfl
  exact (hpeak.item (emits_decimalInt gauge.highWatermark) rfl hend).emits

theorem emits_naturals (values : List ℕ) :
    Emits (separated [] (ascii ", ") decimal values) (items (values.map natural)) :=
  have hcomma : Scans .between (ascii ", ") [.comma] .between := rfl
  emits_separated (Scans.nil _) hcomma rfl fun n _ => emits_decimal n

theorem emits_histogram (hfp : fp.PrintsNumerals) {histogram : HistogramSnapshot}
    (haverage : fp.isFinite (averageUs fp histogram) = true) :
    Emits (renderHistogram fp histogram) (object (histogramMembers fp histogram)).tokens := by
  have hkey : Scans .between (ascii "      \x7b\"name\": ")
      [.leftBrace,.string (ascii "name"),.colon] .between := rfl
  have hend : Scans .between (ascii "]\x7d") [.rightBracket,.rightBrace] .between := rfl
  have hcount := hkey.item (t:=nextKey "sample_count")
    (scans_writeJsonString histogram.name).emits (l:=ascii ", \"sample_count\": ") rfl rfl
  have hsum := hcount.item (t:=nextKey "sample_sum_ns")
    (emits_decimal histogram.data.sampleCount) (l:=ascii ", \"sample_sum_ns\": ") rfl rfl
  have hus := hsum.item (t:=nextKey "average_us")
    (emits_decimal histogram.data.sampleSum) (l:=ascii ", \"average_us\": ") rfl rfl
  have hbounds := hus.item (t:=[.comma,.string (ascii "upper_bounds_ns"),.colon,.leftBracket])
    (emits_fixed3 hfp haverage) (l:=ascii ", \"upper_bounds_ns\": [") rfl rfl
  have hbuckets := hbounds.item
    (t:=[.rightBracket,.comma,.string (ascii "bucket_counts"),.colon,.leftBracket])
    (emits_naturals histogram.bounds) (l:=ascii "], \"bucket_counts\": [") rfl rfl
  refine ((hbuckets.item (emits_naturals histogram.buckets) rfl hend).of_eq ?_).emits
  simp [tokens_object,tokens_array,members,moreMembers,histogramMembers,nextKey,natural,tokens]

/-- The line break before the closing bracket is there only after an item. -/
theorem emits_renderMetrics {α : Type} {item : α → Bytes} {value : α → Json} {m : List α}
    (hitem : ∀ x ∈ m, Emits (item x) (value x).tokens) :
    Emits (renderMetrics item m) (items (m.map value)) := by
  have hbreak : Scans .between (ascii "\n") [] .between := rfl
  have hcomma : Scans .between (ascii ",\n") [.comma] .between := rfl
  have hloop := emits_separated hbreak hcomma rfl hitem
  unfold renderMetrics
  split
  · simpa using hloop
  · simpa using hloop.append hbreak.emits rfl

theorem scans_beforeResult {report : PipelineRunReport fp.Double} {poolBytes : ℕ}
    (hpool : poolBytes = report.pipelineConfig.blockSize*report.pipelineConfig.maxInflightBuffers) :
    Scans .between
      (ascii "\x7b\n  \"schema_version\": 1,\n"++ascii "  \"status\": \"complete\",\n"++
        ascii "  \"run\": \x7b\n"++renderRun fp report++
        ascii "  \x7d,\n  \"pipeline_config\": \x7b\n"++
        renderConfig report.pipelineConfig poolBytes++ascii "  \x7d,\n  \"result\": \x7b\n")
      ([.leftBrace,.string (ascii "schema_version"),.colon,.number 1 0,.comma,
        .string (ascii "status"),.colon,.string (ascii "complete"),.comma,
        .string (ascii "run"),.colon,.leftBrace]++members (runMembers fp report)++
        (.rightBrace::nextKey "pipeline_config"++[.leftBrace])++
        members (configMembers report.pipelineConfig)++
        (.rightBrace::nextKey "result"++[.leftBrace])) .between := by
  have hversion : Scans .between (ascii "\x7b\n  \"schema_version\": 1,\n")
      [.leftBrace,.string (ascii "schema_version"),.colon,.number 1 0,.comma] .between := rfl
  have hstatus : Scans .between (ascii "  \"status\": \"complete\",\n")
      [.string (ascii "status"),.colon,.string (ascii "complete"),.comma] .between := rfl
  have hrun : Scans .between (ascii "  \"run\": \x7b\n")
      [.string (ascii "run"),.colon,.leftBrace] .between := rfl
  have hconfig : Scans .between (ascii "  \x7d,\n  \"pipeline_config\": \x7b\n")
      (.rightBrace::nextKey "pipeline_config"++[.leftBrace]) .between := rfl
  have hresult : Scans .between (ascii "  \x7d,\n  \"result\": \x7b\n")
      (.rightBrace::nextKey "result"++[.leftBrace]) .between := rfl
  have hhead := ((hversion.append hstatus).append hrun).append (scans_renderRun report)
  exact ((hhead.append hconfig).append (scans_renderConfig hpool)).append hresult

theorem scans_metricsText (hfp : fp.PrintsNumerals) {snapshot : Snapshot}
    {report : PipelineRunReport fp.Double} (h : PrintedFinite fp snapshot report) {poolBytes : ℕ}
    (hpool : poolBytes = report.pipelineConfig.blockSize*report.pipelineConfig.maxInflightBuffers) :
    Scans .between (metricsText fp snapshot report poolBytes)
      (metricsDocument fp snapshot report).tokens .between := by
  have hmetrics : Scans .between (ascii "  \x7d,\n  \"metrics\": \x7b\n    \"counters\": [")
      (.rightBrace::nextKey "metrics"++[.leftBrace,.string (ascii "counters"),.colon,.leftBracket])
      .between := rfl
  have hgauges : Scans .between (ascii "    ],\n    \"gauges\": [")
      (.rightBracket::nextKey "gauges"++[.leftBracket]) .between := rfl
  have hhistograms : Scans .between (ascii "    ],\n    \"histograms\": [")
      (.rightBracket::nextKey "histograms"++[.leftBracket]) .between := rfl
  have hend : Scans .between (ascii "    ]\n  \x7d\n\x7d\n")
      [.rightBracket,.rightBrace,.rightBrace] .between := rfl
  have hfinished := (scans_beforeResult hpool).append
    (scans_renderResult hfp h.elapsedMs h.throughput)
  have hcounters := emits_renderMetrics (m:=snapshot.counters) fun c _ => emits_counter c
  have hlevels := emits_renderMetrics (m:=snapshot.gauges) fun g _ => emits_gauge g
  have htimes := emits_renderMetrics fun m hm => emits_histogram hfp (h.average m hm)
  have hcounted := (hfinished.append hmetrics).item hcounters rfl hgauges
  have hgauged := hcounted.item hlevels rfl hhistograms
  refine (hgauged.item htimes rfl hend).of_eq ?_
  simp [metricsDocument,metricsMembers,tokens_object,tokens_array,members,moreMembers,nextKey,
    natural,tokens]

theorem map_eq_of_map_eq {α β γ : Type*} {f : α → β} {g : α → γ}
    (h : ∀ x y, f x = f y → g x = g y) {xs ys : List α} (heq : xs.map f = ys.map f) :
    xs.map g = ys.map g := by
  induction xs generalizing ys with
  | nil => rw [List.map_eq_nil_iff.mp heq.symm]
  | cons x xs ih =>
    obtain ⟨y,ys,rfl,hxy,hrest⟩ := List.map_eq_cons_iff.mp heq.symm
    rw [List.map_cons,List.map_cons,h x y hxy.symm,ih hrest.symm]

theorem naturals_inj {ms ns : List ℕ} (h : ms.map natural = ns.map natural) : ms = ns := by
  simpa using map_eq_of_map_eq (g:=id) (fun m n heq => by simpa [natural] using heq) h

theorem counterMembers_inj (c d : CounterSnapshot)
    (h : object (counterMembers c) = object (counterMembers d)) : c = d := by
  obtain ⟨name,value⟩ := c
  obtain ⟨name',value'⟩ := d
  simpa [counterMembers,natural] using h

theorem gaugeMembers_inj (g g' : GaugeSnapshot)
    (h : object (gaugeMembers g) = object (gaugeMembers g')) : g = g' := by
  obtain ⟨name,value,peak⟩ := g
  obtain ⟨name',value',peak'⟩ := g'
  simpa [gaugeMembers,integer] using h

theorem histogramMembers_record (h h' : HistogramSnapshot)
    (heq : object (histogramMembers fp h) = object (histogramMembers fp h')) :
    histogramRecord h = histogramRecord h' := by
  simp only [histogramMembers,object.injEq,List.cons.injEq,Prod.mk.injEq,string.injEq,array.injEq,
    natural,number.injEq,Nat.cast_inj,true_and,and_true] at heq
  obtain ⟨hname,hcount,hsum,-,hbounds,hbuckets⟩ := heq
  simp only [histogramRecord,hname,hcount,hsum,naturals_inj hbounds,naturals_inj hbuckets]

theorem verification_inj {passed passed' : Bool} (h : verification passed = verification passed') :
    passed = passed' := by
  revert passed passed'
  decide

theorem configMembers_inj {c c' : PipelineConfig} (h : configMembers c = configMembers c') :
    c = c' := by
  obtain ⟨blockSize,maxInflightBuffers,queueDepth,bufferAlignment⟩ := c
  obtain ⟨blockSize',maxInflightBuffers',queueDepth',bufferAlignment'⟩ := c'
  simp only [configMembers,List.cons.injEq,Prod.mk.injEq,natural,number.injEq,Nat.cast_inj,
    true_and,and_true] at h
  obtain ⟨rfl,rfl,rfl,rfl,-⟩ := h
  rfl

theorem metricsMembers_inj {snapshot snapshot' : Snapshot}
    (h : metricsMembers fp snapshot = metricsMembers fp snapshot') :
    snapshot.counters = snapshot'.counters ∧ snapshot.gauges = snapshot'.gauges ∧
      snapshot.histograms.map histogramRecord = snapshot'.histograms.map histogramRecord := by
  simp only [metricsMembers,List.cons.injEq,Prod.mk.injEq,array.injEq,true_and,and_true] at h
  obtain ⟨hcounters,hgauges,hhistograms⟩ := h
  refine ⟨?_,?_,map_eq_of_map_eq histogramMembers_record hhistograms⟩
  · simpa using map_eq_of_map_eq (g:=id) counterMembers_inj hcounters
  · simpa using map_eq_of_map_eq (g:=id) gaugeMembers_inj hgauges

theorem reportData_of_document {snapshot snapshot' : Snapshot}
    {report report' : PipelineRunReport fp.Double}
    (h : metricsDocument fp snapshot report = metricsDocument fp snapshot' report') :
    reportData fp snapshot report = reportData fp snapshot' report' := by
  simp only [metricsDocument,object.injEq,List.cons.injEq,Prod.mk.injEq,true_and,and_true] at h
  obtain ⟨hrun,hconfig,hresult,hmetrics⟩ := h
  obtain ⟨hcounters,hgauges,hhistograms⟩ := metricsMembers_inj hmetrics
  simp only [runMembers,List.cons.injEq,Prod.mk.injEq,string.injEq,natural,number.injEq,
    Nat.cast_inj,true_and,and_true] at hrun
  obtain ⟨hinput,houtput,hrequested,hselected,hstage,hbytes⟩ := hrun
  simp only [resultMembers,List.cons.injEq,Prod.mk.injEq,string.injEq,bool.injEq,natural,
    number.injEq,Nat.cast_inj,true_and,and_true] at hresult
  obtain ⟨hblocks,hwritten,-,-,hcommitted,hverified⟩ := hresult
  simp only [reportData,reportStrings,hinput,houtput,hrequested,hselected,hstage,hbytes,hblocks,
    hwritten,hcommitted,configMembers_inj hconfig,verification_inj hverified,hcounters,hgauges,
    hhistograms]

/-- The printed text is read back, and it determines the data. -/
theorem renderMetricsJson_readBack (fp : FloatingPoint) (hfp : fp.PrintsNumerals)
    (snapshot : Snapshot) (report : PipelineRunReport fp.Double)
    (hvalid : report.pipelineConfig.validate = .ok ())
    (hfinite : PrintedFinite fp snapshot report) :
    ∃ text, renderMetricsJson fp snapshot report = .ok text ∧
      Json.parse text = some (metricsDocument fp snapshot report) ∧
      (∀ histogram ∈ snapshot.histograms,
        histogram.bounds.length = histogram.upperBoundCount ∧
        histogram.buckets.length = histogram.upperBoundCount+1) ∧
      ∀ (snapshot' : Snapshot) (report' : PipelineRunReport fp.Double),
        PrintedFinite fp snapshot' report' → renderMetricsJson fp snapshot' report' = .ok text →
        reportData fp snapshot' report' = reportData fp snapshot report := by
  have hparse := parse_of_scans (scans_metricsText hfp hfinite rfl)
  refine ⟨_,hfinite.renders hvalid,hparse,fun histogram _ =>
    ⟨histogram.bounds_length,histogram.buckets_length⟩,?_⟩
  intro snapshot' report' hfinite' hrender'
  obtain ⟨-,-,-,htext⟩ := renderMetricsJson_eq_ok.mp hrender'
  have hparse' := parse_of_scans (scans_metricsText hfp hfinite' rfl)
  rw [← htext,hparse] at hparse'
  exact reportData_of_document (Option.some.inj hparse').symm

def quotedReport : PipelineRunReport ℚ where
  inputPath := ascii "/tmp/\", \"input_bytes\": 7, \"x\": \""
  outputPath := ascii "/tmp/out"
  requestedBackend := ascii "auto"
  selectedBackend := ascii "sync"
  stageName := ascii "byte_increment"
  pipelineConfig := ⟨4096,2,1,4096⟩
  inputBytes := 10
  blocksWritten := 1
  bytesWritten := 10
  elapsedSeconds := 1/2
  outputCommitted := true
  verificationPassed := true

def quotedSnapshot : Snapshot where
  counters := [⟨ascii "pipeline\n.read.blocks",1⟩]
  gauges := []
  histograms := [MetricsRegistry.histogramSnapshot (ascii "latency",
    ⟨Histogram.filled _ [5,7],2,Histogram.filled _ [0,1,0],1,6,by decide⟩)]

theorem renderMetricsJson_readBack_quoted :
    ∃ text, renderMetricsJson .rational quotedSnapshot quotedReport = .ok text ∧
      Json.parse text = some (metricsDocument .rational quotedSnapshot quotedReport) := by
  have hfinite : PrintedFinite .rational quotedSnapshot quotedReport :=
    ⟨rfl,rfl,rfl,fun _ _ => rfl⟩
  obtain ⟨text,hrender,hparse,-⟩ := renderMetricsJson_readBack .rational
    FloatingPoint.rational_printsNumerals quotedSnapshot quotedReport rfl hfinite
  exact ⟨text,hrender,hparse⟩

end Reporting
end AsyncDataLoader
