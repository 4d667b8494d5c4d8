import AsyncDataLoader.AtomicJsonFile
import AsyncDataLoader.MetricsReadBack
import AsyncDataLoader.Utf8

/-!
# The encoding of the metrics document

The document copies the bytes of paths and names as they are, so it is UTF-8 exactly when all
of them are.
-/

namespace AsyncDataLoader
namespace Reporting

open FileIO Json Numeral Utf8

variable {fp : FloatingPoint}

/-- The text is well-formed after well-formed text exactly when the strings are. -/
def Carries (text : Bytes) (strings : List Bytes) : Prop :=
  ∀ p, WellFormed (p++text) ↔ WellFormed p ∧ ∀ s ∈ strings, WellFormed s

theorem Carries.append {a b : Bytes} {ss ts : List Bytes} (ha : Carries a ss) (hb : Carries b ts) :
    Carries (a++b) (ss++ts) := by
  intro p
  rw [← List.append_assoc,hb (p++a),ha p,and_assoc,List.forall_mem_append]

theorem Carries.of_eq {text : Bytes} {ss ts : List Bytes} (h : Carries text ss) (heq : ss = ts) :
    Carries text ts := heq ▸ h

theorem Carries.iff {text : Bytes} {strings : List Bytes} (h : Carries text strings) :
    WellFormed text ↔ ∀ s ∈ strings, WellFormed s := (h []).trans (and_iff_right wellFormed_nil)

theorem carries_ascii {text : Bytes} (h : ∀ b ∈ text, b.toNat < 128) : Carries text [] := by
  intro p
  rw [wellFormed_append_ascii_right h]
  simp

theorem carries_literal {text : String} (h : isAscii (ascii text) = true) :
    Carries (ascii text) [] := carries_ascii (toNat_lt_of_isAscii h)

theorem escapeByte_ascii {b : UInt8} (h : b.toNat < 128) :
    escapeByte b ≠ [] ∧ ∀ c ∈ escapeByte b, c.toNat < 128 := by
  have hall : ∀ n : Fin 128, escapeByte (UInt8.ofNat n.val) ≠ [] ∧
      ∀ c ∈ escapeByte (UInt8.ofNat n.val), c.toNat < 128 := by decide +kernel
  have hb := hall ⟨b.toNat,h⟩
  rwa [UInt8.ofNat_toNat] at hb

theorem escapeByte_plain {b : UInt8} (h : 128 ≤ b.toNat) : escapeByte b = [b] := by
  have hne : ∀ c : UInt8, c.toNat < 128 → b ≠ c := by
    rintro c hc rfl
    omega
  unfold escapeByte
  rw [if_neg (hne _ (by decide)),if_neg (hne _ (by decide)),if_neg (hne _ (by decide)),
    if_neg (hne _ (by decide)),if_neg (hne _ (by decide)),if_neg (hne _ (by decide)),
    if_neg (hne _ (by decide)),if_neg (by omega)]

theorem carries_writeJsonString (value : Bytes) : Carries (writeJsonString value) [value] := by
  intro p
  have hquote : ∀ b ∈ ascii "\"", b.toNat < 128 := toNat_lt_of_isAscii rfl
  rw [writeJsonString,← List.append_assoc,wellFormed_append_ascii_right hquote,
    ← List.append_assoc,wellFormed_append_ascii _ (by decide) hquote,
    wellFormed_flatMap (fun _ => escapeByte_ascii) (fun _ => escapeByte_plain)]
  simp

theorem carries_named (name : String) (value : Bytes)
    (h : isAscii (ascii name) = true) :
    Carries (writeJsonNamedString "    " name value true) [value] := by
  have hname : Carries (writeJsonString (ascii name)) [] := by
    refine fun p => (carries_writeJsonString (ascii name) p).trans ?_
    simp [(carries_literal h).iff]
  have hindent : Carries (ascii "    ") [] := carries_literal rfl
  have hcolon : Carries (ascii ": ") [] := carries_literal rfl
  have hcomma : Carries (ascii ",\n") [] := carries_literal rfl
  exact (((hindent.append hname).append hcolon).append (carries_writeJsonString value)).append hcomma

theorem isPart_ascii {b : UInt8} (h : isPart b = true) : b.toNat < 128 := by
  simp only [isPart,isDigit,Bool.or_eq_true,Bool.and_eq_true,decide_eq_true_eq,beq_iff_eq] at h
  obtain ((((h | rfl) | rfl) | rfl) | rfl) | rfl := h
  · omega
  all_goals decide

theorem carries_numeral {text : Bytes} {r : ℤ × ℤ} (h : Numeral.parse text = some r) :
    Carries text [] :=
  carries_ascii fun b hb => isPart_ascii ((parse_isPart h).2 b hb)

theorem carries_decimal (n : ℕ) : Carries (decimal n) [] := carries_numeral (parse_decimal n)

theorem carries_decimalInt (z : ℤ) : Carries (decimalInt z) [] :=
  carries_numeral (parse_decimalInt z)

/-- What is documented of the arithmetic and of the stream: finite values are printed as numerals
and the others as words, and quotients of 64-bit integers are finite. -/
structure Documented (fp : FloatingPoint) : Prop where
  numeral : fp.PrintsNumerals
  word : ∀ x, fp.isFinite x = false →
    fp.fixed3 x ∈ [ascii "inf",ascii "-inf",ascii "nan",ascii "-nan"]
  zero : fp.isFinite (fp.ofNat 0) = true
  quotient : ∀ m n, m ≤ uint64Max → n ≤ uint64Max → n ≠ 0 →
    fp.isFinite (fp.div (fp.div (fp.ofNat m) (fp.ofNat n)) (fp.ofNat 1000)) = true

theorem carries_fixed3 (hfp : Documented fp) (x : fp.Double) : Carries (fp.fixed3 x) [] := by
  cases hfinite : fp.isFinite x with
  | true =>
    obtain ⟨r,hr⟩ := hfp.numeral x hfinite
    exact carries_numeral hr
  | false =>
    have hwords : [ascii "inf",ascii "-inf",ascii "nan",ascii "-nan"].all isAscii = true := rfl
    have hword := List.all_eq_true.mp hwords _ (hfp.word x hfinite)
    exact carries_ascii (toNat_lt_of_isAscii hword)

theorem Carries.item {text item : Bytes} {l : String} {ss ts : List Bytes} (h : Carries text ss)
    (hitem : Carries item ts) (hl : isAscii (ascii l) = true) :
    Carries (text++item++ascii l) (ss++ts) :=
  ((h.append hitem).append (carries_literal hl)).of_eq (List.append_nil _)

theorem carries_renderRun (report : PipelineRunReport fp.Double) :
    Carries (renderRun fp report) (reportStrings fp report) := by
  have hstrings := ((((carries_named "input_path" report.inputPath rfl).append
    (carries_named "output_path" report.outputPath rfl)).append
    (carries_named "requested_backend" report.requestedBackend rfl)).append
    (carries_named "selected_backend" report.selectedBackend rfl)).append
    (carries_named "stage" report.stageName rfl)
  have hkey : Carries (ascii "    \"input_bytes\": ") [] := carries_literal rfl
  exact (hstrings.append hkey).item (carries_decimal report.inputBytes) rfl

theorem carries_renderConfig (config : PipelineConfig) (poolBytes : ℕ) :
    Carries (renderConfig config poolBytes) [] := by
  have hkey : Carries (ascii "    \"block_size\": ") [] := carries_literal rfl
  exact ((((hkey.item (carries_decimal _) rfl).item (carries_decimal _) rfl).item
    (carries_decimal _) rfl).item (carries_decimal _) rfl).item (carries_decimal _) rfl

theorem carries_renderResult (hfp : Documented fp) (report : PipelineRunReport fp.Double) :
    Carries (renderResult fp report) [] := by
  have hkey : Carries (ascii "    \"blocks_written\": ") [] := carries_literal rfl
  have hcommitted : Carries (if report.outputCommitted then ascii "true" else ascii "false") [] := by
    cases report.outputCommitted <;> exact carries_literal rfl
  have hverified :
      Carries (if report.verificationPassed then ascii "\"passed\"" else ascii "\"failed\"") [] := by
    cases report.verificationPassed <;> exact carries_literal rfl
  exact (((((hkey.item (carries_decimal _) rfl).item (carries_decimal _) rfl).item
    (carries_fixed3 hfp _) rfl).item (carries_fixed3 hfp _) rfl).item hcommitted rfl).item
    hverified rfl

theorem carries_counter (counter : CounterSnapshot) :
    Carries (renderCounter counter) [counter.name] := by
  have hkey : Carries (ascii "      \x7b\"name\": ") [] := carries_literal rfl
  exact (hkey.item (carries_writeJsonString counter.name) rfl).item (carries_decimal _) rfl

theorem carries_gauge (gauge : GaugeSnapshot) : Carries (renderGauge gauge) [gauge.name] := by
  have hkey : Carries (ascii "      \x7b\"name\": ") [] := carries_literal rfl
  exact ((hkey.item (carries_writeJsonString gauge.name) rfl).item (carries_decimalInt _) rfl).item
    (carries_decimalInt _) rfl

theorem carries_separated {α : Type} {first between : Bytes} {item : α → Bytes}
    {strings : α → List Bytes} (hfirst : Carries first []) (hbetween : Carries between [])
    (hitem : ∀ x, Carries (item x) (strings x)) (xs : List α) :
    Carries (separated first between item xs) (xs.flatMap strings) := by
  cases xs with
  | nil => exact carries_ascii (by simp [separated])
  | cons x xs =>
    rw [separated_cons]
    have hmore : Carries (xs.flatMap fun y => between++item y) (xs.flatMap strings) := by
      induction xs with
      | nil => exact carries_ascii (by simp)
      | cons y ys ih => exact (hbetween.append (hitem y)).append ih
    exact (hfirst.append (hitem x)).append hmore

theorem carries_naturals (values : List ℕ) :
    Carries (separated [] (ascii ", ") decimal values) [] := by
  have hnone : Carries [] [] := carries_ascii (by simp)
  have hcomma : Carries (ascii ", ") [] := carries_literal rfl
  exact (carries_separated hnone hcomma carries_decimal values).of_eq (by simp)

theorem carries_histogram (hfp : Documented fp) (histogram : HistogramSnapshot) :
    Carries (renderHistogram fp histogram) [histogram.name] := by
  have hkey : Carries (ascii "      \x7b\"name\": ") [] := carries_literal rfl
  exact (((((hkey.item (carries_writeJsonString histogram.name) rfl).item (carries_decimal _)
    rfl).item (carries_decimal _) rfl).item (carries_fixed3 hfp _) rfl).item
    (carries_naturals _) rfl).item (carries_naturals _) rfl

theorem carries_renderMetrics {α : Type} {item : α → Bytes} {name : α → Bytes}
    (hitem : ∀ x, Carries (item x) [name x]) (metrics : List α) :
    Carries (renderMetrics item metrics) (metrics.map name) := by
  have hbreak : Carries (ascii "\n") [] := carries_literal rfl
  have hcomma : Carries (ascii ",\n") [] := carries_literal rfl
  have hloop := carries_separated hbreak hcomma hitem metrics
  rw [← List.map_eq_flatMap] at hloop
  have hend : Carries (if metrics.isEmpty then [] else ascii "\n") [] := by
    split
    · exact carries_ascii (by simp)
    · exact hbreak
  exact (hloop.append hend).of_eq (List.append_nil _)

def metricNames (snapshot : Snapshot) : List Bytes :=
  snapshot.counters.map CounterSnapshot.name++snapshot.gauges.map GaugeSnapshot.name++
    snapshot.histograms.map HistogramSnapshot.name

theorem carries_metricsText (hfp : Documented fp) (snapshot : Snapshot)
    (report : PipelineRunReport fp.Double) (poolBytes : ℕ) :
    Carries (metricsText fp snapshot report poolBytes)
      (reportStrings fp report++metricNames snapshot) := by
  have hversion : Carries (ascii "\x7b\n  \"schema_version\": 1,\n") [] := carries_literal rfl
  have hstatus : Carries (ascii "  \"status\": \"complete\",\n") [] := carries_literal rfl
  have hrun : Carries (ascii "  \"run\": \x7b\n") [] := carries_literal rfl
  have hmeta := (((hversion.append hstatus).append hrun).item (carries_renderRun report)
    (l:="  \x7d,\n  \"pipeline_config\": \x7b\n") rfl).item
    (carries_renderConfig report.pipelineConfig poolBytes)
    (l:="  \x7d,\n  \"result\": \x7b\n") rfl
  have hcounters := (hmeta.item (carries_renderResult hfp report)
    (l:="  \x7d,\n  \"metrics\": \x7b\n    \"counters\": [") rfl).item
    (carries_renderMetrics carries_counter snapshot.counters) (l:="    ],\n    \"gauges\": [") rfl
  have hmetrics := (hcounters.item (carries_renderMetrics carries_gauge snapshot.gauges)
    (l:="    ],\n    \"histograms\": [") rfl).item
    (carries_renderMetrics (carries_histogram hfp) snapshot.histograms)
    (l:="    ]\n  \x7d\n\x7d\n") rfl
  exact hmetrics.of_eq (by simp [metricNames])

theorem renderResult_jams (hfp : Documented fp) {report : PipelineRunReport fp.Double}
    (h : fp.isFinite (elapsedMs fp report) = false) : Jams (renderResult fp report) := by
  have hkey : Scans .between (ascii "    \"blocks_written\": ")
      [.string (ascii "blocks_written"),.colon] .between := rfl
  have hbytes := hkey.item (t:=nextKey "bytes_written")
    (emits_decimal report.blocksWritten) (l:=ascii ",\n    \"bytes_written\": ") rfl rfl
  have hms := hbytes.item (t:=nextKey "elapsed_ms")
    (emits_decimal report.bytesWritten) (l:=ascii ",\n    \"elapsed_ms\": ") rfl rfl
  have hword : ∀ w ∈ [ascii "inf",ascii "-inf",ascii "nan",ascii "-nan"],
      Jams (w++ascii ",\n    \"throughput_mib_s\": ") := by
    simp only [List.forall_mem_cons]
    exact ⟨fun _ => rfl,fun _ => rfl,fun _ => rfl,fun _ => rfl,by simp⟩
  have hjams := hms.jams (hword _ (hfp.word _ h))
  rw [← List.append_assoc] at hjams
  exact ((((hjams.append _).append _).append _).append _).append _ |>.append _

theorem metricsText_jams (hfp : Documented fp) {report : PipelineRunReport fp.Double}
    (h : fp.isFinite (elapsedMs fp report) = false) (snapshot : Snapshot) {poolBytes : ℕ}
    (hpool : poolBytes = report.pipelineConfig.blockSize*report.pipelineConfig.maxInflightBuffers) :
    Jams (metricsText fp snapshot report poolBytes) :=
  ((((((((scans_beforeResult hpool).jams (renderResult_jams hfp h)).append _).append _).append
    _).append _).append _).append _).append _

/-- A JSON text: UTF-8 that a parser accepts. -/
def ValidText (text : Bytes) : Prop := WellFormed text ∧ (Json.parse text).isSome = true

def Fits (snapshot : Snapshot) : Prop := ∀ histogram ∈ snapshot.histograms,
  histogram.data.sampleCount ≤ uint64Max ∧ histogram.data.sampleSum ≤ uint64Max

theorem Documented.average (hfp : Documented fp) {snapshot : Snapshot} (h : Fits snapshot) :
    ∀ histogram ∈ snapshot.histograms, fp.isFinite (averageUs fp histogram) = true := by
  intro histogram hmem
  unfold averageUs
  split
  · exact hfp.zero
  · rename_i hne
    exact hfp.quotient _ _ (h histogram hmem).2 (h histogram hmem).1 hne

theorem parses_iff (hfp : Documented fp) {snapshot : Snapshot} (h : Fits snapshot)
    {report : PipelineRunReport fp.Double} {text : Bytes}
    (hrender : renderMetricsJson fp snapshot report = .ok text) :
    (Json.parse text).isSome = true ↔ fp.isFinite (elapsedMs fp report) = true := by
  obtain ⟨helapsed,hrate,-,rfl⟩ := renderMetricsJson_eq_ok.mp hrender
  cases hms : fp.isFinite (elapsedMs fp report) with
  | true =>
    rw [parse_of_scans (scans_metricsText hfp.numeral ⟨helapsed,hms,hrate,hfp.average h⟩ rfl)]
    simp
  | false =>
    rw [(metricsText_jams hfp hms snapshot rfl).parse]
    simp

theorem wellFormed_iff (hfp : Documented fp) {snapshot : Snapshot}
    {report : PipelineRunReport fp.Double} {text : Bytes}
    (hrender : renderMetricsJson fp snapshot report = .ok text) :
    WellFormed text ↔ ∀ s ∈ reportStrings fp report++metricNames snapshot, WellFormed s := by
  obtain ⟨-,-,-,rfl⟩ := renderMetricsJson_eq_ok.mp hrender
  exact (carries_metricsText hfp snapshot report _).iff

def PublishesValid (rendered : Except Failure Bytes) : Prop :=
  ∀ (call : MetricsJsonCall) (before : FileSystem Path Bytes) (actions : List MetricsJsonAction)
    (s : MetricsJsonState), call.rendered = rendered → call.Honoured before →
    call.system.exec ⟨.render,before,0⟩ actions = some s → s.place = .returned →
    ∃ inode contents, s.files.denotes call.parent call.finalName = some (inode,contents) ∧
      ValidText contents

theorem publishesValid {text : Bytes} (h : ValidText text) : PublishesValid (.ok text) := by
  intro call before actions s hrendered hhonoured hexec hreturned
  have hcontract := MetricsJsonContract.of_consistent hhonoured
    (MetricsJsonCall.reachable_consistent hhonoured ⟨actions,hexec⟩)
  obtain ⟨⟨inode,contents,hcontents,hdenotes,-⟩,-⟩ := hcontract.published (.inl hreturned)
  obtain rfl := Except.ok.inj (hrendered.symm.trans hcontents)
  exact ⟨inode,text,hdenotes,h⟩

/-- The document is JSON, as returned and as published, exactly when all strings in it are UTF-8
and the elapsed time is finite in milliseconds as well. -/
theorem renderMetricsJson_valid_iff (fp : FloatingPoint) (hfp : Documented fp) (snapshot : Snapshot)
    (hfits : Fits snapshot) (report : PipelineRunReport fp.Double) (text : Bytes)
    (hrender : renderMetricsJson fp snapshot report = .ok text) :
    (ValidText text ∧ PublishesValid (renderMetricsJson fp snapshot report)) ↔
      (∀ s ∈ reportStrings fp report++metricNames snapshot, WellFormed s) ∧
        fp.isFinite (elapsedMs fp report) = true := by
  rw [hrender,ValidText,← wellFormed_iff hfp hrender,← parses_iff hfp hfits hrender]
  exact ⟨And.left,fun h => ⟨h,publishesValid h⟩⟩

theorem rational_documented : Documented .rational where
  numeral := FloatingPoint.rational_printsNumerals
  word := fun _ h => nomatch h
  zero := rfl
  quotient := fun _ _ _ _ _ => rfl

theorem renderMetricsJson_valid_iff_quoted :
    ∃ text, renderMetricsJson .rational quotedSnapshot quotedReport = .ok text ∧
      ValidText text ∧ PublishesValid (.ok text) := by
  have hfits : Fits quotedSnapshot := by
    intro histogram hmem
    obtain rfl := List.mem_singleton.mp hmem
    decide
  have hrender := (@renderMetricsJson_eq_ok .rational quotedSnapshot quotedReport _).mpr
    ⟨rfl,rfl,rfl,rfl⟩
  have hvalid := renderMetricsJson_valid_iff .rational rational_documented quotedSnapshot hfits
    quotedReport _ hrender
  have hascii : (reportStrings .rational quotedReport++metricNames quotedSnapshot).all isAscii =
      true := rfl
  have hboth := hvalid.mpr ⟨fun s hs =>
    wellFormed_ascii (toNat_lt_of_isAscii (List.all_eq_true.mp hascii s hs)),rfl⟩
  rw [hrender] at hboth
  exact ⟨_,hrender,hboth⟩

/-- A path with a byte that no UTF-8 text has. -/
def latinReport : PipelineRunReport ℚ := { quotedReport with inputPath := [47,255] }

theorem renderMetricsJson_latin :
    0 ∉ latinReport.inputPath ∧ 0 ∉ latinReport.outputPath ∧
      ∃ text, renderMetricsJson .rational MetricsRegistry.empty.snapshot latinReport = .ok text ∧
        ¬ ValidText text := by
  refine ⟨by decide,by decide,_,renderMetricsJson_eq_ok.mpr ⟨rfl,rfl,rfl,rfl⟩,fun h => ?_⟩
  have hpath := (wellFormed_iff rational_documented (renderMetricsJson_eq_ok.mpr
    ⟨rfl,rfl,rfl,rfl⟩)).mp h.1 [47,255] List.mem_cons_self
  obtain ⟨chars,hchars⟩ := hpath
  have hmem : 255 ∈ encode chars := by
    rw [hchars]
    decide
  exact absurd (toNat_lt_of_mem_encode hmem) (by decide)

end Reporting
end AsyncDataLoader
