import AsyncDataLoader.KeyValueParser
import AsyncDataLoader.MetricsEncoding
import AsyncDataLoader.StageMetrics

/-!
# The key-value report

The lines that `write_key_value_configuration` and `write_key_value_result` print for the sweep,
and when its parser gets the printed values back.
-/

namespace AsyncDataLoader
namespace Reporting

open FileIO Json Numeral Utf8 KeyValue

variable (fp : FloatingPoint)

def keyValueLine (key value : Bytes) : Bytes := key++ascii "="++value++ascii "\n"

def writeKeyValueConfiguration (report : PipelineRunReport fp.Double) : Except Failure Bytes := do
  let poolBytes ← report.pipelineConfig.bufferPoolBytes
  return keyValueLine (ascii "requested_backend") report.requestedBackend++
    keyValueLine (ascii "selected_backend") report.selectedBackend++
    keyValueLine (ascii "stage") report.stageName++
    keyValueLine (ascii "input_bytes") (decimal report.inputBytes)++
    keyValueLine (ascii "buffer_pool_bytes") (decimal poolBytes)++
    keyValueLine (ascii "max_inflight_buffers") (decimal report.pipelineConfig.maxInflightBuffers)++
    keyValueLine (ascii "queue_depth") (decimal report.pipelineConfig.queueDepth)

def writeKeyValueResult (snapshot : Snapshot) (report : PipelineRunReport fp.Double) : Bytes :=
  keyValueLine (ascii "status") (ascii "complete")++
  keyValueLine (ascii "blocks_written") (decimal report.blocksWritten)++
  keyValueLine (ascii "bytes_written") (decimal report.bytesWritten)++
  keyValueLine (ascii "output_committed")
    (if report.outputCommitted then ascii "true" else ascii "false")++
  keyValueLine (ascii "verification") (verification report.verificationPassed)++
  (snapshot.counters.flatMap fun counter => keyValueLine counter.name (decimal counter.value))++
  (snapshot.gauges.flatMap fun gauge =>
    keyValueLine (gauge.name++ascii ".current") (decimalInt gauge.value)++
    keyValueLine (gauge.name++ascii ".peak") (decimalInt gauge.highWatermark))++
  (snapshot.histograms.flatMap fun histogram =>
    keyValueLine (histogram.name++ascii ".samples") (decimal histogram.data.sampleCount)++
    keyValueLine (histogram.name++ascii ".average_us") (fp.fixed3 (averageUs fp histogram)))++
  keyValueLine (ascii "elapsed_ms") (fp.fixed3 (elapsedMs fp report))++
  keyValueLine (ascii "throughput_mib_s") (fp.fixed3 (throughputMibS fp report))

def fixedPairs (report : PipelineRunReport fp.Double) : List (Bytes × Bytes) := [
  (ascii "requested_backend",report.requestedBackend),
  (ascii "selected_backend",report.selectedBackend),
  (ascii "stage",report.stageName),
  (ascii "input_bytes",decimal report.inputBytes),
  (ascii "buffer_pool_bytes",
    decimal (report.pipelineConfig.blockSize*report.pipelineConfig.maxInflightBuffers)),
  (ascii "max_inflight_buffers",decimal report.pipelineConfig.maxInflightBuffers),
  (ascii "queue_depth",decimal report.pipelineConfig.queueDepth),
  (ascii "status",ascii "complete"),
  (ascii "blocks_written",decimal report.blocksWritten),
  (ascii "bytes_written",decimal report.bytesWritten),
  (ascii "output_committed",if report.outputCommitted then ascii "true" else ascii "false"),
  (ascii "verification",verification report.verificationPassed)]

def timePairs (report : PipelineRunReport fp.Double) : List (Bytes × Bytes) := [
  (ascii "elapsed_ms",fp.fixed3 (elapsedMs fp report)),
  (ascii "throughput_mib_s",fp.fixed3 (throughputMibS fp report))]

def counterPair (counter : CounterSnapshot) : Bytes × Bytes := (counter.name,decimal counter.value)

def gaugePairs (gauge : GaugeSnapshot) : List (Bytes × Bytes) := [
  (gauge.name++ascii ".current",decimalInt gauge.value),
  (gauge.name++ascii ".peak",decimalInt gauge.highWatermark)]

def samplesPair (histogram : HistogramSnapshot) : Bytes × Bytes :=
  (histogram.name++ascii ".samples",decimal histogram.data.sampleCount)

def histogramPairs (histogram : HistogramSnapshot) : List (Bytes × Bytes) := [
  samplesPair histogram,
  (histogram.name++ascii ".average_us",fp.fixed3 (averageUs fp histogram))]

def printedPairs (snapshot : Snapshot) (report : PipelineRunReport fp.Double) :
    List (Bytes × Bytes) :=
  fixedPairs fp report++snapshot.counters.map counterPair++snapshot.gauges.flatMap gaugePairs++
    snapshot.histograms.flatMap (histogramPairs fp)++timePairs fp report

/-- The values that a report has to hand over: those of the run, of every counter and gauge, and
the number of samples of every histogram. -/
def requiredPairs (snapshot : Snapshot) (report : PipelineRunReport fp.Double) :
    List (Bytes × Bytes) :=
  fixedPairs fp report++snapshot.counters.map counterPair++snapshot.gauges.flatMap gaugePairs++
    snapshot.histograms.map samplesPair++timePairs fp report

variable {fp}

theorem printed_eq {snapshot : Snapshot} {report : PipelineRunReport fp.Double} {text : Bytes}
    (h : writeKeyValueConfiguration fp report = .ok text) :
    text++writeKeyValueResult fp snapshot report =
      (printedPairs fp snapshot report).flatMap fun p => keyValueLine p.1 p.2 := by
  obtain ⟨poolBytes,hpool,htext⟩ := bind_eq_ok h
  obtain ⟨-,rfl⟩ := PipelineConfig.bufferPoolBytes_eq_ok.mp hpool
  obtain rfl := Except.ok.inj htext
  simp only [writeKeyValueResult,printedPairs,fixedPairs,timePairs,histogramPairs,gaugePairs,
    List.flatMap_append,List.flatMap_assoc,List.flatMap_map,List.flatMap_cons,List.flatMap_nil,
    counterPair,samplesPair,List.append_assoc,List.append_nil]

theorem required_subset (snapshot : Snapshot) (report : PipelineRunReport fp.Double) :
    ∀ p ∈ requiredPairs fp snapshot report, p ∈ printedPairs fp snapshot report := by
  intro p hp
  simp only [requiredPairs,printedPairs,List.mem_append,List.mem_map,List.mem_flatMap] at hp ⊢
  obtain (((hp | hp) | hp) | ⟨histogram,hmem,rfl⟩) | hp := hp
  · exact .inl (.inl (.inl (.inl hp)))
  · exact .inl (.inl (.inl (.inr hp)))
  · exact .inl (.inl (.inr hp))
  · exact .inl (.inr ⟨histogram,hmem,List.mem_cons_self⟩)
  · exact .inr hp

def PlainText (bytes : Bytes) : Prop := ∃ chars, encode chars = bytes ∧ Plain chars

/-- UTF-8 without line boundaries, spaces and equals signs. -/
def PlainName (bytes : Bytes) : Prop :=
  ∃ chars, encode chars = bytes ∧ Plain chars ∧ ' ' ∉ chars ∧ '=' ∉ chars

theorem PlainName.text {bytes : Bytes} (h : PlainName bytes) : PlainText bytes := by
  obtain ⟨chars,hchars,hplain,-⟩ := h
  exact ⟨chars,hchars,hplain⟩

theorem PlainName.append {a b : Bytes} (ha : PlainName a) (hb : PlainName b) : PlainName (a++b) := by
  obtain ⟨cs,rfl,hcs,hspace,hequals⟩ := ha
  obtain ⟨ds,rfl,hds,hspace',hequals'⟩ := hb
  refine ⟨cs++ds,encode_append cs ds,List.forall_mem_append.mpr ⟨hcs,hds⟩,?_,?_⟩
  · simp [hspace,hspace']
  · simp [hequals,hequals']

def isNameByte (b : UInt8) : Bool := 32 < b.toNat && b.toNat < 127 && b.toNat != 61

theorem character_plain {b : UInt8} (h : isNameByte b = true) :
    b.toNat < 128 ∧ isLineBreak (character b) = false ∧ character b ≠ ' ' ∧ character b ≠ '=' := by
  have hall : ∀ n : Fin 127, isNameByte (UInt8.ofNat n.val) = true →
      isLineBreak (Char.ofNat n.val) = false ∧ Char.ofNat n.val ≠ ' ' ∧ Char.ofNat n.val ≠ '=' := by
    decide +kernel
  have hlt : b.toNat < 127 := by
    simp only [isNameByte,Bool.and_eq_true,decide_eq_true_eq] at h
    exact h.1.2
  exact ⟨Nat.lt_succ_of_lt hlt,hall ⟨b.toNat,hlt⟩ (by rwa [UInt8.ofNat_toNat])⟩

theorem plainName_of_bytes {bytes : Bytes} (h : ∀ b ∈ bytes, isNameByte b = true) :
    PlainName bytes := by
  refine ⟨bytes.map character,encode_characters fun b hb => (character_plain (h b hb)).1,?_,?_,?_⟩
  · intro c hc
    obtain ⟨b,hb,rfl⟩ := List.mem_map.mp hc
    exact (character_plain (h b hb)).2.1
  · intro hc
    obtain ⟨b,hb,heq⟩ := List.mem_map.mp hc
    exact (character_plain (h b hb)).2.2.1 heq
  · intro hc
    obtain ⟨b,hb,heq⟩ := List.mem_map.mp hc
    exact (character_plain (h b hb)).2.2.2 heq

theorem plainName_literal {text : String} (h : (ascii text).all isNameByte = true) :
    PlainName (ascii text) := plainName_of_bytes (List.all_eq_true.mp h)

theorem isPart_isNameByte {b : UInt8} (h : isPart b = true) : isNameByte b = true := by
  simp only [isPart,isDigit,Bool.or_eq_true,Bool.and_eq_true,decide_eq_true_eq,beq_iff_eq] at h
  obtain ((((h | rfl) | rfl) | rfl) | rfl) | rfl := h
  · simp only [isNameByte,Bool.and_eq_true,decide_eq_true_eq,bne_iff_ne]
    omega
  all_goals rfl

theorem plainName_numeral {text : Bytes} {r : ℤ × ℤ} (h : Numeral.parse text = some r) :
    PlainName text := plainName_of_bytes fun b hb => isPart_isNameByte ((parse_isPart h).2 b hb)

theorem plainName_decimal (n : ℕ) : PlainName (decimal n) := plainName_numeral (parse_decimal n)

theorem plainName_decimalInt (z : ℤ) : PlainName (decimalInt z) :=
  plainName_numeral (parse_decimalInt z)

theorem plainName_fixed3 (hfp : Documented fp) (x : fp.Double) : PlainName (fp.fixed3 x) := by
  cases hfinite : fp.isFinite x with
  | true =>
    obtain ⟨r,hr⟩ := hfp.numeral x hfinite
    exact plainName_numeral hr
  | false =>
    have hwords : [ascii "inf",ascii "-inf",ascii "nan",ascii "-nan"].all
        (fun w => w.all isNameByte) = true := rfl
    exact plainName_of_bytes
      (List.all_eq_true.mp (List.all_eq_true.mp hwords _ (hfp.word x hfinite)))

/-- The last bytes of a key. They tell the kinds of metrics apart. -/
def ending (key : Bytes) : Bytes := key.reverse.take 3

theorem ending_append (name : Bytes) {end' : Bytes} (h : 3 ≤ end'.length) :
    ending (name++end') = ending end' := by
  rw [ending,ending,List.reverse_append,List.take_append_of_le_length (by simpa using h)]

theorem counterPairs_functional {snapshot : Snapshot}
    (h : (snapshot.counters.map CounterSnapshot.name).Nodup) :
    Functional (snapshot.counters.map counterPair) := by
  refine .of_nodup ?_
  rwa [List.map_map]

theorem suffixed_functional {α : Type} {xs : List α} {name first second : α → Bytes} {a b : Bytes}
    (h : (xs.map name).Nodup) (ha : 3 ≤ a.length) (hb : 3 ≤ b.length) (hne : ending a ≠ ending b) :
    Functional (xs.flatMap fun x => [(name x++a,first x),(name x++b,second x)]) := by
  intro p hp q hq heq
  obtain ⟨x,hx,hp⟩ := List.mem_flatMap.mp hp
  obtain ⟨y,hy,hq⟩ := List.mem_flatMap.mp hq
  have hend := congrArg ending heq
  simp only [List.mem_cons,List.not_mem_nil,or_false] at hp hq
  obtain rfl | rfl := hp <;> obtain rfl | rfl := hq
  · have hname := List.append_cancel_right heq
    rw [List.inj_on_of_nodup_map h hx hy hname]
  · rw [ending_append _ ha,ending_append _ hb] at hend
    exact absurd hend hne
  · rw [ending_append _ ha,ending_append _ hb] at hend
    exact absurd hend.symm hne
  · have hname := List.append_cancel_right heq
    rw [List.inj_on_of_nodup_map h hx hy hname]

theorem fixedPairs_functional (report : PipelineRunReport fp.Double) :
    Functional (fixedPairs fp report++timePairs fp report) := by
  refine .of_nodup ?_
  have hkeys : (fixedPairs fp report++timePairs fp report).map Prod.fst = [ascii "requested_backend",
      ascii "selected_backend",ascii "stage",ascii "input_bytes",ascii "buffer_pool_bytes",
      ascii "max_inflight_buffers",ascii "queue_depth",ascii "status",ascii "blocks_written",
      ascii "bytes_written",ascii "output_committed",ascii "verification",ascii "elapsed_ms",
      ascii "throughput_mib_s"] := rfl
  rw [hkeys]
  decide +kernel

/-- The names of the metrics are those of an instrumented run. -/
structure Instrumented (snapshot : Snapshot) : Prop where
  counters : ∀ counter ∈ snapshot.counters, counter.name ∈ PipelineMetricNames.counters
  nodup : (metricNames snapshot).Nodup

theorem fixedPairs_dot (report : PipelineRunReport fp.Double) :
    ∀ p ∈ fixedPairs fp report++timePairs fp report, 46 ∉ p.1 := by
  simp only [fixedPairs,timePairs,List.cons_append,List.nil_append,List.forall_mem_cons]
  refine ⟨?_,?_,?_,?_,?_,?_,?_,?_,?_,?_,?_,?_,?_,?_,by simp⟩ <;> decide

theorem counterPairs_ending {snapshot : Snapshot} (h : Instrumented snapshot) :
    ∀ p ∈ snapshot.counters.map counterPair,
      46 ∈ p.1 ∧ (ending p.1 = ascii "skc" ∨ ending p.1 = ascii "set") := by
  have hnames : ∀ name ∈ PipelineMetricNames.counters,
      46 ∈ name ∧ (ending name = ascii "skc" ∨ ending name = ascii "set") := by decide +kernel
  intro p hp
  obtain ⟨counter,hcounter,rfl⟩ := List.mem_map.mp hp
  exact hnames _ (h.counters counter hcounter)

theorem gaugePairs_ending (snapshot : Snapshot) :
    ∀ p ∈ snapshot.gauges.flatMap gaugePairs,
      46 ∈ p.1 ∧ (ending p.1 = ascii "tne" ∨ ending p.1 = ascii "kae") := by
  intro p hp
  obtain ⟨gauge,-,hp⟩ := List.mem_flatMap.mp hp
  simp only [gaugePairs,List.mem_cons,List.not_mem_nil,or_false] at hp
  obtain rfl | rfl := hp
  · exact ⟨List.mem_append_right _ (by decide),.inl (ending_append _ (by decide))⟩
  · exact ⟨List.mem_append_right _ (by decide),.inr (ending_append _ (by decide))⟩

theorem histogramPairs_ending (snapshot : Snapshot) :
    ∀ p ∈ snapshot.histograms.flatMap (histogramPairs fp),
      46 ∈ p.1 ∧ (ending p.1 = ascii "sel" ∨ ending p.1 = ascii "su_") := by
  intro p hp
  obtain ⟨histogram,-,hp⟩ := List.mem_flatMap.mp hp
  simp only [histogramPairs,samplesPair,List.mem_cons,List.not_mem_nil,or_false] at hp
  obtain rfl | rfl := hp
  · exact ⟨List.mem_append_right _ (by decide),.inl (ending_append _ (by decide))⟩
  · exact ⟨List.mem_append_right _ (by decide),.inr (ending_append _ (by decide))⟩

theorem ending_disjoint {a b c d : String} {p q : Bytes}
    (hne : ascii a ≠ ascii c ∧ ascii a ≠ ascii d ∧ ascii b ≠ ascii c ∧ ascii b ≠ ascii d)
    (hp : ending p = ascii a ∨ ending p = ascii b) (hq : ending q = ascii c ∨ ending q = ascii d) :
    p ≠ q := by
  rintro rfl
  obtain ⟨hac,had,hbc,hbd⟩ := hne
  obtain hp | hp := hp <;> obtain hq | hq := hq
  · exact hac (hp.symm.trans hq)
  · exact had (hp.symm.trans hq)
  · exact hbc (hp.symm.trans hq)
  · exact hbd (hp.symm.trans hq)

theorem printedPairs_functional {snapshot : Snapshot} (h : Instrumented snapshot)
    (report : PipelineRunReport fp.Double) : Functional (printedPairs fp snapshot report) := by
  obtain ⟨hboth,hhistograms,-⟩ := List.nodup_append.mp h.nodup
  obtain ⟨hcounters,hgauges,-⟩ := List.nodup_append.mp hboth
  have hlevels : Functional (snapshot.gauges.flatMap gaugePairs) :=
    suffixed_functional hgauges (by decide) (by decide) (by decide)
  have htimes : Functional (snapshot.histograms.flatMap (histogramPairs fp)) :=
    suffixed_functional hhistograms (by decide) (by decide) (by decide)
  have hcounted := (counterPairs_functional hcounters).append hlevels fun p hp q hq =>
    ending_disjoint (by decide) (counterPairs_ending h p hp).2 (gaugePairs_ending snapshot q hq).2
  have hmetrics := hcounted.append htimes fun p hp q hq => by
    obtain hp | hp := List.mem_append.mp hp
    · exact ending_disjoint (by decide) (counterPairs_ending h p hp).2
        (histogramPairs_ending snapshot q hq).2
    · exact ending_disjoint (by decide) (gaugePairs_ending snapshot p hp).2
        (histogramPairs_ending snapshot q hq).2
  have hall := (fixedPairs_functional report).append hmetrics fun p hp q hq heq => by
    have hdot : 46 ∈ q.1 := by
      obtain hq | hq := List.mem_append.mp hq
      · obtain hq | hq := List.mem_append.mp hq
        · exact (counterPairs_ending h q hq).1
        · exact (gaugePairs_ending snapshot q hq).1
      · exact (histogramPairs_ending snapshot q hq).1
    rw [← heq] at hdot
    exact fixedPairs_dot report p hp hdot
  refine hall.of_subset fun p hp => ?_
  simp only [printedPairs,List.mem_append] at hp ⊢
  obtain (((hp | hp) | hp) | hp) | hp := hp
  · exact .inl (.inl hp)
  · exact .inr (.inl (.inl hp))
  · exact .inr (.inl (.inr hp))
  · exact .inr (.inr hp)
  · exact .inl (.inr hp)

/-- The text is a `str`, and the parser gets every pair from it. -/
def Returned (text : Bytes) (pairs : List (Bytes × Bytes)) : Prop :=
  ∃ output, encode output = text ∧ ∀ p ∈ pairs, ∃ key value,
    encode key = p.1 ∧ encode value = p.2 ∧ parseKeyValueOutput output key = some value

def PlainPair (p : Bytes × Bytes) : Prop := PlainName p.1 ∧ p.1 ≠ [] ∧ PlainText p.2

theorem exists_decoded {pairs : List (Bytes × Bytes)} (h : ∀ p ∈ pairs, PlainPair p) :
    ∃ decoded : List (List Char × List Char),
      decoded.map (fun q => (encode q.1,encode q.2)) = pairs ∧
      ∀ q ∈ decoded, PlainKey q.1 ∧ Plain q.2 := by
  induction pairs with
  | nil => exact ⟨[],rfl,by simp⟩
  | cons p pairs ih =>
    obtain ⟨⟨⟨key,hkey,hplain,hspace,hequals⟩,hne,value,hvalue,hline⟩,hpairs⟩ :=
      List.forall_mem_cons.mp h
    obtain ⟨decoded,hdecoded,hall⟩ := ih hpairs
    have hkey_ne : key ≠ [] := by
      rintro rfl
      exact hne hkey.symm
    refine ⟨(key,value)::decoded,?_,
      List.forall_mem_cons.mpr ⟨⟨⟨hplain,hkey_ne,hspace,hequals⟩,hline⟩,hall⟩⟩
    rw [List.map_cons,hdecoded,hkey,hvalue]

theorem encode_printLine (q : List Char × List Char) :
    encode (printLine q) = keyValueLine (encode q.1) (encode q.2) := by
  rw [printLine,encode_append,encode_append,keyValueLine]
  have hcons : encode ('='::q.2) = ascii "="++encode q.2 := rfl
  have hbreak : encode ['\n'] = ascii "\n" := rfl
  rw [hcons,hbreak,← List.append_assoc]

theorem returned_of_plain {pairs required : List (Bytes × Bytes)} (h : ∀ p ∈ pairs, PlainPair p)
    (hfun : Functional pairs) (hsub : ∀ p ∈ required, p ∈ pairs) :
    Returned (pairs.flatMap fun p => keyValueLine p.1 p.2) required := by
  obtain ⟨decoded,rfl,hall⟩ := exists_decoded h
  have hdecoded : Functional decoded := by
    intro p hp q hq heq
    have hvalue := hfun _ (List.mem_map_of_mem hp) _ (List.mem_map_of_mem hq) (congrArg encode heq)
    exact encode_injective hvalue
  refine ⟨decoded.flatMap printLine,?_,fun p hp => ?_⟩
  · rw [encode,List.flatMap_assoc,List.flatMap_map]
    exact List.flatMap_congr fun q _ => encode_printLine q
  · obtain ⟨q,hq,rfl⟩ := List.mem_map.mp (hsub p hp)
    exact ⟨q.1,q.2,rfl,rfl,parse_printed_apply hall hdecoded hq⟩

def OneLineStrings (report : PipelineRunReport fp.Double) : Prop :=
  PlainText report.requestedBackend ∧ PlainText report.selectedBackend ∧ PlainText report.stageName

theorem plainPair_literal {key : String} {value : Bytes} (hkey : (ascii key).all isNameByte = true)
    (hne : ascii key ≠ []) (hvalue : PlainText value) : PlainPair (ascii key,value) :=
  ⟨plainName_literal hkey,hne,hvalue⟩

theorem PlainName.suffixed {name value : Bytes} {suffix : String} (hname : PlainName name)
    (hsuffix : (ascii suffix).all isNameByte = true) (hne : ascii suffix ≠ [])
    (hvalue : PlainText value) : PlainPair (name++ascii suffix,value) :=
  ⟨hname.append (plainName_literal hsuffix),fun h => hne (List.append_eq_nil_iff.mp h).2,hvalue⟩

theorem fixedPairs_plain {report : PipelineRunReport fp.Double} (h : OneLineStrings report) :
    ∀ p ∈ fixedPairs fp report, PlainPair p := by
  have hdecimal : ∀ n, PlainText (decimal n) := fun n => (plainName_decimal n).text
  have hcommitted : PlainText (if report.outputCommitted then ascii "true" else ascii "false") := by
    cases report.outputCommitted <;> exact (plainName_literal rfl).text
  have hverified : PlainText (verification report.verificationPassed) := by
    cases report.verificationPassed <;> exact (plainName_literal rfl).text
  have hcomplete : PlainText (ascii "complete") := (plainName_literal rfl).text
  obtain ⟨hrequested,hselected,hstage⟩ := h
  simp only [fixedPairs,List.forall_mem_cons]
  exact ⟨plainPair_literal rfl (by decide) hrequested,
    plainPair_literal rfl (by decide) hselected,plainPair_literal rfl (by decide) hstage,
    plainPair_literal rfl (by decide) (hdecimal _),plainPair_literal rfl (by decide) (hdecimal _),
    plainPair_literal rfl (by decide) (hdecimal _),plainPair_literal rfl (by decide) (hdecimal _),
    plainPair_literal rfl (by decide) hcomplete,plainPair_literal rfl (by decide) (hdecimal _),
    plainPair_literal rfl (by decide) (hdecimal _),plainPair_literal rfl (by decide) hcommitted,
    plainPair_literal rfl (by decide) hverified,by simp⟩

theorem printedPairs_plain (hfp : Documented fp) {snapshot : Snapshot}
    {report : PipelineRunReport fp.Double}
    (hnames : ∀ name ∈ metricNames snapshot, PlainName name ∧ name ≠ [])
    (h : OneLineStrings report) : ∀ p ∈ printedPairs fp snapshot report, PlainPair p := by
  have htext : ∀ x, PlainText (fp.fixed3 x) := fun x => (plainName_fixed3 hfp x).text
  obtain ⟨hboth,hhistograms⟩ := List.forall_mem_append.mp hnames
  obtain ⟨hcounters,hgauges⟩ := List.forall_mem_append.mp hboth
  refine List.forall_mem_append.mpr ⟨List.forall_mem_append.mpr ⟨List.forall_mem_append.mpr
    ⟨List.forall_mem_append.mpr ⟨fixedPairs_plain h,fun p hp => ?_⟩,fun p hp => ?_⟩,
    fun p hp => ?_⟩,?_⟩
  · obtain ⟨counter,hcounter,rfl⟩ := List.mem_map.mp hp
    obtain ⟨hname,hne⟩ := hcounters _ (List.mem_map_of_mem hcounter)
    exact ⟨hname,hne,(plainName_decimal _).text⟩
  · obtain ⟨gauge,hgauge,hp⟩ := List.mem_flatMap.mp hp
    have hname := (hgauges _ (List.mem_map_of_mem hgauge)).1
    simp only [gaugePairs,List.mem_cons,List.not_mem_nil,or_false] at hp
    obtain rfl | rfl := hp
    · exact hname.suffixed rfl (by decide) (plainName_decimalInt _).text
    · exact hname.suffixed rfl (by decide) (plainName_decimalInt _).text
  · obtain ⟨histogram,hhistogram,hp⟩ := List.mem_flatMap.mp hp
    have hname := (hhistograms _ (List.mem_map_of_mem hhistogram)).1
    simp only [histogramPairs,samplesPair,List.mem_cons,List.not_mem_nil,or_false] at hp
    obtain rfl | rfl := hp
    · exact hname.suffixed rfl (by decide) (plainName_decimal _).text
    · exact hname.suffixed rfl (by decide) (htext _)
  · simp only [timePairs,List.forall_mem_cons]
    exact ⟨plainPair_literal rfl (by decide) (htext _),plainPair_literal rfl (by decide) (htext _),
      by simp⟩

/-- A snapshot of the registry, whatever values its metrics had. -/
structure ShownBy (r : MetricsRegistry) (snapshot : Snapshot) : Prop where
  counters : snapshot.counters.map CounterSnapshot.name = r.counters.map Prod.fst
  gauges : snapshot.gauges.map GaugeSnapshot.name = r.gauges.map Prod.fst
  histograms : snapshot.histograms.map HistogramSnapshot.name = r.histograms.map Prod.fst

theorem shownBy_snapshot (r : MetricsRegistry) : ShownBy r r.snapshot := by
  refine ⟨?_,?_,?_⟩ <;> simp only [MetricsRegistry.snapshot,List.map_map] <;> rfl

theorem ShownBy.names {r : MetricsRegistry} {snapshot : Snapshot} (h : ShownBy r snapshot) :
    metricNames snapshot = r.names := by
  rw [metricNames,h.counters,h.gauges,h.histograms]
  rfl

theorem runtimeName_plain : ∀ name ∈ PipelineMetricNames.all, PlainName name := by
  have hbytes : PipelineMetricNames.all.all (fun name => name.all isNameByte) = true := rfl
  exact fun name hname =>
    plainName_of_bytes (List.all_eq_true.mp (List.all_eq_true.mp hbytes name hname))

theorem stageName_plain {k : ℕ} {name : Bytes} (h : PlainName name) :
    PlainName (makeStageLatencyMetricName k name) :=
  ((((plainName_literal rfl).append (plainName_decimal k)).append (plainName_literal rfl)).append
    h).append (plainName_literal rfl)

section

variable {setups : List Setup} {s : Instrumentation} {snapshot : Snapshot}

theorem instrumented (h : s.Of setups) (hshown : ShownBy s.registry snapshot) :
    Instrumented snapshot where
  counters := fun counter hcounter => h.counters _ (by
    rw [← hshown.counters]
    exact List.mem_map_of_mem hcounter)
  nodup := by
    rw [hshown.names]
    exact h.registered.nodup

theorem names_plain (h : s.Of setups) (hshown : ShownBy s.registry snapshot)
    (hstages : ∀ name, Setup.stage name ∈ setups → PlainName name) :
    ∀ name ∈ metricNames snapshot, PlainName name ∧ name ≠ [] := by
  intro name hname
  rw [hshown.names] at hname
  refine ⟨?_,(h.registered.accepted name hname).1⟩
  obtain hname | hname := List.mem_append.mp hname
  · obtain hname | hname := List.mem_append.mp hname
    · exact runtimeName_plain name (by simp [PipelineMetricNames.all,h.counters name hname])
    · exact runtimeName_plain name (by simp [PipelineMetricNames.all,h.gauges name hname])
  · obtain hruntime | ⟨k,stage,hstage,rfl⟩ := h.histograms name hname
    · exact runtimeName_plain name (by simp [PipelineMetricNames.all,hruntime])
    · exact stageName_plain (hstages stage hstage)

theorem stage_plain_of_key {k : ℕ} {name : Bytes} {key : List Char}
    (hkey : encode key = makeStageLatencyMetricName k name++ascii ".samples") (h : PlainKey key) :
    PlainName name := by
  have hsplit : encode key =
      (ascii "stage."++decimal k)++46::name++46::(ascii "latency_ns.samples") := by
    rw [hkey]
    simp only [makeStageLatencyMetricName,List.append_assoc]
    rfl
  obtain ⟨chars,hchars,hmem⟩ := encode_infix (by decide) (by decide) hsplit
  exact ⟨chars,hchars,fun c hc => h.plain c (hmem c hc),fun hc => h.space (hmem _ hc),
    fun hc => h.equals (hmem _ hc)⟩

theorem oneLine_of_returned {report : PipelineRunReport fp.Double} {text : Bytes}
    (h : Returned text (requiredPairs fp snapshot report)) : OneLineStrings report := by
  obtain ⟨output,-,hall⟩ := h
  have hvalue : ∀ key value, (key,value) ∈ fixedPairs fp report → PlainText value := by
    intro key value hmem
    obtain ⟨_,chars,-,hchars,hparse⟩ := hall (key,value) (by simp [requiredPairs,hmem])
    exact ⟨chars,hchars,(parse_plain output _ _ hparse).2⟩
  exact ⟨hvalue (ascii "requested_backend") _ (by simp [fixedPairs]),
    hvalue (ascii "selected_backend") _ (by simp [fixedPairs]),
    hvalue (ascii "stage") _ (by simp [fixedPairs])⟩

theorem stages_of_returned (h : s.Of setups) (hshown : ShownBy s.registry snapshot)
    {report : PipelineRunReport fp.Double} {text : Bytes}
    (hreturned : Returned text (requiredPairs fp snapshot report)) :
    ∀ name, Setup.stage name ∈ setups → PlainName name := by
  intro name hname
  obtain ⟨k,hk⟩ := h.stages name hname
  rw [← hshown.histograms] at hk
  obtain ⟨histogram,hmem,hhistogram⟩ := List.mem_map.mp hk
  obtain ⟨output,-,hall⟩ := hreturned
  have hrequired : samplesPair histogram ∈ requiredPairs fp snapshot report := by
    simp only [requiredPairs,List.mem_append,List.mem_map]
    exact .inl (.inr ⟨histogram,hmem,rfl⟩)
  obtain ⟨key,value,hkey,-,hparse⟩ := hall _ hrequired
  rw [samplesPair,hhistogram] at hkey
  exact stage_plain_of_key hkey (parse_plain output _ _ hparse).1

end

/-- The sweep gets every value of an instrumented run back exactly when no stage name has a line
boundary, a space or an equals sign, no string of the report has a line boundary, and all of them
are UTF-8. -/
theorem key_value_report_returned_iff (fp : FloatingPoint) (hfp : Documented fp)
    (setups : List Setup) (s : Instrumentation) (hsetup : instrument setups = .ok s)
    (snapshot : Snapshot) (hshown : ShownBy s.registry snapshot)
    (report : PipelineRunReport fp.Double) (configuration : Bytes)
    (hconfiguration : writeKeyValueConfiguration fp report = .ok configuration) :
    Returned (configuration++writeKeyValueResult fp snapshot report)
        (requiredPairs fp snapshot report) ↔
      (∀ name, Setup.stage name ∈ setups → PlainName name) ∧ OneLineStrings report := by
  have hof := instrument_of hsetup
  constructor
  · intro h
    exact ⟨stages_of_returned hof hshown h,oneLine_of_returned h⟩
  · rintro ⟨hstages,hreport⟩
    rw [printed_eq hconfiguration]
    exact returned_of_plain (printedPairs_plain hfp (names_plain hof hshown hstages) hreport)
      (printedPairs_functional (instrumented hof hshown) report) (required_subset snapshot report)

def incrementSetups : List Setup :=
  [.stage (ascii "byte_increment"),.executor,.stage (ascii "normalize")]

theorem key_value_report_returned_iff_increment :
    ∃ s configuration, instrument incrementSetups = .ok s ∧
      writeKeyValueConfiguration .rational quotedReport = .ok configuration ∧
      Returned (configuration++writeKeyValueResult .rational s.registry.snapshot quotedReport)
        (requiredPairs .rational s.registry.snapshot quotedReport) := by
  obtain ⟨s,hs⟩ : ∃ s, instrument incrementSetups = .ok s := ⟨_,rfl⟩
  obtain ⟨configuration,hconfiguration⟩ :
      ∃ text, writeKeyValueConfiguration .rational quotedReport = .ok text := ⟨_,rfl⟩
  have hreturned := key_value_report_returned_iff .rational rational_documented incrementSetups s hs
    s.registry.snapshot (shownBy_snapshot _) quotedReport configuration hconfiguration
  refine ⟨s,configuration,hs,hconfiguration,hreturned.mpr ⟨fun name hname => ?_,
    (plainName_literal rfl).text,(plainName_literal rfl).text,(plainName_literal rfl).text⟩⟩
  simp only [incrementSetups,List.mem_cons,Setup.stage.injEq,reduceCtorEq,List.not_mem_nil,
    or_false,false_or] at hname
  obtain rfl | rfl := hname
  · exact plainName_literal rfl
  · exact plainName_literal rfl

/-- A stage whose name forges the line of another key. -/
def forgingSetups : List Setup := [.stage (ascii "x\nverification=failed\ny"),.executor]

theorem key_value_report_forged :
    ∃ s configuration, instrument forgingSetups = .ok s ∧
      writeKeyValueConfiguration .rational quotedReport = .ok configuration ∧
      ¬ Returned (configuration++writeKeyValueResult .rational s.registry.snapshot quotedReport)
        (requiredPairs .rational s.registry.snapshot quotedReport) := by
  obtain ⟨s,hs⟩ : ∃ s, instrument forgingSetups = .ok s := ⟨_,rfl⟩
  obtain ⟨configuration,hconfiguration⟩ :
      ∃ text, writeKeyValueConfiguration .rational quotedReport = .ok text := ⟨_,rfl⟩
  refine ⟨s,configuration,hs,hconfiguration,fun h => ?_⟩
  obtain ⟨chars,hchars,hplain,-⟩ := stages_of_returned (instrument_of hs) (shownBy_snapshot _) h
    (ascii "x\nverification=failed\ny") List.mem_cons_self
  have hname : chars = "x\nverification=failed\ny".toList := encode_injective hchars
  rw [hname] at hplain
  exact absurd (hplain '\n' (by decide)) (by decide)

end Reporting
end AsyncDataLoader
