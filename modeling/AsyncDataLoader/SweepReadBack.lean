import AsyncDataLoader.Csv
import AsyncDataLoader.SweepSample

/-!
# Reading a sweep back

The file that a sweep writes, as the analysis reads it.
-/

namespace AsyncDataLoader
namespace Sweep

open Benchmark Python

/-- A number that an option gives. -/
structure Positive (py : Interpreter) (n : ℕ) : Prop where
  pos : 0 < n
  readable : py.Readable n

section Arguments
variable {py : Interpreter}

theorem positiveInteger_given {text : Text} {value : ℕ}
    (h : positiveInteger py text = .ok value) : Positive py value := by
  refine ⟨positiveInteger_pos h,?_⟩
  unfold positiveInteger at h
  split at h
  · cases h
  · rename_i read hread
    split_ifs at h with hpos
    rw [← Except.ok.inj h]
    exact (Interpreter.readable_of_int hread).mono (by omega)

theorem positiveIntegerList_given {text : Text} {values : List ℕ}
    (h : positiveIntegerList py text = .ok values) :
    values ≠ [] ∧ ∀ value ∈ values, Positive py value := by
  obtain ⟨-,hmem⟩ := itemList_ok h
  refine ⟨?_,fun value hvalue => ?_⟩
  · obtain ⟨found,-,h⟩ := bind_eq_ok h
    split_ifs at h with hne
    rwa [← Except.ok.inj h]
  · obtain ⟨item,-,hitem⟩ := (hmem value).mp hvalue
    exact positiveInteger_given hitem

theorem backendList_ne_nil {text : Text} {values : List RequestedBackend}
    (h : backendList text = .ok values) : values ≠ [] := by
  obtain ⟨found,-,h⟩ := bind_eq_ok h
  split_ifs at h with hne
  rwa [← Except.ok.inj h]

structure Stored (py : Interpreter) (given : Given) : Prop where
  lists : ∀ values, given.blockSizes = some values ∨ given.buffers = some values ∨
    given.queueDepths = some values → values ≠ [] ∧ ∀ value ∈ values, Positive py value
  backends : given.backends ≠ []
  numbers : Positive py given.threadWorkers ∧ Positive py given.iterations
  limit : ∀ limit, given.rssLimitMib = some limit → Positive py limit

theorem stored_initial : Stored py {} where
  lists := by simp
  backends := by simp
  numbers := ⟨⟨by decide,Interpreter.readable_digit (by decide)⟩,
    ⟨by decide,Interpreter.readable_digit (by decide)⟩⟩
  limit := by simp

theorem Stored.store {given given' : Given} {option : SweepOption × Text} (hgiven : Stored py given)
    (h : given.store py option = .ok given') : Stored py given' := by
  obtain ⟨option,text⟩ := option
  cases option with
  | executable | timeExecutable | input | outputDirectory | csv | environmentId =>
    obtain rfl := Except.ok.inj h
    exact ⟨hgiven.lists,hgiven.backends,hgiven.numbers,hgiven.limit⟩
  | maxRuns =>
    obtain ⟨value,-,h⟩ := bind_eq_ok h
    obtain rfl := Except.ok.inj h
    exact ⟨hgiven.lists,hgiven.backends,hgiven.numbers,hgiven.limit⟩
  | blockSizes =>
    obtain ⟨values,hvalues,h⟩ := bind_eq_ok h
    obtain rfl := Except.ok.inj h
    refine { hgiven with lists := ?_ }
    rintro found (hfound | hfound)
    · rw [← Option.some.inj hfound]
      exact positiveIntegerList_given (typed_ok hvalues)
    · exact hgiven.lists found (.inr hfound)
  | buffers =>
    obtain ⟨values,hvalues,h⟩ := bind_eq_ok h
    obtain rfl := Except.ok.inj h
    refine { hgiven with lists := ?_ }
    rintro found (hfound | hfound | hfound)
    · exact hgiven.lists found (.inl hfound)
    · rw [← Option.some.inj hfound]
      exact positiveIntegerList_given (typed_ok hvalues)
    · exact hgiven.lists found (.inr (.inr hfound))
  | queueDepths =>
    obtain ⟨values,hvalues,h⟩ := bind_eq_ok h
    obtain rfl := Except.ok.inj h
    refine { hgiven with lists := ?_ }
    rintro found (hfound | hfound | hfound)
    · exact hgiven.lists found (.inl hfound)
    · exact hgiven.lists found (.inr (.inl hfound))
    · rw [← Option.some.inj hfound]
      exact positiveIntegerList_given (typed_ok hvalues)
  | backends =>
    obtain ⟨values,hvalues,h⟩ := bind_eq_ok h
    obtain rfl := Except.ok.inj h
    exact { hgiven with backends := backendList_ne_nil (typed_ok hvalues) }
  | threadWorkers =>
    obtain ⟨value,hvalue,h⟩ := bind_eq_ok h
    obtain rfl := Except.ok.inj h
    exact { hgiven with numbers := ⟨positiveInteger_given (typed_ok hvalue),hgiven.numbers.2⟩ }
  | iterations =>
    obtain ⟨value,hvalue,h⟩ := bind_eq_ok h
    obtain rfl := Except.ok.inj h
    exact { hgiven with numbers := ⟨hgiven.numbers.1,positiveInteger_given (typed_ok hvalue)⟩ }
  | rssLimitMib =>
    obtain ⟨value,hvalue,h⟩ := bind_eq_ok h
    obtain rfl := Except.ok.inj h
    refine { hgiven with limit := fun found hfound => ?_ }
    rw [← Option.some.inj hfound]
    exact positiveInteger_given (typed_ok hvalue)

/-- Arguments whose numbers are positive and may be written and read again. -/
structure Arguments.Given (py : Interpreter) (arguments : Arguments) : Prop where
  environmentId : strip arguments.environmentId ≠ [] ∧ '\n' ∉ arguments.environmentId ∧
    '\r' ∉ arguments.environmentId
  blockSizes : arguments.blockSizes ≠ [] ∧ ∀ n ∈ arguments.blockSizes, Positive py n
  buffers : arguments.buffers ≠ [] ∧ ∀ n ∈ arguments.buffers, Positive py n
  queueDepths : arguments.queueDepths ≠ [] ∧ ∀ n ∈ arguments.queueDepths, Positive py n
  backends : arguments.backends ≠ []
  threadWorkers : Positive py arguments.threadWorkers
  iterations : Positive py arguments.iterations
  rssLimitMib : ∀ limit, arguments.rssLimitMib = some limit → Positive py limit

theorem parseArguments_given {options : List (SweepOption × Text)} {arguments : Arguments}
    (h : parseArguments py options = .ok arguments) : arguments.Given py := by
  obtain ⟨given,hgiven,h⟩ := bind_eq_ok h
  obtain ⟨found,hfound,h⟩ := bind_eq_ok h
  have hstored : Stored py given :=
    foldlM_invariant (fun _ _ _ hbefore hstep => hbefore.store hstep) stored_initial hgiven
  unfold Arguments.check at h
  split_ifs at h with hempty hline
  obtain rfl := Except.ok.inj h
  rw [not_or] at hline
  unfold Given.complete at hfound
  split at hfound
  · rename_i hblockSizes hbuffers hqueueDepths
    obtain rfl := Except.ok.inj hfound
    exact ⟨⟨hempty,hline⟩,hstored.lists _ (.inl hblockSizes),hstored.lists _ (.inr (.inl hbuffers)),
      hstored.lists _ (.inr (.inr hqueueDepths)),hstored.backends,hstored.numbers.1,
      hstored.numbers.2,hstored.limit⟩
  · cases hfound

end Arguments

theorem bind_of_ok {ε α β : Type} {x : Except ε α} {f : α → Except ε β} {a : α} (h : x = .ok a) :
    (x >>= f) = f a := by
  rw [h]
  rfl

section Rows
variable {py : Interpreter} {row : Row} {field : String}

theorem strip_str (z : ℤ) : strip (str z) = str z := by
  have hdigits : ∀ n : ℕ, ∀ c ∈ Nat.toDigits 10 n, isSpace c = false := fun n c hc =>
    Interpreter.isSpace_of_isDigit (Nat.isDigit_of_mem_toDigits (by decide) (by decide) hc)
  refine stripBy_eq_self ?_
  cases z with
  | ofNat n => exact hdigits n
  | negSucc n => exact List.forall_mem_cons.mpr ⟨by decide,hdigits (n+1)⟩

/-- A written number is refused when it is too small, and else read as it is. -/
theorem integerValue_iff {z : ℤ} {minimum n : ℕ} (hget : row.get field = some (str z))
    (hread : py.Readable z.natAbs) :
    integerValue py row field minimum = .ok n ↔ (minimum : ℤ) ≤ z ∧ n = z.toNat := by
  have hvalue : integerValue py row field minimum =
      if z < minimum then .error (.atLeast field minimum) else .ok z.toNat := by
    refine (bind_of_ok (textValue_of_get hget)).trans ?_
    rw [strip_str,Interpreter.int_str hread]
  rw [hvalue]
  split_ifs with hlt
  · simp [hlt]
  · rw [Except.ok.injEq,eq_comm]
    exact ⟨fun heq => ⟨not_lt.mp hlt,heq⟩,And.right⟩

def floatOf (py : Interpreter) (text : Text) : Option ℚ :=
  match py.float (strip text) with
  | some (.finite q) => some q
  | _ => none

theorem floatValue_iff {text : Text} {minimum q : ℚ} (hget : row.get field = some text) :
    floatValue py row field minimum = .ok q ↔ floatOf py text = some q ∧ minimum ≤ q := by
  have hvalue : floatValue py row field minimum = _ := bind_of_ok (textValue_of_get hget)
  rw [hvalue,floatOf]
  cases hfloat : py.float (strip text) with
  | none => simp
  | some x =>
    cases x with
    | finite value =>
      dsimp only
      split_ifs with hlt
      · simp only [Option.some.injEq,false_iff,not_and,not_le]
        rintro rfl
        exact hlt
      · rw [Except.ok.injEq,Option.some.injEq]
        refine ⟨fun heq => ⟨heq,heq ▸ not_lt.mp hlt⟩,And.left⟩
    | infinite => simp
    | nan => simp

theorem textValue_iff {text value : Text} (hget : row.get field = some text) :
    textValue row field = .ok value ↔ value = strip text := by
  rw [textValue_of_get hget,Except.ok.injEq,eq_comm]

theorem checkAll_iff {checks : List (Bool × String)} {u : Unit} :
    checkAll checks = .ok u ↔ ∀ check ∈ checks, check.1 = true := by
  refine ⟨checkAll_ok,fun h => ?_⟩
  induction checks with
  | nil => rfl
  | cons check checks ih =>
    obtain ⟨hcheck,hchecks⟩ := List.forall_mem_cons.mp h
    rw [checkAll,if_pos hcheck]
    exact ih hchecks

end Rows

/-- What the analysis asks of an outcome that `run_sample` has not asked already. -/
structure Admissible (py : Interpreter) (run : RunConfig) (outcome : Outcome) : Prop where
  inputPath : strip outcome.inputPath ≠ []
  selected : ∃ backend : SelectedBackend, strip outcome.selectedBackend = backend.label ∧
    ∀ expected, EXPLICIT_SELECTION run.backend = some expected → backend = expected
  counts : 0 ≤ outcome.inputBytes ∧ 0 ≤ outcome.inflightPeak ∧ 0 ≤ outcome.readProcessQueuePeak ∧
    0 ≤ outcome.processWriteQueuePeak ∧ 0 ≤ outcome.peakRssKib
  blocks : outcome.blocksWritten = ((outcome.inputBytes.toNat+run.blockSize-1)/run.blockSize : ℕ)
  elapsed : ∃ q, floatOf py outcome.elapsedMs = some q ∧ py.double (1/1000000) ≤ q
  numbers : ∀ text ∈ [outcome.throughputMibS,outcome.readAverageUs,outcome.processAverageUs,
    outcome.writeAverageUs,outcome.stageAverageUs], ∃ q, floatOf py text = some q ∧ 0 ≤ q

def sampleFor (py : Interpreter) (arguments : Arguments) (run : RunConfig) (outcome : Outcome) :
    Sample where
  environmentId := strip arguments.environmentId
  inputPath := strip outcome.inputPath
  inputBytes := outcome.inputBytes.toNat
  requestedBackend := run.backend
  selectedBackend := (SelectedBackend.ofLabel? (strip outcome.selectedBackend)).getD .sync
  blockSize := run.blockSize
  maxInflightBuffers := run.maxInflightBuffers
  queueDepth := run.queueDepth
  threadWorkers := arguments.threadWorkers
  sampleIndex := run.sampleIndex
  bufferPoolBytes := outcome.bufferPoolBytes.toNat
  blocksWritten := outcome.blocksWritten.toNat
  bytesWritten := outcome.bytesWritten.toNat
  inflightPeak := outcome.inflightPeak.toNat
  readProcessQueuePeak := outcome.readProcessQueuePeak.toNat
  processWriteQueuePeak := outcome.processWriteQueuePeak.toNat
  elapsedMs := (floatOf py outcome.elapsedMs).getD 0
  throughputMibS := (floatOf py outcome.throughputMibS).getD 0
  peakRssKib := outcome.peakRssKib.toNat
  rssLimitMib := arguments.rssLimitMib
  rssWithinLimit := arguments.rssLimitMib.map fun (limit : ℕ) =>
    decide (outcome.peakRssKib ≤ (limit : ℤ)*1024)

/-- What is known of a run before its record is read. -/
structure Recorded (py : Interpreter) (arguments : Arguments) (run : RunConfig)
    (outcome : Outcome) : Prop where
  environmentId : strip arguments.environmentId ≠ []
  threadWorkers : Positive py arguments.threadWorkers
  rssLimitMib : ∀ limit, arguments.rssLimitMib = some limit → Positive py limit
  blockSize : Positive py run.blockSize
  buffers : Positive py run.maxInflightBuffers
  queueDepth : Positive py run.queueDepth
  sampleIndex : Positive py run.sampleIndex
  readable : ∀ z ∈ [outcome.inputBytes,outcome.bufferPoolBytes,outcome.blocksWritten,
    outcome.bytesWritten,outcome.inflightPeak,outcome.readProcessQueuePeak,
    outcome.processWriteQueuePeak,outcome.peakRssKib], py.Readable z.natAbs
  bytesWritten : outcome.bytesWritten = outcome.inputBytes
  pool : outcome.bufferPoolBytes = run.blockSize*run.maxInflightBuffers
  peaks : outcome.inflightPeak ≤ run.maxInflightBuffers ∧
    outcome.readProcessQueuePeak ≤ run.queueDepth ∧ outcome.processWriteQueuePeak ≤ run.queueDepth
  verification : outcome.verification = "passed".toList

theorem requireSelected_iff {text : Text} {backend : SelectedBackend} :
    requireSelected text = .ok backend ↔ text = backend.label := by
  unfold requireSelected SelectedBackend.ofLabel?
  constructor
  · intro h
    split at h
    · cases h
    · rename_i found hfound
      obtain rfl := Except.ok.inj h
      have hlabel := List.find?_some hfound
      exact (of_decide_eq_true hlabel).symm
  · rintro rfl
    cases backend <;> rfl

theorem textValue_cell {row : Row} {field : String} {text : Text} (hget : row.get field = some text)
    (hstrip : strip text = text) : textValue row field = .ok text := by
  rw [textValue_of_get hget,hstrip]

section Recorded
variable {py : Interpreter} {arguments : Arguments} {run : RunConfig} {outcome : Outcome}

theorem admissible_of_parseSample {s : Sample} (hrecorded : Recorded py arguments run outcome)
    (h : parseSample py (sampleRow arguments run outcome) = .ok s) :
    Admissible py run outcome := by
  have hreadable := hrecorded.readable
  simp only [List.forall_mem_cons] at hreadable
  obtain ⟨hinputBytes,-,hblocks,-,hinflight,hreadPeak,hwritePeak,hrss,-⟩ := hreadable
  obtain ⟨environmentId,henvironmentId,h⟩ := bind_eq_ok h
  obtain ⟨inputPath,hinputPath,h⟩ := bind_eq_ok h
  obtain ⟨inputBytes,hbytes,h⟩ := bind_eq_ok h
  obtain ⟨requested,hrequested,h⟩ := bind_eq_ok h
  obtain ⟨selected,hselected,h⟩ := bind_eq_ok h
  obtain ⟨blockSize,hblockSize,h⟩ := bind_eq_ok h
  obtain ⟨maxInflightBuffers,-,h⟩ := bind_eq_ok h
  obtain ⟨queueDepth,-,h⟩ := bind_eq_ok h
  obtain ⟨threadWorkers,-,h⟩ := bind_eq_ok h
  obtain ⟨sampleIndex,-,h⟩ := bind_eq_ok h
  obtain ⟨bufferPoolBytes,-,h⟩ := bind_eq_ok h
  obtain ⟨blocksWritten,hwritten,h⟩ := bind_eq_ok h
  obtain ⟨bytesWritten,-,h⟩ := bind_eq_ok h
  obtain ⟨inflightPeak,hpeak,h⟩ := bind_eq_ok h
  obtain ⟨readProcessQueuePeak,hreadQueue,h⟩ := bind_eq_ok h
  obtain ⟨processWriteQueuePeak,hwriteQueue,h⟩ := bind_eq_ok h
  obtain ⟨elapsedMs,helapsed,h⟩ := bind_eq_ok h
  obtain ⟨throughputMibS,hthroughput,h⟩ := bind_eq_ok h
  obtain ⟨peakRssKib,hpeakRss,h⟩ := bind_eq_ok h
  obtain ⟨_,hnames,h⟩ := bind_eq_ok h
  obtain ⟨readAverage,hread,h⟩ := bind_eq_ok h
  obtain ⟨processAverage,hprocess,h⟩ := bind_eq_ok h
  obtain ⟨writeAverage,hwrite,h⟩ := bind_eq_ok h
  obtain ⟨stageAverage,hstage,h⟩ := bind_eq_ok h
  obtain ⟨requestedBackend,hbackend,h⟩ := bind_eq_ok h
  obtain ⟨selectedBackend,hfound,h⟩ := bind_eq_ok h
  obtain ⟨_,hexplicit,h⟩ := bind_eq_ok h
  obtain ⟨verification,-,h⟩ := bind_eq_ok h
  obtain ⟨_,hchecks,-⟩ := bind_eq_ok h
  obtain ⟨hbytesPos,rfl⟩ := (integerValue_iff rfl hinputBytes).mp hbytes
  obtain ⟨-,rfl⟩ := (integerValue_iff rfl hrecorded.blockSize.readable).mp hblockSize
  obtain ⟨hblocksPos,rfl⟩ := (integerValue_iff rfl hblocks).mp hwritten
  obtain ⟨hpeakPos,-⟩ := (integerValue_iff rfl hinflight).mp hpeak
  obtain ⟨hreadPos,-⟩ := (integerValue_iff rfl hreadPeak).mp hreadQueue
  obtain ⟨hwritePos,-⟩ := (integerValue_iff rfl hwritePeak).mp hwriteQueue
  obtain ⟨hrssPos,-⟩ := (integerValue_iff rfl hrss).mp hpeakRss
  obtain rfl := (textValue_iff rfl).mp hinputPath
  obtain rfl := (textValue_iff rfl).mp hselected
  have hboth : (textValue (sampleRow arguments run outcome) "requested_backend" >>=
      requireRequested) = .ok requestedBackend := by
    rw [hrequested]
    exact hbackend
  have hsame : requestedBackend = run.backend := requireRequested_label rfl hboth
  have hexplicit := checkAll_ok hexplicit
  have hchecks := checkAll_ok hchecks
  have hnames := checkAll_ok hnames
  simp only [List.mem_cons,List.not_mem_nil,or_false,forall_eq_or_imp,forall_eq,
    decide_eq_true_eq,Bool.and_eq_true,Bool.not_eq_true',List.isEmpty_eq_false_iff,
    Int.toNat_natCast] at hexplicit hchecks hnames
  refine ⟨hnames.2,⟨selectedBackend,requireSelected_iff.mp hfound,?_⟩,
    ⟨hbytesPos,hpeakPos,hreadPos,hwritePos,hrssPos⟩,?_,
    ⟨elapsedMs,(floatValue_iff rfl).mp helapsed⟩,?_⟩
  · intro expected hexpected
    rw [hsame,hexpected] at hexplicit
    exact (of_decide_eq_true hexplicit).symm
  · rw [← hchecks.2.1]
    exact (Int.toNat_of_nonneg hblocksPos).symm
  · simp only [List.mem_cons,List.not_mem_nil,or_false,forall_eq_or_imp,forall_eq]
    exact ⟨⟨_,(floatValue_iff rfl).mp hthroughput⟩,⟨_,(floatValue_iff rfl).mp hread⟩,
      ⟨_,(floatValue_iff rfl).mp hprocess⟩,⟨_,(floatValue_iff rfl).mp hwrite⟩,
      ⟨_,(floatValue_iff rfl).mp hstage⟩⟩

theorem parseRssLimit_row (h : Recorded py arguments run outcome) :
    parseRssLimit py (sampleRow arguments run outcome) outcome.peakRssKib.toNat =
      .ok (arguments.rssLimitMib,arguments.rssLimitMib.map fun (limit : ℕ) =>
        decide (outcome.peakRssKib ≤ (limit : ℤ)*1024)) := by
  cases hlimit : arguments.rssLimitMib with
  | none =>
    have hempty : ∀ field ∈ ["rss_limit_mib","rss_within_limit"],
        textValue (sampleRow arguments run outcome) field = .ok [] := by
      simp only [List.forall_mem_cons,sampleRow,sampleRecord,hlimit]
      exact ⟨textValue_cell rfl rfl,textValue_cell rfl rfl,by simp⟩
    rw [parseRssLimit,hempty _ (by simp),hempty _ (by simp)]
    rfl
  | some limit =>
    have hgiven := h.rssLimitMib limit hlimit
    have hcell : (sampleRow arguments run outcome).get "rss_limit_mib" = some (str limit) := by
      rw [sampleRow,sampleRecord,hlimit]
      rfl
    have hflag : (sampleRow arguments run outcome).get "rss_within_limit" =
        some (if outcome.peakRssKib ≤ (limit : ℤ)*1024 then "true".toList
          else "false".toList) := by
      rw [sampleRow,sampleRecord,hlimit]
      rfl
    have hnumber : integerValue py (sampleRow arguments run outcome) "rss_limit_mib" 1 =
        .ok limit :=
      (integerValue_iff hcell hgiven.readable).mpr ⟨by have := hgiven.pos; omega,by simp⟩
    have hnonempty : str limit ≠ [] := Nat.toDigits_ne_nil
    by_cases hwithin : outcome.peakRssKib ≤ (limit : ℤ)*1024
    · rw [if_pos hwithin] at hflag
      rw [parseRssLimit,textValue_cell hcell (strip_str _),textValue_cell hflag rfl]
      change (if str limit = [] then _ else (_ : Except RowProblem _)) = _
      rw [if_neg hnonempty,hnumber]
      change (if _ then _ else (_ : Except RowProblem _)) = _
      simp [hwithin]
    · rw [if_neg hwithin] at hflag
      rw [parseRssLimit,textValue_cell hcell (strip_str _),textValue_cell hflag rfl]
      change (if str limit = [] then _ else (_ : Except RowProblem _)) = _
      rw [if_neg hnonempty,hnumber]
      change (if _ then _ else (_ : Except RowProblem _)) = _
      simp [hwithin]

theorem parseSample_eq (h : Recorded py arguments run outcome)
    (hadmissible : Admissible py run outcome) : parseSample py (sampleRow arguments run outcome) =
      .ok (sampleFor py arguments run outcome) := by
  have hreadable := h.readable
  simp only [List.forall_mem_cons] at hreadable
  obtain ⟨hinputBytes,hpool,hblocks,hwritten,hinflight,hreadPeak,hwritePeak,hrss,-⟩ := hreadable
  obtain ⟨hbytesPos,hpeakPos,hreadPos,hwritePos,hrssPos⟩ := hadmissible.counts
  obtain ⟨selected,hselected,hexpected⟩ := hadmissible.selected
  obtain ⟨elapsed,helapsed,helapsedMin⟩ := hadmissible.elapsed
  have hnumbers := hadmissible.numbers
  simp only [List.forall_mem_cons] at hnumbers
  obtain ⟨⟨throughput,hthroughput⟩,⟨readAverage,hread⟩,⟨processAverage,hprocess⟩,
    ⟨writeAverage,hwrite⟩,⟨stageAverage,hstage⟩,-⟩ := hnumbers
  have hnat : ∀ (field : String) (n : ℕ),
      (sampleRow arguments run outcome).get field = some (str n) → Positive py n →
        integerValue py (sampleRow arguments run outcome) field 1 = .ok n :=
    fun field n hget hn => (integerValue_iff hget hn.readable).mpr
      ⟨by have := hn.pos; omega,(Int.toNat_natCast n).symm⟩
  have hint : ∀ (field : String) (z : ℤ),
      (sampleRow arguments run outcome).get field = some (str z) → py.Readable z.natAbs → 0 ≤ z →
        integerValue py (sampleRow arguments run outcome) field 0 = .ok z.toNat :=
    fun field z hget hz hpos => (integerValue_iff hget hz).mpr ⟨hpos,rfl⟩
  have hpoolPos : 1 ≤ outcome.bufferPoolBytes := by
    have hproduct := Nat.mul_pos h.blockSize.pos h.buffers.pos
    rw [h.pool]
    exact_mod_cast hproduct
  have hfloat : ∀ (field : String) (text : Text) (minimum q : ℚ),
      (sampleRow arguments run outcome).get field = some text →
      floatOf py text = some q ∧ minimum ≤ q →
      floatValue py (sampleRow arguments run outcome) field minimum = .ok q :=
    fun _ _ _ _ hget => (floatValue_iff hget).mpr
  have hlabel : requireRequested (strip run.backend.label) = .ok run.backend := by
    cases run.backend <;> rfl
  have hfound : SelectedBackend.ofLabel? selected.label = some selected := by cases selected <;> rfl
  refine (bind_of_ok (textValue_of_get rfl)).trans ?_
  refine (bind_of_ok (textValue_of_get rfl)).trans ?_
  refine (bind_of_ok (hint _ _ rfl hinputBytes hbytesPos)).trans ?_
  refine (bind_of_ok (textValue_of_get rfl)).trans ?_
  refine (bind_of_ok (textValue_of_get rfl)).trans ?_
  refine (bind_of_ok (hnat _ _ rfl h.blockSize)).trans ?_
  refine (bind_of_ok (hnat _ _ rfl h.buffers)).trans ?_
  refine (bind_of_ok (hnat _ _ rfl h.queueDepth)).trans ?_
  refine (bind_of_ok (hnat _ _ rfl h.threadWorkers)).trans ?_
  refine (bind_of_ok (hnat _ _ rfl h.sampleIndex)).trans ?_
  refine (bind_of_ok ((integerValue_iff rfl hpool).mpr ⟨hpoolPos,rfl⟩)).trans ?_
  refine (bind_of_ok (hint _ _ rfl hblocks (by rw [hadmissible.blocks]; positivity))).trans ?_
  refine (bind_of_ok (hint _ _ rfl hwritten (by rw [h.bytesWritten]; exact hbytesPos))).trans ?_
  refine (bind_of_ok (hint _ _ rfl hinflight hpeakPos)).trans ?_
  refine (bind_of_ok (hint _ _ rfl hreadPeak hreadPos)).trans ?_
  refine (bind_of_ok (hint _ _ rfl hwritePeak hwritePos)).trans ?_
  refine (bind_of_ok (hfloat _ _ _ elapsed rfl ⟨helapsed,helapsedMin⟩)).trans ?_
  refine (bind_of_ok (hfloat _ _ _ throughput rfl hthroughput)).trans ?_
  refine (bind_of_ok (hint _ _ rfl hrss hrssPos)).trans ?_
  refine Eq.trans (bind_of_ok (a := ()) (checkAll_iff.mpr ?_)) ?_
  · have hnames := And.intro h.environmentId hadmissible.inputPath
    simpa using hnames
  refine (bind_of_ok (hfloat _ _ _ readAverage rfl hread)).trans ?_
  refine (bind_of_ok (hfloat _ _ _ processAverage rfl hprocess)).trans ?_
  refine (bind_of_ok (hfloat _ _ _ writeAverage rfl hwrite)).trans ?_
  refine (bind_of_ok (hfloat _ _ _ stageAverage rfl hstage)).trans ?_
  refine (bind_of_ok hlabel).trans ?_
  refine (bind_of_ok (requireSelected_iff.mpr hselected)).trans ?_
  refine Eq.trans (bind_of_ok (a := ()) (checkAll_iff.mpr ?_)) ?_
  · have hall : (EXPLICIT_SELECTION run.backend).all (· = selected) = true := by
      cases hselection : EXPLICIT_SELECTION run.backend with
      | none => rfl
      | some expected => exact decide_eq_true (hexpected expected hselection).symm
    simpa using hall
  refine (bind_of_ok (textValue_of_get rfl)).trans ?_
  refine Eq.trans (bind_of_ok (a := ()) (checkAll_iff.mpr ?_)) ?_
  · have hblocksEq := hadmissible.blocks
    have hverification : strip outcome.verification = "passed".toList := by
      rw [h.verification]
      rfl
    have hpoolEq : outcome.bufferPoolBytes.toNat = run.blockSize*run.maxInflightBuffers := by
      rw [h.pool]
      exact_mod_cast Int.toNat_natCast (run.blockSize*run.maxInflightBuffers)
    obtain ⟨hpeak,hreadDepth,hwriteDepth⟩ := h.peaks
    simp only [List.forall_mem_cons,decide_eq_true_eq,Bool.and_eq_true,h.bytesWritten,hblocksEq,
      Int.toNat_natCast,hpoolEq,hverification,true_and]
    exact ⟨by omega,⟨by omega,by omega⟩,by simp⟩
  refine (bind_of_ok (parseRssLimit_row h)).trans ?_
  simp only [sampleFor,hselected,hfound,helapsed,hthroughput.1,Option.getD_some]
  rfl

end Recorded

end Sweep
end AsyncDataLoader
