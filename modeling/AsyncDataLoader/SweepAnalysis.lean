import AsyncDataLoader.SweepSafety

/-!
# The analysis of a sweep

What the analysis script reads of a file that a sweep has published.
-/

namespace AsyncDataLoader
namespace Sweep

open Benchmark Python FileIO KeyValue

section
variable {py : Interpreter} {arguments : Arguments}

theorem Positive.mono {m n : ℕ} (h : Positive py n) (hpos : 0 < m) (hle : m ≤ n) : Positive py m :=
  ⟨hpos,h.readable.mono hle⟩

theorem IntegerOf.readable {values : Dictionary} {name : String} {z : ℤ}
    (h : IntegerOf py values name z) : py.Readable z.natAbs := by
  obtain ⟨text,-,hint⟩ := h
  exact Interpreter.readable_of_int hint

theorem recorded_of_outcomeOf {floats : FloatText py} {run : RunConfig} {values : Dictionary}
    {outcome : Outcome} {text : Text} (hgiven : arguments.Given py) (hlisted : arguments.Listed run)
    (houtcome : OutcomeOf floats run values outcome)
    (hpeak : py.int text = some outcome.peakRssKib) : Recorded py arguments run outcome := by
  obtain ⟨hblockSize,hbuffers,hqueueDepth,-,hfirst,hlast⟩ := hlisted
  refine {
    environmentId := hgiven.environmentId.1
    threadWorkers := hgiven.threadWorkers
    rssLimitMib := hgiven.rssLimitMib
    blockSize := hgiven.blockSizes.2 _ hblockSize
    buffers := hgiven.buffers.2 _ hbuffers
    queueDepth := hgiven.queueDepths.2 _ hqueueDepth
    sampleIndex := hgiven.iterations.mono hfirst hlast
    readable := ?_
    bytesWritten := houtcome.bytesWritten
    pool := houtcome.pool
    peaks := houtcome.peaks
    verification := houtcome.verification }
  simp only [List.forall_mem_cons]
  refine ⟨houtcome.inputBytes.readable,houtcome.bufferPoolBytes.readable,
    houtcome.blocksWritten.readable,?_,houtcome.inflightPeak.readable,
    houtcome.readQueuePeak.readable,houtcome.writeQueuePeak.readable,
    Interpreter.readable_of_int hpeak,by simp⟩
  rw [houtcome.bytesWritten]
  exact houtcome.inputBytes.readable

theorem carriageReturn_str (z : ℤ) : '\r' ∉ str z := by
  have hdigits : ∀ n : ℕ, '\r' ∉ Nat.toDigits 10 n := fun n hmem =>
    absurd (Nat.isDigit_of_mem_toDigits (by decide) (by decide) hmem) (by decide)
  cases z with
  | ofNat n => exact hdigits n
  | negSucc n =>
    intro hmem
    obtain heq | hmem := List.mem_cons.mp hmem
    · exact absurd heq (by decide)
    · exact hdigits (n+1) hmem

theorem carriageReturn_plain {text : Text} (h : Plain text) : '\r' ∉ text := fun hmem =>
  absurd (h _ hmem) (by decide)

theorem FloatOf.one_line {floats : FloatText py} {values : Dictionary} {name : String}
    {written : Text} (h : FloatOf floats values name written) : '\r' ∉ written := by
  obtain ⟨text,x,-,-,rfl⟩ := h
  exact floats.one_line text

theorem carriageReturn_record {floats : FloatText py} {run : RunConfig} {stdout : Text}
    {outcome : Outcome} (hgiven : arguments.Given py)
    (houtcome : OutcomeOf floats run (parseKeyValueOutput stdout) outcome)
    (hpath : '\r' ∉ outcome.inputPath) :
    ∀ cell ∈ sampleRecord arguments run outcome, '\r' ∉ cell := by
  have hselected := (parse_plain stdout _ _ houtcome.selectedBackend).2
  have hlabel : '\r' ∉ run.backend.label := by cases run.backend <;> decide
  have hverification : '\r' ∉ outcome.verification := by
    rw [houtcome.verification]
    decide
  obtain ⟨hread,hprocess,hwrite,hstage⟩ := houtcome.averages
  simp only [sampleRecord,List.forall_mem_cons]
  refine ⟨hgiven.environmentId.2.2,hpath,carriageReturn_str _,hlabel,
    carriageReturn_plain hselected,carriageReturn_str _,carriageReturn_str _,carriageReturn_str _,
    carriageReturn_str _,carriageReturn_str _,carriageReturn_str _,carriageReturn_str _,
    carriageReturn_str _,carriageReturn_str _,carriageReturn_str _,carriageReturn_str _,
    hread.one_line,hprocess.one_line,hwrite.one_line,hstage.one_line,houtcome.elapsedMs.one_line,
    houtcome.throughputMibS.one_line,carriageReturn_str _,?_,?_,hverification,by simp⟩
  · split
    · exact List.not_mem_nil
    · exact carriageReturn_str _
  · split
    · exact List.not_mem_nil
    · split_ifs <;> decide

variable {env : SweepEnvironment py} {rows : Rows}

theorem outcomeOf_row (hrows : env.RowsOf arguments rows []) {r : RunConfig × Outcome}
    (hr : r ∈ rows) : ∃ stdout text, OutcomeOf env.floats r.1 (parseKeyValueOutput stdout) r.2 ∧
      py.int text = some r.2.peakRssKib := by
  obtain ⟨index,hindex⟩ := List.getElem?_of_mem hr
  obtain ⟨inputPath,completed,text,peak,-,-,-,-,hpeak,hread⟩ := (hrows.rows index r hindex).read
  obtain ⟨houtcome,-,rfl⟩ := readOutcome_ok hread
  exact ⟨completed.stdout,text,houtcome,hpeak⟩

theorem recorded_row (hgiven : arguments.Given py) (hrows : env.RowsOf arguments rows [])
    {r : RunConfig × Outcome} (hr : r ∈ rows) : Recorded py arguments r.1 r.2 := by
  obtain ⟨stdout,text,houtcome,hpeak⟩ := outcomeOf_row hrows hr
  have hplan := hrows.plan
  rw [List.append_nil] at hplan
  have hlisted : arguments.Listed r.1 := mem_buildRunPlan.mp (hplan ▸ List.mem_map_of_mem hr)
  exact recorded_of_outcomeOf hgiven hlisted houtcome hpeak

theorem any_exceeds (py : Interpreter) (rows : Rows) : rows.any (exceeds arguments) =
    (samplesFor py arguments rows).any (·.rssWithinLimit = some false) := by
  rw [samplesFor,List.any_map]
  refine congrArg rows.any (funext fun r => ?_)
  cases hlimit : arguments.rssLimitMib with
  | none => simp [exceeds,sampleFor,hlimit]
  | some limit => by_cases hle : r.2.peakRssKib ≤ (limit : ℤ)*1024 <;>
      simp [exceeds,sampleFor,hlimit,hle]

theorem rows_ne_nil (hgiven : arguments.Given py) (hrows : env.RowsOf arguments rows []) :
    rows ≠ [] := by
  rintro rfl
  have hplan := congrArg List.length hrows.plan
  rw [length_buildRunPlan,Arguments.totalRuns] at hplan
  have hpos := Nat.mul_pos (Nat.mul_pos (Nat.mul_pos (Nat.mul_pos
    (List.length_pos_of_ne_nil hgiven.blockSizes.1) (List.length_pos_of_ne_nil hgiven.buffers.1))
    (List.length_pos_of_ne_nil hgiven.queueDepths.1)) (List.length_pos_of_ne_nil hgiven.backends))
    hgiven.iterations.pos
  simp only [List.map_nil,List.append_nil,List.length_nil] at hplan
  omega

theorem identities_rows (haccepted : arguments.Accepted) (hgiven : arguments.Given py)
    (hrows : env.RowsOf arguments rows []) (hadmissible : ∀ r ∈ rows, Admissible py r.1 r.2) :
    ((samplesFor py arguments rows).map Sample.identity).Nodup := by
  have hplan := hrows.plan
  rw [List.append_nil] at hplan
  have hzip : (buildRunPlan arguments).zip (rows.map Prod.snd) = rows := by
    rw [← hplan]
    exact (List.zip_of_prod rfl rfl).symm
  have hpairs := identities_buildRunPlan haccepted py (rows.map Prod.snd)
  rw [hzip] at hpairs
  rw [samplesFor,List.map_map,List.Nodup,List.pairwise_map]
  refine hpairs.imp_of_mem fun {a b} ha hb hne => ?_
  exact hne _ _ (parseSample_eq (recorded_row hgiven hrows ha) (hadmissible a ha))
    (parseSample_eq (recorded_row hgiven hrows hb) (hadmissible b hb))

theorem legible_rows {fieldLimit : ℕ} (hgiven : arguments.Given py)
    (hrows : env.RowsOf arguments rows [])
    (hlength : ∀ record ∈ sweepRecords arguments rows, ∀ cell ∈ record, cell.length ≤ fieldLimit)
    (hreturn : env.quotesReturn = true ∨ ∀ r ∈ rows, '\r' ∉ r.2.inputPath) :
    Legible env.quotesReturn fieldLimit arguments rows := by
  intro record hrecord cell hcell
  refine ⟨hlength record hrecord cell hcell,hreturn.imp_right fun hpaths => ?_⟩
  obtain rfl | hrecord := List.mem_cons.mp hrecord
  · have hheader : ∀ cell ∈ CSV_FIELDS.map String.toList, '\r' ∉ cell := by decide
    exact hheader cell hcell
  · obtain ⟨r,hr,rfl⟩ := List.mem_map.mp hrecord
    obtain ⟨stdout,text,houtcome,-⟩ := outcomeOf_row hrows hr
    exact carriageReturn_record hgiven houtcome (hpaths r hr) cell hcell

end

/-- What the analysis makes of a published file: it finds the records of the sweep in it, and takes
them all or refuses the file. -/
structure ReadBack (py : Interpreter) (env : SweepEnvironment py) (arguments : Arguments)
    (rows : Rows) (code : ℕ) : Prop where
  plan : rows.map Prod.fst = buildRunPlan arguments
  runs : ∀ index r, rows[index]? = some r → env.RowOf index r
  found : ∀ fieldLimit,
    (∀ record ∈ sweepRecords arguments rows, ∀ cell ∈ record, cell.length ≤ fieldLimit) →
    (env.quotesReturn = true ∨ ∀ r ∈ rows, '\r' ∉ r.2.inputPath) →
    readCsv fieldLimit arguments.csv (sweepBytes env.quotesReturn arguments rows) =
      some ⟨arguments.csv,sweepRecords arguments rows⟩
  accepted : ∀ samples, readSamples py [⟨arguments.csv,sweepRecords arguments rows⟩] = .ok samples ↔
    ((∀ r ∈ rows, Admissible py r.1 r.2) ∧
      (∀ r ∈ rows, ∀ t ∈ rows, strip r.2.inputPath = strip t.2.inputPath →
        r.2.inputBytes = t.2.inputBytes) ∧ rows.length ≤ MAX_ROWS) ∧
      samples = samplesFor py arguments rows
  code : code = env.exitStatus
    (if (samplesFor py arguments rows).any (·.rssWithinLimit = some false) then 3 else 0)

/-- The file of a sweep that has succeeded is read back by the analysis as the samples of its runs
in the order of the plan; the sweep has returned three if one of them was over the limit. -/
theorem sweep_read_back {py : Interpreter} (env : SweepEnvironment py)
    {options : List (SweepOption × Text)} {arguments : Arguments} (before : FileSystem Path Bytes)
    {s : SweepState} {code : ℕ} (hparse : parseArguments py options = .ok arguments)
    (h : env.Honoured arguments) (hs : (env.system arguments).Reachable ⟨.prepare,before⟩ s)
    (hend : s.place = .exited code none) : ∃ rows inode,
      s.files.denotes (env.csvEntry arguments).1 (env.csvEntry arguments).2 =
        some (inode,sweepBytes env.quotesReturn arguments rows) ∧
      ReadBack py env arguments rows code := by
  have hconsistent := SweepEnvironment.reachable_consistent h hs
  have hgiven := parseArguments_given hparse
  rw [hend] at hconsistent
  obtain ⟨returned,rfl,⟨-,hne,-⟩ | ⟨rows,⟨⟨hrows,inode,hentry,-⟩,-,-⟩,⟨-,hne⟩ | ⟨-,hcode⟩⟩⟩ :=
    hconsistent
  · exact absurd rfl hne
  · exact absurd rfl hne
  refine ⟨rows,inode,hentry,?_,hrows.rows,fun fieldLimit hlength hreturn => ?_,fun samples => ?_,?_⟩
  · rw [← hrows.plan,List.append_nil]
  · exact readCsv_sweepBytes _ (legible_rows hgiven hrows hlength hreturn)
  · exact readSamples_iff (rows_ne_nil hgiven hrows) (fun r hr => recorded_row hgiven hrows hr)
      (identities_rows (parseArguments_accepted hparse) hgiven hrows)
  · rw [hcode,any_exceeds py]

def smallestOptions : List (SweepOption × Text) :=
  [(.executable,"demo"),(.timeExecutable,"time"),(.input,"in"),(.outputDirectory,"d"),(.csv,"c"),
    (.environmentId,"e"),(.blockSizes,"4096"),(.buffers,"3"),(.queueDepths,"1"),
    (.backends,"sync"),(.iterations,"1")].map fun option => (option.1,option.2.toList)

def smallestRows : Rows := [(smallestRun,smallestOutcome)]

/-- The record of the smallest sweep has an input path with commas, quotes and line feeds. -/
theorem sweep_read_back_smallest : ∃ files inode,
    (SweepEnvironment.smallest.system smallestArguments).Reachable ⟨.prepare,withRecords⟩
        ⟨.exited 0 none,files⟩ ∧
      files.denotes (SweepEnvironment.smallest.csvEntry smallestArguments).1
          (SweepEnvironment.smallest.csvEntry smallestArguments).2 =
        some (inode,sweepBytes true smallestArguments smallestRows) ∧
      readCsv 131072 "c".toList (sweepBytes true smallestArguments smallestRows) =
        some ⟨"c".toList,sweepRecords smallestArguments smallestRows⟩ ∧
      smallestOutcome.inputPath = "/a,\"b\"\nc/in".toList ∧
      ReadBack exact SweepEnvironment.smallest smallestArguments smallestRows 0 := by
  obtain ⟨files,hfiles⟩ := SweepEnvironment.smallest_run
  have hparse : parseArguments exact smallestOptions = .ok smallestArguments := by decide +kernel
  obtain ⟨rows,inode,hdenotes,hread⟩ := sweep_read_back SweepEnvironment.smallest withRecords hparse
    SweepEnvironment.smallest_honoured hfiles rfl
  have hrows : rows = smallestRows := by
    have hplan := hread.plan
    rw [plan_smallest] at hplan
    obtain ⟨⟨run,outcome⟩,rest,rfl,rfl,hrest⟩ := List.map_eq_cons_iff.mp hplan
    obtain rfl := List.map_eq_nil_iff.mp hrest
    obtain ⟨⟨inputPath,completed,text,peak,hpath,hchild,-,htext,hpeak,houtcome⟩⟩ :=
      hread.runs 0 _ rfl
    obtain rfl := Except.ok.inj hpath
    obtain rfl := Except.ok.inj hchild
    obtain rfl := Except.ok.inj htext
    have htwo : exact.int "2048".toList = some 2048 := by decide +kernel
    obtain rfl : 2048 = peak := Option.some.inj (htwo.symm.trans hpeak)
    have houtcome : outcome = smallestOutcome :=
      Except.ok.inj (houtcome.symm.trans readOutcome_smallest)
    rw [smallestRows,houtcome]
  subst hrows
  refine ⟨files,inode,hfiles,hdenotes,hread.found 131072 ?_ (.inl rfl),rfl,hread⟩
  decide +kernel

end Sweep
end AsyncDataLoader
