import AsyncDataLoader.SweepReadBack
import AsyncDataLoader.Utf8

/-!
# The file of a sweep

The text that `write_csv_atomic` writes, and the samples that the analysis finds in it.
-/

namespace AsyncDataLoader
namespace Sweep

open Benchmark Python Grouping

abbrev Rows := List (RunConfig × Outcome)

def sweepRecords (arguments : Arguments) (rows : Rows) : List Csv.Record :=
  CSV_FIELDS.map String.toList::rows.map fun r => sampleRecord arguments r.1 r.2

def sweepBytes (quotesReturn : Bool) (arguments : Arguments) (rows : Rows) : List UInt8 :=
  Utf8.encode (Csv.writeRows quotesReturn (sweepRecords arguments rows))

/-- A text that has been read with the encoding `utf-8-sig`. -/
def decodeSig (bytes : List UInt8) : Option (List Char) :=
  (ByteArray.utf8Decode? bytes.toByteArray).map fun text =>
    match text.toList with
    | '\uFEFF'::cs => cs
    | cs => cs

def readCsv (fieldLimit : ℕ) (path : Text) (bytes : List UInt8) : Option CsvFile :=
  match decodeSig bytes with
  | none => none
  | some text =>
    match Csv.read fieldLimit text with
    | .error _ => none
    | .ok records => some ⟨path,records⟩

theorem decodeSig_encode {cs : List Char} (h : cs.head? ≠ some '\uFEFF') :
    decodeSig (Utf8.encode cs) = some cs := by
  have hbytes : (Utf8.encode cs).toByteArray = cs.utf8Encode := rfl
  rw [decodeSig,hbytes,List.utf8Decode?_utf8Encode,Option.map_some]
  cases cs with
  | nil => rfl
  | cons c cs =>
    dsimp only
    split
    · rename_i heq
      obtain ⟨rfl,-⟩ := List.cons.inj heq
      exact absurd rfl h
    · rfl

theorem sweepBytes_ne_nil (quotesReturn : Bool) (arguments : Arguments) (rows : Rows) :
    sweepBytes quotesReturn arguments rows ≠ [] := by
  intro h
  have hnil := @Utf8.encode_injective _ [] h
  rw [sweepRecords,Csv.writeRows,List.flatMap_cons,List.append_eq_nil_iff] at hnil
  cases quotesReturn <;> exact absurd hnil.1 (by decide)

/-- The cells that are read back: they are not too long, and a carriage return is quoted. -/
def Legible (quotesReturn : Bool) (fieldLimit : ℕ) (arguments : Arguments) (rows : Rows) : Prop :=
  ∀ record ∈ sweepRecords arguments rows, ∀ cell ∈ record, Csv.Kept quotesReturn fieldLimit cell

theorem readCsv_sweepBytes {quotesReturn : Bool} {fieldLimit : ℕ} {arguments : Arguments}
    {rows : Rows} (path : Text) (h : Legible quotesReturn fieldLimit arguments rows) :
    readCsv fieldLimit path (sweepBytes quotesReturn arguments rows) =
      some ⟨path,sweepRecords arguments rows⟩ := by
  have hhead : (Csv.writeRows quotesReturn (sweepRecords arguments rows)).head? ≠
      some '\uFEFF' := by
    rw [sweepRecords,Csv.writeRows,List.flatMap_cons]
    have hfirst : ∃ cs, Csv.writeRow quotesReturn (CSV_FIELDS.map String.toList) = 'e'::cs := by
      cases quotesReturn <;> exact ⟨_,rfl⟩
    obtain ⟨cs,hcs⟩ := hfirst
    rw [hcs]
    simp
  rw [readCsv,sweepBytes,decodeSig_encode hhead]
  simp only [Csv.read_writeRows h]

section Samples
variable {py : Interpreter} {arguments : Arguments} {path : Text}

def numbered (arguments : Arguments) (rows : Rows) (first : ℕ) : List (Row × ℕ) :=
  (rows.map fun r => sampleRow arguments r.1 r.2).zipIdx first

def samplesFor (py : Interpreter) (arguments : Arguments) (rows : Rows) : List Sample :=
  rows.map fun r => sampleFor py arguments r.1 r.2

theorem readRow_iff {run : RunConfig} {outcome : Outcome} {line : ℕ}
    {state state' : List (GroupKey × ℕ) × List Sample} (h : Recorded py arguments run outcome) :
    readRow py path state (sampleRow arguments run outcome,line) = .ok state' ↔
      Admissible py run outcome ∧ (sampleFor py arguments run outcome).identity ∉ state.1 ∧
        state.2.length < MAX_ROWS ∧
        state' = (state.1++[(sampleFor py arguments run outcome).identity],
          state.2++[sampleFor py arguments run outcome]) := by
  have hextra : (sampleRow arguments run outcome).extra = false := rfl
  rw [readRow,if_neg (by simp [hextra])]
  by_cases hadmissible : Admissible py run outcome
  · rw [parseSample_eq h hadmissible]
    dsimp only
    split_ifs with hseen hmany
    · simp [hseen]
    · rw [List.length_append,List.length_singleton] at hmany
      simp only [false_iff,not_and]
      intro _ _ hlt
      omega
    · rw [List.length_append,List.length_singleton] at hmany
      rw [Except.ok.injEq]
      refine ⟨fun heq => ⟨hadmissible,hseen,by omega,heq.symm⟩,fun hall => hall.2.2.2.symm⟩
  · cases hparse : parseSample py (sampleRow arguments run outcome) with
    | error problem => simp [hadmissible]
    | ok s => exact absurd (admissible_of_parseSample h hparse) hadmissible

theorem foldlM_readRow {rows : Rows} {first : ℕ} {seen : List (GroupKey × ℕ)}
    {samples : List Sample} (hrecorded : ∀ r ∈ rows, Recorded py arguments r.1 r.2)
    (hadmissible : ∀ r ∈ rows, Admissible py r.1 r.2)
    (hnodup : (seen++(samplesFor py arguments rows).map Sample.identity).Nodup)
    (hlength : samples.length+rows.length ≤ MAX_ROWS) :
    (numbered arguments rows first).foldlM (readRow py path) (seen,samples) =
      .ok (seen++(samplesFor py arguments rows).map Sample.identity,
        samples++samplesFor py arguments rows) := by
  induction rows generalizing first seen samples with
  | nil => simp [numbered,samplesFor,pure,Except.pure]
  | cons r rows ih =>
    obtain ⟨hr,hrows⟩ := List.forall_mem_cons.mp hrecorded
    obtain ⟨ha,has⟩ := List.forall_mem_cons.mp hadmissible
    rw [samplesFor,List.map_cons,List.map_cons,List.append_cons] at hnodup
    have hnew : (sampleFor py arguments r.1 r.2).identity ∉ seen := by
      have hleft := (List.nodup_append.mp (List.nodup_append.mp hnodup).1).2.2
      exact fun hmem => hleft _ hmem _ (List.mem_singleton_self _) rfl
    rw [List.length_cons] at hlength
    have hroom : samples.length < MAX_ROWS := by omega
    have hstep : readRow py path (seen,samples) (sampleRow arguments r.1 r.2,first) =
        .ok (seen++[(sampleFor py arguments r.1 r.2).identity],
          samples++[sampleFor py arguments r.1 r.2]) :=
      (readRow_iff hr).mpr ⟨ha,hnew,hroom,rfl⟩
    have hrest : (numbered arguments rows (first+1)).foldlM (readRow py path)
        (seen++[(sampleFor py arguments r.1 r.2).identity],
          samples++[sampleFor py arguments r.1 r.2]) =
          .ok (seen++[(sampleFor py arguments r.1 r.2).identity]++
            (samplesFor py arguments rows).map Sample.identity,
            samples++[sampleFor py arguments r.1 r.2]++samplesFor py arguments rows) := by
      refine ih hrows has hnodup ?_
      rw [List.length_append,List.length_singleton]
      omega
    rw [numbered,List.map_cons,List.zipIdx_cons,List.foldlM_cons]
    refine (bind_of_ok hstep).trans (hrest.trans ?_)
    rw [← List.append_cons,← List.append_cons]
    rfl

theorem of_foldlM_readRow {rows : Rows} {first : ℕ}
    {state state' : List (GroupKey × ℕ) × List Sample}
    (hrecorded : ∀ r ∈ rows, Recorded py arguments r.1 r.2)
    (h : (numbered arguments rows first).foldlM (readRow py path) state = .ok state') :
    (∀ r ∈ rows, Admissible py r.1 r.2) ∧ state'.2 = state.2++samplesFor py arguments rows ∧
      (rows ≠ [] → state'.2.length ≤ MAX_ROWS) := by
  induction rows generalizing first state with
  | nil =>
    obtain rfl := Except.ok.inj h
    simp [samplesFor]
  | cons r rows ih =>
    obtain ⟨hr,hrows⟩ := List.forall_mem_cons.mp hrecorded
    rw [numbered,List.map_cons,List.zipIdx_cons,List.foldlM_cons] at h
    obtain ⟨between,hstep,hrest⟩ := bind_eq_ok h
    obtain ⟨ha,-,hlt,rfl⟩ := (readRow_iff hr).mp hstep
    obtain ⟨has,hsamples,hmany⟩ := ih hrows hrest
    refine ⟨List.forall_mem_cons.mpr ⟨ha,has⟩,?_,fun _ => ?_⟩
    · rw [hsamples]
      exact (List.append_cons state.2 _ (samplesFor py arguments rows)).symm
    · cases rows with
      | nil =>
        rw [hsamples]
        simp only [samplesFor,List.map_nil,List.append_nil,List.length_append,
          List.length_singleton]
        omega
      | cons _ _ => exact hmany (by simp)

theorem dedup_length_eq_one {α : Type*} [DecidableEq α] {xs : List α} (hne : xs ≠ [])
    (h : ∀ x ∈ xs, ∀ y ∈ xs, x = y) : xs.dedup.length = 1 := by
  obtain ⟨x,ys,rfl⟩ := List.exists_cons_of_ne_nil hne
  have hall : ∀ y ∈ (x::ys).dedup, y = x := fun y hy =>
    h y (List.mem_dedup.mp hy) x List.mem_cons_self
  have hsingle := List.eq_replicate_of_mem hall
  have hnodup := List.nodup_dedup (x::ys)
  rw [hsingle,List.nodup_replicate] at hnodup
  have hpos : 0 < (x::ys).dedup.length :=
    List.length_pos_of_mem (List.mem_dedup.mpr List.mem_cons_self)
  omega

theorem mem_samplesFor {rows : Rows} {s : Sample} :
    s ∈ samplesFor py arguments rows ↔ ∃ r ∈ rows, sampleFor py arguments r.1 r.2 = s :=
  List.mem_map

theorem readSamples_of_fold {files : List CsvFile} {samples : List Sample}
    (hfold : files.foldlM (readFile py) [] = .ok samples) (hne : samples ≠ [])
    (henvironment : ∀ s ∈ samples, ∀ t ∈ samples, s.environmentId = t.environmentId)
    (hsize : ∀ s ∈ samples, ∀ t ∈ samples,
      s.inputPath = t.inputPath → s.inputBytes = t.inputBytes) :
    readSamples py files = .ok samples := by
  have hone : (samples.map Sample.environmentId).dedup.length = 1 := by
    refine dedup_length_eq_one (by simpa using hne) ?_
    simpa only [List.forall_mem_map] using henvironment
  have hsizes : (groupBy Sample.inputPath samples).any (fun sizes =>
      decide ((sizes.2.map Sample.inputBytes).dedup.length ≠ 1)) = false := by
    refine List.any_eq_false.mpr fun group hgroup hbad => of_decide_eq_true hbad ?_
    have hpartitions := groupBy_partitions Sample.inputPath samples
    refine dedup_length_eq_one (by simpa using hpartitions.ne_nil hgroup) ?_
    simp only [List.forall_mem_map]
    intro s hs t ht
    rw [hpartitions.group_eq group hgroup,List.mem_filter,decide_eq_true_eq] at hs ht
    exact hsize s hs.1 t ht.1 (hs.2.trans ht.2.symm)
  rw [readSamples,hfold]
  dsimp only
  rw [if_neg hne,if_neg (not_not.mpr hone),if_neg (by rw [hsizes]; exact Bool.false_ne_true)]

theorem readFile_sweepRecords (rows : Rows) :
    readFile py [] ⟨path,sweepRecords arguments rows⟩ =
      ((numbered arguments rows 2).foldlM (readRow py path) ([],[])).map Prod.snd := by
  have hheader : (REQUIRED_FIELDS.filter fun field =>
      field.toList ∉ (sweepRecords arguments rows).headD []) = [] := by
    refine List.filter_eq_nil_iff.mpr fun field hfield hmissing => ?_
    exact of_decide_eq_true hmissing (List.mem_map_of_mem hfield)
  have hnonempty : (rows.map fun r => sampleRecord arguments r.1 r.2).filter (· ≠ []) =
      rows.map fun r => sampleRecord arguments r.1 r.2 := by
    refine List.filter_eq_self.mpr fun record hrecord => ?_
    obtain ⟨r,-,rfl⟩ := List.mem_map.mp hrecord
    rfl
  have hrows : (CsvFile.mk path (sweepRecords arguments rows)).rows =
      numbered arguments rows 2 := by
    rw [CsvFile.rows,sweepRecords,List.tail_cons,hnonempty,List.map_map]
    rfl
  rw [readFile]
  dsimp only
  rw [if_neg (not_not.mpr hheader),hrows]

/-- The file of a sweep is accepted when every run is admissible, the sizes of an input agree, and
the runs are not too many; then its samples are those of the runs. -/
theorem readSamples_iff {rows : Rows} {samples : List Sample} (hne : rows ≠ [])
    (hrecorded : ∀ r ∈ rows, Recorded py arguments r.1 r.2)
    (hidentities : (∀ r ∈ rows, Admissible py r.1 r.2) →
      ((samplesFor py arguments rows).map Sample.identity).Nodup) :
    readSamples py [⟨path,sweepRecords arguments rows⟩] = .ok samples ↔
      ((∀ r ∈ rows, Admissible py r.1 r.2) ∧
        (∀ r ∈ rows, ∀ t ∈ rows, strip r.2.inputPath = strip t.2.inputPath →
          r.2.inputBytes = t.2.inputBytes) ∧ rows.length ≤ MAX_ROWS) ∧
      samples = samplesFor py arguments rows := by
  have hsingle : [CsvFile.mk path (sweepRecords arguments rows)].foldlM (readFile py) [] =
      readFile py [] ⟨path,sweepRecords arguments rows⟩ := by
    rw [List.foldlM_cons]
    exact bind_pure _
  constructor
  · intro h
    have haccepted := readSamples_accepted h
    rw [readSamples,hsingle,readFile_sweepRecords] at h
    cases hfold : (numbered arguments rows 2).foldlM (readRow py path) ([],[]) with
    | error failure =>
      rw [hfold] at h
      cases h
    | ok state =>
      obtain ⟨hadmissible,hsamples,hmany⟩ := of_foldlM_readRow hrecorded hfold
      rw [hfold] at h
      simp only [Except.map] at h
      split_ifs at h
      obtain rfl := Except.ok.inj h
      rw [List.nil_append] at hsamples
      refine ⟨⟨hadmissible,fun r hr t ht hpath => ?_,?_⟩,hsamples⟩
      · rw [hsamples] at haccepted
        have hbytes := haccepted.size _ (mem_samplesFor.mpr ⟨r,hr,rfl⟩) _
          (mem_samplesFor.mpr ⟨t,ht,rfl⟩) hpath
        have hrpos := (hadmissible r hr).counts.1
        have htpos := (hadmissible t ht).counts.1
        change r.2.inputBytes.toNat = t.2.inputBytes.toNat at hbytes
        omega
      · have hlength := hmany hne
        rwa [hsamples,samplesFor,List.length_map] at hlength
  · rintro ⟨⟨hadmissible,hbytes,hlength⟩,rfl⟩
    refine readSamples_of_fold ?_ ?_ ?_ ?_
    · rw [hsingle,readFile_sweepRecords,foldlM_readRow hrecorded hadmissible]
      · rfl
      · exact hidentities hadmissible
      · simpa using hlength
    · simpa [samplesFor] using hne
    · intro s hs t ht
      obtain ⟨r,-,rfl⟩ := mem_samplesFor.mp hs
      obtain ⟨r',-,rfl⟩ := mem_samplesFor.mp ht
      rfl
    · intro s hs t ht hpath
      obtain ⟨r,hr,rfl⟩ := mem_samplesFor.mp hs
      obtain ⟨r',hr',rfl⟩ := mem_samplesFor.mp ht
      exact congrArg Int.toNat (hbytes r hr r' hr' hpath)

end Samples

end Sweep
end AsyncDataLoader
