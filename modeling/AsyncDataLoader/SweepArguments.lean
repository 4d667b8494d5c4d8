import AsyncDataLoader.BenchmarkSamples

/-!
# Arguments of the parameter sweep

What `parse_arguments` of the sweep script makes of the options that it is given.
-/

namespace AsyncDataLoader
namespace Sweep

open Benchmark Python

def ALIGNMENT : ℕ := 4096

def positiveInteger (py : Interpreter) (text : Text) : Except String ℕ :=
  match py.int text with
  | none => .error "requires a positive integer"
  | some value => if value ≤ 0 then .error "requires a positive integer" else .ok value.toNat

def backendItem (text : Text) : Except String RequestedBackend :=
  match RequestedBackend.ofLabel? text with
  | none => .error "backends must be sync, threadpool, uring, or auto"
  | some backend => .ok backend

/-- One turn of the loop over the items of a list; a value that has been seen is left out. -/
def addItem {α : Type} [DecidableEq α] (parse : Text → Except String α) (values : List α)
    (item : Text) : Except String (List α) := do
  let value ← parse (strip item)
  return if value ∈ values then values else values++[value]

def itemList {α : Type} [DecidableEq α] (parse : Text → Except String α) (problem : String)
    (text : Text) : Except String (List α) := do
  let values ← (split ',' text).foldlM (addItem parse) []
  if values = [] then .error problem else .ok values

def positiveIntegerList (py : Interpreter) (text : Text) : Except String (List ℕ) :=
  itemList (positiveInteger py) "requires at least one integer" text

def backendList (text : Text) : Except String (List RequestedBackend) :=
  itemList backendItem "requires at least one backend" text

/-- The options in the order in which they have been added to the parser. -/
inductive SweepOption
  | executable
  | timeExecutable
  | input
  | outputDirectory
  | csv
  | environmentId
  | blockSizes
  | buffers
  | queueDepths
  | backends
  | threadWorkers
  | iterations
  | maxRuns
  | rssLimitMib
  deriving DecidableEq, Repr

def SweepOption.flag : SweepOption → String
  | executable => "--executable"
  | timeExecutable => "--time-executable"
  | input => "--input"
  | outputDirectory => "--output-directory"
  | csv => "--csv"
  | environmentId => "--environment-id"
  | blockSizes => "--block-sizes"
  | buffers => "--buffers"
  | queueDepths => "--queue-depths"
  | backends => "--backends"
  | threadWorkers => "--thread-workers"
  | iterations => "--iterations"
  | maxRuns => "--max-runs"
  | rssLimitMib => "--rss-limit-mib"

inductive ArgumentProblem
  | argument (flag : String) (problem : String)
  | required (flags : List String)
  | message (text : String)
  deriving DecidableEq, Repr

/-- The namespace while the options are read, with the defaults of those that have not been given.
Paths are the texts of which they are made. -/
structure Given where
  executable : Option Text := none
  timeExecutable : Text := "/usr/bin/time".toList
  input : Option Text := none
  outputDirectory : Option Text := none
  csv : Option Text := none
  environmentId : Option Text := none
  blockSizes : Option (List ℕ) := none
  buffers : Option (List ℕ) := none
  queueDepths : Option (List ℕ) := none
  backends : List RequestedBackend := [.sync,.threadpool,.uring]
  threadWorkers : ℕ := 2
  iterations : ℕ := 3
  maxRuns : ℕ := 1000
  rssLimitMib : Option ℕ := none

def typed {α : Type} (option : SweepOption) (value : Except String α) :
    Except ArgumentProblem α :=
  value.mapError (.argument option.flag)

/-- Store the value of an option; one that is given again replaces the earlier value. -/
def Given.store (py : Interpreter) (given : Given) :
    SweepOption × Text → Except ArgumentProblem Given
  | (.executable,text) => .ok { given with executable := some text }
  | (.timeExecutable,text) => .ok { given with timeExecutable := text }
  | (.input,text) => .ok { given with input := some text }
  | (.outputDirectory,text) => .ok { given with outputDirectory := some text }
  | (.csv,text) => .ok { given with csv := some text }
  | (.environmentId,text) => .ok { given with environmentId := some text }
  | (.blockSizes,text) => do
    let values ← typed .blockSizes (positiveIntegerList py text)
    return { given with blockSizes := some values }
  | (.buffers,text) => do
    let values ← typed .buffers (positiveIntegerList py text)
    return { given with buffers := some values }
  | (.queueDepths,text) => do
    let values ← typed .queueDepths (positiveIntegerList py text)
    return { given with queueDepths := some values }
  | (.backends,text) => do
    let values ← typed .backends (backendList text)
    return { given with backends := values }
  | (.threadWorkers,text) => do
    let value ← typed .threadWorkers (positiveInteger py text)
    return { given with threadWorkers := value }
  | (.iterations,text) => do
    let value ← typed .iterations (positiveInteger py text)
    return { given with iterations := value }
  | (.maxRuns,text) => do
    let value ← typed .maxRuns (positiveInteger py text)
    return { given with maxRuns := value }
  | (.rssLimitMib,text) => do
    let value ← typed .rssLimitMib (positiveInteger py text)
    return { given with rssLimitMib := some value }

def Given.missing (given : Given) : List String :=
  ([(given.executable.isNone,SweepOption.executable),(given.input.isNone,.input),
    (given.outputDirectory.isNone,.outputDirectory),(given.csv.isNone,.csv),
    (given.environmentId.isNone,.environmentId),(given.blockSizes.isNone,.blockSizes),
    (given.buffers.isNone,.buffers),(given.queueDepths.isNone,.queueDepths)].filter
      Prod.fst).map fun option => option.2.flag

structure Arguments where
  executable : Text
  timeExecutable : Text
  input : Text
  outputDirectory : Text
  csv : Text
  environmentId : Text
  blockSizes : List ℕ
  buffers : List ℕ
  queueDepths : List ℕ
  backends : List RequestedBackend
  threadWorkers : ℕ
  iterations : ℕ
  maxRuns : ℕ
  rssLimitMib : Option ℕ
  deriving DecidableEq

def Arguments.totalRuns (arguments : Arguments) : ℕ :=
  arguments.blockSizes.length*arguments.buffers.length*arguments.queueDepths.length*
    arguments.backends.length*arguments.iterations

def Given.complete (given : Given) : Except ArgumentProblem Arguments :=
  match given.executable,given.input,given.outputDirectory,given.csv,given.environmentId,
    given.blockSizes,given.buffers,given.queueDepths with
  | some executable,some input,some outputDirectory,some csv,some environmentId,some blockSizes,
    some buffers,some queueDepths =>
    .ok ⟨executable,given.timeExecutable,input,outputDirectory,csv,environmentId,blockSizes,buffers,
      queueDepths,given.backends,given.threadWorkers,given.iterations,given.maxRuns,
      given.rssLimitMib⟩
  | _,_,_,_,_,_,_,_ => .error (.required given.missing)

def Arguments.check (arguments : Arguments) : Except ArgumentProblem Arguments :=
  if strip arguments.environmentId = [] then
    .error (.message "--environment-id must not be empty")
  else if '\n' ∈ arguments.environmentId ∨ '\r' ∈ arguments.environmentId then
    .error (.message "--environment-id must be one line")
  else if arguments.blockSizes.any (·%ALIGNMENT ≠ 0) then
    .error (.message "every block size must be a multiple of 4096")
  else if arguments.buffers.any (· < 3) then
    .error (.message "every buffer count must be at least 3 for overlap")
  else if arguments.totalRuns > arguments.maxRuns then
    .error (.message ("parameter matrix needs "++toString arguments.totalRuns++
      " runs, above --max-runs="++toString arguments.maxRuns))
  else .ok arguments

/-- The parser is given options that it knows, each with its text. -/
def parseArguments (py : Interpreter) (options : List (SweepOption × Text)) :
    Except ArgumentProblem Arguments := do
  let given ← options.foldlM (Given.store py) {}
  let arguments ← given.complete
  arguments.check

section Items
variable {α : Type} [DecidableEq α] {parse : Text → Except String α}

theorem addItem_ok {values values' : List α} {item : Text} (h : addItem parse values item = .ok values')
    (hnodup : values.Nodup) : values'.Nodup ∧
      ∀ value, value ∈ values' ↔ value ∈ values ∨ parse (strip item) = .ok value := by
  obtain ⟨value,hvalue,h⟩ := bind_eq_ok h
  obtain rfl := Except.ok.inj h
  have hsame : ∀ other, parse (strip item) = .ok other ↔ other = value := by
    intro other
    rw [hvalue,Except.ok.injEq,eq_comm]
  simp only [hsame]
  split_ifs with hmem
  · refine ⟨hnodup,fun other => ⟨Or.inl,?_⟩⟩
    rintro (hother | rfl)
    · exact hother
    · exact hmem
  · refine ⟨List.nodup_append.mpr ⟨hnodup,List.nodup_singleton _,?_⟩,fun other => ?_⟩
    · intro a ha b hb
      rw [List.mem_singleton.mp hb]
      exact ne_of_mem_of_not_mem ha hmem
    · rw [List.mem_append,List.mem_singleton]

theorem foldlM_addItem {items : List Text} {values values' : List α}
    (h : items.foldlM (addItem parse) values = .ok values') (hnodup : values.Nodup) :
    values'.Nodup ∧ ∀ value,
      value ∈ values' ↔ value ∈ values ∨ ∃ item ∈ items, parse (strip item) = .ok value := by
  refine foldlM_history (I := fun items values' => values'.Nodup ∧ ∀ value,
    value ∈ values' ↔ value ∈ values ∨ ∃ item ∈ items, parse (strip item) = .ok value) ?_
    ⟨hnodup,by simp⟩ h
  rintro before found item found' ⟨hfound,hmem⟩ hstep
  obtain ⟨hfound',hmem'⟩ := addItem_ok hstep hfound
  refine ⟨hfound',fun value => ?_⟩
  rw [hmem',hmem,or_assoc]
  simp only [List.mem_append,List.mem_singleton,or_and_right,exists_or,exists_eq_left]

theorem itemList_ok {problem : String} {text : Text} {values : List α}
    (h : itemList parse problem text = .ok values) : values.Nodup ∧
      ∀ value, value ∈ values ↔ ∃ item ∈ split ',' text, parse (strip item) = .ok value := by
  obtain ⟨found,hfound,h⟩ := bind_eq_ok h
  split_ifs at h
  obtain rfl := Except.ok.inj h
  obtain ⟨hnodup,hmem⟩ := foldlM_addItem hfound List.nodup_nil
  exact ⟨hnodup,fun value => by simpa using hmem value⟩

end Items

theorem positiveInteger_pos {py : Interpreter} {text : Text} {value : ℕ}
    (h : positiveInteger py text = .ok value) : 0 < value := by
  unfold positiveInteger at h
  split at h
  · cases h
  · split_ifs at h
    rw [← Except.ok.inj h]
    omega

theorem positiveIntegerList_ok {py : Interpreter} {text : Text} {values : List ℕ}
    (h : positiveIntegerList py text = .ok values) : values.Nodup ∧ ∀ value ∈ values, 0 < value := by
  obtain ⟨hnodup,hmem⟩ := itemList_ok h
  refine ⟨hnodup,fun value hvalue => ?_⟩
  obtain ⟨item,-,hitem⟩ := (hmem value).mp hvalue
  exact positiveInteger_pos hitem

theorem typed_ok {α : Type} {option : SweepOption} {result : Except String α} {value : α}
    (h : typed option result = .ok value) : result = .ok value := by
  cases result with
  | error problem => cases h
  | ok found => exact congrArg Except.ok (Except.ok.inj h)

/-- The lists that have been given are positive and without repetitions. -/
structure Given.Valid (given : Given) : Prop where
  blockSizes : ∀ values ∈ given.blockSizes, values.Nodup ∧ ∀ value ∈ values, 0 < value
  buffers : ∀ values ∈ given.buffers, values.Nodup ∧ ∀ value ∈ values, 0 < value
  queueDepths : ∀ values ∈ given.queueDepths, values.Nodup ∧ ∀ value ∈ values, 0 < value
  backends : given.backends.Nodup
  iterations : 0 < given.iterations

theorem Given.Valid.initial : ({} : Given).Valid :=
  ⟨nofun,nofun,nofun,by decide,by decide⟩

theorem Given.Valid.store {py : Interpreter} {given given' : Given} {option : SweepOption × Text}
    (hgiven : given.Valid) (h : given.store py option = .ok given') : given'.Valid := by
  obtain ⟨option,text⟩ := option
  cases option with
  | executable | timeExecutable | input | outputDirectory | csv | environmentId =>
    obtain rfl := Except.ok.inj h
    exact ⟨hgiven.blockSizes,hgiven.buffers,hgiven.queueDepths,hgiven.backends,hgiven.iterations⟩
  | threadWorkers | maxRuns | rssLimitMib =>
    obtain ⟨value,-,h⟩ := bind_eq_ok h
    obtain rfl := Except.ok.inj h
    exact ⟨hgiven.blockSizes,hgiven.buffers,hgiven.queueDepths,hgiven.backends,hgiven.iterations⟩
  | blockSizes =>
    obtain ⟨values,hvalues,h⟩ := bind_eq_ok h
    obtain rfl := Except.ok.inj h
    refine { hgiven with blockSizes := fun found hfound => ?_ }
    rw [← Option.some.inj hfound]
    exact positiveIntegerList_ok (typed_ok hvalues)
  | buffers =>
    obtain ⟨values,hvalues,h⟩ := bind_eq_ok h
    obtain rfl := Except.ok.inj h
    refine { hgiven with buffers := fun found hfound => ?_ }
    rw [← Option.some.inj hfound]
    exact positiveIntegerList_ok (typed_ok hvalues)
  | queueDepths =>
    obtain ⟨values,hvalues,h⟩ := bind_eq_ok h
    obtain rfl := Except.ok.inj h
    refine { hgiven with queueDepths := fun found hfound => ?_ }
    rw [← Option.some.inj hfound]
    exact positiveIntegerList_ok (typed_ok hvalues)
  | backends =>
    obtain ⟨values,hvalues,h⟩ := bind_eq_ok h
    obtain rfl := Except.ok.inj h
    exact { hgiven with backends := (itemList_ok (typed_ok hvalues)).1 }
  | iterations =>
    obtain ⟨value,hvalue,h⟩ := bind_eq_ok h
    obtain rfl := Except.ok.inj h
    exact { hgiven with iterations := positiveInteger_pos (typed_ok hvalue) }

/-- What holds of the arguments that `parse_arguments` returns. -/
structure Arguments.Accepted (arguments : Arguments) : Prop where
  blockSizes : arguments.blockSizes.Nodup ∧
    ∀ blockSize ∈ arguments.blockSizes, 0 < blockSize ∧ ALIGNMENT ∣ blockSize
  buffers : arguments.buffers.Nodup ∧ ∀ buffers ∈ arguments.buffers, 3 ≤ buffers
  queueDepths : arguments.queueDepths.Nodup ∧ ∀ depth ∈ arguments.queueDepths, 0 < depth
  backends : arguments.backends.Nodup
  iterations : 0 < arguments.iterations
  totalRuns : arguments.totalRuns ≤ arguments.maxRuns

theorem Given.complete_ok {given : Given} {arguments : Arguments}
    (h : given.complete = .ok arguments) :
    given.blockSizes = some arguments.blockSizes ∧ given.buffers = some arguments.buffers ∧
      given.queueDepths = some arguments.queueDepths ∧ given.backends = arguments.backends ∧
      given.iterations = arguments.iterations := by
  unfold Given.complete at h
  split at h
  · rename_i hblockSizes hbuffers hqueueDepths
    obtain rfl := Except.ok.inj h
    exact ⟨hblockSizes,hbuffers,hqueueDepths,rfl,rfl⟩
  · cases h

theorem parseArguments_accepted {py : Interpreter} {options : List (SweepOption × Text)}
    {arguments : Arguments} (h : parseArguments py options = .ok arguments) :
    arguments.Accepted := by
  obtain ⟨given,hgiven,h⟩ := bind_eq_ok h
  obtain ⟨found,hfound,h⟩ := bind_eq_ok h
  have hvalid : given.Valid :=
    foldlM_invariant (fun _ _ _ hbefore hstep => hbefore.store hstep) Given.Valid.initial hgiven
  unfold Arguments.check at h
  split_ifs at h with _ _ haligned hoverlap htotal
  obtain rfl := Except.ok.inj h
  obtain ⟨hblockSizes,hbuffers,hqueueDepths,hbackends,hiterations⟩ := Given.complete_ok hfound
  obtain ⟨hnodup,hpos⟩ := hvalid.blockSizes _ hblockSizes
  refine ⟨⟨hnodup,fun blockSize hmem => ⟨hpos blockSize hmem,?_⟩⟩,
    ⟨(hvalid.buffers _ hbuffers).1,fun buffers hmem => ?_⟩,hvalid.queueDepths _ hqueueDepths,
    hbackends ▸ hvalid.backends,hiterations ▸ hvalid.iterations,not_lt.mp htotal⟩
  · by_contra hnot
    refine haligned (List.any_eq_true.mpr ⟨blockSize,hmem,decide_eq_true fun hzero => ?_⟩)
    exact hnot (Nat.dvd_of_mod_eq_zero hzero)
  · by_contra hnot
    exact hoverlap (List.any_eq_true.mpr ⟨buffers,hmem,decide_eq_true (not_le.mp hnot)⟩)

end Sweep
end AsyncDataLoader
