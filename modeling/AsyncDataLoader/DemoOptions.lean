import AsyncDataLoader.RunFile
import Mathlib.Data.List.TakeWhile

/-!
# The options of the demo

The command line of the preprocessing demo. Each character of an argument stands for one of its
bytes.
-/

namespace AsyncDataLoader

inductive BackendKind
  | auto
  | uring
  | threadPool
  | sync
  deriving DecidableEq, Repr

namespace PreprocessDemo

structure Options where
  inputPath : Path
  outputPath : Path
  pipeline : PipelineConfig := ⟨1024*1024,8,4,4096⟩
  backendKind : BackendKind := .auto
  threadWorkers : ℕ := 2
  reportIntervalMs : ℕ := 250
  metricsJsonPath : Option Path := none
  disableUring : Bool := false
  disableThreadPool : Bool := false
  deriving DecidableEq

/-- `std::from_chars` for a `std::size_t`: the value, and what is behind it. -/
def fromChars (text : List Char) : Option (ℕ × List Char) :=
  let digits := text.takeWhile Char.isDigit
  let value := Nat.ofDigitChars 10 digits 0
  if digits = [] ∨ uint64Max < value then none else some (value,text.dropWhile Char.isDigit)

def parseSize (text : List Char) (option : String) (allowZero : Bool) : Except Failure ℕ :=
  let rejected := Failure.invalidArgument
    (option++" requires "++(if allowZero then "a non-negative" else "a positive")++" integer")
  match fromChars text with
  | some (value,[]) => if !allowZero && value = 0 then .error rejected else .ok value
  | _ => .error rejected

def parseBackend (value : List Char) : Except Failure BackendKind :=
  if value = "auto".toList then .ok .auto
  else if value = "uring".toList then .ok .uring
  else if value = "threadpool".toList then .ok .threadPool
  else if value = "sync".toList then .ok .sync
  else .error (.invalidArgument "--backend must be auto, uring, threadpool, or sync")

def parseArgument (options : Options) (argument : List Char) : Except Failure Options :=
  if let some value := "--backend=".toList.isPrefixOf? argument then
    (parseBackend value).map fun kind => { options with backendKind := kind }
  else if let some text := "--block-size=".toList.isPrefixOf? argument then
    (parseSize text "--block-size" false).map fun n => { options with pipeline.blockSize := n }
  else if let some text := "--buffers=".toList.isPrefixOf? argument then
    (parseSize text "--buffers" false).map fun n =>
      { options with pipeline.maxInflightBuffers := n }
  else if let some text := "--queue-depth=".toList.isPrefixOf? argument then
    (parseSize text "--queue-depth" false).map fun n => { options with pipeline.queueDepth := n }
  else if let some text := "--alignment=".toList.isPrefixOf? argument then
    (parseSize text "--alignment" false).map fun n =>
      { options with pipeline.bufferAlignment := n }
  else if let some text := "--thread-workers=".toList.isPrefixOf? argument then
    (parseSize text "--thread-workers" false).map fun n => { options with threadWorkers := n }
  else if let some text := "--report-ms=".toList.isPrefixOf? argument then
    (parseSize text "--report-ms" true).map fun n => { options with reportIntervalMs := n }
  else if let some path := "--metrics-json=".toList.isPrefixOf? argument then
    if path = [] then .error (.invalidArgument "--metrics-json requires a non-empty path")
    else .ok { options with metricsJsonPath := some path }
  else if argument = "--disable-uring".toList then .ok { options with disableUring := true }
  else if argument = "--disable-threadpool".toList then
    .ok { options with disableThreadPool := true }
  else .error (.invalidArgument ("unknown option: "++String.ofList argument))

def millisecondsMax : ℕ := 2^63-1

def checkOptions (options : Options) : Except Failure Options :=
  match options.pipeline.validate with
  | .error failure => .error failure
  | .ok () =>
    if options.backendKind ≠ .auto ∧ (options.disableUring ∨ options.disableThreadPool) then
      .error (.invalidArgument "backend disable switches are only valid with --backend=auto")
    else if options.pipeline.maxInflightBuffers > 2^32-1 then
      .error (.invalidArgument "--buffers exceeds the io_uring queue-depth range")
    else if options.reportIntervalMs > millisecondsMax then
      .error (.invalidArgument "--report-ms is too large")
    else .ok options

/-- `argv` begins with the name of the program. -/
def parseOptions : (argv : List (List Char)) → Except Failure Options
  | _::input::output::arguments =>
    arguments.foldlM parseArgument { inputPath := input, outputPath := output } >>= checkOptions
  | _ => .error (.invalidArgument "INPUT and OUTPUT paths are required")

/-- What the checks promise of the options. -/
structure Accepted (options : Options) : Prop where
  pipeline : options.pipeline.Valid
  buffers : options.pipeline.maxInflightBuffers ≤ 2^32-1
  backend : options.backendKind = .auto ∨
    options.disableUring = false ∧ options.disableThreadPool = false
  reportIntervalMs_le : options.reportIntervalMs ≤ millisecondsMax

theorem checkOptions_ok {options checked : Options} (h : checkOptions options = .ok checked) :
    checked = options ∧ Accepted options := by
  unfold checkOptions at h
  split at h
  · cases h
  · rename_i hvalidate
    split_ifs at h with hswitches hbuffers hinterval
    obtain rfl := Except.ok.inj h
    refine ⟨rfl,PipelineConfig.valid_of_validate hvalidate,Nat.le_of_not_gt hbuffers,?_,
      Nat.le_of_not_gt hinterval⟩
    by_cases hauto : options.backendKind = .auto
    · exact .inl hauto
    · have hnone : ¬(options.disableUring = true ∨ options.disableThreadPool = true) :=
        fun hsome => hswitches ⟨hauto,hsome⟩
      simpa using Or.inr hnone

theorem parseOptions_ok {argv : List (List Char)} {options : Options}
    (h : parseOptions argv = .ok options) : Accepted options := by
  unfold parseOptions at h
  split at h
  · obtain ⟨parsed,-,hcheck⟩ := bind_eq_ok h
    obtain ⟨rfl,haccepted⟩ := checkOptions_ok hcheck
    exact haccepted
  · cases h

theorem fromChars_eq_some {text : List Char} {n : ℕ} :
    fromChars text = some (n,[]) ↔ (text ≠ [] ∧ ∀ c ∈ text, c.isDigit = true) ∧
      Nat.ofDigitChars 10 text 0 = n ∧ n ≤ uint64Max := by
  by_cases hdigits : ∀ c ∈ text, c.isDigit = true
  · have htake : text.takeWhile Char.isDigit = text := List.takeWhile_eq_self_iff.mpr hdigits
    have hdrop : text.dropWhile Char.isDigit = [] := List.dropWhile_eq_nil_iff.mpr hdigits
    rw [fromChars,htake,hdrop]
    constructor
    · intro h
      obtain ⟨hok,heq⟩ := Option.ite_none_left_eq_some.mp h
      obtain ⟨rfl,-⟩ := Prod.mk.inj (Option.some.inj heq)
      obtain ⟨hne,hfits⟩ := not_or.mp hok
      exact ⟨⟨hne,hdigits⟩,rfl,Nat.le_of_not_gt hfits⟩
    · rintro ⟨⟨hne,-⟩,rfl,hfits⟩
      exact if_neg (not_or.mpr ⟨hne,Nat.not_lt.mpr hfits⟩)
  · refine iff_of_false (fun h => hdigits ?_) fun h => hdigits h.1.2
    obtain ⟨-,heq⟩ := Option.ite_none_left_eq_some.mp h
    exact List.dropWhile_eq_nil_iff.mp (Prod.mk.inj (Option.some.inj heq)).2

theorem parseSize_eq_ok {text : List Char} {option : String} {allowZero : Bool} {n : ℕ} :
    parseSize text option allowZero = .ok n ↔
      ((text ≠ [] ∧ ∀ c ∈ text, c.isDigit = true) ∧
        Nat.ofDigitChars 10 text 0 = n ∧ n ≤ uint64Max) ∧ (allowZero = true ∨ n ≠ 0) := by
  rw [← fromChars_eq_some]
  unfold parseSize
  dsimp only
  split
  · rename_i value hvalue
    rw [hvalue]
    split_ifs with hzero
    · refine iff_of_false nofun ?_
      rintro ⟨heq,hallowed⟩
      obtain ⟨rfl,-⟩ := Prod.mk.inj (Option.some.inj heq)
      simp at hzero
      exact hallowed.elim (fun h => by rw [h] at hzero; cases hzero.1) fun h => h hzero.2
    · constructor
      · intro h
        obtain rfl := Except.ok.inj h
        refine ⟨rfl,?_⟩
        cases allowZero with
        | true => exact .inl rfl
        | false => exact .inr (by simpa using hzero)
      · rintro ⟨heq,-⟩
        obtain ⟨rfl,-⟩ := Prod.mk.inj (Option.some.inj heq)
        rfl
  · rename_i hother
    refine iff_of_false nofun fun h => ?_
    exact hother n h.1

section Refused

variable {options : Options} {failure : Failure}

end Refused

end PreprocessDemo
end AsyncDataLoader
