import AsyncDataLoader.DemoOptions
import AsyncDataLoader.PrintedNumbers
import AsyncDataLoader.SweepReadBack

/-!
# The command of a run

`run_sample` starts the demo with a command that is made of the configuration of the run. The demo
takes it, or refuses a number that it cannot hold.
-/

namespace AsyncDataLoader
namespace Sweep

open Benchmark Python PreprocessDemo

/-- The command behind the options of GNU time. -/
def demoCommand (arguments : Arguments) (executable inputPath scratchOutput : Text)
    (config : RunConfig) : List Text :=
  [executable,inputPath,scratchOutput,
    "--backend=".toList++config.backend.label,
    "--block-size=".toList++str config.blockSize,
    "--buffers=".toList++str config.maxInflightBuffers,
    "--queue-depth=".toList++str config.queueDepth,
    "--alignment=".toList++str ALIGNMENT,
    "--thread-workers=".toList++str arguments.threadWorkers,
    "--report-ms=0".toList]

/-- An element of `argv`, a character for each of its bytes. -/
def argument (text : Text) : List Char := (Utf8.encode text).map Utf8.character

theorem argument_ascii {text : Text} (h : ∀ c ∈ text, c.toNat < 128) : argument text = text := by
  have hall : ∀ n : Fin 128,
      (String.utf8EncodeChar (Char.ofNat n.val)).map Utf8.character = [Char.ofNat n.val] := by
    decide
  induction text with
  | nil => rfl
  | cons c text ih =>
    obtain ⟨hc,htext⟩ := List.forall_mem_cons.mp h
    have hfirst := hall ⟨c.toNat,hc⟩
    rw [Char.ofNat_toNat] at hfirst
    have hrest := ih htext
    rw [argument,Utf8.encode] at hrest ⊢
    rw [List.flatMap_cons,List.map_append,hfirst,hrest]
    rfl

def backendKind : RequestedBackend → BackendKind
  | .sync => .sync
  | .threadpool => .threadPool
  | .uring => .uring
  | .auto => .auto

def demoOptions (arguments : Arguments) (inputPath scratchOutput : Text) (config : RunConfig) :
    Options where
  inputPath := argument inputPath
  outputPath := argument scratchOutput
  pipeline := ⟨config.blockSize,config.maxInflightBuffers,config.queueDepth,ALIGNMENT⟩
  backendKind := backendKind config.backend
  threadWorkers := arguments.threadWorkers
  reportIntervalMs := 0

/-- The numbers that the demo can hold. -/
structure Fits (arguments : Arguments) (config : RunConfig) : Prop where
  pool : config.blockSize*config.maxInflightBuffers ≤ uint64Max
  buffers : config.maxInflightBuffers ≤ 2^32-1
  queueDepth : config.queueDepth ≤ uint64Max
  threadWorkers : arguments.threadWorkers ≤ uint64Max

section

variable {o o' : Options} {n : ℕ} {f : ℕ → Options} {option : String}

theorem map_parseSize (hn : 0 < n) : (parseSize (str n) option false).map f = .ok o' ↔
    n ≤ uint64Max ∧ o' = f n := by
  have hdigits : ∀ c ∈ Nat.toDigits 10 n, c.isDigit = true := fun c hc =>
    Nat.isDigit_of_mem_toDigits (by decide) (by decide) hc
  have hvalue : Nat.ofDigitChars 10 (Nat.toDigits 10 n) 0 = n := Nat.ofDigitChars_ten_toDigits
  have hsize : ∀ m, parseSize (str n) option false = .ok m ↔ m = n ∧ n ≤ uint64Max := by
    intro m
    rw [parseSize_eq_ok]
    constructor
    · rintro ⟨⟨-,hm,hle⟩,-⟩
      obtain rfl : n = m := hvalue.symm.trans hm
      exact ⟨rfl,hle⟩
    · rintro ⟨rfl,hle⟩
      exact ⟨⟨⟨Nat.toDigits_ne_nil,hdigits⟩,hvalue,hle⟩,.inr (by omega)⟩
  cases hparse : parseSize (str n) option false with
  | error failure =>
    refine iff_of_false nofun fun h => ?_
    rw [(hsize n).mpr ⟨rfl,h.1⟩] at hparse
    cases hparse
  | ok m =>
    obtain ⟨rfl,hle⟩ := (hsize m).mp hparse
    simp [Except.map,hle,eq_comm]

theorem argument_option (name : String) (n : ℕ) (hname : name.toList.all (·.toNat < 128) = true) :
    argument (name.toList++str n) = name.toList++str n := by
  refine argument_ascii (List.forall_mem_append.mpr ⟨fun c hc => ?_,fun c hc => ?_⟩)
  · exact of_decide_eq_true (List.all_eq_true.mp hname c hc)
  · have hdigit : c.isDigit = true := Nat.isDigit_of_mem_toDigits (by decide) (by decide) hc
    have := (Interpreter.toNat_of_isDigit hdigit).2
    omega

theorem parse_backend (backend : RequestedBackend) :
    parseArgument o (argument ("--backend=".toList++backend.label)) =
      .ok { o with backendKind := backendKind backend } := by
  cases backend <;> rfl

theorem parse_numbers (hn : 0 < n) :
    (parseArgument o ("--block-size=".toList++str n) = .ok o' ↔
      n ≤ uint64Max ∧ o' = { o with pipeline.blockSize := n }) ∧
    (parseArgument o ("--buffers=".toList++str n) = .ok o' ↔
      n ≤ uint64Max ∧ o' = { o with pipeline.maxInflightBuffers := n }) ∧
    (parseArgument o ("--queue-depth=".toList++str n) = .ok o' ↔
      n ≤ uint64Max ∧ o' = { o with pipeline.queueDepth := n }) ∧
    (parseArgument o ("--alignment=".toList++str n) = .ok o' ↔
      n ≤ uint64Max ∧ o' = { o with pipeline.bufferAlignment := n }) ∧
    (parseArgument o ("--thread-workers=".toList++str n) = .ok o' ↔
      n ≤ uint64Max ∧ o' = { o with threadWorkers := n }) :=
  ⟨map_parseSize hn,map_parseSize hn,map_parseSize hn,map_parseSize hn,map_parseSize hn⟩

theorem foldlM_command {arguments : Arguments} {config : RunConfig}
    (hworkers : 0 < arguments.threadWorkers) (hblock : 0 < config.blockSize)
    (hbuffers : 0 < config.maxInflightBuffers) (hdepth : 0 < config.queueDepth) :
    (((demoCommand arguments [] [] [] config).drop 3).map argument).foldlM parseArgument o =
        .ok o' ↔
      (config.blockSize ≤ uint64Max ∧ config.maxInflightBuffers ≤ uint64Max ∧
        config.queueDepth ≤ uint64Max ∧ arguments.threadWorkers ≤ uint64Max) ∧
      o' = { o with
        pipeline := ⟨config.blockSize,config.maxInflightBuffers,config.queueDepth,ALIGNMENT⟩
        backendKind := backendKind config.backend
        threadWorkers := arguments.threadWorkers
        reportIntervalMs := 0 } := by
  have hreport : ∀ o : Options, parseArgument o (argument "--report-ms=0".toList) =
      .ok { o with reportIntervalMs := 0 } := fun _ => rfl
  simp only [demoCommand,List.drop_succ_cons,List.drop_zero,List.map_cons,List.map_nil,
    argument_option "--block-size=" _ rfl,
    argument_option "--buffers=" _ rfl,argument_option "--queue-depth=" _ rfl,
    argument_option "--alignment=" _ rfl,argument_option "--thread-workers=" _ rfl]
  constructor
  · intro h
    obtain ⟨o₁,h₁,h⟩ := bind_eq_ok h
    obtain ⟨o₂,h₂,h⟩ := bind_eq_ok h
    obtain ⟨o₃,h₃,h⟩ := bind_eq_ok h
    obtain ⟨o₄,h₄,h⟩ := bind_eq_ok h
    obtain ⟨o₅,h₅,h⟩ := bind_eq_ok h
    obtain ⟨o₆,h₆,h⟩ := bind_eq_ok h
    obtain ⟨o₇,h₇,h⟩ := bind_eq_ok h
    obtain rfl := Except.ok.inj ((parse_backend config.backend).symm.trans h₁)
    obtain ⟨hblockSize,rfl⟩ := (parse_numbers hblock).1.mp h₂
    obtain ⟨hmax,rfl⟩ := (parse_numbers hbuffers).2.1.mp h₃
    obtain ⟨hqueueDepth,rfl⟩ := (parse_numbers hdepth).2.2.1.mp h₄
    obtain ⟨-,rfl⟩ := (parse_numbers (by decide)).2.2.2.1.mp h₅
    obtain ⟨hthreads,rfl⟩ := (parse_numbers hworkers).2.2.2.2.mp h₆
    obtain rfl := Except.ok.inj ((hreport _).symm.trans h₇)
    obtain rfl := Except.ok.inj h
    exact ⟨⟨hblockSize,hmax,hqueueDepth,hthreads⟩,rfl⟩
  · rintro ⟨⟨hblockSize,hmax,hqueueDepth,hthreads⟩,rfl⟩
    refine (bind_of_ok (parse_backend config.backend)).trans ?_
    refine (bind_of_ok ((parse_numbers hblock).1.mpr ⟨hblockSize,rfl⟩)).trans ?_
    refine (bind_of_ok ((parse_numbers hbuffers).2.1.mpr ⟨hmax,rfl⟩)).trans ?_
    refine (bind_of_ok ((parse_numbers hdepth).2.2.1.mpr ⟨hqueueDepth,rfl⟩)).trans ?_
    refine (bind_of_ok ((parse_numbers (by decide)).2.2.2.1.mpr ⟨by decide,rfl⟩)).trans ?_
    refine (bind_of_ok ((parse_numbers hworkers).2.2.2.2.mpr ⟨hthreads,rfl⟩)).trans ?_
    exact bind_of_ok (hreport _)

theorem checkOptions_iff {arguments : Arguments} {inputPath scratchOutput : Text}
    {config : RunConfig} (hblock : 0 < config.blockSize ∧ ALIGNMENT ∣ config.blockSize)
    (hbuffers : 0 < config.maxInflightBuffers) (hdepth : 0 < config.queueDepth) :
    checkOptions (demoOptions arguments inputPath scratchOutput config) = .ok o' ↔
      (config.blockSize*config.maxInflightBuffers ≤ uint64Max ∧
        config.maxInflightBuffers ≤ 2^32-1) ∧
      o' = demoOptions arguments inputPath scratchOutput config := by
  constructor
  · intro h
    obtain ⟨rfl,haccepted⟩ := checkOptions_ok h
    exact ⟨⟨haccepted.pipeline.poolBytes_le,haccepted.buffers⟩,rfl⟩
  · rintro ⟨⟨hpool,hmax⟩,rfl⟩
    have hvalidate : (demoOptions arguments inputPath scratchOutput config).pipeline.validate =
        .ok () := by
      have hpower : isPowerOfTwo ALIGNMENT = true := by decide
      have hpointer : ALIGNMENT%pointerSize = 0 := by decide
      have hquotient := (Nat.le_div_iff_mul_le hbuffers).mpr hpool
      simp [PipelineConfig.validate,demoOptions,hpower,hpointer,hblock.1.ne',hbuffers.ne',
        hdepth.ne',Nat.mod_eq_zero_of_dvd hblock.2,hquotient]
    unfold checkOptions
    rw [hvalidate]
    have hswitches : ¬ ((demoOptions arguments inputPath scratchOutput config).backendKind ≠ .auto ∧
        ((demoOptions arguments inputPath scratchOutput config).disableUring = true ∨
          (demoOptions arguments inputPath scratchOutput config).disableThreadPool = true)) := by
      simp [demoOptions]
    exact (if_neg hswitches).trans ((if_neg (Nat.not_lt.mpr hmax)).trans
      (if_neg (Nat.not_lt_zero millisecondsMax)))

end

/-- The demo takes the command of a run exactly when it can hold its numbers, and then it does what
the configuration says. -/
theorem parseOptions_command {arguments : Arguments} {config : RunConfig}
    (haccepted : arguments.Accepted) (hworkers : 0 < arguments.threadWorkers)
    (hlisted : arguments.Listed config) (executable inputPath scratchOutput : Text)
    {options : Options} :
    parseOptions ((demoCommand arguments executable inputPath scratchOutput config).map argument) =
        .ok options ↔
      Fits arguments config ∧ options = demoOptions arguments inputPath scratchOutput config := by
  obtain ⟨hblockSize,hbuffers,hdepth,-⟩ := hlisted
  have hblock := haccepted.blockSizes.2 _ hblockSize
  have hbuffers : 0 < config.maxInflightBuffers := by
    have := haccepted.buffers.2 _ hbuffers
    omega
  have hdepth := haccepted.queueDepths.2 _ hdepth
  constructor
  · intro h
    obtain ⟨o,hloop,hcheck⟩ := bind_eq_ok h
    obtain ⟨⟨-,-,hqueueDepth,hthreads⟩,rfl⟩ :=
      (foldlM_command hworkers hblock.1 hbuffers hdepth).mp hloop
    obtain ⟨⟨hpool,hmax⟩,rfl⟩ := (checkOptions_iff hblock hbuffers hdepth).mp hcheck
    exact ⟨⟨hpool,hmax,hqueueDepth,hthreads⟩,rfl⟩
  · rintro ⟨hfits,rfl⟩
    have hsize : config.blockSize ≤ uint64Max :=
      (Nat.le_mul_of_pos_right _ hbuffers).trans hfits.pool
    have hmax : config.maxInflightBuffers ≤ uint64Max := hfits.buffers.trans (by decide)
    have hloop : (((demoCommand arguments [] [] [] config).drop 3).map argument).foldlM
        parseArgument { inputPath := argument inputPath, outputPath := argument scratchOutput } =
          .ok (demoOptions arguments inputPath scratchOutput config) :=
      (foldlM_command hworkers hblock.1 hbuffers hdepth).mpr
        ⟨⟨hsize,hmax,hfits.queueDepth,hfits.threadWorkers⟩,rfl⟩
    exact (bind_of_ok hloop).trans
      ((checkOptions_iff hblock hbuffers hdepth).mpr ⟨⟨hfits.pool,hfits.buffers⟩,rfl⟩)

end Sweep
end AsyncDataLoader
