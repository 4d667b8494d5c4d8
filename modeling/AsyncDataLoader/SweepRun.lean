import AsyncDataLoader.AtomicReplacement
import AsyncDataLoader.ScratchFiles
import AsyncDataLoader.SweepFile
import AsyncDataLoader.RunFile

/-!
# A sweep

`execute_sweep` with everything that it calls: the checks of the paths, one run of the pipeline
after the other with their scratch files, and the file of the records. Every call is one step.
-/

namespace AsyncDataLoader
namespace Sweep

open Benchmark Python FileIO

/-- What the system answers. An answer to a call on a file is an error number or the result; what is
called once a run is numbered by the runs. `childFiles` is what a run does to the files, given the
scratch files that it is to write. -/
structure SweepEnvironment (py : Interpreter) where
  floats : FloatText py
  quotesReturn : Bool
  -- the paths
  isFile : Path → Except ℕ Bool
  isDirectory : Path → Except ℕ Bool
  parent : Path → Path
  resolve : Path → Except ℕ Path
  samefile : Path → Path → Except ℕ Bool
  executable : Path → Bool
  entry : Path → ℕ × Path
  outputDirectory : ℕ
  -- the runs
  makeScratch : FileSystem Path Bytes → Except ℕ Temporary
  closeScratch : Option ℕ
  announce : ℕ → Option ℕ
  makeRss : ℕ → FileSystem Path Bytes → Except ℕ Temporary
  closeRss : ℕ → Option ℕ
  resolveInput : ℕ → Except ℕ Path
  child : ℕ → Except SweepFailure CompletedRun
  childFiles : ℕ → Temporary → Temporary → FileSystem Path Bytes → FileSystem Path Bytes
  readRss : ℕ → Except SweepFailure Text
  unlinkRss : ℕ → Option ℕ
  unlinkScratch : Option ℕ
  -- the file of the records
  makeCsv : FileSystem Path Bytes → Except ℕ Temporary
  fsyncCsv : Option ℕ
  closeCsv : Option ℕ
  replaceCsv : Option ℕ
  directoryCalls : List (Option ℕ) -- `open`, `fsync` and `close`
  unlinkCsv : Option ℕ
  printStatus : Option ℕ
  printLimit : Option ℕ
  flushOutput : Option ℕ -- what is still buffered when the interpreter ends

def osCall {α : Type} (answer : Except ℕ α) : Except SweepFailure α := answer.mapError .osError

/-- Where the sweep is among its runs: the scratch output, the records so far, the runs to come. -/
structure SweepLoop where
  scratch : Temporary
  rows : Rows
  rest : List RunConfig

/-- Where `execute_sweep` stands. -/
inductive SweepPlace
  | prepare
  | makeScratch
  | closeScratch (scratch : Temporary)
  | announce (loop : SweepLoop)
  | makeRss (loop : SweepLoop) (run : RunConfig)
  | closeRss (loop : SweepLoop) (run : RunConfig) (rss : Temporary)
  | command (loop : SweepLoop) (run : RunConfig) (rss : Temporary)
  | child (loop : SweepLoop) (run : RunConfig) (rss : Temporary) (inputPath : Path)
  | removeRss (loop : SweepLoop) (run : RunConfig) (rss : Temporary) (inputPath : Path)
      (result : Except SweepFailure (CompletedRun × ℤ))
  | removeScratch (scratch : Temporary) (result : Except SweepFailure Rows)
  | publish (rows : Rows) (call : Replacement Path UInt8) (place : ReplacementPlace Path)
  | report (rows : Rows)
  | shutdown (code : ℕ) (failure : Option SweepFailure)
  | exited (code : ℕ) (failure : Option SweepFailure)

structure SweepState where
  place : SweepPlace
  files : FileSystem Path Bytes

/-- `main` returns one for the exceptions that it catches, and the interpreter for all others. -/
def SweepPlace.failed (failure : SweepFailure) : SweepPlace := .shutdown 1 (some failure)

/-- Whether a run has used more memory than allowed: its record says `false`. -/
def exceeds (arguments : Arguments) (r : RunConfig × Outcome) : Bool :=
  arguments.rssLimitMib.any fun (limit : ℕ) => !decide (r.2.peakRssKib ≤ (limit : ℤ)*1024)

namespace SweepEnvironment

variable {py : Interpreter} (env : SweepEnvironment py) (arguments : Arguments)

def pathsIdentifySameFile (left right : Path) : Except SweepFailure Bool := do
  let resolvedLeft ← osCall (env.resolve left)
  let resolvedRight ← osCall (env.resolve right)
  if resolvedLeft = resolvedRight then return true
  else match env.samefile left right with
    | .ok same => return same
    | .error errorNumber =>
      if errorNumber = ENOENT then return false else .error (.osError errorNumber)

def validatePaths : Except SweepFailure Unit := do
  if !(← osCall (env.isFile arguments.input)) then
    .error (.path "input is not a regular file" arguments.input)
  else if !(← osCall (env.isDirectory arguments.outputDirectory)) then
    .error (.path "output directory must already exist" arguments.outputDirectory)
  else if !(← osCall (env.isDirectory (env.parent arguments.csv))) then
    .error (.path "CSV parent directory must already exist" (env.parent arguments.csv))
  else if (← env.pathsIdentifySameFile arguments.input arguments.csv) then
    .error (.message "input and CSV paths must differ")
  else .ok ()

def requireExecutable (path : Path) (label : String) : Except SweepFailure Path := do
  let resolved ← osCall (env.resolve path)
  if !(← osCall (env.isFile resolved)) || !env.executable resolved then
    .error (.path (label++" is not an executable file") path)
  else .ok resolved

def prepare : Except SweepFailure Unit := do
  env.validatePaths arguments
  let _ ← env.requireExecutable arguments.executable "pipeline executable"
  let _ ← env.requireExecutable arguments.timeExecutable "GNU time executable"

def scratchName (scratch : Temporary) : Path :=
  ".stage11-sweep-output-".toList++scratch.suffix++".bin".toList

def rssName (rss : Temporary) : Path :=
  ".stage11-sweep-rss-".toList++rss.suffix++".txt".toList

def csvEntry : ℕ × Path := env.entry arguments.csv

def csvTemporaryName (temporary : Temporary) : Path :=
  '.'::((env.csvEntry arguments).2++".tmp.".toList++temporary.suffix)

def csvCall (rows : Rows) : Replacement Path UInt8 where
  directory := (env.csvEntry arguments).1
  name := (env.csvEntry arguments).2
  text := sweepBytes env.quotesReturn arguments rows
  make := fun files => (env.makeCsv files).map fun temporary =>
    (env.csvTemporaryName arguments temporary,temporary.inode)
  fsync := env.fsyncCsv
  close := env.closeCsv
  replace := env.replaceCsv
  afterwards := env.directoryCalls
  unlink := env.unlinkCsv

/-- What is done inside the `try` of `run_sample`. -/
def runChild (index : ℕ) (run : RunConfig) : Except SweepFailure (CompletedRun × ℤ) := do
  let completed ← env.child index
  let peak ← peakRss py run completed (env.readRss index)
  return (completed,peak)

def evaluate (run : RunConfig) (inputPath : Path)
    (result : Except SweepFailure (CompletedRun × ℤ)) : Except SweepFailure Outcome := do
  let (completed,peak) ← result
  readOutcome env.floats run inputPath peak completed.stdout

/-- The interpreter ends with 120 if it cannot write what `print` has buffered. -/
def exitStatus (code : ℕ) : ℕ := if env.flushOutput = none then code else 120

def mainStep (files : FileSystem Path Bytes) : SweepPlace → Option SweepState
  | .prepare =>
    match env.prepare arguments with
    | .error failure => some ⟨.failed failure,files⟩
    | .ok () => some ⟨.makeScratch,files⟩
  | .makeScratch =>
    match env.makeScratch files with
    | .error errorNumber => some ⟨.failed (.osError errorNumber),files⟩
    | .ok scratch => some ⟨.closeScratch scratch,
        files.create env.outputDirectory (scratchName scratch) scratch.inode []⟩
  | .closeScratch scratch =>
    -- nobody removes the file if its descriptor is not closed
    match env.closeScratch with
    | some errorNumber => some ⟨.failed (.osError errorNumber),files⟩
    | none => some ⟨.announce ⟨scratch,[],buildRunPlan arguments⟩,files⟩
  | .announce ⟨scratch,rows,[]⟩ => some ⟨.removeScratch scratch (.ok rows),files⟩
  | .announce ⟨scratch,rows,run::rest⟩ =>
    match env.announce rows.length with
    | some errorNumber => some ⟨.removeScratch scratch (.error (.osError errorNumber)),files⟩
    | none => some ⟨.makeRss ⟨scratch,rows,rest⟩ run,files⟩
  | .makeRss loop run =>
    match env.makeRss loop.rows.length files with
    | .error errorNumber =>
      some ⟨.removeScratch loop.scratch (.error (.osError errorNumber)),files⟩
    | .ok rss => some ⟨.closeRss loop run rss,
        files.create env.outputDirectory (rssName rss) rss.inode []⟩
  | .closeRss loop run rss =>
    -- this and the next call come before the `try`: if they fail nobody removes the file
    match env.closeRss loop.rows.length with
    | some errorNumber =>
      some ⟨.removeScratch loop.scratch (.error (.osError errorNumber)),files⟩
    | none => some ⟨.command loop run rss,files⟩
  | .command loop run rss =>
    match env.resolveInput loop.rows.length with
    | .error errorNumber =>
      some ⟨.removeScratch loop.scratch (.error (.osError errorNumber)),files⟩
    | .ok inputPath => some ⟨.child loop run rss inputPath,files⟩
  | .child loop run rss inputPath =>
    some ⟨.removeRss loop run rss inputPath (env.runChild loop.rows.length run),
      env.childFiles loop.rows.length loop.scratch rss files⟩
  | .removeRss loop run rss inputPath result =>
    match env.unlinkRss loop.rows.length with
    | some errorNumber =>
      some ⟨.removeScratch loop.scratch (.error (.osError errorNumber)),files⟩
    | none =>
      let files := files.unlink env.outputDirectory (rssName rss)
      match env.evaluate run inputPath result with
      | .error failure => some ⟨.removeScratch loop.scratch (.error failure),files⟩
      | .ok outcome => some ⟨.announce { loop with rows := loop.rows++[(run,outcome)] },files⟩
  | .removeScratch scratch result =>
    match env.unlinkScratch with
    | some errorNumber => some ⟨.failed (.osError errorNumber),files⟩
    | none =>
      let files := files.unlink env.outputDirectory (scratchName scratch)
      match result with
      | .error failure => some ⟨.failed failure,files⟩
      | .ok rows => some ⟨.publish rows (env.csvCall arguments rows) .make,files⟩
  | .publish rows call place =>
    match place with
    | .done _ => some ⟨.report rows,files⟩
    | .failed _ errorNumber => some ⟨.failed (.osError errorNumber),files⟩
    | place => (call.mainStep ⟨place,files⟩ place).map fun s => ⟨.publish rows call s.place,s.files⟩
  | .report rows =>
    match env.printStatus with
    | some errorNumber => some ⟨.failed (.osError errorNumber),files⟩
    | none =>
      if rows.any (exceeds arguments) then
        match env.printLimit with
        | some errorNumber => some ⟨.failed (.osError errorNumber),files⟩
        | none => some ⟨.shutdown 3 none,files⟩
      else some ⟨.shutdown 0 none,files⟩
  | .shutdown code failure => some ⟨.exited (env.exitStatus code) failure,files⟩
  | .exited _ _ => none

def writeStep (answer : Except ℕ ℕ) (files : FileSystem Path Bytes) :
    SweepPlace → Option SweepState
  | .publish rows call place =>
    (call.writeStep answer ⟨place,files⟩ place).map fun s => ⟨.publish rows call s.place,s.files⟩
  | _ => none

def system : TransitionSystem ReplacementAction SweepState where
  step
    | .main,s => env.mainStep arguments s.files s.place
    | .write answer,s => writeStep answer s.files s.place

end SweepEnvironment
end Sweep
end AsyncDataLoader
