import AsyncDataLoader.FileSystem
import AsyncDataLoader.PipelineExecutor

/-!
# Publishing a file

`PipelineExecutor::run_file`: the pipeline writes a temporary file beside the final path,
which is synced and then renamed over it. Every system call is one step, and between them
run the threads of `run`, so that the states are the points at which a process may be killed.
-/

namespace AsyncDataLoader

open FileIO

abbrev Path := List Char

namespace Path

def filename (path : Path) : Path := (path.reverse.takeWhile (· ≠ '/')).reverse

def parentPath (path : Path) : Path :=
  let upToName := path.reverse.dropWhile (· ≠ '/')
  let parent := upToName.dropWhile (· = '/')
  if parent = [] ∧ upToName ≠ [] then ['/'] else parent.reverse

example : filename "out/data.bin".toList = "data.bin".toList := by decide

example : parentPath "out/data.bin".toList = "out".toList := by decide

def validate (path : Path) (emptyMessage nulMessage : String) : Except Failure Unit :=
  if path = [] then .error (.invalidArgument emptyMessage)
  else if Char.ofNat 0 ∈ path then .error (.invalidArgument nulMessage)
  else .ok ()

/-- The name that `mkstemp` makes of its template and the characters it chooses. -/
def temporaryName (path : Path) (suffix : List Char) : Path :=
  ['.']++path.filename++".tmp.".toList++suffix

end Path

structure FileStatus where
  device : ℕ
  inode : ℕ
  deriving DecidableEq, Repr

/-- What `mkstemp` chooses: the characters of the name, and a new inode. -/
structure Temporary where
  suffix : List Char
  inode : ℕ
  deriving DecidableEq, Repr

/-- The arguments of `run_file`, the executor, and what the system calls answer: an error
number or their result. The descriptors of `open` and `mkstemp` are those of the executor;
`directory` resolves a parent path. -/
structure RunFileCall (σ : Type*) where
  inputPath : Path
  finalOutputPath : Path
  executor : RunCall σ
  inputInode : ℕ
  directory : Path → ℕ
  openInput : Option ℕ
  statInput : Except ℕ FileStatus
  statOutput : Except ℕ FileStatus
  openDirectory : Option ℕ
  makeTemporary : Except ℕ Temporary
  copyPath : Option Failure -- of the `std::filesystem::path` of the temporary file
  fsyncTemporary : SyscallScript
  renameTemporary : Option ℕ
  fsyncDirectory : SyscallScript

/-- Where `run_file` stands; `unwind` is the destructor of an uncommitted `AtomicOutputFile`. -/
inductive RunFilePlace (σ : Type*)
  | validateInput
  | validateOutput
  | openInput
  | statInput
  | statOutput (inputStatus : FileStatus)
  | validateFilename
  | openDirectory
  | makeTemporary
  | copyPath (temporary : Temporary)
  | startRun (temporary : Temporary)
  | running (temporary : Temporary) (s : RunState σ)
  | fsyncTemporary (temporary : Temporary) (result : PipelineRunResult)
  | renameTemporary (temporary : Temporary) (result : PipelineRunResult)
  | fsyncDirectory (result : PipelineRunResult)
  | unwind (temporary : Temporary) (failure : Failure)
  | returned (result : PipelineRunResult)
  | thrown (committed : Bool) (failure : Failure)

structure RunFileState (σ : Type*) where
  place : RunFilePlace σ
  files : FileSystem Path Bytes

def fsyncFdWith (script : SyscallScript) : ℕ :=
  match retryInterrupted script.results with
  | none => EINTR -- not reached: the script ends the retries
  | some (.error errorNumber) => errorNumber
  | some (.count _) => 0

namespace RunFileCall

variable {σ : Type*} (call : RunFileCall σ)

/-- The parent directory of the final path; an empty parent path is the current directory. -/
def parent : ℕ :=
  call.directory (if call.finalOutputPath.parentPath = [] then ['.']
    else call.finalOutputPath.parentPath)

def finalName : Path := call.finalOutputPath.filename

def temporaryName (temporary : Temporary) : Path :=
  call.finalOutputPath.temporaryName temporary.suffix

def rejectSame (inputStatus : FileStatus) : Except ℕ FileStatus → Except Failure Unit
  | .error errorNumber =>
    if errorNumber = ENOENT then .ok ()
    else .error (.systemError errorNumber "stat pipeline output")
  | .ok outputStatus =>
    if inputStatus.device = outputStatus.device ∧ inputStatus.inode = outputStatus.inode then
      .error (.invalidArgument "pipeline input and final output must be different files")
    else .ok ()

def validateFinal : Except Failure Unit :=
  match call.finalOutputPath.validate "pipeline output path must not be empty"
      "pipeline output path must not contain a null byte" with
  | .error failure => .error failure
  | .ok () =>
    if call.finalName = [] ∨ call.finalName = ['.'] ∨ call.finalName = ['.','.'] then
      .error (.invalidArgument "pipeline output path must name a file")
    else .ok ()

def check (files : FileSystem Path Bytes) (next : RunFilePlace σ) :
    Except Failure Unit → RunFileState σ
  | .ok () => ⟨next,files⟩
  | .error failure => ⟨.thrown false failure,files⟩

def checkSystem (what : String) (errorNumber : Option ℕ) : Except Failure Unit :=
  match errorNumber with
  | none => .ok ()
  | some errorNumber => .error (.systemError errorNumber what)

def mainStep (files : FileSystem Path Bytes) : RunFilePlace σ → Option (RunFileState σ)
  | .validateInput => some (check files .validateOutput
      (call.inputPath.validate "pipeline input path must not be empty"
        "pipeline input path must not contain a null byte"))
  | .validateOutput => some (check files .openInput
      (call.finalOutputPath.validate "pipeline output path must not be empty"
        "pipeline output path must not contain a null byte"))
  | .openInput => some (check files .statInput
      (checkSystem "open pipeline input" call.openInput))
  | .statInput =>
    match call.statInput with
    | .error errorNumber =>
      some ⟨.thrown false (.systemError errorNumber "stat pipeline input"),files⟩
    | .ok inputStatus => some ⟨.statOutput inputStatus,files⟩
  | .statOutput inputStatus => some (check files .validateFilename
      (rejectSame inputStatus call.statOutput))
  | .validateFilename => some (check files .openDirectory call.validateFinal)
  | .openDirectory => some (check files .makeTemporary
      (checkSystem "open pipeline output directory" call.openDirectory))
  | .makeTemporary =>
    match call.makeTemporary with
    | .error errorNumber =>
      some ⟨.thrown false (.systemError errorNumber "create pipeline temporary output"),files⟩
    | .ok temporary => some ⟨.copyPath temporary,
        files.create call.parent (call.temporaryName temporary) temporary.inode []⟩
  | .copyPath temporary =>
    match call.copyPath with
    | some failure => some ⟨.unwind temporary failure,files⟩
    | none => some ⟨.startRun temporary,files⟩
  | .startRun temporary =>
    match call.executor.start with
    | .error failure => some ⟨.unwind temporary failure,files⟩
    | .ok s => some ⟨.running temporary s,files⟩
  | .running temporary s =>
    match s.caller with
    | .done (.ok result) => some ⟨.fsyncTemporary temporary result,files⟩
    | .done (.error failure) => some ⟨.unwind temporary failure,files⟩
    | _ => none
  | .fsyncTemporary temporary result =>
    if fsyncFdWith call.fsyncTemporary ≠ 0 then
      some ⟨.unwind temporary (.systemError (fsyncFdWith call.fsyncTemporary)
        "fsync pipeline temporary output"),files⟩
    else some ⟨.renameTemporary temporary result,files.sync temporary.inode⟩
  | .renameTemporary temporary result =>
    match call.renameTemporary with
    | some errorNumber =>
      some ⟨.unwind temporary (.systemError errorNumber "rename pipeline temporary output"),files⟩
    | none => some ⟨.fsyncDirectory result,
        files.rename call.parent (call.temporaryName temporary) call.finalName⟩
  | .fsyncDirectory result =>
    if fsyncFdWith call.fsyncDirectory ≠ 0 then
      some ⟨.thrown true (.systemError (fsyncFdWith call.fsyncDirectory)
        "fsync pipeline output directory"),files⟩
    else some ⟨.returned result,files⟩
  | .unwind temporary failure =>
    some ⟨.thrown false failure,files.unlink call.parent (call.temporaryName temporary)⟩
  | .returned _ => none
  | .thrown _ _ => none

def threadStep (t : Thread) (files : FileSystem Path Bytes) :
    RunFilePlace σ → Option (RunFileState σ)
  | .running temporary s => (call.executor.system.step t s).map fun s' =>
      ⟨.running temporary s',files.write temporary.inode s'.shared.output⟩
  | _ => none

end RunFileCall

inductive RunFileAction
  | main
  | thread (t : Thread)
  deriving DecidableEq, Repr

def RunFileCall.system {σ : Type*} (call : RunFileCall σ) :
    TransitionSystem RunFileAction (RunFileState σ) where
  step
    | .main,s => call.mainStep s.files s.place
    | .thread t,s => call.threadStep t s.files s.place

end AsyncDataLoader
