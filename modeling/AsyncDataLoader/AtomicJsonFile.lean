import AsyncDataLoader.RunFileSafety
import AsyncDataLoader.WriteAll

/-!
# Publishing the metrics

`write_metrics_json_atomic` and its `AtomicJsonFile`: the rendered text is written to a
temporary file beside the final path, which is synced and then renamed over it. Every system
call is one step. A `write` is a label with the answer of the kernel, since the loop calls it
as long as it has to.
-/

namespace AsyncDataLoader

open FileIO

/-- The argument of `write_metrics_json_atomic`, what `render_metrics_json` returns or throws,
and what the system calls answer. The paths and strings that are built between the calls may
throw as well. -/
structure MetricsJsonCall where
  path : Path
  rendered : Except Failure Bytes
  directory : Path → ℕ
  openDirectory : Option ℕ
  makeTemplate : Option Failure
  makeTemporary : Except ℕ Temporary
  copyPath : Option Failure
  fsyncTemporary : SyscallScript
  renameTemporary : Option ℕ
  fsyncDirectory : SyscallScript

/-- Where the call stands. `abandon` is the handler in the constructor of `AtomicJsonFile`, and
`unwind` the destructor of one that is not committed. -/
inductive MetricsJsonPlace
  | render
  | validatePath (contents : Bytes)
  | openDirectory (contents : Bytes)
  | makeTemplate (contents : Bytes)
  | makeTemporary (contents : Bytes)
  | copyPath (temporary : Temporary) (contents : Bytes)
  | abandon (temporary : Temporary) (failure : Failure)
  | writing (temporary : Temporary) (contents : Bytes) (written : ℕ)
  | fsyncTemporary (temporary : Temporary) (contents : Bytes)
  | renameTemporary (temporary : Temporary) (contents : Bytes)
  | fsyncDirectory
  | unwind (temporary : Temporary) (failure : Failure)
  | returned
  | thrown (committed : Bool) (failure : Failure)
  deriving DecidableEq

/-- `position` is the file offset of the open temporary file. -/
structure MetricsJsonState where
  place : MetricsJsonPlace
  files : FileSystem Path Bytes
  position : ℕ

inductive MetricsJsonAction
  | main
  | write (answer : SyscallResult)
  deriving DecidableEq, Repr

/-- `validate_json_path` -/
def Path.validateJson (path : Path) : Except Failure Unit :=
  match path.validate "metrics JSON path must not be empty"
      "metrics JSON path must not contain a null byte" with
  | .error failure => .error failure
  | .ok () =>
    if path.filename = [] ∨ path.filename = ['.'] ∨ path.filename = ['.','.'] then
      .error (.invalidArgument "metrics JSON path must name a file")
    else .ok ()

abbrev ssizeMax : ℕ := 2^63-1

/-- The bytes that `write_all_checked` hands to the next `write`. -/
def writeRequest (text : Bytes) (written : ℕ) : Bytes :=
  (text.drop written).take (min (text.length-written) ssizeMax)

namespace MetricsJsonCall

variable (call : MetricsJsonCall)

/-- The directory of the path; an empty parent path is the current directory. -/
def parent : ℕ := call.directory (if call.path.parentPath = [] then ['.'] else call.path.parentPath)

def finalName : Path := call.path.filename

def temporaryName (temporary : Temporary) : Path := call.path.temporaryName temporary.suffix

def mainStep (s : MetricsJsonState) : MetricsJsonPlace → Option MetricsJsonState
  | .render =>
    match call.rendered with
    | .error failure => some { s with place := .thrown false failure }
    | .ok contents => some { s with place := .validatePath contents }
  | .validatePath contents =>
    match call.path.validateJson with
    | .error failure => some { s with place := .thrown false failure }
    | .ok () => some { s with place := .openDirectory contents }
  | .openDirectory contents =>
    match call.openDirectory with
    | some errorNumber =>
      some { s with place := .thrown false (.systemError errorNumber "open metrics JSON directory") }
    | none => some { s with place := .makeTemplate contents }
  | .makeTemplate contents =>
    match call.makeTemplate with
    | some failure => some { s with place := .thrown false failure }
    | none => some { s with place := .makeTemporary contents }
  | .makeTemporary contents =>
    match call.makeTemporary with
    | .error errorNumber => some { s with
        place := .thrown false (.systemError errorNumber "create metrics JSON temporary file") }
    | .ok temporary => some { s with
        place := .copyPath temporary contents
        files := s.files.create call.parent (call.temporaryName temporary) temporary.inode []
        position := 0 }
  | .copyPath temporary contents =>
    match call.copyPath with
    | some failure => some { s with place := .abandon temporary failure }
    | none => some { s with place := .writing temporary contents 0 }
  | .abandon temporary failure => some { s with
      place := .thrown false failure
      files := s.files.unlink call.parent (call.temporaryName temporary) }
  | .writing temporary contents written =>
    if written < contents.length then none
    else some { s with place := .fsyncTemporary temporary contents }
  | .fsyncTemporary temporary contents =>
    if fsyncFdWith call.fsyncTemporary ≠ 0 then some { s with
      place := .unwind temporary (.systemError (fsyncFdWith call.fsyncTemporary)
        "fsync metrics JSON temporary file") }
    else some { s with
      place := .renameTemporary temporary contents
      files := s.files.sync temporary.inode }
  | .renameTemporary temporary _ =>
    match call.renameTemporary with
    | some errorNumber => some { s with
        place := .unwind temporary (.systemError errorNumber
          "rename metrics JSON temporary file") }
    | none => some { s with
        place := .fsyncDirectory
        files := s.files.rename call.parent (call.temporaryName temporary) call.finalName }
  | .fsyncDirectory =>
    if fsyncFdWith call.fsyncDirectory ≠ 0 then some { s with
      place := .thrown true (.systemError (fsyncFdWith call.fsyncDirectory)
        "fsync metrics JSON directory") }
    else some { s with place := .returned }
  | .unwind temporary failure => some { s with
      place := .thrown false failure
      files := s.files.unlink call.parent (call.temporaryName temporary) }
  | .returned => none
  | .thrown _ _ => none

/-- One `write` of `write_all_checked` and what follows from its answer. The kernel accepts at
most the bytes that it is given. -/
def writeStep (answer : SyscallResult) (s : MetricsJsonState) :
    MetricsJsonPlace → Option MetricsJsonState
  | .writing temporary contents written =>
    let request := writeRequest contents written
    if written < contents.length then
      match answer with
      | .error errorNumber =>
        if errorNumber = EINTR then some s -- the same call again
        else some { s with
          place := .unwind temporary (.systemError errorNumber
            "write metrics JSON temporary file") }
      | .count 0 => some { s with
          place := .unwind temporary (.systemError EIO "write metrics JSON temporary file") }
      | .count (n+1) =>
        if n+1 ≤ request.length then
          let accepted := request.take (n+1)
          some { s with
            place := .writing temporary contents (written+(n+1))
            files := s.files.write temporary.inode
              (ByteFile.store (s.files.contents temporary.inode) s.position accepted)
            position := s.position+(n+1) }
        else none
    else none
  | _ => none

def system : TransitionSystem MetricsJsonAction MetricsJsonState where
  step
    | .main,s => call.mainStep s s.place
    | .write answer,s => writeStep answer s s.place

/-- `mkstemp` makes a file that was not there. -/
structure Honoured (before : FileSystem Path Bytes) : Prop where
  absent : ∀ temporary, call.makeTemporary = .ok temporary →
    before.entries call.parent (call.temporaryName temporary) = none
  unused : ∀ temporary, call.makeTemporary = .ok temporary →
    ∀ d n, before.entries d n ≠ some temporary.inode

def Standing (before files : FileSystem Path Bytes) (temporary : Temporary) : Prop :=
  call.makeTemporary = .ok temporary ∧
    before.Beside files call.parent (call.temporaryName temporary) temporary.inode

def Written (before files : FileSystem Path Bytes) (temporary : Temporary) (contents : Bytes) :
    Prop :=
  call.rendered = .ok contents ∧ call.Standing before files temporary ∧
    files.contents temporary.inode = contents

/-- The path denotes a new file with the rendered text, which is durable. -/
def Published (before files : FileSystem Path Bytes) : Prop :=
  ∃ temporary contents, call.rendered = .ok contents ∧ call.makeTemporary = .ok temporary ∧
    before.Replaced files call.parent call.finalName temporary.inode ∧
    files.contents temporary.inode = contents ∧ files.durable temporary.inode = contents

def Consistent (before : FileSystem Path Bytes) (s : MetricsJsonState) :
    MetricsJsonPlace → Prop
  | .render => s.files = before
  | .validatePath contents | .openDirectory contents | .makeTemplate contents
  | .makeTemporary contents => call.rendered = .ok contents ∧ s.files = before
  | .copyPath temporary contents => call.rendered = .ok contents ∧
      call.Standing before s.files temporary ∧ s.files.contents temporary.inode = [] ∧
      s.position = 0
  | .writing temporary contents written => call.rendered = .ok contents ∧
      call.Standing before s.files temporary ∧ written ≤ contents.length ∧
      s.files.contents temporary.inode = contents.take written ∧ s.position = written
  | .fsyncTemporary temporary contents => call.Written before s.files temporary contents
  | .renameTemporary temporary contents => call.Written before s.files temporary contents ∧
      s.files.durable temporary.inode = contents
  | .abandon temporary _ | .unwind temporary _ => (∃ contents, call.rendered = .ok contents) ∧
      call.Standing before s.files temporary
  | .fsyncDirectory | .returned | .thrown true _ => call.Published before s.files
  | .thrown false _ => before.Untouched s.files ∧
      ∀ failure, call.rendered = .error failure → s.files = before

variable {call} {before : FileSystem Path Bytes}

theorem consistent_unmade {s : MetricsJsonState} (h : s.files = before) (failure : Failure) :
    call.Consistent before { s with place := .thrown false failure } (.thrown false failure) := by
  subst h
  exact ⟨fun _ _ => rfl,fun _ _ => rfl⟩

theorem consistent_removed {s : MetricsJsonState} {temporary : Temporary}
    (hrendered : ∃ contents, call.rendered = .ok contents)
    (h : call.Standing before s.files temporary) (failure : Failure) :
    call.Consistent before
      { s with
        place := .thrown false failure
        files := s.files.unlink call.parent (call.temporaryName temporary) }
      (.thrown false failure) := by
  refine ⟨h.2.unlink,fun failure' herror => ?_⟩
  obtain ⟨contents,hok⟩ := hrendered
  rw [hok] at herror
  cases herror

theorem consistent_main (h : call.Honoured before) {s s' : MetricsJsonState}
    (hs : call.Consistent before s s.place) (hstep : call.mainStep s s.place = some s') :
    call.Consistent before s' s'.place := by
  obtain ⟨place,files,position⟩ := s
  cases place with
  | render =>
    simp only [mainStep] at hstep
    split at hstep
    · obtain rfl := Option.some.inj hstep
      exact consistent_unmade hs _
    · rename_i contents hrendered
      obtain rfl := Option.some.inj hstep
      exact ⟨hrendered,hs⟩
  | validatePath contents | openDirectory contents | makeTemplate contents =>
    simp only [mainStep] at hstep
    split at hstep <;> obtain rfl := Option.some.inj hstep
    all_goals first
      | exact consistent_unmade hs.2 _
      | exact hs
  | makeTemporary contents =>
    obtain ⟨hrendered,hfiles⟩ := hs
    simp only [mainStep] at hstep
    split at hstep
    · obtain rfl := Option.some.inj hstep
      exact consistent_unmade hfiles _
    · rename_i temporary htemporary
      obtain rfl := Option.some.inj hstep
      subst hfiles
      exact ⟨hrendered,⟨htemporary,FileSystem.beside_create (h.absent _ htemporary)
        (h.unused _ htemporary) []⟩,if_pos rfl,rfl⟩
  | copyPath temporary contents =>
    obtain ⟨hrendered,hstanding,hempty,hposition⟩ := hs
    simp only [mainStep] at hstep
    split at hstep
    · obtain rfl := Option.some.inj hstep
      exact ⟨⟨contents,hrendered⟩,hstanding⟩
    · obtain rfl := Option.some.inj hstep
      exact ⟨hrendered,hstanding,Nat.zero_le _,hempty,hposition⟩
  | abandon temporary failure | unwind temporary failure =>
    obtain rfl := Option.some.inj hstep
    exact consistent_removed hs.1 hs.2 failure
  | writing temporary contents written =>
    obtain ⟨hrendered,hstanding,hle,hcontents,hposition⟩ := hs
    simp only [mainStep] at hstep
    split at hstep
    · cases hstep
    · rename_i hdone
      obtain rfl := Option.some.inj hstep
      refine ⟨hrendered,hstanding,?_⟩
      rw [hcontents]
      exact List.take_of_length_le (by omega)
  | fsyncTemporary temporary contents =>
    obtain ⟨hrendered,hstanding,hcontents⟩ := hs
    simp only [mainStep] at hstep
    split at hstep
    · obtain rfl := Option.some.inj hstep
      exact ⟨⟨contents,hrendered⟩,hstanding⟩
    · obtain rfl := Option.some.inj hstep
      exact ⟨⟨hrendered,⟨hstanding.1,hstanding.2.sync⟩,hcontents⟩,(if_pos rfl).trans hcontents⟩
  | renameTemporary temporary contents =>
    obtain ⟨⟨hrendered,hstanding,hcontents⟩,hdurable⟩ := hs
    simp only [mainStep] at hstep
    split at hstep
    · obtain rfl := Option.some.inj hstep
      exact ⟨⟨contents,hrendered⟩,hstanding⟩
    · obtain rfl := Option.some.inj hstep
      have hne := call.path.temporaryName_ne temporary.suffix
      exact ⟨temporary,contents,hrendered,hstanding.1,hstanding.2.rename hne,hcontents,hdurable⟩
  | fsyncDirectory =>
    simp only [mainStep] at hstep
    split at hstep <;> obtain rfl := Option.some.inj hstep <;> exact hs
  | returned => cases hstep
  | thrown committed failure => cases hstep

theorem store_accepted {contents : Bytes} {written n : ℕ}
    (hle : written ≤ contents.length) (hn : n ≤ (writeRequest contents written).length) :
    ByteFile.store (contents.take written) written ((writeRequest contents written).take n) =
        contents.take (written+n) ∧ written+n ≤ contents.length := by
  have hlength : (contents.take written).length = written := by
    rw [List.length_take]
    omega
  simp only [writeRequest,List.length_take,List.length_drop] at hn
  refine ⟨?_,by omega⟩
  have hstore := ByteFile.store_end (contents.take written)
    ((writeRequest contents written).take n)
  rw [hlength] at hstore
  rw [hstore,writeRequest,List.take_take,List.take_add,Nat.min_eq_left (by omega)]

theorem consistent_write {answer : SyscallResult} {s s' : MetricsJsonState}
    (hs : call.Consistent before s s.place) (hstep : writeStep answer s s.place = some s') :
    call.Consistent before s' s'.place := by
  obtain ⟨place,files,position⟩ := s
  cases place with
  | writing temporary contents written =>
    obtain ⟨hrendered,hstanding,hle,hcontents,hposition⟩ := hs
    simp only [writeStep] at hstep
    split at hstep
    · split at hstep
      · split at hstep
        · obtain rfl := Option.some.inj hstep
          exact ⟨hrendered,hstanding,hle,hcontents,hposition⟩
        · obtain rfl := Option.some.inj hstep
          exact ⟨⟨contents,hrendered⟩,hstanding⟩
      · obtain rfl := Option.some.inj hstep
        exact ⟨⟨contents,hrendered⟩,hstanding⟩
      · split at hstep
        · rename_i hn
          obtain rfl := Option.some.inj hstep
          obtain ⟨hstore,hnext⟩ := store_accepted hle hn
          refine ⟨hrendered,⟨hstanding.1,hstanding.2.write _⟩,hnext,(if_pos rfl).trans ?_,
            congrArg (·+_) hposition⟩
          simp only at hcontents hposition
          rw [hcontents,hposition]
          exact hstore
        · cases hstep
    · cases hstep
  | _ => cases hstep

theorem reachable_consistent (h : call.Honoured before) {s : MetricsJsonState}
    (hs : call.system.Reachable ⟨.render,before,0⟩ s) : call.Consistent before s s.place := by
  refine @TransitionSystem.Reachable.invariant _ _ call.system
    (fun u => call.Consistent before u u.place) (fun l u v hu hstep => ?_)
    ⟨.render,before,0⟩ s rfl hs
  cases l with
  | main => exact consistent_main h hu hstep
  | write answer => exact consistent_write hu hstep

variable (call)

/-- The path denotes a file with the rendered text, and was given to it when this was already
durable. -/
def NamesRendered (files : FileSystem Path Bytes) : Prop :=
  ∃ inode contents, call.rendered = .ok contents ∧
    files.denotes call.parent call.finalName = some (inode,contents) ∧
    files.durable inode = contents

def NoTemporary (files : FileSystem Path Bytes) : Prop :=
  ∀ temporary, call.makeTemporary = .ok temporary →
    files.denotes call.parent (call.temporaryName temporary) = none

/-- How many steps are left at most, interrupted writes apart. -/
def remaining : MetricsJsonPlace → ℕ
  | .render => 10+(match call.rendered with | .ok contents => contents.length | .error _ => 0)
  | .validatePath contents => 9+contents.length
  | .openDirectory contents => 8+contents.length
  | .makeTemplate contents => 7+contents.length
  | .makeTemporary contents => 6+contents.length
  | .copyPath _ contents => 5+contents.length
  | .writing _ contents written => 4+(contents.length-written)
  | .fsyncTemporary _ _ => 3
  | .renameTemporary _ _ => 2
  | .abandon _ _ | .unwind _ _ | .fsyncDirectory => 1
  | .returned | .thrown _ _ => 0

end MetricsJsonCall

def MetricsJsonAction.effective (action : MetricsJsonAction) : Bool :=
  action ≠ .write (.error EINTR)

/-- What `write_metrics_json_atomic` leaves in the file system at every point, and in its end. -/
structure MetricsJsonContract (call : MetricsJsonCall) (before : FileSystem Path Bytes)
    (s : MetricsJsonState) : Prop where
  final_name : s.files.denotes call.parent call.finalName =
      before.denotes call.parent call.finalName ∨ call.NamesRendered s.files
  unrendered : ∀ failure, call.rendered = .error failure → s.files = before
  written : ∀ temporary contents written, s.place = .writing temporary contents written →
    call.rendered = .ok contents ∧ written ≤ contents.length ∧
      s.files.contents temporary.inode = contents.take written
  synced : ∀ temporary contents, s.place = .renameTemporary temporary contents →
    call.rendered = .ok contents ∧ s.files.contents temporary.inode = contents ∧
      s.files.durable temporary.inode = contents
  failed : ∀ failure, s.place = .thrown false failure →
    before.Untouched s.files ∧ call.NoTemporary s.files
  published : s.place = .returned ∨ (∃ failure, s.place = .thrown true failure) →
    call.NamesRendered s.files ∧ call.NoTemporary s.files ∧
      ∀ d n, ¬ (d = call.parent ∧ n = call.finalName) → s.files.denotes d n = before.denotes d n
  goes_on : s.place = .returned ∨ (∃ committed failure, s.place = .thrown committed failure) ∨
    ∃ action s', call.system.step action s = some s'

namespace MetricsJsonCall

variable {call : MetricsJsonCall} {before files : FileSystem Path Bytes}

theorem Honoured.noTemporary (h : call.Honoured before)
    (hsame : ∀ d n, ¬ (d = call.parent ∧ n = call.finalName) →
      files.denotes d n = before.denotes d n) : call.NoTemporary files := by
  intro temporary htemporary
  have hne := call.path.temporaryName_ne temporary.suffix
  rw [hsame _ (call.temporaryName temporary) fun heq => hne heq.2.symm,FileSystem.denotes,
    h.absent _ htemporary]
  rfl

theorem Published.namesRendered (h : call.Published before files) :
    call.NamesRendered files ∧
      ∀ d n, ¬ (d = call.parent ∧ n = call.finalName) →
        files.denotes d n = before.denotes d n := by
  obtain ⟨temporary,contents,hrendered,-,hreplaced,hcontents,hdurable⟩ := h
  refine ⟨⟨temporary.inode,contents,hrendered,?_,hdurable⟩,hreplaced.others⟩
  rw [hreplaced.entry,hcontents]

theorem Standing.final_name {temporary : Temporary}
    (hs : call.Standing before files temporary) :
    files.denotes call.parent call.finalName = before.denotes call.parent call.finalName :=
  hs.2.denotes fun heq => call.path.temporaryName_ne temporary.suffix heq.2

theorem remaining_step {action : MetricsJsonAction} {s s' : MetricsJsonState}
    (hstep : call.system.step action s = some s') :
    call.remaining s'.place+(if action.effective then 1 else 0) ≤ call.remaining s.place := by
  obtain ⟨place,files,position⟩ := s
  cases action with
  | main =>
    have heffective : MetricsJsonAction.effective .main = true := rfl
    rw [if_pos heffective]
    cases place with
    | render =>
      simp only [system,mainStep] at hstep
      split at hstep
      · obtain rfl := Option.some.inj hstep
        simp only [remaining]
        omega
      · rename_i contents hrendered
        obtain rfl := Option.some.inj hstep
        simp only [remaining,hrendered]
        omega
    | writing temporary contents written =>
      simp only [system,mainStep] at hstep
      split at hstep
      · cases hstep
      · obtain rfl := Option.some.inj hstep
        simp only [remaining]
        omega
    | abandon | unwind =>
      obtain rfl := Option.some.inj hstep
      simp only [remaining]
      omega
    | returned | thrown => cases hstep
    | _ =>
      simp only [system,mainStep] at hstep
      split at hstep <;> obtain rfl := Option.some.inj hstep <;> simp only [remaining] <;> omega
  | write answer =>
    cases place with
    | writing temporary contents written =>
      simp only [system,writeStep] at hstep
      split at hstep
      · split at hstep
        · split at hstep
          · rename_i errorNumber hEINTR
            obtain rfl := Option.some.inj hstep
            subst hEINTR
            simp [MetricsJsonAction.effective]
          · obtain rfl := Option.some.inj hstep
            simp only [remaining]
            split <;> omega
        · obtain rfl := Option.some.inj hstep
          simp only [remaining]
          split <;> omega
        · split at hstep
          · rename_i hn
            obtain rfl := Option.some.inj hstep
            simp only [remaining]
            split <;> omega
          · cases hstep
      · cases hstep
    | _ => cases hstep

theorem goes_on (call : MetricsJsonCall) (s : MetricsJsonState) :
    s.place = .returned ∨ (∃ committed failure, s.place = .thrown committed failure) ∨
      ∃ action s', call.system.step action s = some s' := by
  obtain ⟨place,files,position⟩ := s
  cases place with
  | returned => exact .inl rfl
  | thrown committed failure => exact .inr (.inl ⟨committed,failure,rfl⟩)
  | writing temporary contents written =>
    refine .inr (.inr ?_)
    by_cases hmore : written < contents.length
    · exact ⟨.write (.count 0),_,by simp only [system,writeStep,if_pos hmore]; rfl⟩
    · exact ⟨.main,_,by simp only [system,mainStep,if_neg hmore]; rfl⟩
  | abandon | unwind => exact .inr (.inr ⟨.main,_,rfl⟩)
  | _ =>
    refine .inr (.inr ⟨.main,?_⟩)
    simp only [system,mainStep]
    split <;> exact ⟨_,rfl⟩

end MetricsJsonCall

/-- The call has neither returned nor thrown, nor is the temporary file being written. -/
def MetricsJsonPlace.Between : MetricsJsonPlace → Prop
  | .returned | .thrown _ _ | .writing _ _ _ | .renameTemporary _ _ => False
  | _ => True

theorem MetricsJsonContract.of_between {call : MetricsJsonCall} {before : FileSystem Path Bytes}
    {s : MetricsJsonState} (hplace : s.place.Between)
    (hname : s.files.denotes call.parent call.finalName =
      before.denotes call.parent call.finalName ∨ call.NamesRendered s.files)
    (hrendered : ∀ failure, call.rendered = .error failure → s.files = before) :
    MetricsJsonContract call before s where
  final_name := hname
  unrendered := hrendered
  written := by
    intro temporary contents written heq
    rw [heq] at hplace
    exact hplace.elim
  synced := by
    intro temporary contents heq
    rw [heq] at hplace
    exact hplace.elim
  failed := by
    intro failure heq
    rw [heq] at hplace
    exact hplace.elim
  published := by
    intro hend
    rcases hend with heq | ⟨_,heq⟩ <;> (rw [heq] at hplace; exact hplace.elim)
  goes_on := call.goes_on s

namespace MetricsJsonCall

variable {call : MetricsJsonCall} {before : FileSystem Path Bytes}

theorem unrendered_of_ok {files : FileSystem Path Bytes}
    (h : ∃ contents, call.rendered = .ok contents) (failure : Failure)
    (herror : call.rendered = .error failure) : files = before := by
  obtain ⟨contents,hok⟩ := h
  rw [hok] at herror
  cases herror

theorem Published.contract {s : MetricsJsonState} (h : call.Honoured before)
    (hp : call.Published before s.files)
    (hplace : s.place = .returned ∨ ∃ failure, s.place = .thrown true failure) :
    MetricsJsonContract call before s := by
  obtain ⟨hnames,hothers⟩ := hp.namesRendered
  have hok : ∃ contents, call.rendered = .ok contents := by
    obtain ⟨_,contents,hrendered,-⟩ := hp
    exact ⟨contents,hrendered⟩
  refine ⟨.inr hnames,unrendered_of_ok hok,?_,?_,?_,
    fun _ => ⟨hnames,h.noTemporary hothers,hothers⟩,call.goes_on s⟩
  · intro temporary contents written heq
    rcases hplace with hplace | ⟨_,hplace⟩ <;> (rw [heq] at hplace; cases hplace)
  · intro temporary contents heq
    rcases hplace with hplace | ⟨_,hplace⟩ <;> (rw [heq] at hplace; cases hplace)
  · intro failure heq
    rcases hplace with hplace | ⟨_,hplace⟩ <;> (rw [heq] at hplace; cases hplace)

end MetricsJsonCall

theorem MetricsJsonContract.of_consistent {call : MetricsJsonCall}
    {before : FileSystem Path Bytes} {s : MetricsJsonState} (h : call.Honoured before)
    (hc : call.Consistent before s s.place) : MetricsJsonContract call before s := by
  obtain ⟨place,files,position⟩ := s
  cases place with
  | render =>
    obtain rfl : files = before := hc
    exact .of_between trivial (.inl rfl) fun _ _ => rfl
  | validatePath | openDirectory | makeTemplate | makeTemporary =>
    obtain rfl : files = before := hc.2
    exact .of_between trivial (.inl rfl) fun _ _ => rfl
  | copyPath temporary contents =>
    exact .of_between trivial (.inl hc.2.1.final_name)
      (MetricsJsonCall.unrendered_of_ok ⟨contents,hc.1⟩)
  | fsyncTemporary temporary contents =>
    obtain ⟨hrendered,hstanding,-⟩ := hc
    exact .of_between trivial (.inl hstanding.final_name)
      (MetricsJsonCall.unrendered_of_ok ⟨contents,hrendered⟩)
  | abandon | unwind =>
    exact .of_between trivial (.inl hc.2.final_name) (MetricsJsonCall.unrendered_of_ok hc.1)
  | writing temporary contents written =>
    obtain ⟨hrendered,hstanding,hle,hcontents,-⟩ := hc
    refine ⟨.inl hstanding.final_name,MetricsJsonCall.unrendered_of_ok ⟨contents,hrendered⟩,
      fun t c w heq => ?_,nofun,nofun,fun hend => ?_,call.goes_on _⟩
    · obtain ⟨rfl,rfl,rfl⟩ := MetricsJsonPlace.writing.inj heq
      exact ⟨hrendered,hle,hcontents⟩
    · rcases hend with heq | ⟨_,heq⟩ <;> cases heq
  | renameTemporary temporary contents =>
    obtain ⟨⟨hrendered,hstanding,hcontents⟩,hdurable⟩ := hc
    refine ⟨.inl hstanding.final_name,MetricsJsonCall.unrendered_of_ok ⟨contents,hrendered⟩,
      nofun,fun t c heq => ?_,nofun,fun hend => ?_,call.goes_on _⟩
    · obtain ⟨rfl,rfl⟩ := MetricsJsonPlace.renameTemporary.inj heq
      exact ⟨hrendered,hcontents,hdurable⟩
    · rcases hend with heq | ⟨_,heq⟩ <;> cases heq
  | fsyncDirectory =>
    obtain ⟨hnames,-⟩ := MetricsJsonCall.Published.namesRendered hc
    obtain ⟨_,contents,hrendered,-⟩ := hc
    exact .of_between trivial (.inr hnames)
      (MetricsJsonCall.unrendered_of_ok ⟨contents,hrendered⟩)
  | returned => exact MetricsJsonCall.Published.contract h hc (.inl rfl)
  | thrown committed failure =>
    cases committed with
    | true => exact MetricsJsonCall.Published.contract h hc (.inr ⟨failure,rfl⟩)
    | false =>
      refine ⟨.inl (hc.1 _ _),hc.2,nofun,nofun,
        fun _ _ => ⟨hc.1,h.noTemporary fun d n _ => hc.1 d n⟩,fun hend => ?_,call.goes_on _⟩
      rcases hend with heq | ⟨_,heq⟩ <;> cases heq

/-- Every execution of `write_metrics_json_atomic` keeps the contract, and its length is bounded
by that of the text, interrupted writes apart. -/
theorem write_metrics_json_publishes (call : MetricsJsonCall) (before : FileSystem Path Bytes)
    (h : call.Honoured before) {actions : List MetricsJsonAction} {s : MetricsJsonState}
    (hs : call.system.exec ⟨.render,before,0⟩ actions = some s) :
    MetricsJsonContract call before s ∧
      actions.countP MetricsJsonAction.effective ≤ call.remaining .render := by
  have hmeasure := TransitionSystem.exec_countP (M := call.system)
    (μ := fun t => call.remaining t.place) (P := MetricsJsonAction.effective)
    (fun _ _ _ => MetricsJsonCall.remaining_step) hs
  refine ⟨.of_consistent h (MetricsJsonCall.reachable_consistent h ⟨actions,hs⟩),?_⟩
  simp only at hmeasure
  omega

def MetricsJsonCall.smallest : MetricsJsonCall where
  path := ['o','u','t']
  rendered := .ok [123,125,10]
  directory := fun _ => 1
  openDirectory := none
  makeTemplate := none
  makeTemporary := .ok ⟨['a','b','c','d','e','f'],8⟩
  copyPath := none
  fsyncTemporary := .counting 1 0
  renameTemporary := none
  fsyncDirectory := .counting 0 0

def MetricsJsonCall.smallestActions : List MetricsJsonAction :=
  List.replicate 6 .main++[.write (.count 1),.write (.error EINTR),.write (.count 2)]++
    List.replicate 4 .main

theorem write_metrics_json_publishes_smallest :
    ∃ s, MetricsJsonCall.smallest.system.exec ⟨.render,.withOutput,0⟩
        MetricsJsonCall.smallestActions = some s ∧
      s.place = .returned ∧ s.files.denotes 1 ['o','u','t'] = some (8,[123,125,10]) ∧
      MetricsJsonContract .smallest .withOutput s ∧
      MetricsJsonCall.smallestActions.countP MetricsJsonAction.effective ≤
        MetricsJsonCall.smallest.remaining .render := by
  refine ⟨_,rfl,rfl,rfl,write_metrics_json_publishes _ _ ⟨fun temporary heq => ?_,
    fun temporary heq d n => ?_⟩ rfl⟩
  · obtain rfl := Except.ok.inj heq
    rfl
  · obtain rfl := Except.ok.inj heq
    simp only [FileSystem.withOutput]
    split <;> simp

end AsyncDataLoader
