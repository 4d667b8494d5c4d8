import AsyncDataLoader.RunFile
import AsyncDataLoader.DataFlow

/-!
# The final name never denotes a partial output

Until the rename the new file only stands beside the others, and it is complete and synced
when it is renamed. This holds at every point of every execution of `run_file`.
-/

namespace AsyncDataLoader

open FileIO

variable {σ : Type*}

/-- The reads of a backend deliver the bytes of the file, and are empty only at its end. -/
structure RunCall.ReadsFrom (call : RunCall σ) (input : Bytes) : Prop where
  delivered : ∀ offset length data, call.readAt offset length = .ok data →
    data = (input.drop offset).take data.length
  eof : ∀ offset length, 0 < length → call.readAt offset length = .ok [] → input.length ≤ offset

/-- The output is all of the input, block by block, after the stages. -/
def Transformed (call : RunCall σ) (input output : Bytes) : Prop :=
  ∃ n, (List.range n).flatMap call.rawAt = input ∧ call.stagesAt n ≠ none ∧
    output = (List.range n).flatMap call.processedAt

theorem RunCall.ReadsFrom.flatMap_rawAt {call : RunCall σ} {input : Bytes}
    (h : call.ReadsFrom input) {k o : ℕ} (hk : call.offsetAt k = some o) :
    (List.range k).flatMap call.rawAt = input.take o := by
  induction k generalizing o with
  | zero =>
    obtain rfl := Option.some.inj hk
    rfl
  | succ k ih =>
    obtain ⟨o',ho',hread,-,-,-,rfl⟩ := offsetAt_succ hk
    have hdata := h.delivered _ _ _ hread
    rw [List.range_succ,List.flatMap_append,ih ho',List.take_add,← hdata]
    simp

theorem Complete.transformed {call : RunCall σ} {input output : Bytes} {result : PipelineRunResult}
    (h : Complete call result output) (hreads : call.ReadsFrom input)
    (hblock : 0 < call.config.blockSize) : Transformed call input output := by
  obtain ⟨hoffset,⟨o,ho,heof⟩,hstages,hfile⟩ := h
  have hend := hreads.eof _ _ hblock heof
  refine ⟨result.blocksWritten,?_,hstages,(RunCall.fileAt_eq hfile hoffset hstages).1⟩
  rw [hreads.flatMap_rawAt ho,List.take_of_length_le hend]

theorem Path.temporaryName_ne (path : Path) (suffix : List Char) :
    path.filename ≠ path.temporaryName suffix := by
  intro heq
  have hlen := congrArg List.length heq
  simp only [temporaryName,List.length_append,List.length_cons,List.length_nil] at hlen
  omega

/-- What the system and the backend promise. `mkstemp` makes a file that was not there; the
backend reads the input file. -/
structure RunFileCall.Honoured (call : RunFileCall σ) (before : FileSystem Path Bytes) : Prop where
  absent : ∀ temporary, call.makeTemporary = .ok temporary →
    before.entries call.parent (call.temporaryName temporary) = none
  unused : ∀ temporary, call.makeTemporary = .ok temporary →
    temporary.inode ≠ call.inputInode ∧ ∀ d n, before.entries d n ≠ some temporary.inode
  reads : call.executor.ReadsFrom (before.contents call.inputInode)

namespace RunFileCall

variable (call : RunFileCall σ) (before : FileSystem Path Bytes)

def Standing (files : FileSystem Path Bytes) (temporary : Temporary) : Prop :=
  call.makeTemporary = .ok temporary ∧
    before.Beside files call.parent (call.temporaryName temporary) temporary.inode

def Published (files : FileSystem Path Bytes) : Prop :=
  ∃ inode, inode ≠ call.inputInode ∧
    before.Replaced files call.parent call.finalName inode ∧
    Transformed call.executor (before.contents call.inputInode) (files.contents inode) ∧
    files.durable inode = files.contents inode

def Consistent (files : FileSystem Path Bytes) : RunFilePlace σ → Prop
  | .validateInput | .validateOutput | .openInput | .statInput | .statOutput _
  | .validateFilename | .openDirectory | .makeTemporary => files = before
  | .copyPath temporary | .startRun temporary => call.Standing before files temporary ∧
      files.contents temporary.inode = []
  | .running temporary s => call.Standing before files temporary ∧
      files.contents temporary.inode = s.shared.output ∧
      ∃ s₀, call.executor.start = .ok s₀ ∧ call.executor.system.Reachable s₀ s
  | .fsyncTemporary temporary _ => call.Standing before files temporary ∧
      Transformed call.executor (before.contents call.inputInode) (files.contents temporary.inode)
  | .renameTemporary temporary _ => call.Standing before files temporary ∧
      Transformed call.executor (before.contents call.inputInode)
        (files.contents temporary.inode) ∧
      files.durable temporary.inode = files.contents temporary.inode
  | .unwind temporary _ => call.Standing before files temporary
  | .fsyncDirectory _ | .returned _ | .thrown true _ => call.Published before files
  | .thrown false _ => before.Untouched files ∧
      files.contents call.inputInode = before.contents call.inputInode

variable {call before}

theorem consistent_check {files : FileSystem Path Bytes} {next : RunFilePlace σ}
    {result : Except Failure Unit} (hfiles : files = before)
    (hnext : call.Consistent before files next) :
    call.Consistent before (check files next result).files (check files next result).place := by
  cases result with
  | ok _ => exact hnext
  | error failure =>
    subst hfiles
    exact ⟨fun _ _ => rfl,rfl⟩

theorem consistent_main (h : call.Honoured before) {s s' : RunFileState σ}
    (hs : call.Consistent before s.files s.place) (hstep : call.mainStep s.files s.place = some s') :
    call.Consistent before s'.files s'.place := by
  obtain ⟨place,files⟩ := s
  cases place with
  | validateInput | validateOutput | openInput | statOutput | validateFilename | openDirectory =>
    obtain rfl := Option.some.inj hstep
    exact consistent_check hs hs
  | statInput =>
    simp only [mainStep] at hstep
    split at hstep
    · obtain rfl := Option.some.inj hstep
      obtain rfl := hs
      exact ⟨fun _ _ => rfl,rfl⟩
    · obtain rfl := Option.some.inj hstep
      exact hs
  | makeTemporary =>
    obtain rfl := hs
    simp only [mainStep] at hstep
    split at hstep
    · obtain rfl := Option.some.inj hstep
      exact ⟨fun _ _ => rfl,rfl⟩
    · rename_i temporary htemporary
      obtain rfl := Option.some.inj hstep
      exact ⟨⟨htemporary,FileSystem.beside_create (h.absent _ htemporary)
        (h.unused _ htemporary).2 []⟩,if_pos rfl⟩
  | copyPath temporary =>
    simp only [mainStep] at hstep
    split at hstep
    · obtain rfl := Option.some.inj hstep
      exact hs.1
    · obtain rfl := Option.some.inj hstep
      exact hs
  | startRun temporary =>
    simp only [mainStep] at hstep
    split at hstep
    · obtain rfl := Option.some.inj hstep
      exact hs.1
    · rename_i r hstart
      obtain rfl := Option.some.inj hstep
      exact ⟨hs.1,hs.2.trans (start_initial hstart).output.symm,r,hstart,.refl r⟩
  | running temporary r =>
    obtain ⟨hstanding,hcontents,s₀,hstart,hr⟩ := hs
    simp only [mainStep] at hstep
    split at hstep
    · rename_i result hdone
      obtain rfl := Option.some.inj hstep
      refine ⟨hstanding,?_⟩
      rw [show files.contents temporary.inode = r.shared.output from hcontents]
      exact (done_complete hstart hr hdone).transformed h.reads
        (start_initial hstart).valid.blockSize_pos
    · obtain rfl := Option.some.inj hstep
      exact hstanding
    · cases hstep
  | fsyncTemporary temporary result =>
    simp only [mainStep] at hstep
    split at hstep
    · obtain rfl := Option.some.inj hstep
      exact hs.1
    · obtain rfl := Option.some.inj hstep
      exact ⟨⟨hs.1.1,hs.1.2.sync⟩,hs.2,if_pos rfl⟩
  | renameTemporary temporary result =>
    obtain ⟨⟨htemporary,hbeside⟩,htransformed,hdurable⟩ := hs
    simp only [mainStep] at hstep
    split at hstep
    · obtain rfl := Option.some.inj hstep
      exact ⟨htemporary,hbeside⟩
    · obtain rfl := Option.some.inj hstep
      have hne := call.finalOutputPath.temporaryName_ne temporary.suffix
      exact ⟨temporary.inode,(h.unused _ htemporary).1,hbeside.rename hne,htransformed,hdurable⟩
  | fsyncDirectory result =>
    simp only [mainStep] at hstep
    split at hstep
    · obtain rfl := Option.some.inj hstep
      exact hs
    · obtain rfl := Option.some.inj hstep
      exact hs
  | unwind temporary failure =>
    obtain rfl := Option.some.inj hstep
    exact ⟨hs.2.unlink,hs.2.contents _ (h.unused _ hs.1).1.symm⟩
  | returned result => cases hstep
  | thrown committed failure => cases hstep

theorem consistent_thread {t : Thread} {s s' : RunFileState σ}
    (hs : call.Consistent before s.files s.place)
    (hstep : call.threadStep t s.files s.place = some s') :
    call.Consistent before s'.files s'.place := by
  obtain ⟨place,files⟩ := s
  cases place with
  | running temporary r =>
    obtain ⟨⟨htemporary,hbeside⟩,-,s₀,hstart,hr⟩ := hs
    obtain ⟨r',hr',rfl⟩ := Option.map_eq_some_iff.mp hstep
    exact ⟨⟨htemporary,hbeside.write _⟩,if_pos rfl,s₀,hstart,hr.tail hr'⟩
  | _ => cases hstep

theorem reachable_consistent (h : call.Honoured before) {s : RunFileState σ}
    (hs : call.system.Reachable ⟨.validateInput,before⟩ s) :
    call.Consistent before s.files s.place := by
  refine @TransitionSystem.Reachable.invariant _ _ call.system
    (fun u => call.Consistent before u.files u.place) (fun l u v hu hstep => ?_)
    ⟨.validateInput,before⟩ s rfl hs
  cases l with
  | main => exact consistent_main h hu hstep
  | thread t => exact consistent_thread hu hstep

variable (call before)

/-- The final name denotes a file with all of the output, and was given to it when this was
already durable. -/
def NamesWholeOutput (files : FileSystem Path Bytes) : Prop :=
  ∃ inode output, files.denotes call.parent call.finalName = some (inode,output) ∧
    Transformed call.executor (before.contents call.inputInode) output ∧
    files.durable inode = output

end RunFileCall

/-- What `run_file` leaves in the file system at every point, and in its end. -/
structure PublishContract (call : RunFileCall σ) (before : FileSystem Path Bytes)
    (s : RunFileState σ) : Prop where
  final_name : s.files.denotes call.parent call.finalName =
      before.denotes call.parent call.finalName ∨ call.NamesWholeOutput before s.files
  failed : ∀ failure, s.place = .thrown false failure → before.Untouched s.files
  published : (∃ result, s.place = .returned result) ∨
      (∃ failure, s.place = .thrown true failure) →
    call.NamesWholeOutput before s.files ∧
      ∀ d n, ¬ (d = call.parent ∧ n = call.finalName) → s.files.denotes d n = before.denotes d n
  input : s.files.contents call.inputInode = before.contents call.inputInode

namespace RunFileCall

variable {call : RunFileCall σ} {before files : FileSystem Path Bytes}

theorem Published.namesWholeOutput (h : call.Published before files) :
    call.NamesWholeOutput before files ∧
      (∀ d n, ¬ (d = call.parent ∧ n = call.finalName) → files.denotes d n = before.denotes d n) ∧
      files.contents call.inputInode = before.contents call.inputInode := by
  obtain ⟨inode,hne,hreplaced,htransformed,hdurable⟩ := h
  exact ⟨⟨inode,files.contents inode,hreplaced.entry,htransformed,hdurable⟩,hreplaced.others,
    hreplaced.contents _ hne.symm⟩

theorem Standing.untouched {temporary : Temporary} (h : call.Honoured before)
    (hs : call.Standing before files temporary) :
    files.denotes call.parent call.finalName = before.denotes call.parent call.finalName ∧
      files.contents call.inputInode = before.contents call.inputInode := by
  have hne := call.finalOutputPath.temporaryName_ne temporary.suffix
  exact ⟨hs.2.denotes fun heq => hne heq.2,hs.2.contents _ (h.unused _ hs.1).1.symm⟩

end RunFileCall

def RunFilePlace.Unfinished : RunFilePlace σ → Prop
  | .returned _ | .thrown _ _ => False
  | _ => True

theorem PublishContract.of_unfinished {call : RunFileCall σ} {before : FileSystem Path Bytes}
    {s : RunFileState σ} (hplace : s.place.Unfinished)
    (hname : s.files.denotes call.parent call.finalName =
      before.denotes call.parent call.finalName ∨ call.NamesWholeOutput before s.files)
    (hinput : s.files.contents call.inputInode = before.contents call.inputInode) :
    PublishContract call before s := by
  refine ⟨hname,fun failure heq => ?_,fun hend => ?_,hinput⟩
  · rw [heq] at hplace
    exact hplace.elim
  · rcases hend with ⟨_,heq⟩ | ⟨_,heq⟩ <;> (rw [heq] at hplace; exact hplace.elim)

theorem run_file_publishes (call : RunFileCall σ) (before : FileSystem Path Bytes)
    (h : call.Honoured before) {s : RunFileState σ}
    (hs : call.system.Reachable ⟨.validateInput,before⟩ s) : PublishContract call before s := by
  have hc := RunFileCall.reachable_consistent h hs
  obtain ⟨place,files⟩ := s
  cases place with
  | validateInput | validateOutput | openInput | statInput | statOutput | validateFilename
  | openDirectory | makeTemporary =>
    obtain rfl := hc
    exact .of_unfinished trivial (.inl rfl) rfl
  | copyPath | startRun | running | fsyncTemporary | renameTemporary =>
    obtain ⟨hname,hinput⟩ := hc.1.untouched h
    exact .of_unfinished trivial (.inl hname) hinput
  | unwind =>
    obtain ⟨hname,hinput⟩ := RunFileCall.Standing.untouched h hc
    exact .of_unfinished trivial (.inl hname) hinput
  | fsyncDirectory =>
    obtain ⟨hwhole,-,hinput⟩ := RunFileCall.Published.namesWholeOutput hc
    exact .of_unfinished trivial (.inr hwhole) hinput
  | returned =>
    obtain ⟨hwhole,hothers,hinput⟩ := RunFileCall.Published.namesWholeOutput hc
    exact ⟨.inr hwhole,fun _ heq => (by cases heq),fun _ => ⟨hwhole,hothers⟩,hinput⟩
  | thrown committed failure =>
    cases committed with
    | true =>
      obtain ⟨hwhole,hothers,hinput⟩ := RunFileCall.Published.namesWholeOutput hc
      exact ⟨.inr hwhole,fun _ heq => (by cases heq),fun _ => ⟨hwhole,hothers⟩,hinput⟩
    | false =>
      refine ⟨.inl (hc.1 _ _),fun _ _ => hc.1,fun hend => ?_,hc.2⟩
      rcases hend with ⟨_,heq⟩ | ⟨_,heq⟩ <;> cases heq

def FileSystem.withOutput : FileSystem Path Bytes where
  entries := fun d n => if d = 1 ∧ n = ['o','u','t'] then some 7 else none
  contents := fun j => if j = 5 then [1,2,3] else if j = 7 then [9] else []
  durable := fun _ => []

def RunFileCall.smallest : RunFileCall Unit where
  inputPath := ['i','n']
  finalOutputPath := ['o','u','t']
  executor := RunCall.smallest [1,2,3]
  inputInode := 5
  directory := fun _ => 1
  openInput := none
  statInput := .ok ⟨0,5⟩
  statOutput := .ok ⟨0,7⟩
  openDirectory := none
  makeTemporary := .ok ⟨['a','b','c','d','e','f'],8⟩
  copyPath := none
  fsyncTemporary := .counting 1 0
  renameTemporary := none
  fsyncDirectory := ⟨0,.error EIO,by decide⟩

theorem RunFileCall.smallest_honoured : RunFileCall.smallest.Honoured .withOutput where
  absent := by
    intro temporary h
    obtain rfl := Except.ok.inj h
    rfl
  unused := by
    intro temporary h
    obtain rfl := Except.ok.inj h
    refine ⟨by decide,fun d n => ?_⟩
    simp only [FileSystem.withOutput]
    split <;> simp
  reads := by
    refine ⟨fun offset length data h => ?_,fun offset length hlength h => ?_⟩
    · obtain rfl := Except.ok.inj h
      simp [FileSystem.withOutput,smallest]
    · have hnil := congrArg List.length (Except.ok.inj h)
      simp only [List.length_take,List.length_drop,List.length_nil] at hnil
      simp only [FileSystem.withOutput,smallest,if_pos]
      omega

def RunFileCall.smallestSteps : List RunFileAction :=
  List.replicate 10 .main++
    ([.caller,.caller,.caller,.worker .reader,.worker .reader,.worker .reader,
      .worker .processor,.worker .processor,.worker .processor,
      .worker .writer,.worker .writer,.worker .writer,.worker .writer,
      .worker .reader,.worker .reader,.worker .reader,.worker .reader,
      .worker .processor,.worker .processor,.worker .writer,.caller].map RunFileAction.thread)++
    List.replicate 4 .main

/-- The call fails only in the sync of the directory, after the new name is visible. -/
theorem run_file_publishes_smallest : ∃ s, RunFileCall.smallest.system.exec
    ⟨.validateInput,.withOutput⟩ RunFileCall.smallestSteps = some s ∧
    s.place = .thrown true (.systemError EIO "fsync pipeline output directory") ∧
    s.files.denotes 1 ['o','u','t'] = some (8,[1,2,3]) ∧
    PublishContract RunFileCall.smallest .withOutput s :=
  ⟨_,rfl,rfl,rfl,run_file_publishes _ _ RunFileCall.smallest_honoured
    ⟨RunFileCall.smallestSteps,rfl⟩⟩

end AsyncDataLoader
