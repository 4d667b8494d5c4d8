import AsyncDataLoader.SweepRun

/-!
# What a sweep publishes

The file of the records is replaced at once, by the records of all runs; nothing else changes, and
the scratch files are gone.
-/

namespace AsyncDataLoader
namespace Sweep

open Benchmark Python FileIO FileSystem KeyValue

def Fresh (files : FileSystem Path Bytes) (x : ℕ × Path) (inode : ℕ) : Prop :=
  files.entries x.1 x.2 = none ∧ ∀ d n, files.entries d n ≠ some inode

theorem Fresh.create {files : FileSystem Path Bytes} {x y : ℕ × Path} {inode j : ℕ}
    (h : Fresh files x inode) (hname : x ≠ y) (hinode : inode ≠ j) (content : Bytes) :
    Fresh (files.create y.1 y.2 j content) x inode := by
  refine ⟨(if_neg fun heq => hname (Prod.ext heq.1 heq.2)).trans h.1,fun d n heq => ?_⟩
  simp only [FileSystem.create] at heq
  split_ifs at heq
  · exact hinode (Option.some.inj heq).symm
  · exact h.2 d n heq

theorem Fresh.unlink {files : FileSystem Path Bytes} {x : ℕ × Path} {inode : ℕ}
    (h : Fresh files x inode) (y : ℕ × Path) : Fresh (files.unlink y.1 y.2) x inode := by
  refine ⟨?_,fun d n heq => ?_⟩
  · simp only [FileSystem.unlink]
    split_ifs
    · rfl
    · exact h.1
  · simp only [FileSystem.unlink] at heq
    split_ifs at heq
    exact h.2 d n heq

namespace SweepEnvironment

variable {py : Interpreter} (env : SweepEnvironment py) (arguments : Arguments)

def scratchEntry (scratch : Temporary) : ℕ × Path := (env.outputDirectory,scratchName scratch)

def rssEntry (rss : Temporary) : ℕ × Path := (env.outputDirectory,rssName rss)

def csvTemporaryEntry (temporary : Temporary) : ℕ × Path :=
  ((env.csvEntry arguments).1,env.csvTemporaryName arguments temporary)

def Succeeds (index : ℕ) : Prop := ∃ completed, env.child index = .ok completed ∧
  completed.returncode = 0

/-- New files are new, and paths of one file are told. A run of the pipeline changes no name that is
there but those of its scratch files, and makes names of its own only if it fails. -/
structure Honoured : Prop where
  scratch : ∀ files t, env.makeScratch files = .ok t → Fresh files (env.scratchEntry t) t.inode
  rss : ∀ i files t, env.makeRss i files = .ok t → Fresh files (env.rssEntry t) t.inode
  csv : ∀ files t, env.makeCsv files = .ok t →
    Fresh files (env.csvTemporaryEntry arguments t) t.inode
  child : ∀ i scratch rss files d n, (d,n) ≠ env.scratchEntry scratch → (d,n) ≠ env.rssEntry rss →
    files.entries d n ≠ none ∨ env.Succeeds i →
    (env.childFiles i scratch rss files).denotes d n = files.denotes d n
  samefile : env.pathsIdentifySameFile arguments.input arguments.csv = .ok false →
    env.entry arguments.input ≠ env.csvEntry arguments

/-- What runs that fail leave under names of their own. -/
def ChildLeft : Set (ℕ × Path) :=
  {x | ∃ i scratch rss files, ¬ env.Succeeds i ∧ x ≠ env.rssEntry rss ∧
    x ≠ env.scratchEntry scratch ∧ files.entries x.1 x.2 = none ∧
    (env.childFiles i scratch rss files).entries x.1 x.2 ≠ none}

def Made : Set (ℕ × Path) :=
  {x | (∃ files t, env.makeScratch files = .ok t ∧ x = env.scratchEntry t) ∨
    (∃ i files t, env.makeRss i files = .ok t ∧ x = env.rssEntry t) ∨ x ∈ env.ChildLeft}

/-- The files that nobody removes: the removal is refused, the descriptor is not closed, the input
is not resolved when the command is put together, or a run that fails has left them. -/
def Left : Set (ℕ × Path) :=
  {x | (∃ files t, env.makeScratch files = .ok t ∧ x = env.scratchEntry t ∧
      (env.unlinkScratch ≠ none ∨ env.closeScratch ≠ none)) ∨
    (∃ i files t, env.makeRss i files = .ok t ∧ x = env.rssEntry t ∧
      (env.unlinkRss i ≠ none ∨ env.closeRss i ≠ none ∨
        ∃ errorNumber, env.resolveInput i = .error errorNumber)) ∨
    (∃ files t, env.makeCsv files = .ok t ∧ x = env.csvTemporaryEntry arguments t ∧
      env.unlinkCsv ≠ none) ∨ x ∈ env.ChildLeft}

structure RowOf (index : ℕ) (r : RunConfig × Outcome) : Prop where
  read : ∃ inputPath completed text peak, env.resolveInput index = .ok inputPath ∧
    env.child index = .ok completed ∧ completed.returncode = 0 ∧ env.readRss index = .ok text ∧
    py.int text = some peak ∧
    readOutcome env.floats r.1 inputPath peak completed.stdout = .ok r.2

structure RowsOf (rows : Rows) (rest : List RunConfig) : Prop where
  plan : rows.map Prod.fst++rest = buildRunPlan arguments
  rows : ∀ index r, rows[index]? = some r → env.RowOf index r

/-- The path of the records denotes a new and durable file with the records of all runs. -/
def Published (files : FileSystem Path Bytes) (rows : Rows) : Prop :=
  env.RowsOf arguments rows [] ∧ ∃ inode,
    files.denotes (env.csvEntry arguments).1 (env.csvEntry arguments).2 =
      some (inode,sweepBytes env.quotesReturn arguments rows) ∧
    files.durable inode = sweepBytes env.quotesReturn arguments rows

/-- Every name denotes what it denoted, but for what has been left. -/
def Tidy (before files : FileSystem Path Bytes) : Prop :=
  ∃ S, S ⊆ env.Left arguments ∧ before.Apart files S

def Replaced (before files : FileSystem Path Bytes) (rows : Rows) : Prop :=
  env.Published arguments files rows ∧ env.prepare arguments = .ok () ∧
    ∀ d n, (d,n) ≠ env.csvEntry arguments → files.denotes d n = before.denotes d n

/-- Beside the two scratch files there is only what a run that has failed has left. -/
def Scratched (before files : FileSystem Path Bytes) (scratch rss : Temporary)
    (result : Except SweepFailure (CompletedRun × ℤ)) : Prop :=
  ∃ S, before.Apart files S ∧ env.rssEntry rss ∈ S ∧ env.scratchEntry scratch ∈ S ∧
    (∀ x ∈ S, x ≠ env.rssEntry rss → x ≠ env.scratchEntry scratch → x ∈ env.ChildLeft) ∧
    ∀ r, result = .ok r → S = {env.rssEntry rss,env.scratchEntry scratch}

def Ended (before files : FileSystem Path Bytes) (code : ℕ) (failure : Option SweepFailure) :
    Prop :=
  (code = 1 ∧ failure ≠ none ∧ env.Tidy arguments before files) ∨
    ∃ rows, env.Replaced arguments before files rows ∧
      (code = 1 ∧ failure ≠ none ∨ failure = none ∧
        code = if rows.any (exceeds arguments) then 3 else 0)

def Consistent (before files : FileSystem Path Bytes) : SweepPlace → Prop
  | .prepare => files = before
  | .makeScratch => files = before ∧ env.prepare arguments = .ok ()
  | .closeScratch scratch => env.prepare arguments = .ok () ∧
      (∃ start, env.makeScratch start = .ok scratch) ∧ before.Apart files {env.scratchEntry scratch}
  | .announce loop => env.prepare arguments = .ok () ∧ env.RowsOf arguments loop.rows loop.rest ∧
      (∃ start, env.makeScratch start = .ok loop.scratch) ∧
      before.Apart files {env.scratchEntry loop.scratch}
  | .makeRss loop run => env.prepare arguments = .ok () ∧
      env.RowsOf arguments loop.rows (run::loop.rest) ∧
      (∃ start, env.makeScratch start = .ok loop.scratch) ∧
      before.Apart files {env.scratchEntry loop.scratch}
  | .closeRss loop run rss | .command loop run rss => env.prepare arguments = .ok () ∧
      env.RowsOf arguments loop.rows (run::loop.rest) ∧
      (∃ start, env.makeScratch start = .ok loop.scratch) ∧
      (∃ start, env.makeRss loop.rows.length start = .ok rss) ∧
      before.Apart files {env.rssEntry rss,env.scratchEntry loop.scratch}
  | .child loop run rss inputPath => env.prepare arguments = .ok () ∧
      env.RowsOf arguments loop.rows (run::loop.rest) ∧
      (∃ start, env.makeScratch start = .ok loop.scratch) ∧
      (∃ start, env.makeRss loop.rows.length start = .ok rss) ∧
      before.Apart files {env.rssEntry rss,env.scratchEntry loop.scratch} ∧
      env.resolveInput loop.rows.length = .ok inputPath
  | .removeRss loop run rss inputPath result => env.prepare arguments = .ok () ∧
      env.RowsOf arguments loop.rows (run::loop.rest) ∧
      (∃ start, env.makeScratch start = .ok loop.scratch) ∧
      (∃ start, env.makeRss loop.rows.length start = .ok rss) ∧
      env.Scratched before files loop.scratch rss result ∧
      env.resolveInput loop.rows.length = .ok inputPath ∧
      result = env.runChild loop.rows.length run
  | .removeScratch scratch (.ok rows) => env.prepare arguments = .ok () ∧
      env.RowsOf arguments rows [] ∧ (∃ start, env.makeScratch start = .ok scratch) ∧
      before.Apart files {env.scratchEntry scratch}
  | .removeScratch scratch (.error _) => (∃ start, env.makeScratch start = .ok scratch) ∧
      ∃ S, S \ {env.scratchEntry scratch} ⊆ env.Left arguments ∧ env.scratchEntry scratch ∈ S ∧
        before.Apart files S
  | .publish rows call place => env.prepare arguments = .ok () ∧ env.RowsOf arguments rows [] ∧
      call = env.csvCall arguments rows ∧
      ∃ start, before.Apart start ∅ ∧ call.Consistent start files place
  | .report rows => env.Replaced arguments before files rows
  | .shutdown code failure => env.Ended arguments before files code failure
  | .exited code failure => ∃ returned, code = env.exitStatus returned ∧
      env.Ended arguments before files returned failure

section
variable {env : SweepEnvironment py} {arguments : Arguments} {before files : FileSystem Path Bytes}

theorem csvCall_make {rows : Rows} {n : Path} {inode : ℕ}
    (h : (env.csvCall arguments rows).make files = .ok (n,inode)) :
    ∃ t, env.makeCsv files = .ok t ∧ (n,inode) = (env.csvTemporaryName arguments t,t.inode) := by
  change (env.makeCsv files).map _ = _ at h
  cases hmake : env.makeCsv files with
  | error errorNumber =>
    rw [hmake] at h
    cases h
  | ok t =>
    rw [hmake] at h
    exact ⟨t,rfl,(Except.ok.inj h).symm⟩

theorem csvCall_honoured (h : env.Honoured arguments) (rows : Rows) :
    (env.csvCall arguments rows).Honoured files where
  absent := by
    intro n inode hmake
    obtain ⟨t,ht,heq⟩ := csvCall_make hmake
    obtain ⟨rfl,rfl⟩ := Prod.mk.inj heq
    exact (h.csv files t ht).1
  unused := by
    intro n inode hmake
    obtain ⟨t,ht,heq⟩ := csvCall_make hmake
    obtain ⟨rfl,rfl⟩ := Prod.mk.inj heq
    exact (h.csv files t ht).2
  name := by
    intro n inode hmake hsame
    obtain ⟨t,-,heq⟩ := csvCall_make hmake
    have hlength := congrArg List.length (hsame.trans (Prod.mk.inj heq).1)
    simp only [csvTemporaryName,csvCall,List.length_cons,List.length_append] at hlength
    omega

theorem rssName_ne (rss scratch : Temporary) : rssName rss ≠ scratchName scratch := by
  intro heq
  have hletter : some 'r' = some 'o' := congrArg (fun name : Path => name[15]?) heq
  exact absurd hletter (by decide)

theorem pair_sdiff (env : SweepEnvironment py) (rss scratch : Temporary) :
    ({env.rssEntry rss,env.scratchEntry scratch} : Set (ℕ × Path)) \
      {(env.outputDirectory,rssName rss)} = {env.scratchEntry scratch} := by
  have hne : env.scratchEntry scratch ≠ env.rssEntry rss :=
    fun heq => rssName_ne rss scratch (Prod.mk.inj heq).2.symm
  change insert (env.rssEntry rss) _ \ {env.rssEntry rss} = _
  rw [Set.insert_sdiff_self_of_notMem (by simpa using hne.symm)]

theorem childLeft_subset : env.ChildLeft ⊆ env.Left arguments := fun _ h => .inr (.inr (.inr h))

theorem csvEntry_ne_temporary {temporary : Temporary} :
    env.csvEntry arguments ≠ env.csvTemporaryEntry arguments temporary := by
  intro heq
  have hlength := congrArg List.length (congrArg Prod.snd heq)
  simp only [csvTemporaryEntry,csvTemporaryName,List.length_cons,List.length_append] at hlength
  omega

/-- What nobody removes is not the file of the records, unless its name has been made before. -/
theorem csvEntry_made (h : env.csvEntry arguments ∈ env.Left arguments) :
    env.csvEntry arguments ∈ env.Made := by
  obtain ⟨files,t,ht,heq,-⟩ | ⟨i,files,t,ht,heq,-⟩ | ⟨files,t,-,heq,-⟩ | hchild := h
  · exact .inl ⟨files,t,ht,heq⟩
  · exact .inr (.inl ⟨i,files,t,ht,heq⟩)
  · exact absurd heq csvEntry_ne_temporary
  · exact .inr (.inr hchild)

theorem succeeds_of_ok {index : ℕ} {run : RunConfig} {r : CompletedRun × ℤ}
    (h : env.runChild index run = .ok r) : env.Succeeds index := by
  obtain ⟨completed,hchild,h⟩ := bind_eq_ok h
  obtain ⟨peak,hpeak,-⟩ := bind_eq_ok h
  unfold peakRss at hpeak
  split_ifs at hpeak with hcode
  exact ⟨completed,hchild,not_not.mp hcode⟩

theorem scratched_child (h : env.Honoured arguments) {index : ℕ} {run : RunConfig}
    {scratch rss : Temporary}
    (happart : before.Apart files {env.rssEntry rss,env.scratchEntry scratch}) :
    env.Scratched before (env.childFiles index scratch rss files) scratch rss
      (env.runChild index run) := by
  have hother : ∀ x : ℕ × Path, x ∉ ({env.rssEntry rss,env.scratchEntry scratch} :
      Set (ℕ × Path)) → x ≠ env.rssEntry rss ∧ x ≠ env.scratchEntry scratch := by
    intro x hx
    rwa [Set.mem_insert_iff,Set.mem_singleton_iff,not_or] at hx
  by_cases hsucceeds : env.Succeeds index
  · refine ⟨_,happart.trans fun d n hn => ?_,.inl rfl,.inr rfl,?_,fun _ _ => rfl⟩
    · exact h.child _ _ _ _ d n (hother _ hn).2 (hother _ hn).1 (.inr hsucceeds)
    · intro x hx hrss hscratch
      exact absurd (hx.resolve_left hrss) hscratch
  · refine ⟨_,happart.grow fun d n hn hentry => ?_,.inl (.inl rfl),.inl (.inr rfl),?_,?_⟩
    · exact h.child _ _ _ _ d n (hother _ hn).2 (hother _ hn).1 (.inl hentry)
    · rintro x (hx | ⟨habsent,hmade⟩) hrss hscratch
      · exact absurd (hx.resolve_left hrss) hscratch
      · exact ⟨index,scratch,rss,files,hsucceeds,hrss,hscratch,habsent,hmade⟩
    · exact fun r hr => absurd (succeeds_of_ok hr) hsucceeds

theorem tidy_refl : env.Tidy arguments before before := ⟨∅,Set.empty_subset _,Apart.refl before⟩

theorem RowsOf.next {rows : Rows} {run : RunConfig} {rest : List RunConfig} {outcome : Outcome}
    (h : env.RowsOf arguments rows (run::rest)) (hrow : env.RowOf rows.length (run,outcome)) :
    env.RowsOf arguments (rows++[(run,outcome)]) rest where
  plan := by
    rw [← h.plan]
    simp
  rows := by
    intro index r hr
    rw [List.getElem?_append] at hr
    split_ifs at hr with hlt
    · exact h.rows index r hr
    · rw [List.getElem?_singleton] at hr
      split_ifs at hr with hzero
      obtain rfl := Option.some.inj hr
      have hindex : index = rows.length := by omega
      rwa [hindex]

theorem rowOf_evaluate {index : ℕ} {run : RunConfig} {inputPath : Path} {outcome : Outcome}
    (hpath : env.resolveInput index = .ok inputPath)
    (h : env.evaluate run inputPath (env.runChild index run) = .ok outcome) :
    env.RowOf index (run,outcome) := by
  obtain ⟨⟨completed,peak⟩,hrun,houtcome⟩ := bind_eq_ok h
  obtain ⟨found,hchild,hrun⟩ := bind_eq_ok hrun
  obtain ⟨value,hpeak,hrun⟩ := bind_eq_ok hrun
  obtain ⟨rfl,rfl⟩ := Prod.mk.inj (Except.ok.inj hrun)
  unfold peakRss at hpeak
  split_ifs at hpeak with hcode
  obtain ⟨text,htext,hpeak⟩ := bind_eq_ok hpeak
  split at hpeak
  · cases hpeak
  · rename_i read hread
    obtain rfl := Except.ok.inj hpeak
    exact ⟨inputPath,found,text,read,hpath,hchild,not_not.mp hcode,htext,hread,houtcome⟩

theorem consistent_error {scratch : Temporary} {failure : SweepFailure} {S : Set (ℕ × Path)}
    (hmade : ∃ start, env.makeScratch start = .ok scratch)
    (hleft : S \ {env.scratchEntry scratch} ⊆ env.Left arguments)
    (hmem : env.scratchEntry scratch ∈ S) (happart : before.Apart files S) :
    env.Consistent arguments before files (.removeScratch scratch (.error failure)) :=
  ⟨hmade,S,hleft,hmem,happart⟩

theorem consistent_error_single {scratch : Temporary} {failure : SweepFailure}
    (hmade : ∃ start, env.makeScratch start = .ok scratch)
    (happart : before.Apart files {env.scratchEntry scratch}) :
    env.Consistent arguments before files (.removeScratch scratch (.error failure)) :=
  consistent_error hmade (by simp) (Set.mem_singleton _) happart

theorem consistent_error_pair {scratch rss : Temporary} {index : ℕ} {failure : SweepFailure}
    (hmade : ∃ start, env.makeScratch start = .ok scratch)
    (hrss : ∃ start, env.makeRss index start = .ok rss)
    (happart : before.Apart files {env.rssEntry rss,env.scratchEntry scratch})
    (hfailed : env.unlinkRss index ≠ none ∨ env.closeRss index ≠ none ∨
      ∃ errorNumber, env.resolveInput index = .error errorNumber) :
    env.Consistent arguments before files (.removeScratch scratch (.error failure)) := by
  refine consistent_error hmade ?_ (.inr rfl) happart
  rintro x ⟨hx,hother⟩
  obtain ⟨start,hstart⟩ := hrss
  exact .inr (.inl ⟨_,start,rss,hstart,hx.resolve_right hother,hfailed⟩)

theorem consistent_failed {failure : SweepFailure} (h : env.Tidy arguments before files) :
    env.Consistent arguments before files (.failed failure) :=
  .inl ⟨rfl,by simp,h⟩

theorem tidy_refused {scratch : Temporary} {result : Except SweepFailure Rows}
    (hs : env.Consistent arguments before files (.removeScratch scratch result))
    (hunlink : env.unlinkScratch ≠ none) : env.Tidy arguments before files := by
  have hscratch : (∃ start, env.makeScratch start = .ok scratch) →
      env.scratchEntry scratch ∈ env.Left arguments :=
    fun ⟨start,hstart⟩ => .inl ⟨start,scratch,hstart,rfl,.inl hunlink⟩
  cases result with
  | error failure =>
    obtain ⟨hmade,S,hleft,-,happart⟩ := hs
    refine ⟨S,fun x hx => ?_,happart⟩
    by_cases hx' : x = env.scratchEntry scratch
    · exact hx' ▸ hscratch hmade
    · exact hleft ⟨hx,hx'⟩
  | ok rows =>
    obtain ⟨-,-,hmade,happart⟩ := hs
    exact ⟨_,Set.singleton_subset_iff.mpr (hscratch hmade),happart⟩

theorem replaced_of_done {rows : Rows} {start : FileSystem Path Bytes} {inode : ℕ}
    (hprepare : env.prepare arguments = .ok ()) (hrows : env.RowsOf arguments rows [])
    (hstart : before.Apart start ∅) (h : (env.csvCall arguments rows).Done start files inode) :
    env.Replaced arguments before files rows := by
  refine ⟨⟨hrows,inode,?_,h.durable⟩,hprepare,fun d n hne => ?_⟩
  · rw [← show files.contents inode = sweepBytes env.quotesReturn arguments rows from h.contents]
    exact h.replaced.entry
  · rw [h.replaced.others d n fun heq => hne (Prod.ext heq.1 heq.2)]
    exact hstart.kept d n (Set.notMem_empty _)

theorem apart_of_standing {rows : Rows} {start : FileSystem Path Bytes} {n : Path} {inode : ℕ}
    (hstart : before.Apart start ∅)
    (h : (env.csvCall arguments rows).Standing start files n inode) :
    before.Apart files {((env.csvEntry arguments).1,n)} where
  absent := by
    intro d n' hn
    obtain ⟨rfl,rfl⟩ := Prod.mk.inj (Set.mem_singleton_iff.mp hn)
    rw [← denotes_eq_none,← hstart.kept _ _ (Set.notMem_empty _),denotes_eq_none]
    exact h.2.absent
  kept := by
    intro d n' hn
    rw [← hstart.kept d n' (Set.notMem_empty _)]
    exact h.denotes fun heq => hn (Prod.ext heq.1 heq.2)

theorem tidy_of_failed {rows : Rows} {start : FileSystem Path Bytes} {errorNumber : ℕ}
    (hstart : before.Apart start ∅)
    (h : (env.csvCall arguments rows).Consistent start files (.failed false errorNumber)) :
    env.Tidy arguments before files := by
  obtain huntouched | ⟨hunlink,n,inode,hmake,hbeside⟩ := h
  · exact ⟨∅,Set.empty_subset _,hstart.trans fun d n _ => huntouched d n⟩
  · obtain ⟨t,ht,heq⟩ := csvCall_make hmake
    obtain ⟨rfl,-⟩ := Prod.mk.inj heq
    refine ⟨_,?_,apart_of_standing hstart ⟨hmake,hbeside⟩⟩
    exact Set.singleton_subset_iff.mpr (.inr (.inr (.inl ⟨start,t,ht,rfl,hunlink⟩)))

theorem consistent_main (h : env.Honoured arguments) {s t : SweepState}
    (hs : env.Consistent arguments before s.files s.place)
    (hstep : env.mainStep arguments s.files s.place = some t) :
    env.Consistent arguments before t.files t.place := by
  obtain ⟨place,files⟩ := s
  cases place with
  | prepare =>
    obtain rfl : files = before := hs
    simp only [mainStep] at hstep
    split at hstep <;> obtain rfl := Option.some.inj hstep
    · exact consistent_failed tidy_refl
    · rename_i hprepare
      exact ⟨rfl,hprepare⟩
  | makeScratch =>
    obtain ⟨rfl,hprepare⟩ := hs
    simp only [mainStep] at hstep
    split at hstep <;> obtain rfl := Option.some.inj hstep
    · exact consistent_failed tidy_refl
    · rename_i scratch hmake
      obtain ⟨habsent,hunused⟩ := h.scratch _ _ hmake
      have happart := (Apart.refl files).create habsent hunused []
      exact ⟨hprepare,⟨_,hmake⟩,happart.of_eq (by simp [scratchEntry])⟩
  | closeScratch scratch =>
    obtain ⟨hprepare,hmade,happart⟩ := hs
    simp only [mainStep] at hstep
    split at hstep <;> obtain rfl := Option.some.inj hstep
    · rename_i errorNumber hclose
      obtain ⟨start,hstart⟩ := hmade
      refine consistent_failed ⟨_,Set.singleton_subset_iff.mpr ?_,happart⟩
      exact .inl ⟨start,scratch,hstart,rfl,.inr (by simp [hclose])⟩
    · exact ⟨hprepare,⟨List.nil_append _,by simp⟩,hmade,happart⟩
  | announce loop =>
    obtain ⟨scratch,rows,rest⟩ := loop
    obtain ⟨hprepare,hrows,hmade,happart⟩ := hs
    cases rest with
    | nil =>
      obtain rfl := Option.some.inj hstep
      exact ⟨hprepare,hrows,hmade,happart⟩
    | cons run rest =>
      simp only [mainStep] at hstep
      split at hstep <;> obtain rfl := Option.some.inj hstep
      · exact consistent_error_single hmade happart
      · exact ⟨hprepare,hrows,hmade,happart⟩
  | makeRss loop run =>
    obtain ⟨hprepare,hrows,hmade,happart⟩ := hs
    simp only [mainStep] at hstep
    split at hstep <;> obtain rfl := Option.some.inj hstep
    · exact consistent_error_single hmade happart
    · rename_i rss hmake
      obtain ⟨habsent,hunused⟩ := h.rss _ _ _ hmake
      exact ⟨hprepare,hrows,hmade,⟨_,hmake⟩,happart.create habsent hunused []⟩
  | closeRss loop run rss =>
    obtain ⟨hprepare,hrows,hmade,hrss,happart⟩ := hs
    simp only [mainStep] at hstep
    split at hstep <;> obtain rfl := Option.some.inj hstep
    · rename_i errorNumber hclose
      exact consistent_error_pair hmade hrss happart (.inr (.inl (by simp [hclose])))
    · exact ⟨hprepare,hrows,hmade,hrss,happart⟩
  | command loop run rss =>
    obtain ⟨hprepare,hrows,hmade,hrss,happart⟩ := hs
    simp only [mainStep] at hstep
    split at hstep <;> obtain rfl := Option.some.inj hstep
    · rename_i errorNumber hresolve
      exact consistent_error_pair hmade hrss happart (.inr (.inr ⟨errorNumber,hresolve⟩))
    · rename_i inputPath hresolve
      exact ⟨hprepare,hrows,hmade,hrss,happart,hresolve⟩
  | child loop run rss inputPath =>
    obtain ⟨hprepare,hrows,hmade,hrss,happart,hresolve⟩ := hs
    obtain rfl := Option.some.inj hstep
    exact ⟨hprepare,hrows,hmade,hrss,scratched_child h happart,hresolve,rfl⟩
  | removeRss loop run rss inputPath result =>
    obtain ⟨hprepare,hrows,hmade,hrss,hscratched,hresolve,rfl⟩ := hs
    obtain ⟨S,happart,hrssmem,hscratchmem,hleft,hpair⟩ := hscratched
    have hremoved := happart.unlink hrssmem
    simp only [mainStep] at hstep
    split at hstep
    · rename_i errorNumber hunlink
      obtain rfl := Option.some.inj hstep
      refine consistent_error hmade ?_ hscratchmem happart
      rintro x ⟨hx,hother⟩
      obtain ⟨start,hstart⟩ := hrss
      by_cases hx' : x = env.rssEntry rss
      · exact .inr (.inl ⟨_,start,rss,hstart,hx',.inl (by simp [hunlink])⟩)
      · exact childLeft_subset (hleft x hx hx' hother)
    · split at hstep <;> obtain rfl := Option.some.inj hstep
      · refine consistent_error hmade ?_ (Set.mem_sdiff_singleton.mpr ⟨hscratchmem,?_⟩) hremoved
        · rintro x ⟨⟨hx,hx'⟩,hother⟩
          exact childLeft_subset (hleft x hx hx' hother)
        · exact fun heq => rssName_ne rss loop.scratch (Prod.mk.inj heq).2.symm
      · rename_i outcome houtcome
        obtain ⟨r,hr,-⟩ := bind_eq_ok houtcome
        obtain rfl := hpair r hr
        exact ⟨hprepare,hrows.next (rowOf_evaluate hresolve houtcome),hmade,
          hremoved.of_eq (env.pair_sdiff rss loop.scratch)⟩
  | removeScratch scratch result =>
    simp only [mainStep] at hstep
    split at hstep
    · rename_i errorNumber hunlink
      obtain rfl := Option.some.inj hstep
      exact consistent_failed (tidy_refused hs (by simp [hunlink]))
    · cases result with
      | error failure =>
        obtain rfl := Option.some.inj hstep
        obtain ⟨-,S,hleft,hmem,happart⟩ := hs
        exact consistent_failed ⟨_,hleft,happart.unlink hmem⟩
      | ok rows =>
        obtain rfl := Option.some.inj hstep
        obtain ⟨hprepare,hrows,-,happart⟩ := hs
        have hmem : (env.outputDirectory,scratchName scratch) ∈
            ({env.scratchEntry scratch} : Set (ℕ × Path)) := rfl
        exact ⟨hprepare,hrows,rfl,_,(happart.unlink hmem).of_eq Set.sdiff_self,rfl⟩
  | publish rows call place =>
    obtain ⟨hprepare,hrows,rfl,start,hstart,hplace⟩ := hs
    cases place with
    | done inode =>
      obtain rfl := Option.some.inj hstep
      exact replaced_of_done hprepare hrows hstart hplace
    | failed moved errorNumber =>
      obtain rfl := Option.some.inj hstep
      cases moved with
      | true =>
        obtain ⟨inode,hdone⟩ := hplace
        exact .inr ⟨rows,replaced_of_done hprepare hrows hstart hdone,.inl ⟨rfl,by simp⟩⟩
      | false => exact consistent_failed (tidy_of_failed hstart hplace)
    | _ =>
      obtain ⟨u,hu,rfl⟩ := Option.map_eq_some_iff.mp hstep
      exact ⟨hprepare,hrows,rfl,start,hstart,
        Replacement.consistent_main (csvCall_honoured h rows) hplace hu⟩
  | report rows =>
    simp only [mainStep] at hstep
    split at hstep
    · obtain rfl := Option.some.inj hstep
      exact .inr ⟨rows,hs,.inl ⟨rfl,by simp⟩⟩
    · split_ifs at hstep with hany
      · split at hstep <;> obtain rfl := Option.some.inj hstep
        · exact .inr ⟨rows,hs,.inl ⟨rfl,by simp⟩⟩
        · exact .inr ⟨rows,hs,.inr ⟨rfl,(if_pos hany).symm⟩⟩
      · obtain rfl := Option.some.inj hstep
        exact .inr ⟨rows,hs,.inr ⟨rfl,(if_neg hany).symm⟩⟩
  | shutdown code failure =>
    obtain rfl := Option.some.inj hstep
    exact ⟨code,rfl,hs⟩
  | exited code failure => cases hstep

theorem consistent_write {answer : Except ℕ ℕ} {s t : SweepState}
    (hs : env.Consistent arguments before s.files s.place)
    (hstep : writeStep answer s.files s.place = some t) :
    env.Consistent arguments before t.files t.place := by
  obtain ⟨place,files⟩ := s
  cases place with
  | publish rows call place =>
    obtain ⟨hprepare,hrows,rfl,start,hstart,hplace⟩ := hs
    obtain ⟨u,hu,rfl⟩ := Option.map_eq_some_iff.mp hstep
    exact ⟨hprepare,hrows,rfl,start,hstart,Replacement.consistent_write hplace hu⟩
  | _ => cases hstep

theorem reachable_consistent (h : env.Honoured arguments) {s : SweepState}
    (hs : (env.system arguments).Reachable ⟨.prepare,before⟩ s) :
    env.Consistent arguments before s.files s.place := by
  have hprepare : env.Consistent arguments before before .prepare := rfl
  refine TransitionSystem.Reachable.invariant
    (I := fun s : SweepState => env.Consistent arguments before s.files s.place)
    (fun action s t hs hstep => ?_) hprepare hs
  cases action with
  | main => exact consistent_main h hs hstep
  | write answer => exact consistent_write hs hstep

/-- At every place the names that were there denote what they denoted, but for the one of the
records when it has been replaced; and its name is not made before. -/
theorem Consistent.names {place : SweepPlace} (h : env.Consistent arguments before files place) :
    (∃ S, before.Apart files S ∧ (env.csvEntry arguments ∈ S → env.csvEntry arguments ∈ env.Made)) ∨
      ∃ rows, env.Replaced arguments before files rows := by
  have hpair : ∀ {scratch rss : Temporary} {index : ℕ},
      (∃ start, env.makeScratch start = .ok scratch) →
      (∃ start, env.makeRss index start = .ok rss) →
      env.csvEntry arguments = env.rssEntry rss ∨
        env.csvEntry arguments = env.scratchEntry scratch →
      env.csvEntry arguments ∈ env.Made := by
    rintro scratch rss index ⟨start,hstart⟩ ⟨start',hstart'⟩ (heq | heq)
    · exact .inr (.inl ⟨index,start',rss,hstart',heq⟩)
    · exact .inl ⟨start,scratch,hstart,heq⟩
  have hsingle : ∀ {scratch : Temporary}, (∃ start, env.makeScratch start = .ok scratch) →
      env.csvEntry arguments = env.scratchEntry scratch → env.csvEntry arguments ∈ env.Made :=
    fun ⟨start,hstart⟩ heq => .inl ⟨start,_,hstart,heq⟩
  have htidy : env.Tidy arguments before files → ∃ S, before.Apart files S ∧
      (env.csvEntry arguments ∈ S → env.csvEntry arguments ∈ env.Made) :=
    fun ⟨S,hleft,happart⟩ => ⟨S,happart,fun hmem => csvEntry_made (hleft hmem)⟩
  have hended : ∀ {code failure}, env.Ended arguments before files code failure →
      (∃ S, before.Apart files S ∧
        (env.csvEntry arguments ∈ S → env.csvEntry arguments ∈ env.Made)) ∨
      ∃ rows, env.Replaced arguments before files rows := by
    rintro code failure (⟨-,-,hleft⟩ | ⟨rows,hreplaced,-⟩)
    · exact .inl (htidy hleft)
    · exact .inr ⟨rows,hreplaced⟩
  cases place with
  | prepare => exact .inl ⟨∅,h ▸ Apart.refl before,fun hmem => hmem.elim⟩
  | makeScratch => exact .inl ⟨∅,h.1 ▸ Apart.refl before,fun hmem => hmem.elim⟩
  | closeScratch scratch => exact .inl ⟨_,h.2.2,hsingle h.2.1⟩
  | announce loop => exact .inl ⟨_,h.2.2.2,hsingle h.2.2.1⟩
  | makeRss loop run => exact .inl ⟨_,h.2.2.2,hsingle h.2.2.1⟩
  | closeRss loop run rss => exact .inl ⟨_,h.2.2.2.2,hpair h.2.2.1 h.2.2.2.1⟩
  | command loop run rss => exact .inl ⟨_,h.2.2.2.2,hpair h.2.2.1 h.2.2.2.1⟩
  | child loop run rss inputPath => exact .inl ⟨_,h.2.2.2.2.1,hpair h.2.2.1 h.2.2.2.1⟩
  | removeRss loop run rss inputPath result =>
    obtain ⟨-,-,hmade,hrss,⟨S,happart,-,-,hleft,-⟩,-⟩ := h
    refine .inl ⟨S,happart,fun hmem => ?_⟩
    by_cases heq : env.csvEntry arguments = env.rssEntry rss ∨
        env.csvEntry arguments = env.scratchEntry loop.scratch
    · exact hpair hmade hrss heq
    · rw [not_or] at heq
      exact .inr (.inr (hleft _ hmem heq.1 heq.2))
  | removeScratch scratch result =>
    cases result with
    | error failure =>
      obtain ⟨hmade,S,hleft,-,happart⟩ := h
      refine .inl ⟨S,happart,fun hmem => ?_⟩
      by_cases heq : env.csvEntry arguments = env.scratchEntry scratch
      · exact hsingle hmade heq
      · exact csvEntry_made (hleft ⟨hmem,heq⟩)
    | ok rows => exact .inl ⟨_,h.2.2.2,hsingle h.2.2.1⟩
  | publish rows call place =>
    obtain ⟨hprepare,hrows,rfl,start,hstart,hplace⟩ := h
    have hstanding : ∀ n inode, (env.csvCall arguments rows).Standing start files n inode →
        ∃ S, before.Apart files S ∧
          (env.csvEntry arguments ∈ S → env.csvEntry arguments ∈ env.Made) := by
      refine fun n inode h => ⟨_,apart_of_standing hstart h,fun hmem => ?_⟩
      obtain ⟨t,-,heq⟩ := csvCall_make h.1
      exact absurd ((Set.mem_singleton_iff.mp hmem).trans
        (congrArg (Prod.mk _) (Prod.mk.inj heq).1)) csvEntry_ne_temporary
    cases place with
    | make =>
      exact .inl ⟨∅,(show files = start from hplace) ▸ hstart,fun hmem => hmem.elim⟩
    | writing n inode written => exact .inl (hstanding n inode hplace.1)
    | fsync n inode => exact .inl (hstanding n inode hplace.1)
    | close n inode => exact .inl (hstanding n inode hplace.1)
    | replace n inode => exact .inl (hstanding n inode hplace.1)
    | unlink n inode errorNumber => exact .inl (hstanding n inode hplace)
    | afterwards inode calls => exact .inr ⟨rows,replaced_of_done hprepare hrows hstart hplace⟩
    | done inode => exact .inr ⟨rows,replaced_of_done hprepare hrows hstart hplace⟩
    | failed moved errorNumber =>
      cases moved with
      | true => exact .inr ⟨rows,replaced_of_done hprepare hrows hstart hplace.choose_spec⟩
      | false => exact .inl (htidy (tidy_of_failed hstart hplace))
  | report rows => exact .inr ⟨rows,h⟩
  | shutdown code failure => exact hended h
  | exited code failure =>
    obtain ⟨returned,-,h⟩ := h
    exact hended h

theorem entry_ne (h : env.Honoured arguments) (hprepare : env.prepare arguments = .ok ()) :
    env.entry arguments.input ≠ env.csvEntry arguments := by
  obtain ⟨_,hvalidate,-⟩ := bind_eq_ok hprepare
  obtain ⟨isFile,-,hvalidate⟩ := bind_eq_ok hvalidate
  split_ifs at hvalidate
  obtain ⟨isDirectory,-,hvalidate⟩ := bind_eq_ok hvalidate
  split_ifs at hvalidate
  obtain ⟨parentIsDirectory,-,hvalidate⟩ := bind_eq_ok hvalidate
  split_ifs at hvalidate
  obtain ⟨same,hsame,hvalidate⟩ := bind_eq_ok hvalidate
  split_ifs at hvalidate with hdiffer
  exact h.samefile (by rw [hsame,Bool.eq_false_iff.mpr hdiffer])

theorem publish_step {rows : Rows} {call : Replacement Path UInt8}
    {action : ReplacementAction} {s t : ReplacementState Path UInt8}
    (h : call.system.step action s = some t) :
    (env.system arguments).step action ⟨.publish rows call s.place,s.files⟩ =
      some ⟨.publish rows call t.place,t.files⟩ := by
  obtain ⟨place,files⟩ := s
  cases action with
  | main =>
    cases place with
    | done inode => cases h
    | failed moved errorNumber => cases h
    | _ => exact Option.map_eq_some_iff.mpr ⟨t,h,rfl⟩
  | write answer => exact Option.map_eq_some_iff.mpr ⟨t,h,rfl⟩

theorem goes_on (s : SweepState) (h : ∀ code failure, s.place ≠ .exited code failure) :
    ∃ action t, (env.system arguments).step action s = some t := by
  obtain ⟨place,files⟩ := s
  cases place with
  | exited code failure => exact absurd rfl (h code failure)
  | announce loop =>
    obtain ⟨scratch,rows,_ | ⟨run,rest⟩⟩ := loop
    · exact ⟨.main,_,rfl⟩
    · refine ⟨.main,?_⟩
      simp only [system,mainStep]
      split <;> exact ⟨_,rfl⟩
  | child loop run rss inputPath => exact ⟨.main,_,rfl⟩
  | shutdown code failure => exact ⟨.main,_,rfl⟩
  | removeRss loop run rss inputPath result =>
    refine ⟨.main,?_⟩
    simp only [system,mainStep]
    split
    · exact ⟨_,rfl⟩
    · split <;> exact ⟨_,rfl⟩
  | removeScratch scratch result =>
    refine ⟨.main,?_⟩
    simp only [system,mainStep]
    split
    · exact ⟨_,rfl⟩
    · split <;> exact ⟨_,rfl⟩
  | report rows =>
    refine ⟨.main,?_⟩
    simp only [system,mainStep]
    split
    · exact ⟨_,rfl⟩
    · split
      · split <;> exact ⟨_,rfl⟩
      · exact ⟨_,rfl⟩
  | publish rows call place =>
    by_cases hend : (∃ inode, place = .done inode) ∨ ∃ moved errorNumber,
        place = .failed moved errorNumber
    · obtain ⟨inode,rfl⟩ | ⟨moved,errorNumber,rfl⟩ := hend <;> exact ⟨.main,_,rfl⟩
    · rw [not_or,not_exists,not_exists] at hend
      obtain ⟨action,u,hu⟩ := call.goes_on ⟨place,files⟩ hend.1
        fun moved errorNumber heq => hend.2 moved ⟨errorNumber,heq⟩
      exact ⟨action,_,publish_step hu⟩
  | _ =>
    refine ⟨.main,?_⟩
    simp only [system,mainStep]
    split <;> exact ⟨_,rfl⟩

theorem reachable_start {scratch : Temporary}
    (hprepare : env.prepare arguments = .ok ()) (hscratch : env.makeScratch files = .ok scratch)
    (hclose : env.closeScratch = none) :
    (env.system arguments).Reachable ⟨.prepare,files⟩
      ⟨.announce ⟨scratch,[],buildRunPlan arguments⟩,
        files.create env.outputDirectory (scratchName scratch) scratch.inode []⟩ := by
  refine ⟨[.main,.main,.main],?_⟩
  simp only [TransitionSystem.exec_cons,system,mainStep,hprepare,hscratch,hclose,Option.bind_some,
    TransitionSystem.exec_nil]

theorem evaluate_ok {run : RunConfig} {inputPath : Path} {completed : CompletedRun}
    {peak : ℤ} {result : Except SweepFailure (CompletedRun × ℤ)}
    (h : result = .ok (completed,peak)) : env.evaluate run inputPath result =
      readOutcome env.floats run inputPath peak completed.stdout := by
  rw [h]
  rfl

theorem reachable_sample {scratch rss : Temporary} {rows : Rows} {run : RunConfig}
    {rest : List RunConfig} {inputPath : Path} {outcome : Outcome}
    (hannounce : env.announce rows.length = none)
    (hrss : env.makeRss rows.length files = .ok rss) (hclose : env.closeRss rows.length = none)
    (hinput : env.resolveInput rows.length = .ok inputPath)
    (hunlink : env.unlinkRss rows.length = none)
    (hevaluate : env.evaluate run inputPath (env.runChild rows.length run) = .ok outcome) :
    (env.system arguments).Reachable ⟨.announce ⟨scratch,rows,run::rest⟩,files⟩
      ⟨.announce ⟨scratch,rows++[(run,outcome)],rest⟩,(env.childFiles rows.length scratch rss
        (files.create env.outputDirectory (rssName rss) rss.inode [])).unlink env.outputDirectory
          (rssName rss)⟩ := by
  refine ⟨[.main,.main,.main,.main,.main,.main],?_⟩
  simp only [TransitionSystem.exec_cons,system,mainStep,hannounce,hrss,hclose,hinput,hunlink,
    hevaluate,Option.bind_some,TransitionSystem.exec_nil]

theorem reachable_publish {rows : Rows} {call : Replacement Path UInt8}
    {place place' : ReplacementPlace Path} {files' : FileSystem Path Bytes}
    (h : call.system.Reachable ⟨place,files⟩ ⟨place',files'⟩) :
    (env.system arguments).Reachable ⟨.publish rows call place,files⟩
      ⟨.publish rows call place',files'⟩ := by
  obtain ⟨actions,hactions⟩ := h
  obtain ⟨t,ht,rfl⟩ := TransitionSystem.exec_simulates (f := id) (N := env.system arguments)
    (R := fun s t => t = ⟨.publish rows call s.place,s.files⟩)
    (fun action s t a ha hstep => by
      obtain rfl := ha
      exact ⟨_,publish_step hstep,rfl⟩) rfl hactions
  exact ⟨_,ht⟩

/-- The records are published when all runs have been made, if nothing is refused. -/
theorem reachable_published {scratch temporary : Temporary} {rows : Rows}
    (hunlink : env.unlinkScratch = none)
    (hmake : env.makeCsv (files.unlink env.outputDirectory (scratchName scratch)) = .ok temporary)
    (hfsync : env.fsyncCsv = none) (hclose : env.closeCsv = none) (hreplace : env.replaceCsv = none)
    (hdirectory : ∀ call ∈ env.directoryCalls, call = none) (hprint : env.printStatus = none)
    (hlimit : rows.any (exceeds arguments) = false) (hflush : env.flushOutput = none) : ∃ files',
    (env.system arguments).Reachable ⟨.announce ⟨scratch,rows,[]⟩,files⟩
      ⟨.exited 0 none,files'⟩ := by
  have hremove : (env.system arguments).Reachable ⟨.announce ⟨scratch,rows,[]⟩,files⟩
      ⟨.publish rows (env.csvCall arguments rows) .make,
        files.unlink env.outputDirectory (scratchName scratch)⟩ := by
    refine ⟨[.main,.main],?_⟩
    simp only [TransitionSystem.exec_cons,system,mainStep,hunlink,Option.bind_some,
      TransitionSystem.exec_nil]
  have hcall : (env.csvCall arguments rows).make
      (files.unlink env.outputDirectory (scratchName scratch)) =
        .ok (env.csvTemporaryName arguments temporary,temporary.inode) := by
    change (env.makeCsv _).map _ = _
    rw [hmake]
    rfl
  obtain ⟨files',hdone⟩ := Replacement.reaches_done hcall (sweepBytes_ne_nil _ _ _) hfsync hclose
    hreplace hdirectory
  have hreport : (env.system arguments).Reachable
      ⟨.publish rows (env.csvCall arguments rows) (.done temporary.inode),files'⟩
      ⟨.exited 0 none,files'⟩ := by
    refine ⟨[.main,.main,.main],?_⟩
    simp only [TransitionSystem.exec_cons,system,mainStep,exitStatus,hprint,hlimit,hflush,
      Option.bind_some,TransitionSystem.exec_nil,Bool.false_eq_true,if_false,if_true]
  exact ⟨files',(hremove.trans (reachable_publish hdone)).trans hreport⟩

end

/-- What a sweep guarantees at every point. -/
structure SweepContract (before : FileSystem Path Bytes) (s : SweepState) : Prop where
  others : ∀ d n, (d,n) ≠ env.csvEntry arguments → before.entries d n ≠ none →
    s.files.denotes d n = before.denotes d n
  input : before.entries (env.entry arguments.input).1 (env.entry arguments.input).2 ≠ none →
    s.files.denotes (env.entry arguments.input).1 (env.entry arguments.input).2 =
      before.denotes (env.entry arguments.input).1 (env.entry arguments.input).2
  csv : before.entries (env.csvEntry arguments).1 (env.csvEntry arguments).2 ≠ none ∨
      env.csvEntry arguments ∉ env.Made →
    s.files.denotes (env.csvEntry arguments).1 (env.csvEntry arguments).2 =
      before.denotes (env.csvEntry arguments).1 (env.csvEntry arguments).2 ∨
    ∃ rows, env.Published arguments s.files rows
  planned : ∀ loop run rss inputPath, s.place = .child loop run rss inputPath →
    (buildRunPlan arguments)[loop.rows.length]? = some run
  succeeded : ∀ code, s.place = .exited code none →
    ∃ rows, env.Replaced arguments before s.files rows ∧
      code = env.exitStatus (if rows.any (exceeds arguments) then 3 else 0)
  failed : ∀ code failure, s.place = .exited code (some failure) → code = env.exitStatus 1 ∧
    ((∀ d n, (d,n) ∉ env.Left arguments → s.files.denotes d n = before.denotes d n) ∨
      ∃ rows, env.Replaced arguments before s.files rows)
  goes_on : (∀ code failure, s.place ≠ .exited code failure) →
    ∃ action t, (env.system arguments).step action s = some t

end SweepEnvironment

/-- In every run of a sweep the file of the records is as it was, or has the records of all runs of
the plan. Whatever else was there stays, and a sweep that ends leaves nothing behind that it could
remove. -/
theorem sweep_publishes {py : Interpreter} (env : SweepEnvironment py) (arguments : Arguments)
    (before : FileSystem Path Bytes) {s : SweepState} (h : env.Honoured arguments)
    (hs : (env.system arguments).Reachable ⟨.prepare,before⟩ s) :
    env.SweepContract arguments before s := by
  have hconsistent := SweepEnvironment.reachable_consistent h hs
  have hothers : ∀ d n, (d,n) ≠ env.csvEntry arguments → before.entries d n ≠ none →
      s.files.denotes d n = before.denotes d n := by
    intro d n hne hentry
    obtain ⟨S,happart,-⟩ | ⟨rows,-,-,hkept⟩ := hconsistent.names
    · exact happart.kept d n fun hmem => hentry (happart.absent d n hmem)
    · exact hkept d n hne
  refine ⟨hothers,fun hentry => ?_,fun hentry => ?_,?_,?_,?_,SweepEnvironment.goes_on s⟩
  · obtain ⟨S,happart,-⟩ | ⟨rows,-,hprepare,hkept⟩ := hconsistent.names
    · exact happart.kept _ _ fun hmem => hentry (happart.absent _ _ hmem)
    · exact hkept _ _ (SweepEnvironment.entry_ne h hprepare)
  · obtain ⟨S,happart,hmade⟩ | ⟨rows,hpublished,-⟩ := hconsistent.names
    · refine .inl (happart.kept _ _ fun hmem => ?_)
      exact hentry.elim (fun hentry => hentry (happart.absent _ _ hmem)) fun hno => hno (hmade hmem)
    · exact .inr ⟨rows,hpublished⟩
  · intro loop run rss inputPath hplace
    rw [hplace] at hconsistent
    have hplan := hconsistent.2.1.plan
    rw [← hplan,List.getElem?_append_right (by simp)]
    simp
  · intro code hplace
    rw [hplace] at hconsistent
    obtain ⟨returned,rfl,⟨-,hne,-⟩ | ⟨rows,hreplaced,⟨-,hne⟩ | ⟨-,rfl⟩⟩⟩ := hconsistent
    · exact absurd rfl hne
    · exact absurd rfl hne
    · exact ⟨rows,hreplaced,rfl⟩
  · intro code failure hplace
    rw [hplace] at hconsistent
    obtain ⟨returned,rfl,⟨rfl,-,S,hleft,happart⟩ | ⟨rows,hreplaced,⟨rfl,-⟩ | ⟨hnone,-⟩⟩⟩ :=
      hconsistent
    · exact ⟨rfl,.inl fun d n hn => happart.kept d n fun hmem => hn (hleft hmem)⟩
    · exact ⟨rfl,.inr ⟨rows,hreplaced⟩⟩
    · cases hnone

deriving instance DecidableEq for Outcome

def withRecords : FileSystem Path Bytes where
  entries := fun d n => if d = 0 ∧ n = ['i','n'] then some 5
    else if d = 0 ∧ n = ['c'] then some 7 else none
  contents := fun j => if j = 5 then [1,2,3] else if j = 7 then [9] else []
  durable := fun _ => []

theorem fresh_withRecords {x : ℕ × Path} {inode : ℕ} (hin : x ≠ (0,['i','n'])) (hc : x ≠ (0,['c']))
    (hinode : inode ≠ 5 ∧ inode ≠ 7) : Fresh withRecords x inode := by
  refine ⟨?_,fun d n heq => ?_⟩
  · simp only [withRecords]
    rw [if_neg fun heq => hin (Prod.ext heq.1 heq.2),if_neg fun heq => hc (Prod.ext heq.1 heq.2)]
  · simp only [withRecords] at heq
    split_ifs at heq
    · exact hinode.1 (Option.some.inj heq).symm
    · exact hinode.2 (Option.some.inj heq).symm

open Classical in
noncomputable def newFile (x : ℕ × Path) (temporary : Temporary) (files : FileSystem Path Bytes) :
    Except ℕ Temporary :=
  if Fresh files x temporary.inode then .ok temporary else .error 17

theorem newFile_ok {x : ℕ × Path} {temporary t : Temporary} {files : FileSystem Path Bytes}
    (h : newFile x temporary files = .ok t) : t = temporary ∧ Fresh files x temporary.inode := by
  unfold newFile at h
  split_ifs at h with hfresh
  exact ⟨(Except.ok.inj h).symm,hfresh⟩

theorem newFile_of_fresh {x : ℕ × Path} {temporary : Temporary} {files : FileSystem Path Bytes}
    (h : Fresh files x temporary.inode) : newFile x temporary files = .ok temporary := if_pos h

def smallestPairs : List (List Char × List Char) :=
  [("input_bytes","3"),("selected_backend","sync"),("buffer_pool_bytes","12288"),
    ("blocks_written","1"),("bytes_written","3"),("elapsed_ms","1.5"),("throughput_mib_s","2.0"),
    ("pipeline.buffer_pool.inflight.peak","1"),("pipeline.queue.read_process.depth.peak","1"),
    ("pipeline.queue.process_write.depth.peak","1"),("pipeline.read.latency_ns.average_us","1.0"),
    ("pipeline.process.latency_ns.average_us","1.0"),
    ("pipeline.write.latency_ns.average_us","1.0"),
    ("stage.0.byte_increment.latency_ns.average_us","1.0"),("output_committed","true"),
    ("verification","passed"),("status","complete")].map fun p => (p.1.toList,p.2.toList)

def smallestArguments : Arguments where
  executable := "demo".toList
  timeExecutable := "time".toList
  input := "in".toList
  outputDirectory := "d".toList
  csv := "c".toList
  environmentId := "e".toList
  blockSizes := [4096]
  buffers := [3]
  queueDepths := [1]
  backends := [.sync]
  threadWorkers := 2
  iterations := 1
  maxRuns := 1000
  rssLimitMib := none

/-- The input in a directory with commas, quotes and line feeds in its name. -/
def smallestInput : Path := "/a,\"b\"\nc/in".toList

def smallestScratch : Temporary := ⟨['s'],8⟩
def smallestRss : Temporary := ⟨['r'],9⟩
def smallestCsv : Temporary := ⟨['t'],10⟩

noncomputable def SweepEnvironment.smallest : SweepEnvironment exact where
  floats := .trimmed exact
  quotesReturn := true
  isFile := fun _ => .ok true
  isDirectory := fun _ => .ok true
  parent := fun _ => []
  resolve := fun path => .ok ("/a,\"b\"\nc/".toList++path)
  samefile := fun _ _ => .ok false
  executable := fun _ => true
  entry := fun path => (0,path)
  outputDirectory := 1
  makeScratch := newFile (1,scratchName smallestScratch) smallestScratch
  closeScratch := none
  announce := fun _ => none
  makeRss := fun _ => newFile (1,rssName smallestRss) smallestRss
  closeRss := fun _ => none
  resolveInput := fun _ => .ok smallestInput
  child := fun _ => .ok ⟨0,smallestPairs.flatMap printLine,[]⟩
  childFiles := fun _ _ _ files => files
  readRss := fun _ => .ok "2048".toList
  unlinkRss := fun _ => none
  unlinkScratch := none
  makeCsv := newFile (0,".c.tmp.t".toList) smallestCsv
  fsyncCsv := none
  closeCsv := none
  replaceCsv := none
  directoryCalls := [none,none,none]
  unlinkCsv := none
  printStatus := none
  printLimit := none
  flushOutput := none

def smallestRun : RunConfig := ⟨4096,3,1,.sync,1⟩

def smallestOutcome : Outcome where
  inputPath := smallestInput
  inputBytes := 3
  selectedBackend := "sync".toList
  bufferPoolBytes := 12288
  blocksWritten := 1
  bytesWritten := 3
  inflightPeak := 1
  readProcessQueuePeak := 1
  processWriteQueuePeak := 1
  readAverageUs := "1.0".toList
  processAverageUs := "1.0".toList
  writeAverageUs := "1.0".toList
  stageAverageUs := "1.0".toList
  elapsedMs := "1.5".toList
  throughputMibS := "2.0".toList
  peakRssKib := 2048
  verification := "passed".toList

theorem plan_smallest : buildRunPlan smallestArguments = [smallestRun] := by decide

theorem readOutcome_smallest : readOutcome (.trimmed exact) smallestRun smallestInput 2048
    (smallestPairs.flatMap printLine) = .ok smallestOutcome := by
  have hplain : smallestPairs.all (fun p => (p.1.all fun c => !isLineBreak c && c != ' ' && c != '=')
      && !p.1.isEmpty && p.2.all (!isLineBreak ·)) = true := by decide +kernel
  have hpairs : ∀ p ∈ smallestPairs, PlainKey p.1 ∧ Plain p.2 := by
    intro p hp
    have hp := List.all_eq_true.mp hplain p hp
    simp only [Bool.and_eq_true,List.all_eq_true,Bool.not_eq_true',bne_iff_ne,ne_eq,
      List.isEmpty_eq_false_iff] at hp
    obtain ⟨⟨hkey,hne⟩,hvalue⟩ := hp
    exact ⟨⟨fun c hc => (hkey c hc).1.1,hne,fun hc => (hkey _ hc).1.2 rfl,
      fun hc => (hkey _ hc).2 rfl⟩,hvalue⟩
  rw [readOutcome,parse_printed hpairs]
  decide +kernel

theorem SweepEnvironment.smallest_honoured :
    SweepEnvironment.smallest.Honoured smallestArguments where
  scratch := by
    intro files t ht
    obtain ⟨rfl,hfresh⟩ := newFile_ok ht
    exact hfresh
  rss := by
    intro i files t ht
    obtain ⟨rfl,hfresh⟩ := newFile_ok ht
    exact hfresh
  csv := by
    intro files t ht
    obtain ⟨rfl,hfresh⟩ := newFile_ok ht
    exact hfresh
  child := fun _ _ _ _ _ _ _ _ _ => rfl
  samefile := fun _ => by decide

theorem SweepEnvironment.smallest_run : ∃ files,
    (SweepEnvironment.smallest.system smallestArguments).Reachable ⟨.prepare,withRecords⟩
      ⟨.exited 0 none,files⟩ := by
  have hscratch : Fresh withRecords (1,scratchName smallestScratch) smallestScratch.inode :=
    fresh_withRecords (by decide) (by decide) (by decide)
  have hrss : Fresh withRecords (1,rssName smallestRss) smallestRss.inode :=
    fresh_withRecords (by decide) (by decide) (by decide)
  have hcsv : Fresh withRecords (0,".c.tmp.t".toList) smallestCsv.inode :=
    fresh_withRecords (by decide) (by decide) (by decide)
  have hrss := hrss.create (y := (1,scratchName smallestScratch)) (j := 8) (by decide) (by decide)
    []
  have hcsv := hcsv.create (y := (1,scratchName smallestScratch)) (j := 8) (by decide) (by decide)
    []
  have hcsv := hcsv.create (y := (1,rssName smallestRss)) (j := 9) (by decide) (by decide) []
  have hcsv := (hcsv.unlink (1,rssName smallestRss)).unlink (1,scratchName smallestScratch)
  have hstart : (smallest.system smallestArguments).Reachable ⟨.prepare,withRecords⟩
      ⟨.announce ⟨smallestScratch,[],buildRunPlan smallestArguments⟩,_⟩ :=
    reachable_start rfl (newFile_of_fresh hscratch) rfl
  rw [plan_smallest] at hstart
  have hchild : smallest.runChild 0 smallestRun =
      .ok (⟨0,smallestPairs.flatMap printLine,[]⟩,2048) := rfl
  have hevaluate : smallest.evaluate smallestRun smallestInput (smallest.runChild 0 smallestRun) =
      .ok smallestOutcome := (evaluate_ok hchild).trans readOutcome_smallest
  have hsample : (smallest.system smallestArguments).Reachable
      ⟨.announce ⟨smallestScratch,[],[smallestRun]⟩,_⟩
      ⟨.announce ⟨smallestScratch,[(smallestRun,smallestOutcome)],[]⟩,_⟩ :=
    reachable_sample rfl (newFile_of_fresh hrss) rfl rfl rfl hevaluate
  obtain ⟨files,hend⟩ : ∃ files, (smallest.system smallestArguments).Reachable
      ⟨.announce ⟨smallestScratch,[(smallestRun,smallestOutcome)],[]⟩,_⟩ ⟨.exited 0 none,files⟩ :=
    reachable_published rfl (newFile_of_fresh hcsv) rfl rfl rfl (by decide) rfl rfl rfl
  exact ⟨files,(hstart.trans hsample).trans hend⟩

theorem sweep_publishes_smallest : ∃ files,
    (SweepEnvironment.smallest.system smallestArguments).Reachable ⟨.prepare,withRecords⟩
        ⟨.exited 0 none,files⟩ ∧
      SweepEnvironment.smallest.SweepContract smallestArguments withRecords
        ⟨.exited 0 none,files⟩ := by
  obtain ⟨files,hfiles⟩ := SweepEnvironment.smallest_run
  exact ⟨files,hfiles,sweep_publishes SweepEnvironment.smallest smallestArguments withRecords
    SweepEnvironment.smallest_honoured hfiles⟩

end Sweep
end AsyncDataLoader
