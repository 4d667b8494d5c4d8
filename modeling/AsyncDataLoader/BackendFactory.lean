import AsyncDataLoader.AcceptedConfig
import AsyncDataLoader.DemoOptions
import AsyncDataLoader.Fallback
import AsyncDataLoader.IOBackend

/-!
# The choice of a backend

`create_backend_with` over any constructors, and the constructors of `BackendFactory::create`
with the rings and threads that they take from the system.
-/

namespace AsyncDataLoader

abbrev ENOSYS : ℕ := 38

/-- `kind` is `none` for a value that is none of the enumerators. -/
structure BackendConfig where
  kind : Option BackendKind := some .auto
  uringQueueDepth : ℕ := 8
  threadPoolWorkerCount : ℕ := 2
  maxInflight : ℕ := 8
  autoTryUring : Bool := true
  autoTryThreadPool : Bool := true
  deriving DecidableEq, Repr

/-- `catch (const std::system_error&)` -/
def Failure.isSystemError : Failure → Bool
  | .systemError _ _ => true
  | _ => false

structure BackendFactoryOperations (S B : Type*) where
  createUring : BackendConfig → Attempt S Failure B
  createThreadPool : BackendConfig → Attempt S Failure B
  createSync : BackendConfig → Attempt S Failure B

variable {S B : Type*}

def createBackendWith (config : BackendConfig) (operations : BackendFactoryOperations S B) :
    Attempt S Failure B :=
  match config.kind with
  | some .uring => operations.createUring config
  | some .threadPool => operations.createThreadPool config
  | some .sync => operations.createSync config
  | none => fun s => (.error (.invalidArgument "unknown backend kind"),s)
  | some .auto =>
    let tryThreadPool :=
      if config.autoTryThreadPool then
        (operations.createThreadPool config).orElse Failure.isSystemError
          (operations.createSync config)
      else operations.createSync config
    if config.autoTryUring then
      (operations.createUring config).orElse Failure.isSystemError tryThreadPool
    else tryThreadPool

/-- The candidates of the automatic choice before the last. -/
def BackendConfig.fallbacks (config : BackendConfig) : List BackendKind :=
  (if config.autoTryUring then [.uring] else [])++
    (if config.autoTryThreadPool then [.threadPool] else [])

def BackendConfig.candidates (config : BackendConfig) : BackendKind → List BackendKind
  | .auto => config.fallbacks++[.sync]
  | kind => [kind]

def BackendFactoryOperations.create (operations : BackendFactoryOperations S B)
    (config : BackendConfig) : BackendKind → Attempt S Failure B
  | .uring => operations.createUring config
  | .threadPool => operations.createThreadPool config
  | .sync | .auto => operations.createSync config

/-- One candidate decides, in the state in which those before it have failed. -/
structure FallbackContract (operations : BackendFactoryOperations S B) (config : BackendConfig)
    (s : S) (result : Except Failure B × S) : Prop where
  decided : ∀ kind, config.kind = some kind → ∃ tried decisive untried s',
    config.candidates kind = tried++decisive::untried ∧
    Attempt.FailInTurn Failure.isSystemError (operations.create config) tried s s' ∧
    result = operations.create config decisive s' ∧
    (untried = [] ∨ ∀ failure, result.1 = .error failure → failure.isSystemError = false)
  unknown : config.kind = none → result = (.error (.invalidArgument "unknown backend kind"),s)

theorem createBackendWith_auto {config : BackendConfig} (hkind : config.kind = some .auto)
    (operations : BackendFactoryOperations S B) :
    createBackendWith config operations = Attempt.firstOf Failure.isSystemError
      (operations.create config) .sync config.fallbacks := by
  unfold createBackendWith BackendConfig.fallbacks
  rw [hkind]
  cases config.autoTryUring <;> cases config.autoTryThreadPool <;> rfl

theorem createBackendWith_contract (operations : BackendFactoryOperations S B)
    (config : BackendConfig) (s : S) :
    FallbackContract operations config s (createBackendWith config operations s) := by
  constructor
  · intro kind hkind
    cases kind with
    | uring | threadPool | sync =>
      exact ⟨[],_,[],s,rfl,.nil s,by simp [createBackendWith,hkind,BackendFactoryOperations.create],
        .inl rfl⟩
    | auto =>
      rw [createBackendWith_auto hkind]
      obtain ⟨tried,decisive,untried,s',hsplit,htried,hresult,hdecides⟩ :=
        @Attempt.firstOf_decides _ _ _ _ Failure.isSystemError (operations.create config) .sync
          config.fallbacks s
      exact ⟨tried,decisive,untried,s',hsplit,htried,hresult,by rwa [hresult]⟩
  · intro hkind
    simp [createBackendWith,hkind]

/-- The rings and the threads of the process. -/
structure BackendResources where
  rings : ℕ
  threads : ℕ
  deriving DecidableEq, Repr

/-- How the library is built, and what the system answers: to the allocation of an object, of the
queues of a thread pool, to `io_uring_queue_init`, and to the start of each thread. -/
structure BackendEnvironment where
  hasLiburing : Bool
  allocate : BackendKind → Option AllocationFailure
  reserveQueues : Option AllocationFailure
  queueInit : Option ℕ
  startThread : ℕ → Option Failure

/-- The loop of the constructor of `ThreadPoolBackend`, with the number of threads that run
already. When a start fails, those are stopped and joined. -/
def startWorkers (startThread : ℕ → Option Failure) (started : ℕ) :
    (remaining : ℕ) → BackendResources → Except Failure Unit × BackendResources
  | 0,s => (.ok (),s)
  | remaining+1,s =>
    match startThread started with
    | some failure => (.error failure,{ s with threads := s.threads-started })
    | none => startWorkers startThread (started+1) remaining { s with threads := s.threads+1 }

namespace BackendEnvironment

variable (env : BackendEnvironment) (config : BackendConfig)

def createUring : Attempt BackendResources Failure Backend := fun s =>
  if env.hasLiburing then
    match env.allocate .uring with
    | some failure => (.error failure.toFailure,s)
    | none =>
      if config.uringQueueDepth = 0 then
        (.error (.invalidArgument "io_uring queue depth must be positive"),s)
      else
        match env.queueInit with
        | some errorNumber => (.error (.systemError errorNumber "io_uring_queue_init"),s)
        | none => (.ok (.uring .empty),{ s with rings := s.rings+1 })
  else if config.uringQueueDepth = 0 then
    (.error (.invalidArgument "io_uring queue depth must be positive"),s)
  else (.error (.systemError ENOSYS "io_uring support is not compiled into this build"),s)

def createThreadPool : Attempt BackendResources Failure Backend := fun s =>
  match env.allocate .threadPool with
  | some failure => (.error failure.toFailure,s)
  | none =>
    if config.threadPoolWorkerCount = 0 then
      (.error (.invalidArgument "thread-pool worker count must be positive"),s)
    else if config.maxInflight = 0 then
      (.error (.invalidArgument "thread-pool max_inflight must be positive"),s)
    else
      match env.reserveQueues with
      | some failure => (.error failure.toFailure,s)
      | none =>
        match startWorkers env.startThread 0 config.threadPoolWorkerCount s with
        | (.error failure,s') => (.error failure,s')
        | (.ok (),s') => (.ok (.threadPool (.idle config.maxInflight)),s')

def createSync : Attempt BackendResources Failure Backend := fun s =>
  match env.allocate .sync with
  | some failure => (.error failure.toFailure,s)
  | none => (.ok .sync,s)

/-- `system_backend_factory_operations` -/
def operations : BackendFactoryOperations BackendResources Backend where
  createUring := env.createUring
  createThreadPool := env.createThreadPool
  createSync := fun _ => env.createSync

/-- `BackendFactory::create` -/
def create : Attempt BackendResources Failure Backend := createBackendWith config env.operations

end BackendEnvironment

def Backend.name : Backend → String
  | .sync => "sync"
  | .threadPool _ => "thread_pool"
  | .uring _ => "io_uring"

/-- What a backend holds of the system until it is destroyed. -/
def Backend.resources (config : BackendConfig) : Backend → BackendResources
  | .sync => ⟨0,0⟩
  | .threadPool _ => ⟨0,config.threadPoolWorkerCount⟩
  | .uring _ => ⟨1,0⟩

def BackendResources.add (s held : BackendResources) : BackendResources :=
  ⟨s.rings+held.rings,s.threads+held.threads⟩

def BackendKind.newBackend (config : BackendConfig) : BackendKind → Backend
  | .uring => .uring .empty
  | .threadPool => .threadPool (.idle config.maxInflight)
  | .sync | .auto => .sync

theorem startWorkers_threads (startThread : ℕ → Option Failure) (n started remaining : ℕ)
    (s : BackendResources) (h : s.threads = n+started) :
    (∃ failure, startWorkers startThread started remaining s =
      (.error failure,⟨s.rings,n⟩) ∧ ∃ i, startThread i = some failure) ∨
    startWorkers startThread started remaining s =
      (.ok (),⟨s.rings,n+started+remaining⟩) := by
  induction remaining generalizing started s with
  | zero =>
    refine .inr ?_
    rw [startWorkers,Nat.add_zero,← h]
  | succ remaining ih =>
    rw [startWorkers]
    cases hstart : startThread started with
    | some failure =>
      refine .inl ⟨failure,?_,started,hstart⟩
      simp [h]
    | none =>
      have hthreads : s.threads+1 = n+(started+1) := by omega
      have hrest := ih (started+1) { s with threads := s.threads+1 } hthreads
      simpa [Nat.add_assoc,Nat.add_comm 1] using hrest

theorem create_resources (env : BackendEnvironment) (config : BackendConfig) (kind : BackendKind)
    (s : BackendResources) :
    (∃ failure, env.operations.create config kind s = (.error failure,s)) ∨
    env.operations.create config kind s = (.ok (kind.newBackend config),
      s.add ((kind.newBackend config).resources config)) := by
  cases kind with
  | uring =>
    simp only [BackendFactoryOperations.create,BackendEnvironment.operations,
      BackendEnvironment.createUring]
    split
    · split
      · exact .inl ⟨_,rfl⟩
      · split
        · exact .inl ⟨_,rfl⟩
        · split
          · exact .inl ⟨_,rfl⟩
          · exact .inr rfl
    · split <;> exact .inl ⟨_,rfl⟩
  | threadPool =>
    simp only [BackendFactoryOperations.create,BackendEnvironment.operations,
      BackendEnvironment.createThreadPool]
    split
    · exact .inl ⟨_,rfl⟩
    · split_ifs
      · exact .inl ⟨_,rfl⟩
      · exact .inl ⟨_,rfl⟩
      · split
        · exact .inl ⟨_,rfl⟩
        · rcases startWorkers_threads env.startThread s.threads 0 config.threadPoolWorkerCount s rfl
            with ⟨failure,hworkers,-⟩ | hworkers
          · rw [hworkers]
            exact .inl ⟨failure,rfl⟩
          · rw [hworkers]
            exact .inr rfl
  | sync | auto =>
    simp only [BackendFactoryOperations.create,BackendEnvironment.operations,
      BackendEnvironment.createSync]
    split
    · exact .inl ⟨_,rfl⟩
    · exact .inr rfl

theorem create_error {env : BackendEnvironment} {config : BackendConfig} {kind : BackendKind}
    {s s' : BackendResources} {failure : Failure}
    (h : env.operations.create config kind s = (.error failure,s')) : s' = s := by
  rcases create_resources env config kind s with ⟨failure',heq⟩ | heq
  · exact (Prod.mk.inj (heq.symm.trans h)).2.symm
  · exact absurd (Prod.mk.inj (heq.symm.trans h)).1 (by simp)

theorem toFailure_not_systemError (failure : AllocationFailure) :
    failure.toFailure.isSystemError = false := by
  cases failure <;> rfl

/-- Nothing but memory can be missing for the last candidate. -/
theorem createSync_error {env : BackendEnvironment} {config : BackendConfig}
    {s : BackendResources} {failure : Failure}
    (h : (env.operations.create config .sync s).1 = .error failure) :
    failure.isSystemError = false := by
  simp only [BackendFactoryOperations.create,BackendEnvironment.operations,
    BackendEnvironment.createSync] at h
  split at h
  · rename_i allocation _
    obtain rfl := Except.error.inj h
    exact toFailure_not_systemError allocation
  · cases h

/-- With positive numbers no constructor throws `std::invalid_argument`, unless the start of a
thread does. -/
theorem create_valid {env : BackendEnvironment} {config : BackendConfig} {kind : BackendKind}
    {s : BackendResources} {what : String} (hdepth : 0 < config.uringQueueDepth)
    (hworkers : 0 < config.threadPoolWorkerCount) (hmax : 0 < config.maxInflight)
    (hthreads : ∀ i, env.startThread i ≠ some (.invalidArgument what)) :
    (env.operations.create config kind s).1 ≠ .error (.invalidArgument what) := by
  have hallocation : ∀ failure : AllocationFailure, failure.toFailure ≠ .invalidArgument what := by
    intro failure
    cases failure <;> simp [AllocationFailure.toFailure]
  cases kind with
  | uring =>
    simp only [BackendFactoryOperations.create,BackendEnvironment.operations,
      BackendEnvironment.createUring,if_neg hdepth.ne']
    split
    · split
      · exact fun h => hallocation _ (Except.error.inj h)
      · split <;> simp
    · simp
  | threadPool =>
    simp only [BackendFactoryOperations.create,BackendEnvironment.operations,
      BackendEnvironment.createThreadPool,if_neg hworkers.ne',if_neg hmax.ne']
    split
    · exact fun h => hallocation _ (Except.error.inj h)
    · split
      · exact fun h => hallocation _ (Except.error.inj h)
      · rcases startWorkers_threads env.startThread s.threads 0 config.threadPoolWorkerCount s rfl
          with ⟨failure,hstart,i,hfailure⟩ | hstart
        · rw [hstart]
          intro h
          obtain rfl := Except.error.inj h
          exact hthreads i hfailure
        · rw [hstart]
          simp
  | sync | auto =>
    simp only [BackendFactoryOperations.create,BackendEnvironment.operations,
      BackendEnvironment.createSync]
    split
    · exact fun h => hallocation _ (Except.error.inj h)
    · simp

/-- What `BackendFactory::create` promises, in the system that it finds. -/
structure FactoryContract (env : BackendEnvironment) (config : BackendConfig)
    (s : BackendResources) (result : Except Failure Backend × BackendResources) : Prop where
  decided : ∀ kind, config.kind = some kind → ∃ tried decisive untried,
    config.candidates kind = tried++decisive::untried ∧
    (∀ k ∈ tried, ∃ failure, (env.operations.create config k s).1 = .error failure ∧
      failure.isSystemError = true) ∧
    result = env.operations.create config decisive s ∧
    (untried = [] ∨ ∀ failure, result.1 = .error failure → failure.isSystemError = false)
  unknown : config.kind = none → result = (.error (.invalidArgument "unknown backend kind"),s)
  built : ∀ backend, result.1 = .ok backend →
    (∃ kind, backend = BackendKind.newBackend config kind) ∧
      result.2 = s.add (backend.resources config)
  thrown : ∀ failure, result.1 = .error failure → result.2 = s
  auto : config.kind = some .auto → ∀ failure, result.1 = .error failure →
    failure.isSystemError = false
  valid : config.kind ≠ none → 0 < config.uringQueueDepth → 0 < config.threadPoolWorkerCount →
    0 < config.maxInflight → ∀ what, (∀ i, env.startThread i ≠ some (.invalidArgument what)) →
    result.1 ≠ .error (.invalidArgument what)

/-- The automatic choice takes the first backend that the system has the means for, an explicit
choice that one or none, and nothing is left behind of the attempts that failed. -/
theorem create_backend (env : BackendEnvironment) (config : BackendConfig) (s : BackendResources) :
    FactoryContract env config s (env.create config s) := by
  have hcontract := createBackendWith_contract env.operations config s
  have hdecided : ∀ kind, config.kind = some kind → ∃ tried decisive untried,
      config.candidates kind = tried++decisive::untried ∧
      (∀ k ∈ tried, ∃ failure, (env.operations.create config k s).1 = .error failure ∧
        failure.isSystemError = true) ∧
      env.create config s = env.operations.create config decisive s ∧
      (untried = [] ∨ ∀ failure, (env.create config s).1 = .error failure →
        failure.isSystemError = false) := by
    intro kind hkind
    obtain ⟨tried,decisive,untried,s',hsplit,htried,hresult,hdecides⟩ :=
      hcontract.decided kind hkind
    obtain ⟨rfl,hfailed⟩ := htried.steady fun _ _ _ _ _ hfailure => create_error hfailure
    exact ⟨tried,decisive,untried,hsplit,hfailed,hresult,hdecides⟩
  have hmade : config.kind = none ∨
      ∃ kind, env.create config s = env.operations.create config kind s := by
    cases hkind : config.kind with
    | none => exact .inl rfl
    | some kind =>
      obtain ⟨_,decisive,_,_,_,hresult,_⟩ := hdecided kind hkind
      exact .inr ⟨decisive,hresult⟩
  refine ⟨hdecided,hcontract.unknown,fun backend hok => ?_,fun failure herror => ?_,
    fun hauto failure herror => ?_,fun hknown hdepth hworkers hmax what hthreads => ?_⟩
  · rcases hmade with hnone | ⟨kind,hresult⟩
    · rw [BackendEnvironment.create,hcontract.unknown hnone] at hok
      cases hok
    · rw [hresult] at hok ⊢
      rcases create_resources env config kind s with ⟨failure,heq⟩ | heq
      · rw [heq] at hok
        cases hok
      · rw [heq] at hok ⊢
        obtain rfl := Except.ok.inj hok
        exact ⟨⟨kind,rfl⟩,rfl⟩
  · rcases hmade with hnone | ⟨kind,hresult⟩
    · rw [BackendEnvironment.create,hcontract.unknown hnone]
    · rw [hresult] at herror ⊢
      exact create_error (Prod.ext herror rfl)
  · obtain ⟨tried,decisive,untried,hsplit,-,hresult,hdecides⟩ := hdecided .auto hauto
    rcases hdecides with rfl | hdecides
    · have hlast : decisive = .sync := by
        have heq := congrArg List.getLast? hsplit
        simpa [BackendConfig.candidates] using heq.symm
      rw [hresult,hlast] at herror
      exact createSync_error herror
    · exact hdecides failure herror
  · rcases hmade with hnone | ⟨kind,hresult⟩
    · exact absurd hnone hknown
    · rw [hresult]
      exact create_valid hdepth hworkers hmax hthreads

def BackendEnvironment.poor : BackendEnvironment where
  hasLiburing := true
  allocate := fun _ => none
  reserveQueues := none
  queueInit := some 1
  startThread := fun i => if i = 1 then some (.systemError EAGAIN "thread") else none

example : BackendEnvironment.poor.create {} ⟨0,1⟩ = (.ok .sync,⟨0,1⟩) := rfl

end AsyncDataLoader
