import AsyncDataLoader.Failure

/-!
# Tasks

The lazily started coroutine of `Task`: its promise, the point where it can be resumed, and the
handle that the caller owns. `T` is the type of the result and `A` that of the awaiters in which
the body suspends.
-/

namespace AsyncDataLoader

/-- What the body of a coroutine does once it is resumed. -/
inductive BodyStep (T A : Type*)
  | suspends (awaiter : A)
  | returns (value : T)
  | throws (failure : Failure)

structure Promise (T : Type*) where
  value : Option T
  exception : Option Failure

namespace Promise

variable {T : Type*}

def returnValue (promise : Promise T) (value : T) : Promise T :=
  { promise with value := some value }

def unhandledException (promise : Promise T) (failure : Failure) : Promise T :=
  { promise with exception := some failure }

end Promise

inductive ResumePoint (A : Type*)
  | initial -- initial_suspend()
  | suspended (awaiter : A)
  | final -- final_suspend()

structure Coroutine (T A : Type*) where
  point : ResumePoint A
  promise : Promise T

/-- A resumed coroutine. Its end is behind one of the two functions of its promise. -/
def Coroutine.advance {T A : Type*} (coroutine : Coroutine T A) : BodyStep T A → Coroutine T A
  | .suspends awaiter => { coroutine with point := .suspended awaiter }
  | .returns value => ⟨.final,coroutine.promise.returnValue value⟩
  | .throws failure => ⟨.final,coroutine.promise.unhandledException failure⟩

structure Task (T A : Type*) where
  handle : Option (Coroutine T A)
  started : Bool

namespace Task

variable {T A : Type*}

/-- `get_return_object` -/
def create (T A : Type*) : Task T A := ⟨some ⟨.initial,⟨none,none⟩⟩,false⟩

def done (task : Task T A) : Bool :=
  match task.handle with
  | some ⟨.final,_⟩ => true
  | _ => false

/-- `start` up to `handle_.resume()` -/
def start (task : Task T A) : Except Failure (Task T A) :=
  match task.handle with
  | none => .error (.logicError "cannot start an invalid Task")
  | some _ =>
    if task.started then .error (.logicError "Task has already been started")
    else .ok { task with started := true }

def resume (task : Task T A) (step : BodyStep T A) : Task T A :=
  { task with handle := task.handle.map fun coroutine => coroutine.advance step }

/-- The errors of `result` itself are outside, a rethrown exception inside. -/
def result (task : Task T A) : Except Failure (Except Failure T × Task T A) :=
  match task.handle with
  | none => .error (.logicError "cannot get a result from an invalid Task")
  | some coroutine =>
    if !task.started then .error (.logicError "cannot get a result before Task is started")
    else if !task.done then .error (.logicError "cannot get a result before Task completes")
    else
      match coroutine.promise.exception,coroutine.promise.value with
      | some failure,_ => .ok (.error failure,task)
      | none,none => .error (.logicError "Task result has already been consumed")
      | none,some value => .ok (.ok value,
          { task with handle := some { coroutine with
              promise := { coroutine.promise with value := none } } })

/-- A task that was started and not asked for its result, after the last step of its body. -/
def ran (step : BodyStep T A) : Task T A :=
  ⟨some (Coroutine.advance ⟨.initial,⟨none,none⟩⟩ step),true⟩

theorem start_create : (create T A).start = .ok ⟨(create T A).handle,true⟩ := rfl

theorem resume_started (step : BodyStep T A) :
    (⟨(create T A).handle,true⟩ : Task T A).resume step = ran step := rfl

theorem resume_ran (awaiter : A) (step : BodyStep T A) :
    (ran (.suspends awaiter)).resume step = ran step := by
  cases step <;> rfl

theorem result_ran {step : BodyStep T A} (h : (ran step).done = true) :
    (∃ value task, step = .returns value ∧ (ran step).result = .ok (.ok value,task)) ∨
    ∃ failure, step = .throws failure ∧ (ran step).result = .ok (.error failure,ran step) := by
  cases step with
  | suspends awaiter => cases h
  | returns value => exact .inl ⟨value,_,rfl,rfl⟩
  | throws failure => exact .inr ⟨failure,rfl,rfl⟩

theorem suspends_of_not_done {step : BodyStep T A} (h : (ran step).done = false) :
    ∃ awaiter, step = .suspends awaiter := by
  cases step with
  | suspends awaiter => exact ⟨awaiter,rfl⟩
  | returns value => cases h
  | throws failure => cases h

end Task
end AsyncDataLoader
