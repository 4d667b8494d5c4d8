import AsyncDataLoader.Failure
import Mathlib.Tactic.Common

/-!
# Completion requests

A `CompletionRequest` remembers the suspended coroutine that waits for a result, and resumes
it once. Coroutines are numbered; an empty handle is `none`.
-/

namespace AsyncDataLoader

structure CompletionRequest where
  continuation : Option ℕ
  completionResult : ℤ
  completed : Bool
  deriving DecidableEq, Repr

namespace CompletionRequest

def new : CompletionRequest := ⟨none,0,false⟩

def setContinuation (request : CompletionRequest) (continuation : Option ℕ) :
    Except Failure CompletionRequest :=
  match continuation with
  | none => .error (.logicError "cannot store an empty continuation")
  | some coroutine =>
    if request.completed then
      .error (.logicError "cannot attach a continuation after completion")
    else if request.continuation.isSome then
      .error (.logicError "CompletionRequest already has a continuation")
    else .ok { request with continuation := some coroutine }

def result (request : CompletionRequest) : Except Failure ℤ :=
  if request.completed then .ok request.completionResult
  else .error (.logicError "completion result is not available")

/-- The request after `complete`, and the coroutine that it resumes; `done` tells which
coroutines have completed. -/
def complete (request : CompletionRequest) (completionResult : ℤ) (done : ℕ → Bool) :
    Except Failure (CompletionRequest × ℕ) :=
  if request.completed then
    .error (.logicError "CompletionRequest was completed more than once")
  else
    match request.continuation with
    | none => .error (.logicError "cannot complete a request without a continuation")
    | some coroutine =>
      if done coroutine then
        .error (.logicError "cannot resume an already completed coroutine")
      else .ok (⟨none,completionResult,true⟩,coroutine)

def Armed (request : CompletionRequest) (coroutine : ℕ) : Prop :=
  request.continuation = some coroutine ∧ request.completed = false

theorem setContinuation_new (coroutine : ℕ) :
    new.setContinuation (some coroutine) = .ok ⟨some coroutine,0,false⟩ := rfl

theorem Armed.complete {request : CompletionRequest} {coroutine : ℕ}
    (h : request.Armed coroutine) (done : ℕ → Bool) (hdone : done coroutine = false) (res : ℤ) :
    request.complete res done = .ok (⟨none,res,true⟩,coroutine) := by
  simp [CompletionRequest.complete,h.1,h.2,hdone]

variable {request request' : CompletionRequest} {failure : Failure}

theorem setContinuation_eq_ok {continuation : Option ℕ} :
    request.setContinuation continuation = .ok request' ↔
      ∃ coroutine, continuation = some coroutine ∧ request.completed = false ∧
        request.continuation = none ∧
        request' = { request with continuation := some coroutine } := by
  cases continuation with
  | none => simp [setContinuation]
  | some coroutine =>
    simp only [setContinuation]
    split_ifs with hcompleted hheld
    · simp [hcompleted]
    · simp [Option.ne_none_iff_isSome.mpr hheld]
    · simp only [Bool.not_eq_true,Option.isSome_eq_false_iff,Option.isNone_iff_eq_none]
        at hcompleted hheld
      simp [hcompleted,hheld,eq_comm]

theorem complete_eq_ok {completionResult : ℤ} {done : ℕ → Bool}
    {resumed : CompletionRequest × ℕ} :
    request.complete completionResult done = .ok resumed ↔
      ∃ coroutine, request.Armed coroutine ∧ done coroutine = false ∧
        resumed = (⟨none,completionResult,true⟩,coroutine) := by
  constructor
  · intro h
    unfold complete at h
    split_ifs at h with hcompleted
    split at h
    · cases h
    · rename_i coroutine hcontinuation
      split_ifs at h with hdone
      exact ⟨coroutine,⟨hcontinuation,Bool.eq_false_iff.mpr hcompleted⟩,
        Bool.eq_false_iff.mpr hdone,(Except.ok.inj h).symm⟩
  · rintro ⟨coroutine,harmed,hdone,rfl⟩
    exact harmed.complete done hdone completionResult

theorem result_eq_ok {value : ℤ} :
    request.result = .ok value ↔ request.completed = true ∧ value = request.completionResult := by
  unfold result
  split_ifs with hcompleted
  · simp [hcompleted,eq_comm]
  · simp [hcompleted]

theorem result_eq_error : request.result = .error failure ↔ request.completed = false ∧
    failure = .logicError "completion result is not available" := by
  unfold result
  split_ifs with hcompleted
  · simp [hcompleted]
  · simp [hcompleted,eq_comm]

end CompletionRequest
end AsyncDataLoader
