import AsyncDataLoader.CompletionRequest
import AsyncDataLoader.TransitionSystem
import Mathlib.Logic.Function.Basic

/-!
# Histories of a completion request

The methods of `CompletionRequest` as sequences of accesses to its members. `complete` resumes a
coroutine in its middle, which may call the methods again, or destroy the request.
-/

namespace AsyncDataLoader

/-- A method, by the next access to a member, or the next thing that it does. -/
inductive RequestCode
  | readContinuation (k : Option ℕ → RequestCode)
  | readCompleted (k : Bool → RequestCode)
  | readResult (k : ℤ → RequestCode)
  | writeContinuation (continuation : Option ℕ) (k : RequestCode)
  | writeCompleted (completed : Bool) (k : RequestCode)
  | writeResult (completionResult : ℤ) (k : RequestCode)
  | testDone (continuation : Option ℕ) (k : Bool → RequestCode)
  | resume (continuation : Option ℕ) (k : RequestCode)
  | returns (value : Option ℤ)
  | throws (failure : Failure)

inductive RequestCall
  | setContinuation (continuation : Option ℕ)
  | complete (completionResult : ℤ)
  | completionResult
  deriving DecidableEq

def RequestCall.code : RequestCall → RequestCode
  | .setContinuation continuation =>
    if continuation = none then .throws (.logicError "cannot store an empty continuation")
    else .readCompleted fun completed =>
      if completed then .throws (.logicError "cannot attach a continuation after completion")
      else .readContinuation fun current =>
        if current.isSome then
          .throws (.logicError "CompletionRequest already has a continuation")
        else .writeContinuation continuation (.returns none)
  | .complete value => .readCompleted fun completed =>
    if completed then .throws (.logicError "CompletionRequest was completed more than once")
    else .readContinuation fun current =>
      if current.isNone then
        .throws (.logicError "cannot complete a request without a continuation")
      else .readContinuation fun current => .testDone current fun done =>
        if done then .throws (.logicError "cannot resume an already completed coroutine")
        else .writeResult value <| .writeCompleted true <|
          -- auto continuation = std::exchange(continuation_, {});
          .readContinuation fun continuation => .writeContinuation none <|
            .resume continuation <| .returns none
  | .completionResult => .readCompleted fun completed =>
    if completed then .readResult fun result => .returns (some result)
    else .throws (.logicError "completion result is not available")

/-- How a call goes on, or ends: `undefined` is an access to a request that has been destroyed, or
the use of an empty handle. -/
inductive RequestResponse
  | returned (value : Option ℤ)
  | threw (failure : Failure)
  | resumed (coroutine : ℕ)
  | undefined
  deriving DecidableEq

/-- Run the code until it ends or resumes a coroutine, with what is then left of it. A request that
has been destroyed is `none`. -/
def RequestCode.run (done : ℕ → Bool) : RequestCode → Option CompletionRequest →
    Option CompletionRequest × RequestResponse × RequestCode
  | .readContinuation k,some q => (k q.continuation).run done (some q)
  | .readCompleted k,some q => (k q.completed).run done (some q)
  | .readResult k,some q => (k q.completionResult).run done (some q)
  | .writeContinuation continuation k,some q =>
    k.run done (some { q with continuation := continuation })
  | .writeCompleted completed k,some q => k.run done (some { q with completed := completed })
  | .writeResult completionResult k,some q =>
    k.run done (some { q with completionResult := completionResult })
  | .testDone (some coroutine) k,request => (k (done coroutine)).run done request
  | .resume (some coroutine) k,request => (request,.resumed coroutine,k)
  | .returns value,request => (request,.returned value,.returns none)
  | .throws failure,request => (request,.threw failure,.returns none)
  | _,request => (request,.undefined,.returns none)

/-- A request, which coroutines have completed, and what is left of the calls that are resuming
one, from the innermost. -/
structure RequestWorld where
  request : Option CompletionRequest
  done : ℕ → Bool
  resuming : List RequestCode

/-- What happens to a request, with the responses. The calls may come from a coroutine that is being
resumed. -/
inductive RequestAction
  | call (call : RequestCall) (response : RequestResponse)
  | resumeReturns (response : RequestResponse)
  | resumeThrows
  | finish (coroutine : ℕ)
  | destroy
  deriving DecidableEq

def RequestAction.response : RequestAction → Option RequestResponse
  | .call _ response => some response
  | .resumeReturns response => some response
  | _ => none

namespace RequestWorld

def new : RequestWorld := ⟨some .new,fun _ => false,[]⟩

def execute (w : RequestWorld) (code : RequestCode) (response : RequestResponse) :
    Option RequestWorld :=
  let (request,given,rest) := code.run w.done w.request
  if given = response then
    match given with
    | .resumed _ => some { w with request := request, resuming := rest::w.resuming }
    | _ => some { w with request := request }
  else none

def step (w : RequestWorld) : RequestAction → Option RequestWorld
  | .call call response =>
    match w.request with
    | none => none -- nobody calls a request that has been destroyed
    | some _ => w.execute call.code response
  | .resumeReturns response =>
    match w.resuming with
    | [] => none
    | code::resuming => { w with resuming := resuming }.execute code response
  | .resumeThrows =>
    match w.resuming with
    | [] => none
    | _::resuming => some { w with resuming := resuming }
  | .finish coroutine => some { w with done := Function.update w.done coroutine true }
  | .destroy =>
    match w.request with
    | none => none
    | some _ => some { w with request := none }

end RequestWorld

def requestSystem : TransitionSystem RequestAction RequestWorld where
  step action w := w.step action

/-- The calls of `complete` that took effect: their arguments, and what they resumed. -/
def completions (actions : List RequestAction) : List (ℤ × ℕ) :=
  actions.filterMap fun
    | .call (.complete completionResult) (.resumed coroutine) => some (completionResult,coroutine)
    | _ => none

def attachments (actions : List RequestAction) : List ℕ :=
  actions.filterMap fun
    | .call (.setContinuation (some coroutine)) (.returned _) => some coroutine
    | _ => none

def resumptions (actions : List RequestAction) : List ℕ :=
  actions.filterMap fun
    | .call _ (.resumed coroutine) => some coroutine
    | .resumeReturns (.resumed coroutine) => some coroutine
    | _ => none

namespace RequestCode

variable (q : CompletionRequest) (done : ℕ → Bool)

theorem run_setContinuation (continuation : Option ℕ) :
    (RequestCall.setContinuation continuation).code.run done (some q) =
      match q.setContinuation continuation with
      | .ok q' => (some q',.returned none,.returns none)
      | .error failure => (some q,.threw failure,.returns none) := by
  obtain ⟨current,result,completed⟩ := q
  cases continuation with
  | none => rfl
  | some coroutine => cases completed <;> cases current <;> rfl

theorem run_complete (completionResult : ℤ) :
    (RequestCall.complete completionResult).code.run done (some q) =
      match q.complete completionResult done with
      | .ok (q',coroutine) => (some q',.resumed coroutine,.returns none)
      | .error failure => (some q,.threw failure,.returns none) := by
  obtain ⟨continuation,result,completed⟩ := q
  cases completed with
  | true => rfl
  | false =>
    cases continuation with
    | none => rfl
    | some coroutine =>
      simp only [RequestCall.code,CompletionRequest.complete,run,Option.isNone_some,
        Bool.false_eq_true,if_false]
      split_ifs <;> simp only [run]

theorem run_completionResult :
    RequestCall.completionResult.code.run done (some q) =
      match q.result with
      | .ok result => (some q,.returned (some result),.returns none)
      | .error failure => (some q,.threw failure,.returns none) := by
  simp only [RequestCall.code,CompletionRequest.result,run]
  split_ifs <;> simp only [run]

end RequestCode
namespace RequestWorld

variable {w w' : RequestWorld} {q : CompletionRequest} {call : RequestCall}
  {response : RequestResponse}

inductive Called (w : RequestWorld) (q : CompletionRequest) :
    RequestCall → RequestResponse → RequestWorld → Prop
  | attached (coroutine : ℕ) (hcompleted : q.completed = false) (hfree : q.continuation = none) :
      Called w q (.setContinuation (some coroutine)) (.returned none)
        { w with request := some { q with continuation := some coroutine } }
  | notAttached (continuation : Option ℕ) (failure : Failure)
      (hrefused : continuation = none ∨ q.completed = true ∨ q.continuation ≠ none) :
      Called w q (.setContinuation continuation) (.threw failure) w
  | completed (completionResult : ℤ) (coroutine : ℕ) (hcompleted : q.completed = false)
      (hcontinuation : q.continuation = some coroutine) (hdone : w.done coroutine = false) :
      Called w q (.complete completionResult) (.resumed coroutine) { w with
        request := some ⟨none,completionResult,true⟩
        resuming := .returns none::w.resuming }
  | notCompleted (completionResult : ℤ) (failure : Failure)
      (hrefused : ∀ coroutine, q.continuation = some coroutine → q.completed = false →
        w.done coroutine = true) :
      Called w q (.complete completionResult) (.threw failure) w
  | result (hcompleted : q.completed = true) :
      Called w q .completionResult (.returned (some q.completionResult)) w
  | noResult (hcompleted : q.completed = false) :
      Called w q .completionResult (.threw (.logicError "completion result is not available")) w

theorem step_call (hq : w.request = some q) (hstep : w.step (.call call response) = some w') :
    Called w q call response w' := by
  have hw : { w with request := some q } = w := by rw [← hq]
  simp only [step,hq,execute] at hstep
  cases call with
  | setContinuation continuation =>
    rw [RequestCode.run_setContinuation] at hstep
    cases hset : q.setContinuation continuation with
    | error failure =>
      simp only [hset] at hstep
      split_ifs at hstep with hresponse
      obtain rfl := Option.some.inj hstep
      rw [hw,← hresponse]
      refine .notAttached continuation failure ?_
      by_contra hno
      simp only [not_or,not_not] at hno
      obtain ⟨hcontinuation,hcompleted,hfree⟩ := hno
      obtain ⟨coroutine,rfl⟩ := Option.ne_none_iff_exists'.mp hcontinuation
      rw [CompletionRequest.setContinuation_eq_ok.mpr
        ⟨coroutine,rfl,Bool.eq_false_iff.mpr hcompleted,hfree,rfl⟩] at hset
      cases hset
    | ok q' =>
      simp only [hset] at hstep
      split_ifs at hstep with hresponse
      obtain rfl := Option.some.inj hstep
      obtain ⟨coroutine,rfl,hcompleted,hfree,rfl⟩ :=
        CompletionRequest.setContinuation_eq_ok.mp hset
      rw [← hresponse]
      exact .attached coroutine hcompleted hfree
  | complete completionResult =>
    rw [RequestCode.run_complete] at hstep
    cases hcomplete : q.complete completionResult w.done with
    | error failure =>
      simp only [hcomplete] at hstep
      split_ifs at hstep with hresponse
      obtain rfl := Option.some.inj hstep
      rw [hw,← hresponse]
      refine .notCompleted completionResult failure fun coroutine hcontinuation hcompleted => ?_
      by_contra hdone
      have harmed : q.Armed coroutine := ⟨hcontinuation,hcompleted⟩
      rw [harmed.complete w.done (Bool.eq_false_iff.mpr hdone)] at hcomplete
      cases hcomplete
    | ok result =>
      simp only [hcomplete] at hstep
      split_ifs at hstep with hresponse
      obtain rfl := Option.some.inj hstep
      obtain ⟨coroutine,⟨hcontinuation,hcompleted⟩,hdone,rfl⟩ :=
        CompletionRequest.complete_eq_ok.mp hcomplete
      rw [← hresponse]
      exact .completed completionResult coroutine hcompleted hcontinuation hdone
  | completionResult =>
    rw [RequestCode.run_completionResult] at hstep
    cases hresult : q.result with
    | error failure =>
      simp only [hresult] at hstep
      split_ifs at hstep with hresponse
      obtain rfl := Option.some.inj hstep
      obtain ⟨hcompleted,rfl⟩ := CompletionRequest.result_eq_error.mp hresult
      rw [hw,← hresponse]
      exact .noResult hcompleted
    | ok result =>
      simp only [hresult] at hstep
      split_ifs at hstep with hresponse
      obtain rfl := Option.some.inj hstep
      obtain ⟨hcompleted,rfl⟩ := CompletionRequest.result_eq_ok.mp hresult
      rw [hw,← hresponse]
      exact .result hcompleted

theorem step_resumeReturns (hrest : ∀ code ∈ w.resuming, code = .returns none)
    (hstep : w.step (.resumeReturns response) = some w') :
    response = .returned none ∧ ∃ code, w.resuming = code::w'.resuming ∧
      w' = { w with resuming := w'.resuming } := by
  simp only [step] at hstep
  split at hstep
  · cases hstep
  · rename_i code resuming hresuming
    obtain rfl := hrest code (by rw [hresuming]; exact List.mem_cons_self)
    simp only [execute,RequestCode.run] at hstep
    obtain ⟨hresponse,hstep⟩ := Option.ite_none_right_eq_some.mp hstep
    obtain rfl := Option.some.inj hstep
    exact ⟨hresponse.symm,_,hresuming,rfl⟩

end RequestWorld

section Histories

variable {before : List RequestAction} {action : RequestAction}

theorem completions_concat (before : List RequestAction) (action : RequestAction) :
    completions (before++[action]) = completions before++completions [action] :=
  List.filterMap_append ..

theorem attachments_concat (before : List RequestAction) (action : RequestAction) :
    attachments (before++[action]) = attachments before++attachments [action] :=
  List.filterMap_append ..

theorem resumptions_concat (before : List RequestAction) (action : RequestAction) :
    resumptions (before++[action]) = resumptions before++resumptions [action] :=
  List.filterMap_append ..

/-- The request after a history, while it lives. -/
inductive RequestPhase (actions : List RequestAction) : CompletionRequest → Prop
  | fresh (hattached : attachments actions = []) (hcompleted : completions actions = []) :
      RequestPhase actions .new
  | attached (coroutine : ℕ) (hattached : attachments actions = [coroutine])
      (hcompleted : completions actions = []) : RequestPhase actions ⟨some coroutine,0,false⟩
  | completed (completionResult : ℤ) (coroutine : ℕ) (hattached : attachments actions = [coroutine])
      (hcompleted : completions actions = [(completionResult,coroutine)]) :
      RequestPhase actions ⟨none,completionResult,true⟩

theorem RequestPhase.unmoved {q : CompletionRequest} (h : RequestPhase before q)
    (hattach : attachments [action] = []) (hcomplete : completions [action] = []) :
    RequestPhase (before++[action]) q := by
  have ha : attachments (before++[action]) = attachments before := by
    rw [attachments_concat,hattach,List.append_nil]
  have hc : completions (before++[action]) = completions before := by
    rw [completions_concat,hcomplete,List.append_nil]
  cases h with
  | fresh hattached hcompleted => exact .fresh (ha.trans hattached) (hc.trans hcompleted)
  | attached coroutine hattached hcompleted =>
    exact .attached coroutine (ha.trans hattached) (hc.trans hcompleted)
  | completed completionResult coroutine hattached hcompleted =>
    exact .completed completionResult coroutine (ha.trans hattached) (hc.trans hcompleted)

theorem RequestPhase.called {q : CompletionRequest} {w w' : RequestWorld} {call : RequestCall}
    {response : RequestResponse} (h : RequestPhase before q) (hq : w.request = some q)
    (hcalled : w.Called q call response w') :
    ∃ q', w'.request = some q' ∧ RequestPhase (before++[.call call response]) q' := by
  cases hcalled with
  | attached coroutine hcompleted hfree =>
    cases h with
    | fresh hattached hnone =>
      refine ⟨_,rfl,.attached coroutine ?_ ?_⟩
      · rw [attachments_concat,hattached]; rfl
      · rw [completions_concat,hnone]; rfl
    | attached _ _ _ => cases hfree
    | completed _ _ _ _ => cases hcompleted
  | completed completionResult coroutine hcompleted hcontinuation hdone =>
    cases h with
    | fresh _ _ => cases hcontinuation
    | attached current hattached hnone =>
      obtain rfl := Option.some.inj hcontinuation
      refine ⟨_,rfl,.completed completionResult current ?_ ?_⟩
      · rw [attachments_concat,hattached]; rfl
      · rw [completions_concat,hnone]; rfl
    | completed _ _ _ _ => cases hcompleted
  | notAttached continuation failure hrefused =>
    exact ⟨q,hq,h.unmoved (by cases continuation <;> rfl) rfl⟩
  | notCompleted completionResult failure hrefused => exact ⟨q,hq,h.unmoved rfl rfl⟩
  | result hcompleted => exact ⟨q,hq,h.unmoved rfl rfl⟩
  | noResult hcompleted => exact ⟨q,hq,h.unmoved rfl rfl⟩

structure Follows (actions : List RequestAction) (w : RequestWorld) : Prop where
  phase : ∃ q, RequestPhase actions q ∧ (w.request = some q ∨ w.request = none)
  rest : ∀ code ∈ w.resuming, code = .returns none
  resumed : resumptions actions = (completions actions).map Prod.snd
  defined : ∀ action ∈ actions, action.response ≠ some .undefined

namespace Follows

variable {w w' : RequestWorld}

theorem called_phase (h : Follows before w) {call : RequestCall} {response : RequestResponse}
    (hstep : w.step (.call call response) = some w') :
    ∃ q, w.request = some q ∧ RequestPhase before q ∧ w.Called q call response w' := by
  obtain ⟨q,hphase,hq | hq⟩ := h.phase
  · exact ⟨q,hq,hphase,RequestWorld.step_call hq hstep⟩
  · simp [RequestWorld.step,hq] at hstep

theorem defined_concat (h : Follows before w) (haction : action.response ≠ some .undefined) :
    ∀ other ∈ before++[action], other.response ≠ some .undefined := by
  intro other hother
  obtain hother | hother := List.mem_append.mp hother
  · exact h.defined other hother
  · rwa [List.mem_singleton.mp hother]

theorem unmoved (h : Follows before w) (hattach : attachments [action] = [])
    (hcomplete : completions [action] = []) (hresume : resumptions [action] = [])
    (haction : action.response ≠ some .undefined)
    (hrequest : w'.request = w.request ∨ w'.request = none)
    (hresuming : ∀ code ∈ w'.resuming, code ∈ w.resuming) : Follows (before++[action]) w' := by
  obtain ⟨q,hphase,hq⟩ := h.phase
  refine ⟨⟨q,hphase.unmoved hattach hcomplete,?_⟩,fun code hcode => h.rest code (hresuming code hcode),
    ?_,h.defined_concat haction⟩
  · obtain heq | hnone := hrequest
    · rwa [heq]
    · exact .inr hnone
  · rw [resumptions_concat,completions_concat,hresume,hcomplete,List.append_nil,List.append_nil]
    exact h.resumed

theorem call (h : Follows before w) {call : RequestCall} {response : RequestResponse}
    (hstep : w.step (.call call response) = some w') :
    Follows (before++[.call call response]) w' := by
  obtain ⟨q,hq,hphase,hcalled⟩ := h.called_phase hstep
  obtain ⟨q',hq',hphase'⟩ := hphase.called hq hcalled
  refine ⟨⟨q',hphase',.inl hq'⟩,?_,?_,h.defined_concat ?_⟩
  · cases hcalled with
    | completed completionResult coroutine _ _ _ =>
      intro code hcode
      obtain rfl | hcode := List.mem_cons.mp hcode
      · rfl
      · exact h.rest code hcode
    | _ => exact h.rest
  · rw [resumptions_concat,completions_concat,h.resumed,List.map_append]
    cases hcalled <;> rfl
  · cases hcalled <;> nofun

theorem step (h : Follows before w) (hstep : w.step action = some w') :
    Follows (before++[action]) w' := by
  cases action with
  | call call response => exact h.call hstep
  | resumeReturns response =>
    obtain ⟨rfl,code,hresuming,hw⟩ := RequestWorld.step_resumeReturns h.rest hstep
    refine h.unmoved rfl rfl rfl nofun (.inl (by rw [hw])) fun code hcode => ?_
    rw [hresuming]
    exact List.mem_cons_of_mem _ hcode
  | resumeThrows =>
    simp only [RequestWorld.step] at hstep
    split at hstep
    · cases hstep
    · rename_i code resuming hresuming
      obtain rfl := Option.some.inj hstep
      refine h.unmoved rfl rfl rfl nofun (.inl rfl) fun code hcode => ?_
      rw [hresuming]
      exact List.mem_cons_of_mem _ hcode
  | finish coroutine =>
    obtain rfl := Option.some.inj hstep
    exact h.unmoved rfl rfl rfl nofun (.inl rfl) fun _ hcode => hcode
  | destroy =>
    simp only [RequestWorld.step] at hstep
    split at hstep
    · cases hstep
    · obtain rfl := Option.some.inj hstep
      exact h.unmoved rfl rfl rfl nofun (.inr rfl) fun _ hcode => hcode

theorem exec {actions : List RequestAction} (hrun : requestSystem.exec .new actions = some w) :
    Follows actions w :=
  TransitionSystem.exec_history
    ⟨⟨.new,.fresh rfl rfl,.inl rfl⟩,by simp [RequestWorld.new],rfl,nofun⟩
    (fun _ _ _ _ h hstep => h.step hstep) hrun

/-- What remains of a call that resumes a coroutine has no access to the request. -/
theorem run_rest (h : Follows before w) {code : RequestCode} (hcode : code ∈ w.resuming)
    (done : ℕ → Bool) (request : Option CompletionRequest) :
    code.run done request = (request,.returned none,.returns none) := by
  rw [h.rest code hcode]
  cases request <;> rfl

end Follows
end Histories

namespace RequestWorld

variable {before : List RequestAction} {u t : RequestWorld} {response : RequestResponse}

theorem complete_resumed_iff (h : Follows before u) {completionResult : ℤ}
    (hstep : u.step (.call (.complete completionResult) response) = some t) (coroutine : ℕ) :
    response = .resumed coroutine ↔
      completions before = [] ∧ coroutine ∈ attachments before ∧ u.done coroutine = false := by
  obtain ⟨q,-,hphase,hcalled⟩ := h.called_phase hstep
  cases hcalled with
  | completed _ current hcompleted hcontinuation hdone =>
    cases hphase with
    | fresh _ _ => cases hcontinuation
    | attached other hattached hnone =>
      obtain rfl := Option.some.inj hcontinuation
      simp only [hnone,hattached,List.mem_singleton,RequestResponse.resumed.injEq,true_and]
      constructor
      · rintro rfl
        exact ⟨rfl,hdone⟩
      · rintro ⟨rfl,-⟩
        rfl
    | completed _ _ _ _ => cases hcompleted
  | notCompleted _ failure hrefused =>
    refine iff_of_false nofun ?_
    rintro ⟨hnone,hmem,hdone⟩
    cases hphase with
    | fresh hattached _ => simp [hattached] at hmem
    | attached other hattached _ =>
      obtain rfl : coroutine = other := by simpa [hattached] using hmem
      simp [hrefused coroutine rfl rfl] at hdone
    | completed _ _ _ hcompleted => simp [hcompleted] at hnone

theorem complete_response (h : Follows before u) {completionResult : ℤ}
    (hstep : u.step (.call (.complete completionResult) response) = some t) :
    (∃ coroutine, response = .resumed coroutine ∧
      t.request = some ⟨none,completionResult,true⟩) ∨ ∃ failure, response = .threw failure := by
  obtain ⟨q,-,-,hcalled⟩ := h.called_phase hstep
  cases hcalled with
  | completed _ coroutine _ _ _ => exact .inl ⟨coroutine,rfl,rfl⟩
  | notCompleted _ failure _ => exact .inr ⟨failure,rfl⟩

theorem setContinuation_response (h : Follows before u) {continuation : Option ℕ}
    (hstep : u.step (.call (.setContinuation continuation) response) = some t) :
    (response = .returned none ↔ continuation ≠ none ∧ attachments before = []) ∧
    (response = .returned none ∧ t.request = some ⟨continuation,0,false⟩ ∨
      ∃ failure, response = .threw failure) := by
  obtain ⟨q,-,hphase,hcalled⟩ := h.called_phase hstep
  cases hcalled with
  | attached coroutine hcompleted hfree =>
    cases hphase with
    | fresh hattached _ => exact ⟨iff_of_true rfl ⟨nofun,hattached⟩,.inl ⟨rfl,rfl⟩⟩
    | attached _ _ _ => cases hfree
    | completed _ _ _ _ => cases hcompleted
  | notAttached _ failure hrefused =>
    refine ⟨iff_of_false nofun ?_,.inr ⟨failure,rfl⟩⟩
    rintro ⟨hcontinuation,hnone⟩
    have hheld := hrefused.resolve_left hcontinuation
    cases hphase with
    | fresh _ _ => simp [CompletionRequest.new] at hheld
    | attached coroutine hattached _ => simp [hnone] at hattached
    | completed _ coroutine hattached _ => simp [hnone] at hattached

theorem completionResult_response (h : Follows before u)
    (hstep : u.step (.call .completionResult response) = some t) :
    response = match completions before with
      | [] => .threw (.logicError "completion result is not available")
      | (completionResult,_)::_ => .returned (some completionResult) := by
  obtain ⟨q,-,hphase,hcalled⟩ := h.called_phase hstep
  cases hcalled with
  | result hcompleted =>
    cases hphase with
    | fresh _ _ => cases hcompleted
    | attached _ _ _ => cases hcompleted
    | completed completionResult coroutine _ hdone => rw [hdone]
  | noResult hcompleted =>
    cases hphase with
    | fresh _ hnone => rw [hnone]
    | attached _ _ hnone => rw [hnone]
    | completed _ _ _ _ => cases hcompleted

theorem threw_unchanged (h : Follows before u) {call : RequestCall} {failure : Failure}
    (hstep : u.step (.call call (.threw failure)) = some t) : t = u := by
  obtain ⟨q,-,-,hcalled⟩ := h.called_phase hstep
  cases hcalled <;> rfl

end RequestWorld

theorem Follows.completions_length {actions : List RequestAction} {w : RequestWorld}
    (h : Follows actions w) : (completions actions).length ≤ 1 := by
  obtain ⟨q,hphase,-⟩ := h.phase
  cases hphase with
  | fresh _ hcompleted => simp [hcompleted]
  | attached _ _ hcompleted => simp [hcompleted]
  | completed _ _ _ hcompleted => simp [hcompleted]

/-- A continuation is resumed at most once, by the only completion that takes effect, and the
request is not used from then on by the call that resumed it. -/
theorem completion_history {actions : List RequestAction} {w : RequestWorld}
    (hrun : requestSystem.exec .new actions = some w) :
    (resumptions actions).length ≤ 1 ∧
    resumptions actions = (completions actions).map Prod.snd ∧
    (∀ action ∈ actions, action.response ≠ some .undefined) ∧
    (∀ before after u t call response, actions = before++.call call response::after →
      requestSystem.exec .new before = some u → u.step (.call call response) = some t →
      (∀ failure, response = .threw failure → t = u) ∧
      match call with
      | .setContinuation continuation =>
        (response = .returned none ↔ continuation ≠ none ∧ attachments before = []) ∧
        (response = .returned none ∧ t.request = some ⟨continuation,0,false⟩ ∨
          ∃ failure, response = .threw failure)
      | .complete completionResult =>
        (∀ coroutine, response = .resumed coroutine ↔ completions before = [] ∧
          coroutine ∈ attachments before ∧ u.done coroutine = false) ∧
        ((∃ coroutine, response = .resumed coroutine ∧
            t.request = some ⟨none,completionResult,true⟩) ∨
          ∃ failure, response = .threw failure)
      | .completionResult => response = match completions before with
        | [] => .threw (.logicError "completion result is not available")
        | (completionResult,_)::_ => .returned (some completionResult)) ∧
    ∀ u, requestSystem.Visits .new actions u → ∀ code ∈ u.resuming, ∀ done request,
      code.run done request = (request,.returned none,.returns none) := by
  have hfollows := Follows.exec hrun
  refine ⟨?_,hfollows.resumed,hfollows.defined,?_,?_⟩
  · rw [hfollows.resumed,List.length_map]
    exact hfollows.completions_length
  · rintro before after u t call response - hu hstep
    have hbefore := Follows.exec hu
    refine ⟨?_,?_⟩
    · rintro failure rfl
      exact RequestWorld.threw_unchanged hbefore hstep
    · cases call with
      | setContinuation continuation =>
        exact RequestWorld.setContinuation_response hbefore hstep
      | complete completionResult =>
        exact ⟨RequestWorld.complete_resumed_iff hbefore hstep,
          RequestWorld.complete_response hbefore hstep⟩
      | completionResult => exact RequestWorld.completionResult_response hbefore hstep
  · rintro u ⟨before,after,-,hu⟩ code hcode done request
    exact (Follows.exec hu).run_rest hcode done request

/-- The resumed coroutine asks for the result, completes once more, and destroys the request. -/
def nestedHistory : List RequestAction :=
  [.call (.complete 5) (.threw (.logicError "cannot complete a request without a continuation")),
    .call (.setContinuation (some 3)) (.returned none),
    .call (.setContinuation (some 4))
      (.threw (.logicError "CompletionRequest already has a continuation")),
    .call (.complete 17) (.resumed 3),.call .completionResult (.returned (some 17)),
    .call (.complete 9) (.threw (.logicError "CompletionRequest was completed more than once")),
    .destroy,.resumeReturns (.returned none)]

theorem completion_history_nested :
    ∃ w, requestSystem.exec .new nestedHistory = some w ∧ w.request = none ∧ w.resuming = [] ∧
      completions nestedHistory = [(17,3)] ∧ attachments nestedHistory = [3] ∧
      resumptions nestedHistory = [3] ∧
      ∀ action ∈ nestedHistory, action.response ≠ some .undefined := by
  have hrun : requestSystem.exec .new nestedHistory = some ⟨none,fun _ => false,[]⟩ := rfl
  obtain ⟨-,hresumed,hdefined,-⟩ := completion_history hrun
  exact ⟨_,hrun,rfl,rfl,rfl,rfl,hresumed,hdefined⟩

end AsyncDataLoader
