import AsyncDataLoader.FileSystem
import AsyncDataLoader.TransitionSystem

/-!
# Replacing a file

A new file is made beside the old one, written, synced, closed and moved over the name of the old
one. It is removed again when one of these calls fails. Each call is one step, and so is each
`write`. Afterwards the name denotes what it denoted before, or all of the new text.
-/

namespace AsyncDataLoader

/-- What is to be written, and what the calls answer: an error number, or `none`. The calls in
`afterwards` are made when the file has been moved, a failure of theirs counts all the same. -/
structure Replacement (N β : Type*) where
  directory : ℕ
  name : N
  text : List β
  make : FileSystem N (List β) → Except ℕ (N × ℕ)
  fsync : Option ℕ
  close : Option ℕ
  replace : Option ℕ
  afterwards : List (Option ℕ)
  unlink : Option ℕ

/-- Where the call stands; `n` is the new name, `inode` the new file. -/
inductive ReplacementPlace (N : Type*)
  | make
  | writing (n : N) (inode written : ℕ)
  | fsync (n : N) (inode : ℕ)
  | close (n : N) (inode : ℕ)
  | replace (n : N) (inode : ℕ)
  | afterwards (inode : ℕ) (calls : List (Option ℕ))
  | unlink (n : N) (inode errorNumber : ℕ)
  | done (inode : ℕ)
  | failed (moved : Bool) (errorNumber : ℕ)
  deriving DecidableEq, Repr

inductive ReplacementAction
  | main
  | write (answer : Except ℕ ℕ)
  deriving DecidableEq

structure ReplacementState (N β : Type*) where
  place : ReplacementPlace N
  files : FileSystem N (List β)

namespace Replacement

variable {N β : Type*} [DecidableEq N] (r : Replacement N β)

/-- One step, a `write` apart. The removal of a file that has been moved finds nothing. -/
def mainStep (s : ReplacementState N β) : ReplacementPlace N → Option (ReplacementState N β)
  | .make =>
    match r.make s.files with
    | .error errorNumber => some { s with place := .failed false errorNumber }
    | .ok (n,inode) => some ⟨.writing n inode 0,s.files.create r.directory n inode []⟩
  | .writing n inode written =>
    if written < r.text.length then none else some { s with place := .fsync n inode }
  | .fsync n inode =>
    match r.fsync with
    | some errorNumber => some { s with place := .unlink n inode errorNumber }
    | none => some ⟨.close n inode,s.files.sync inode⟩
  | .close n inode =>
    match r.close with
    | some errorNumber => some { s with place := .unlink n inode errorNumber }
    | none => some { s with place := .replace n inode }
  | .replace n inode =>
    match r.replace with
    | some errorNumber => some { s with place := .unlink n inode errorNumber }
    | none => some ⟨.afterwards inode r.afterwards,s.files.rename r.directory n r.name⟩
  | .afterwards inode [] => some { s with place := .done inode }
  | .afterwards inode (none::calls) => some { s with place := .afterwards inode calls }
  | .afterwards _ (some errorNumber::_) => some { s with place := .failed true errorNumber }
  | .unlink n _ errorNumber =>
    match r.unlink with
    | some refused => some { s with place := .failed false refused }
    | none => some ⟨.failed false errorNumber,s.files.unlink r.directory n⟩
  | .done _ => none
  | .failed _ _ => none

def writeStep (answer : Except ℕ ℕ) (s : ReplacementState N β) :
    ReplacementPlace N → Option (ReplacementState N β)
  | .writing n inode written =>
    if written < r.text.length then
      match answer with
      | .error errorNumber => some { s with place := .unlink n inode errorNumber }
      | .ok taken =>
        if 0 < taken ∧ taken ≤ r.text.length-written then
          some ⟨.writing n inode (written+taken),
            s.files.write inode (s.files.contents inode++(r.text.drop written).take taken)⟩
        else none
    else none
  | _ => none

def system : TransitionSystem ReplacementAction (ReplacementState N β) where
  step
    | .main,s => r.mainStep s s.place
    | .write answer,s => r.writeStep answer s s.place

/-- A new file has a name and an inode of its own, and its name is not the one to be replaced. -/
structure Honoured (before : FileSystem N (List β)) : Prop where
  absent : ∀ n inode, r.make before = .ok (n,inode) → before.entries r.directory n = none
  unused : ∀ n inode, r.make before = .ok (n,inode) → ∀ d n', before.entries d n' ≠ some inode
  name : ∀ n inode, r.make before = .ok (n,inode) → r.name ≠ n

def Standing (before files : FileSystem N (List β)) (n : N) (inode : ℕ) : Prop :=
  r.make before = .ok (n,inode) ∧ before.Beside files r.directory n inode

/-- The name denotes a new file with all of the text, which is durable. -/
structure Done (before files : FileSystem N (List β)) (inode : ℕ) : Prop where
  replaced : before.Replaced files r.directory r.name inode
  contents : files.contents inode = r.text
  durable : files.durable inode = r.text

def Consistent (before files : FileSystem N (List β)) : ReplacementPlace N → Prop
  | .make => files = before
  | .writing n inode written => r.Standing before files n inode ∧ written ≤ r.text.length ∧
      files.contents inode = r.text.take written
  | .fsync n inode => r.Standing before files n inode ∧ files.contents inode = r.text
  | .close n inode | .replace n inode => r.Standing before files n inode ∧
      files.contents inode = r.text ∧ files.durable inode = r.text
  | .unlink n inode _ => r.Standing before files n inode
  | .afterwards inode _ | .done inode => r.Done before files inode
  | .failed true _ => ∃ inode, r.Done before files inode
  | .failed false _ => before.Untouched files ∨
      r.unlink ≠ none ∧ ∃ n inode, r.Standing before files n inode

variable {r} {before : FileSystem N (List β)}

theorem consistent_main (h : r.Honoured before) {s t : ReplacementState N β}
    (hs : r.Consistent before s.files s.place) (hstep : r.mainStep s s.place = some t) :
    r.Consistent before t.files t.place := by
  obtain ⟨place,files⟩ := s
  cases place with
  | make =>
    obtain rfl : files = before := hs
    simp only [mainStep] at hstep
    split at hstep
    · obtain rfl := Option.some.inj hstep
      exact .inl fun _ _ => rfl
    · rename_i n inode hmake
      obtain rfl := Option.some.inj hstep
      have hbeside := FileSystem.beside_create (h.absent n inode hmake) (h.unused n inode hmake) []
      exact ⟨⟨hmake,hbeside⟩,Nat.zero_le _,if_pos rfl⟩
  | writing n inode written =>
    obtain ⟨hstanding,hle,hcontents⟩ := hs
    simp only [mainStep] at hstep
    split_ifs at hstep with hlt
    obtain rfl := Option.some.inj hstep
    refine ⟨hstanding,hcontents.trans ?_⟩
    exact List.take_of_length_le (by omega)
  | fsync n inode =>
    obtain ⟨hstanding,hcontents⟩ := hs
    simp only [mainStep] at hstep
    split at hstep <;> obtain rfl := Option.some.inj hstep
    · exact hstanding
    · exact ⟨⟨hstanding.1,hstanding.2.sync⟩,hcontents,(if_pos rfl).trans hcontents⟩
  | close n inode =>
    simp only [mainStep] at hstep
    split at hstep <;> obtain rfl := Option.some.inj hstep
    · exact hs.1
    · exact hs
  | replace n inode =>
    obtain ⟨hstanding,hcontents,hdurable⟩ := hs
    simp only [mainStep] at hstep
    split at hstep <;> obtain rfl := Option.some.inj hstep
    · exact hstanding
    · exact ⟨hstanding.2.rename (h.name n inode hstanding.1),hcontents,hdurable⟩
  | afterwards inode calls =>
    cases calls with
    | nil =>
      obtain rfl := Option.some.inj hstep
      exact hs
    | cons call calls =>
      cases call with
      | none =>
        obtain rfl := Option.some.inj hstep
        exact hs
      | some errorNumber =>
        obtain rfl := Option.some.inj hstep
        exact ⟨inode,hs⟩
  | unlink n inode errorNumber =>
    have hstanding : r.Standing before files n inode := hs
    simp only [mainStep] at hstep
    split at hstep <;> obtain rfl := Option.some.inj hstep
    · rename_i refused hunlink
      exact .inr ⟨by simp [hunlink],n,inode,hstanding⟩
    · exact .inl hstanding.2.unlink
  | done inode => cases hstep
  | failed moved errorNumber => cases hstep

omit [DecidableEq N] in
theorem consistent_write {answer : Except ℕ ℕ} {s t : ReplacementState N β}
    (hs : r.Consistent before s.files s.place) (hstep : r.writeStep answer s s.place = some t) :
    r.Consistent before t.files t.place := by
  obtain ⟨place,files⟩ := s
  cases place with
  | writing n inode written =>
    obtain ⟨hstanding,hle,hcontents⟩ := hs
    simp only [writeStep] at hstep
    split_ifs at hstep with hlt
    split at hstep
    · obtain rfl := Option.some.inj hstep
      exact hstanding
    · rename_i taken
      split_ifs at hstep with htaken
      obtain rfl := Option.some.inj hstep
      refine ⟨⟨hstanding.1,hstanding.2.write _⟩,by omega,(if_pos rfl).trans ?_⟩
      rw [hcontents,List.take_add]
  | _ => cases hstep

theorem goes_on (r : Replacement N β) (s : ReplacementState N β)
    (hdone : ∀ inode, s.place ≠ .done inode)
    (hfailed : ∀ moved errorNumber, s.place ≠ .failed moved errorNumber) :
    ∃ action t, r.system.step action s = some t := by
  obtain ⟨place,files⟩ := s
  cases place with
  | writing n inode written =>
    by_cases hlt : written < r.text.length
    · have htaken : 0 < 1 ∧ 1 ≤ r.text.length-written := ⟨Nat.one_pos,by omega⟩
      exact ⟨.write (.ok 1),_,(if_pos hlt).trans (if_pos htaken)⟩
    · exact ⟨.main,_,if_neg hlt⟩
  | done inode => exact absurd rfl (hdone inode)
  | failed moved errorNumber => exact absurd rfl (hfailed moved errorNumber)
  | afterwards inode calls =>
    refine ⟨.main,?_⟩
    rcases calls with _ | ⟨_ | errorNumber,calls⟩ <;> exact ⟨_,rfl⟩
  | _ =>
    refine ⟨.main,?_⟩
    simp only [system,mainStep]
    split <;> exact ⟨_,rfl⟩

theorem reaches_done {n : N} {inode : ℕ} (hmake : r.make before = .ok (n,inode))
    (htext : r.text ≠ []) (hfsync : r.fsync = none) (hclose : r.close = none)
    (hreplace : r.replace = none) (hafterwards : ∀ call ∈ r.afterwards, call = none) :
    ∃ files, r.system.Reachable ⟨.make,before⟩ ⟨.done inode,files⟩ := by
  have hlength := List.length_pos_of_ne_nil htext
  have hmoved : ∃ files, r.system.exec ⟨.make,before⟩ [.main,.write (.ok r.text.length),.main,
      .main,.main,.main] = some ⟨.afterwards inode r.afterwards,files⟩ := by
    simp [TransitionSystem.exec_cons,system,mainStep,writeStep,hmake,hfsync,hclose,hreplace,hlength]
  obtain ⟨files,hmoved⟩ := hmoved
  refine ⟨files,TransitionSystem.Reachable.trans ⟨_,hmoved⟩ ?_⟩
  generalize r.afterwards = calls at hafterwards
  induction calls with
  | nil => exact ⟨[.main],rfl⟩
  | cons call calls ih =>
    obtain ⟨rfl,hcalls⟩ := List.forall_mem_cons.mp hafterwards
    have hcall : r.system.Reachable ⟨.afterwards inode (none::calls),files⟩
        ⟨.afterwards inode calls,files⟩ := ⟨[.main],rfl⟩
    exact hcall.trans (ih hcalls)

omit [DecidableEq N] in
theorem Standing.denotes {files : FileSystem N (List β)} {n : N} {inode d : ℕ} {n' : N}
    (h : r.Standing before files n inode) (hne : ¬ (d = r.directory ∧ n' = n)) :
    files.denotes d n' = before.denotes d n' := h.2.denotes hne

end Replacement
end AsyncDataLoader
