import Mathlib.Data.List.Basic
import Mathlib.Tactic.Common

/-!
# Alternatives that are tried in order

A fallible computation changes a state, also when it fails. The next alternative is tried where
the failure of the one before is admitted, in the state that it has left behind.
-/

namespace AsyncDataLoader

/-- A computation that may fail. -/
abbrev Attempt (S ε A : Type*) := S → Except ε A × S

namespace Attempt

variable {K S ε A : Type*} (admits : ε → Bool)

def orElse (first second : Attempt S ε A) : Attempt S ε A := fun s =>
  match first s with
  | (.error e,s') => if admits e then second s' else (.error e,s')
  | (.ok a,s') => (.ok a,s')

variable (attempt : K → Attempt S ε A)

/-- The alternatives in order; behind the last one nothing is tried. -/
def firstOf (last : K) : List K → Attempt S ε A
  | [] => attempt last
  | k::ks => (attempt k).orElse admits (firstOf last ks)

/-- All of them fail, one after the other, in a way that is admitted. -/
inductive FailInTurn : List K → S → S → Prop
  | nil (s : S) : FailInTurn [] s s
  | cons {k : K} {ks : List K} {s s' s'' : S} {e : ε} (hfirst : attempt k s = (.error e,s'))
      (hadmits : admits e = true) (hrest : FailInTurn ks s' s'') : FailInTurn (k::ks) s s''

variable {admits attempt}

theorem orElse_error {first second : Attempt S ε A} {s s' : S} {e : ε}
    (hfirst : first s = (.error e,s')) (hadmits : admits e = true) :
    first.orElse admits second s = second s' := by
  simp [orElse,hfirst,hadmits]

theorem orElse_decided {first second : Attempt S ε A} {s : S}
    (h : ∀ e, (first s).1 = .error e → admits e = false) :
    first.orElse admits second s = first s := by
  unfold orElse
  split
  · rename_i e s' hfirst
    have hadmits := h e (by rw [hfirst])
    simp [hadmits,hfirst]
  · rename_i a s' hfirst
    exact hfirst.symm

/-- One alternative decides: those before it fail and those behind it are not tried. -/
theorem firstOf_decides (last : K) (ks : List K) (s : S) :
    ∃ tried decisive untried s', ks++[last] = tried++decisive::untried ∧
      FailInTurn admits attempt tried s s' ∧
      firstOf admits attempt last ks s = attempt decisive s' ∧
      (untried = [] ∨ ∀ e, (attempt decisive s').1 = .error e → admits e = false) := by
  induction ks generalizing s with
  | nil => exact ⟨[],last,[],s,rfl,.nil s,rfl,.inl rfl⟩
  | cons k ks ih =>
    by_cases hdecided : ∀ e, (attempt k s).1 = .error e → admits e = false
    · exact ⟨[],k,ks++[last],s,rfl,.nil s,orElse_decided hdecided,.inr hdecided⟩
    · push Not at hdecided
      obtain ⟨e,herror,hadmits⟩ := hdecided
      have hfirst : attempt k s = (.error e,(attempt k s).2) := Prod.ext herror rfl
      have hadmits : admits e = true := by simpa using hadmits
      obtain ⟨tried,decisive,untried,s',hsplit,htried,hresult,hdecides⟩ := ih (attempt k s).2
      refine ⟨k::tried,decisive,untried,s',by rw [List.cons_append,hsplit,List.cons_append],
        .cons hfirst hadmits htried,?_,hdecides⟩
      exact (orElse_error hfirst hadmits).trans hresult

theorem FailInTurn.steady {ks : List K} {s s' : S} (h : FailInTurn admits attempt ks s s')
    (hsteady : ∀ k ∈ ks, ∀ s e s', attempt k s = (.error e,s') → s' = s) :
    s' = s ∧ ∀ k ∈ ks, ∃ e, (attempt k s).1 = .error e ∧ admits e = true := by
  induction h with
  | nil s => exact ⟨rfl,by simp⟩
  | @cons k ks s s' s'' e hfirst hadmits hrest ih =>
    obtain rfl := hsteady k List.mem_cons_self s e s' hfirst
    obtain ⟨rfl,hfailed⟩ := ih fun k hmem => hsteady k (List.mem_cons_of_mem _ hmem)
    refine ⟨rfl,fun j hmem => ?_⟩
    rcases List.mem_cons.mp hmem with rfl | hmem
    · exact ⟨e,by rw [hfirst],hadmits⟩
    · exact hfailed j hmem

end Attempt
end AsyncDataLoader
