import AsyncDataLoader.Population
import AsyncDataLoader.TransitionSystem

/-!
# Atomic additions

Threads add amounts to cells. A call is a list of additions, which its thread makes one after the
other while other threads make theirs. When every call has returned, each cell has what all calls
add to it, in whatever order they did.
-/

namespace AsyncDataLoader

/-- The cells, and what each thread still has to add. -/
structure Adders (ι N M : Type*) where
  cells : N → M
  pending : ι → List (N × M)

inductive AdderAction (ι N M : Type*)
  | call (t : ι) (additions : List (N × M))
  | add (t : ι)

namespace Adders

variable {ι N M : Type*} [DecidableEq ι] [DecidableEq N] [AddCommMonoid M]

def step (s : Adders ι N M) : AdderAction ι N M → Option (Adders ι N M)
  | .call t additions =>
    match s.pending t with
    | [] => some { s with pending := Function.update s.pending t additions }
    | _::_ => none
  | .add t =>
    match s.pending t with
    | [] => none
    | (n,x)::rest => some ⟨Function.update s.cells n (s.cells n+x),Function.update s.pending t rest⟩

end Adders

def adderSystem (ι N M : Type*) [DecidableEq ι] [DecidableEq N] [AddCommMonoid M] :
    TransitionSystem (AdderAction ι N M) (Adders ι N M) where
  step action s := s.step action

section Amount

variable {N M : Type*} [DecidableEq N] [AddCommMonoid M]

def amount (n : N) (additions : List (N × M)) : M :=
  (additions.map fun (k,x) => if k = n then x else 0).sum

@[simp] theorem amount_nil (n : N) : amount n ([] : List (N × M)) = 0 := rfl

@[simp] theorem amount_cons (n k : N) (x : M) (additions : List (N × M)) :
    amount n ((k,x)::additions) = (if k = n then x else 0)+amount n additions := by
  simp [amount]

end Amount

namespace Adders

variable {ι N M : Type*}

/-- The additions of the calls, in the order in which they began. -/
def called (actions : List (AdderAction ι N M)) : List (List (N × M)) :=
  actions.filterMap fun
    | .call _ additions => some additions
    | .add _ => none

variable [Fintype ι] [DecidableEq ι] [DecidableEq N] [AddCommMonoid M]

/-- Nothing is lost or added twice on the way from the calls to the cells. -/
def Conserves (base : N → M) (actions : List (AdderAction ι N M)) (s : Adders ι N M) : Prop :=
  ∀ n, s.cells n+∑ t, amount n (s.pending t) = base n+((called actions).map (amount n)).sum

theorem Conserves.step {base : N → M} {actions : List (AdderAction ι N M)} {s s' : Adders ι N M}
    {action : AdderAction ι N M} (h : s.Conserves base actions)
    (hstep : s.step action = some s') : s'.Conserves base (actions++[action]) := by
  intro n
  have hn := h n
  cases action with
  | call t additions =>
    simp only [Adders.step] at hstep
    split at hstep
    · rename_i hidle
      obtain rfl := Option.some.inj hstep
      have hbefore := sum_place (amount n) s.pending t
      rw [hidle,amount_nil,zero_add] at hbefore
      have hcalled : called (actions++[.call t additions]) = called actions++[additions] := by
        simp [called]
      rw [hcalled,List.map_append,List.sum_append,← add_assoc,← hn,hbefore,
        sum_others (amount n) s.pending t additions,List.map_singleton,List.sum_singleton,
        add_assoc,add_comm (amount n additions)]
    · cases hstep
  | add t =>
    simp only [Adders.step] at hstep
    split at hstep
    · cases hstep
    · rename_i k x rest hpending
      obtain rfl := Option.some.inj hstep
      have hcalled : called (actions++[.add t]) = called actions := by simp [called]
      rw [hcalled,← hn]
      by_cases hk : k = n
      · subst hk
        have hmove := @sum_update_add _ _ _ _ _ _ (amount k) s.pending t rest x
          (by rw [hpending,amount_cons,if_pos rfl,add_comm])
        simp only [Function.update_self]
        rw [add_assoc,add_comm x,hmove]
      · have hmove := @sum_update_add _ _ _ _ _ _ (amount n) s.pending t rest 0
          (by rw [hpending,amount_cons,if_neg hk,add_comm])
        simp only [Function.update_of_ne (Ne.symm hk)]
        rw [← hmove,add_zero]

/-- When nobody has anything left to add, each cell has what all calls add to it. -/
theorem exec_cells {base : N → M} {actions : List (AdderAction ι N M)} {s : Adders ι N M}
    (hrun : (adderSystem ι N M).exec ⟨base,fun _ => []⟩ actions = some s)
    (hdone : ∀ t, s.pending t = []) (n : N) :
    s.cells n = base n+((called actions).map (amount n)).sum := by
  have hconserves : s.Conserves base actions := by
    refine TransitionSystem.exec_history (I := fun actions s => s.Conserves base actions) ?_
      (fun before l s t h hstep => h.step hstep) hrun
    intro n
    simp [called]
  have hn := hconserves n
  simp only [hdone,amount_nil,Finset.sum_const_zero,add_zero] at hn
  exact hn

end Adders
end AsyncDataLoader
