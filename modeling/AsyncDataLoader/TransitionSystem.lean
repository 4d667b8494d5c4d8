import Mathlib.Data.List.Induction
import Mathlib.Order.WellFounded
import Mathlib.Tactic.Common

/-!
# Labelled transition systems

A system is a partial function from labels and states to states: a label that is
not enabled in a state has no successor there. Interleavings are lists of labels.
The rules below turn a statement about one step into one about whole runs.
-/

namespace AsyncDataLoader

/-- `step l s` is the state after the step `l`, or `none` when `l` is not enabled. -/
structure TransitionSystem (L S : Type*) where
  step : L → S → Option S

namespace TransitionSystem

variable {L S : Type*} (M : TransitionSystem L S)

def exec (s : S) : List L → Option S
  | [] => some s
  | l::ls => (M.step l s).bind fun t => exec t ls

def Reachable (s₀ s : S) : Prop := ∃ ls, M.exec s₀ ls = some s

/-- `s` occurs on the way through `ls`. -/
def Visits (s₀ : S) (ls : List L) (s : S) : Prop :=
  ∃ before after, ls = before++after ∧ M.exec s₀ before = some s

/-- On the way through `ls` the label `l` is taken in `s`. -/
def Takes (s₀ : S) (ls : List L) (s : S) (l : L) : Prop :=
  ∃ before after, ls = before++l::after ∧ M.exec s₀ before = some s

def Stuck (s : S) : Prop := ∀ l, M.step l s = none

def InfiniteRun (s₀ : S) (run : ℕ → S) : Prop :=
  run 0 = s₀ ∧ ∀ n, ∃ l, M.step l (run n) = some (run (n+1))

variable {M}

@[simp] theorem exec_nil (s : S) : M.exec s [] = some s := rfl

theorem exec_cons (s : S) (l : L) (ls : List L) :
    M.exec s (l::ls) = (M.step l s).bind fun t => M.exec t ls := rfl

theorem exec_append (s : S) (ls ks : List L) :
    M.exec s (ls++ks) = (M.exec s ls).bind fun t => M.exec t ks := by
  induction ls generalizing s with
  | nil => rfl
  | cons l ls ih =>
    simp only [List.cons_append,exec_cons]
    cases M.step l s with
    | none => rfl
    | some t => simpa using ih t

theorem exec_concat {s t u : S} {l : L} {ls : List L}
    (hs : M.exec s ls = some t) (hl : M.step l t = some u) :
    M.exec s (ls++[l]) = some u := by
  simp [exec_append,hs,exec_cons,hl]

namespace Reachable

theorem refl (s : S) : M.Reachable s s := ⟨[],rfl⟩

theorem tail {s t u : S} {l : L} (h : M.Reachable s t) (hl : M.step l t = some u) :
    M.Reachable s u := by
  obtain ⟨ls,hs⟩ := h
  exact ⟨ls++[l],exec_concat hs hl⟩

theorem trans {s t u : S} (h : M.Reachable s t) (k : M.Reachable t u) : M.Reachable s u := by
  obtain ⟨ls,hs⟩ := h
  obtain ⟨ks,ht⟩ := k
  exact ⟨ls++ks,by simp [exec_append,hs,ht]⟩

end Reachable

/-- A predicate kept by the steps whose labels satisfy `P` holds after every run of
such labels. -/
theorem exec_invariant {P : L → Prop} {I : S → Prop}
    (hstep : ∀ l s t, P l → I s → M.step l s = some t → I t)
    {s t : S} {ls : List L} (hP : ∀ l ∈ ls, P l) (hs : I s) (h : M.exec s ls = some t) : I t := by
  induction ls generalizing s with
  | nil =>
    obtain rfl : s = t := by simpa using h
    exact hs
  | cons l ls ih =>
    rw [exec_cons,Option.bind_eq_some_iff] at h
    obtain ⟨u,hl,hu⟩ := h
    have hI : I u := hstep l s u (hP l (by simp)) hs hl
    exact ih (fun k hk => hP k (by simp [hk])) hI hu

/-- The induction rule for reachable states. -/
theorem Reachable.invariant {I : S → Prop}
    (hstep : ∀ l s t, I s → M.step l s = some t → I t)
    {s₀ s : S} (h₀ : I s₀) (h : M.Reachable s₀ s) : I s := by
  obtain ⟨ls,hs⟩ := h
  exact @exec_invariant L S M (fun _ => True) I (fun l s t _ => hstep l s t) _ _ ls (by simp) h₀ hs

/-- The same rule when each step may use that its source is reachable, so that an
invariant can be built on one proved before. -/
theorem Reachable.invariant_of_reachable {s₀ : S} {I : S → Prop} (h₀ : I s₀)
    (hstep : ∀ l s t, M.Reachable s₀ s → I s → M.step l s = some t → I t)
    {s : S} (h : M.Reachable s₀ s) : I s := by
  have hboth : M.Reachable s₀ s ∧ I s :=
    @Reachable.invariant L S M (fun s => M.Reachable s₀ s ∧ I s)
      (fun l s t hs hl => ⟨hs.1.tail hl,hstep l s t hs.1 hs.2 hl⟩) _ _ ⟨Reachable.refl s₀,h₀⟩ h
  exact hboth.2

/-- A relation that every step keeps, with a step of another system, relates the runs. -/
theorem exec_simulates {K T : Type*} {N : TransitionSystem K T} {f : L → K} {R : S → T → Prop}
    (hstep : ∀ l s t a, R s a → M.step l s = some t → ∃ b, N.step (f l) a = some b ∧ R t b)
    {s t : S} {a : T} {ls : List L} (hs : R s a) (h : M.exec s ls = some t) :
    ∃ b, N.exec a (ls.map f) = some b ∧ R t b := by
  induction ls generalizing s a with
  | nil =>
    obtain rfl : s = t := by simpa using h
    exact ⟨a,rfl,hs⟩
  | cons l ls ih =>
    rw [exec_cons,Option.bind_eq_some_iff] at h
    obtain ⟨u,hl,hu⟩ := h
    obtain ⟨b,hb,hR⟩ := hstep l s u a hs hl
    obtain ⟨c,hc,ht⟩ := ih hR hu
    refine ⟨c,?_,ht⟩
    rw [List.map_cons,exec_cons,hb,Option.bind_some,hc]

/-- The rule for one run, when a step keeps the invariant only under a condition on its
source and its label. -/
theorem Visits.invariant {C : S → L → Prop} {I : S → Prop}
    (hstep : ∀ l s t, C s l → I s → M.step l s = some t → I t) {s₀ s : S} {ls : List L}
    (hC : ∀ u l, M.Takes s₀ ls u l → C u l) (h₀ : I s₀) (h : M.Visits s₀ ls s) : I s := by
  obtain ⟨before,after,rfl,hs⟩ := h
  induction before using List.reverseRecOn generalizing s after with
  | nil =>
    obtain rfl : s₀ = s := by simpa using hs
    exact h₀
  | append_singleton before l ih =>
    rw [exec_append,Option.bind_eq_some_iff] at hs
    obtain ⟨u,hu,hl⟩ := hs
    rw [exec_cons,Option.bind_eq_some_iff] at hl
    obtain ⟨t,hl,ht⟩ := hl
    obtain rfl : t = s := by simpa using ht
    have htakes : M.Takes s₀ (before++[l]++after) u l := ⟨before,after,by simp,hu⟩
    exact hstep l u t (hC u l htakes) (ih (l::after) hu (by simpa using hC)) hl

/-- An invariant that relates the state to the labels so far, when a step keeps it under a
condition on its source and its label. -/
theorem Takes.history {C : S → L → Prop} {I : List L → S → Prop} {s₀ s : S} {ls : List L}
    (hstep : ∀ before l s t, C s l → I before s → M.step l s = some t → I (before++[l]) t)
    (hC : ∀ u l, M.Takes s₀ ls u l → C u l) (h₀ : I [] s₀) (h : M.exec s₀ ls = some s) :
    I ls s := by
  induction ls using List.reverseRecOn generalizing s with
  | nil =>
    obtain rfl : s₀ = s := by simpa using h
    exact h₀
  | append_singleton ls l ih =>
    rw [exec_append,Option.bind_eq_some_iff] at h
    obtain ⟨t,ht,hl⟩ := h
    have hearlier : ∀ u k, M.Takes s₀ ls u k → C u k := by
      rintro u k ⟨before,after,rfl,hu⟩
      exact hC u k ⟨before,after++[l],by simp,hu⟩
    have hl : M.step l t = some s := by simpa [exec_cons] using hl
    exact hstep ls l t s (hC t l ⟨ls,[],rfl,ht⟩) (ih hearlier ht) hl

theorem exec_history {I : List L → S → Prop} {s₀ s : S} {ls : List L} (h₀ : I [] s₀)
    (hstep : ∀ before l s t, I before s → M.step l s = some t → I (before++[l]) t)
    (h : M.exec s₀ ls = some s) : I ls s :=
  Takes.history (C := fun _ _ => True) (fun before l s t _ => hstep before l s t)
    (fun _ _ _ => trivial) h₀ h

theorem visits_concat {s₀ u : S} {l : L} {ls : List L} :
    M.Visits s₀ (ls++[l]) u ↔ M.Visits s₀ ls u ∨ M.exec s₀ (ls++[l]) = some u := by
  constructor
  · rintro ⟨before,after,heq,hu⟩
    rcases List.eq_nil_or_concat after with rfl | ⟨after,k,rfl⟩
    · rw [List.append_nil] at heq
      exact .inr (heq ▸ hu)
    · rw [List.concat_eq_append,← List.append_assoc] at heq
      obtain ⟨rfl,-⟩ := List.append_inj' heq rfl
      exact .inl ⟨before,after,rfl,hu⟩
  · rintro (⟨before,after,rfl,hu⟩ | hu)
    · exact ⟨before,after++[l],by simp,hu⟩
    · exact ⟨ls++[l],[],by simp,hu⟩

theorem Takes.visits {s₀ s : S} {l : L} {ls : List L} {t : S} (h : M.Takes s₀ ls s l)
    (hl : M.step l s = some t) : M.Visits s₀ ls t := by
  obtain ⟨before,after,rfl,hs⟩ := h
  exact ⟨before++[l],after,by simp,exec_concat hs hl⟩

/-- If a step from a state of the invariant can only lead to a state of `Q` when it meets the
condition, then a run that only visits states of `Q` meets the condition throughout. -/
theorem Takes.condition {C : S → L → Prop} {I Q : S → Prop}
    (hstep : ∀ l s t, C s l → I s → M.step l s = some t → I t)
    (hmeets : ∀ l s t, I s → M.step l s = some t → Q t → C s l) {s₀ s : S} {ls : List L}
    (h₀ : I s₀) (hrun : M.exec s₀ ls = some s) (hQ : ∀ t, M.Visits s₀ ls t → Q t) {u : S} {l : L}
    (h : M.Takes s₀ ls u l) : C u l := by
  induction ls using List.reverseRecOn generalizing s u l with
  | nil =>
    obtain ⟨before,after,heq,-⟩ := h
    simp at heq
  | append_singleton ls k ih =>
    rw [exec_append,Option.bind_eq_some_iff] at hrun
    obtain ⟨v,hv,hk⟩ := hrun
    have hk : M.step k v = some s := by simpa [exec_cons] using hk
    have hearlier : ∀ u l, M.Takes s₀ ls u l → C u l := fun u l htakes =>
      ih hv (fun t ht => hQ t (by
        obtain ⟨before,after,rfl,ht⟩ := ht
        exact ⟨before,after++[k],by simp,ht⟩)) htakes
    obtain ⟨before,after,heq,hu⟩ := h
    rcases List.eq_nil_or_concat after with rfl | ⟨after,k',rfl⟩
    · obtain ⟨rfl,rfl⟩ : ls = before ∧ k = l := by simpa using List.append_inj' heq rfl
      obtain rfl := Option.some.inj (hv.symm.trans hu)
      have hI : I v := Visits.invariant hstep hearlier h₀ ⟨ls,[],by simp,hv⟩
      exact hmeets k v s hI hk (hQ s ⟨ls++[k],[],by simp,by simp [exec_append,hv,exec_cons,hk]⟩)
    · rw [List.concat_eq_append,← List.cons_append,← List.append_assoc] at heq
      obtain ⟨rfl,-⟩ := List.append_inj' heq rfl
      exact hearlier u l ⟨before,after,rfl,hu⟩

theorem Takes.enabled {s₀ s u : S} {l : L} {ls : List L} (h : M.Takes s₀ ls u l)
    (hrun : M.exec s₀ ls = some s) : ∃ t, M.step l u = some t := by
  obtain ⟨before,after,rfl,hu⟩ := h
  rw [exec_append,hu,Option.bind_some,exec_cons,Option.bind_eq_some_iff] at hrun
  obtain ⟨t,hstep,-⟩ := hrun
  exact ⟨t,hstep⟩

theorem takes_of_mem {s₀ s : S} {l : L} {ls : List L} (h : M.exec s₀ ls = some s) (hl : l ∈ ls) :
    ∃ u t, M.Takes s₀ ls u l ∧ M.step l u = some t := by
  obtain ⟨before,after,rfl⟩ := List.append_of_mem hl
  obtain ⟨u,hu,-⟩ := Option.bind_eq_some_iff.mp (exec_append s₀ before (l::after) ▸ h)
  have htakes : M.Takes s₀ (before++l::after) u l := ⟨before,after,rfl,hu⟩
  obtain ⟨t,hstep⟩ := htakes.enabled h
  exact ⟨u,t,htakes,hstep⟩

def record {α : Type*} (M : TransitionSystem L S) (f : S → S → List α) (s : S) : List L → List α
  | [] => []
  | l::ls => match M.step l s with
    | none => []
    | some t => f s t++record M f t ls

theorem record_append {α : Type*} {f : S → S → List α} {s t : S} {ls : List L}
    (h : M.exec s ls = some t) (ks : List L) :
    M.record f s (ls++ks) = M.record f s ls++M.record f t ks := by
  induction ls generalizing s with
  | nil =>
    obtain rfl : s = t := by simpa using h
    rfl
  | cons l ls ih =>
    rw [exec_cons,Option.bind_eq_some_iff] at h
    obtain ⟨u,hl,hu⟩ := h
    simp only [List.cons_append,record,hl,ih hu,List.append_assoc]

theorem record_concat {α : Type*} {f : S → S → List α} {s t u : S} {l : L} {ls : List L}
    (h : M.exec s ls = some t) (hl : M.step l t = some u) :
    M.record f s (ls++[l]) = M.record f s ls++f t u := by
  rw [record_append h]
  simp only [record,hl,List.append_nil]

def tests (M : TransitionSystem L S) (p : S → S → Bool) (s : S) : List L → Bool
  | [] => true
  | l::ls => match M.step l s with
    | none => true
    | some t => p s t && tests M p t ls

theorem Takes.tested {p : S → S → Bool} {s₀ s t : S} {l : L} {ls : List L}
    (h : M.Takes s₀ ls s l) (hp : M.tests p s₀ ls = true) (hl : M.step l s = some t) :
    p s t = true := by
  obtain ⟨before,after,rfl,hs⟩ := h
  induction before generalizing s₀ with
  | nil =>
    obtain rfl := Option.some.inj hs
    simp only [List.nil_append,tests,hl,Bool.and_eq_true] at hp
    exact hp.1
  | cons k before ih =>
    rw [exec_cons,Option.bind_eq_some_iff] at hs
    obtain ⟨u,hk,hs⟩ := hs
    simp only [List.cons_append,tests,hk,Bool.and_eq_true] at hp
    exact ih hs hp.2

/-- A map that commutes with every step commutes with every run. -/
theorem exec_map {T : Type*} {N : TransitionSystem L T} {f : S → T} {I : S → Prop}
    (hI : ∀ l s t, I s → M.step l s = some t → I t)
    (hf : ∀ l s, I s → (M.step l s).map f = N.step l (f s)) {s : S} (hs : I s) (ls : List L) :
    (M.exec s ls).map f = N.exec (f s) ls := by
  induction ls generalizing s with
  | nil => rfl
  | cons l ls ih =>
    rw [exec_cons,exec_cons,← hf l s hs]
    cases hl : M.step l s with
    | none => rfl
    | some t => simpa using ih (hI l s t hs hl)

/-- A measure that no step raises bounds how often a run takes the labels that lower it. -/
theorem exec_countP {μ : S → ℕ} {P : L → Bool}
    (hμ : ∀ l s t, M.step l s = some t → μ t+(if P l then 1 else 0) ≤ μ s) {s t : S} {ls : List L}
    (h : M.exec s ls = some t) : ls.countP P+μ t ≤ μ s := by
  induction ls generalizing s with
  | nil =>
    obtain rfl : s = t := by simpa using h
    simp
  | cons l ls ih =>
    rw [exec_cons,Option.bind_eq_some_iff] at h
    obtain ⟨u,hl,hu⟩ := h
    have hstep := hμ l s u hl
    have hrest := ih hu
    rw [List.countP_cons]
    omega

/-- A measure that each step from the invariant lowers bounds the length of a run. -/
theorem exec_length_le {μ : S → ℕ} {I : S → Prop}
    (hμ : ∀ l s t, I s → M.step l s = some t → I t ∧ μ t < μ s) {s t : S} {ls : List L}
    (hs : I s) (h : M.exec s ls = some t) : ls.length ≤ μ s := by
  induction ls generalizing s with
  | nil => exact Nat.zero_le _
  | cons l ls ih =>
    rw [exec_cons,Option.bind_eq_some_iff] at h
    obtain ⟨u,hl,hu⟩ := h
    obtain ⟨hI,hlt⟩ := hμ l s u hs hl
    have hrest := ih hI hu
    rw [List.length_cons]
    omega

theorem InfiniteRun.reachable {s₀ : S} {run : ℕ → S} (h : M.InfiniteRun s₀ run) (n : ℕ) :
    M.Reachable s₀ (run n) := by
  induction n with
  | zero => exact h.1 ▸ Reachable.refl _
  | succ n ih =>
    obtain ⟨l,hl⟩ := h.2 n
    exact ih.tail hl

/-- A measure in a well-founded order that every step lowers. -/
theorem not_infiniteRun {α : Type*} [LT α] [WellFoundedLT α] {μ : S → α} {s₀ : S}
    (hμ : ∀ l s t, M.Reachable s₀ s → M.step l s = some t → μ t < μ s) (run : ℕ → S) :
    ¬ M.InfiniteRun s₀ run := by
  intro h
  obtain ⟨n,hn⟩ := WellFounded.not_rel_apply_succ (r:=((·<·) : α → α → Prop)) fun n => μ (run n)
  obtain ⟨l,hl⟩ := h.2 n
  exact hn (hμ l _ _ (h.reachable n) hl)

/-- With a decreasing measure every run can be extended to one that is stuck. -/
theorem exists_stuck {α : Type*} [LT α] [WellFoundedLT α] {μ : S → α} {s₀ : S}
    (hμ : ∀ l s t, M.Reachable s₀ s → M.step l s = some t → μ t < μ s) {s : S}
    (hs : M.Reachable s₀ s) : ∃ t, M.Reachable s t ∧ M.Stuck t := by
  generalize hn : μ s = n
  induction n using WellFoundedLT.induction generalizing s with
  | ind n ih =>
    by_cases hstuck : M.Stuck s
    · exact ⟨s,Reachable.refl s,hstuck⟩
    · obtain ⟨l,hl⟩ := not_forall.mp hstuck
      obtain ⟨u,hu⟩ := Option.ne_none_iff_exists'.mp hl
      obtain ⟨t,ht,hst⟩ := ih (μ u) (hn ▸ hμ l s u hs hu) (hs.tail hu) rfl
      exact ⟨t,((Reachable.refl s).tail hu).trans ht,hst⟩

end TransitionSystem
end AsyncDataLoader
