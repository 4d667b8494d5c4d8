import Mathlib.Algebra.Group.Nat.Defs

/-!
# Exceptions and error numbers

A `std::exception_ptr` is modelled by the exception it points to: its type, its text and,
for a `std::system_error` of the generic category, its error number.
-/

namespace AsyncDataLoader

abbrev EINTR : ℕ := 4
abbrev EIO : ℕ := 5
abbrev EAGAIN : ℕ := 11
abbrev ENOMEM : ℕ := 12
abbrev EINVAL : ℕ := 22
abbrev ENOENT : ℕ := 2
abbrev ECANCELED : ℕ := 125

/-- The exceptions the modelled functions raise. `other` stands for any further object that
a user-defined stage may throw. -/
inductive Failure
  | systemError (errorNumber : ℕ) (what : String)
  | invalidArgument (what : String)
  | lengthError (what : String)
  | overflowError (what : String)
  | runtimeError (what : String)
  | logicError (what : String)
  | other (tag : ℕ)
  deriving DecidableEq, Repr

/-- `std::numeric_limits<std::uint64_t>::max()`, also that of `std::size_t`. -/
abbrev uint64Max : ℕ := 2^64-1

theorem bind_eq_ok {ε α β : Type} {x : Except ε α} {f : α → Except ε β} {b : β}
    (h : (x >>= f) = .ok b) : ∃ a, x = .ok a ∧ f a = .ok b := by
  cases x with
  | error e => cases h
  | ok a => exact ⟨a,rfl,h⟩

theorem foldlM_history {ε α β : Type} {I : List α → β → Prop} {f : β → α → Except ε β}
    (hf : ∀ before b x b', I before b → f b x = .ok b' → I (before++[x]) b') {xs : List α}
    {b b' : β} (hb : I [] b) (h : xs.foldlM f b = .ok b') : I xs b' := by
  have hrest : ∀ (before after : List α) (c : β), I before c → after.foldlM f c = .ok b' →
      I (before++after) b' := by
    intro before after
    induction after generalizing before with
    | nil =>
      intro c hc hfold
      obtain rfl := Except.ok.inj hfold
      rwa [List.append_nil]
    | cons x after ih =>
      intro c hc hfold
      obtain ⟨d,hd,hrest⟩ := bind_eq_ok hfold
      have hall := ih (before++[x]) d (hf before c x d hc hd) hrest
      rwa [List.append_assoc] at hall
  exact hrest [] xs b hb h

theorem foldlM_invariant {ε α β : Type} {I : β → Prop} {f : β → α → Except ε β}
    (hf : ∀ b x b', I b → f b x = .ok b' → I b') {xs : List α} {b b' : β} (hb : I b)
    (h : xs.foldlM f b = .ok b') : I b' :=
  foldlM_history (I := fun _ => I) (fun _ => hf) hb h

/-- The arithmetic helper that the executor and the serial reference each define. -/
def checkedAdd (left right : ℕ) (message : String) : Except Failure ℕ :=
  if right > uint64Max-left then .error (.overflowError message) else .ok (left+right)

theorem checkedAdd_ok {left right sum : ℕ} {message : String}
    (h : checkedAdd left right message = .ok sum) : sum = left+right := by
  unfold checkedAdd at h
  split at h
  · cases h
  · exact (Except.ok.inj h).symm

theorem checkedAdd_fits {left right sum : ℕ} {message : String}
    (h : checkedAdd left right message = .ok sum) : right ≤ uint64Max-left := by
  unfold checkedAdd at h
  split at h
  · cases h
  · omega

theorem checkedAdd_error {left right : ℕ} {message : String} {failure : Failure}
    (h : checkedAdd left right message = .error failure) : uint64Max < left+right := by
  unfold checkedAdd at h
  split at h
  · omega
  · cases h

theorem checkedAdd_eq_ok {left right : ℕ} (message : String) (h : left+right ≤ uint64Max) :
    checkedAdd left right message = .ok (left+right) := by
  unfold checkedAdd
  exact if_neg (by omega)

end AsyncDataLoader
