import AsyncDataLoader.PythonText
import Mathlib.Data.List.Induction

/-!
# Integers in Python, written and read again

`int` refuses more digits than the interpreter's limit. A number that it has read is never written
with more.
-/

namespace AsyncDataLoader
namespace Python
namespace Interpreter

variable (py : Interpreter)

/-- Numbers with no more digits than the interpreter converts. -/
def Readable (n : ℕ) : Prop := py.maxStrDigits = 0 ∨ n < 10^py.maxStrDigits

variable {py}

theorem Readable.mono {m n : ℕ} (h : py.Readable n) (hle : m ≤ n) : py.Readable m :=
  h.imp_right hle.trans_lt

theorem readable_digit {n : ℕ} (h : n < 10) : py.Readable n := by
  by_cases hzero : py.maxStrDigits = 0
  · exact .inl hzero
  · exact .inr (h.trans_le (Nat.le_self_pow hzero 10))

theorem digit?_lt {c : Char} {d : ℕ} (h : digit? c = some d) : d < 10 := by
  unfold digit? at h
  split_ifs at h with hc
  have hle : c.toNat ≤ '9'.toNat := hc.2
  have hnine : '9'.toNat = 57 := rfl
  have hzero : '0'.toNat = 48 := rfl
  have := Option.some.inj h
  omega

theorem exists_of_mem_mapM {α β : Type} {f : α → Option β} {xs : List α} {ys : List β}
    (h : xs.mapM f = some ys) {y : β} (hy : y ∈ ys) : ∃ x ∈ xs, f x = some y := by
  induction xs generalizing ys with
  | nil =>
    obtain rfl := Option.some.inj h
    simp at hy
  | cons x xs ih =>
    rw [List.mapM_cons] at h
    obtain ⟨first,hfirst,h⟩ := Option.bind_eq_some_iff.mp h
    obtain ⟨rest,hrest,h⟩ := Option.bind_eq_some_iff.mp h
    obtain rfl := Option.some.inj h
    obtain rfl | hy := List.mem_cons.mp hy
    · exact ⟨x,List.mem_cons_self,hfirst⟩
    · obtain ⟨x',hx',hy'⟩ := ih hrest hy
      exact ⟨x',List.mem_cons_of_mem x hx',hy'⟩

theorem digits?_lt {text : List Char} {ds : List ℕ} (h : digits? text = some ds) :
    ∀ d ∈ ds, d < 10 := by
  intro d hd
  obtain ⟨c,-,hc⟩ := exists_of_mem_mapM h hd
  exact digit?_lt hc

theorem ofDigits_lt {ds : List ℕ} (h : ∀ d ∈ ds, d < 10) : ofDigits ds < 10^ds.length := by
  induction ds using List.reverseRecOn with
  | nil => simp [ofDigits]
  | append_singleton ds d ih =>
    have hd : d < 10 := h d (by simp)
    have hds := ih fun e he => h e (by simp [he])
    rw [ofDigits,List.foldl_append,List.length_append,List.length_singleton,pow_succ]
    change 10*ofDigits ds+d < _
    omega

theorem readable_of_digitGroups {text : List Char} {n : ℕ} (h : py.digitGroups text = some n) :
    py.Readable n := by
  unfold digitGroups at h
  split at h
  · cases h
  · rename_i groups hgroups
    dsimp only at h
    split_ifs at h with hlimit
    obtain rfl := Option.some.inj h
    have hdigits : ∀ d ∈ groups.flatten, d < 10 := by
      intro d hd
      obtain ⟨group,hgroup,hd⟩ := List.mem_flatten.mp hd
      obtain ⟨piece,-,hpiece⟩ := exists_of_mem_mapM hgroups hgroup
      split_ifs at hpiece
      exact digits?_lt hpiece d hd
    by_cases hzero : py.maxStrDigits = 0
    · exact .inl hzero
    · have hlength : groups.flatten.length ≤ py.maxStrDigits := by
        by_contra hlong
        exact hlimit ⟨hzero,by omega⟩
      exact .inr ((ofDigits_lt hdigits).trans_le (Nat.pow_le_pow_right (by decide) hlength))

theorem readable_of_int {text : List Char} {z : ℤ} (h : py.int text = some z) :
    py.Readable z.natAbs := by
  unfold int at h
  split at h <;> obtain ⟨n,hn,rfl⟩ := Option.map_eq_some_iff.mp h
  · rw [Int.natAbs_neg,Int.natAbs_natCast]
    exact readable_of_digitGroups hn
  all_goals
    rw [Int.natAbs_natCast]
    exact readable_of_digitGroups hn

theorem digitGroups_eq {n : ℕ} (h : py.Readable n) :
    py.digitGroups (Nat.toDigits 10 n) = some n := by
  have hdigits := @digits?_of_isDigit (Nat.toDigits 10 n)
    fun c hc => Nat.isDigit_of_mem_toDigits (by decide) (by decide) hc
  unfold digitGroups
  rw [split_eq_singleton Nat.underscore_not_in_toDigits]
  simp only [List.mapM_cons,List.mapM_nil,if_neg Nat.toDigits_ne_nil,hdigits]
  change (if _ then none else some (ofDigits (List.flatten [_]))) = some n
  rw [List.flatten_singleton,ofDigits_toDigits,if_neg]
  rintro ⟨hlimit,hlong⟩
  rw [List.length_map] at hlong
  have hshort := Nat.toDigits_length 10 n py.maxStrDigits (Nat.pos_of_ne_zero hlimit)
    (h.resolve_left hlimit)
  omega

theorem int_str {z : ℤ} (h : py.Readable z.natAbs) : py.int (str z) = some z := by
  have hdigits : ∀ n : ℕ, ∀ c ∈ Nat.toDigits 10 n, c.isDigit = true :=
    fun n c hc => Nat.isDigit_of_mem_toDigits (by decide) (by decide) hc
  have hascii : ∀ n : ℕ, (Nat.toDigits 10 n).map py.toAscii = Nat.toDigits 10 n := by
    refine fun n => (List.map_congr_left fun c hc => ?_).trans (List.map_id _)
    have hbounds := toNat_of_isDigit (hdigits n c hc)
    exact if_pos (by omega)
  cases z with
  | ofNat n =>
    unfold int
    rw [str,hascii,stripBy_eq_self fun c hc => isCSpace_of_isDigit (hdigits n c hc)]
    split
    · rename_i ds heq
      exact absurd (hdigits n '-' (heq ▸ List.mem_cons_self)) (by decide)
    · rename_i ds heq
      exact absurd (hdigits n '+' (heq ▸ List.mem_cons_self)) (by decide)
    · exact congrArg (Option.map fun n : ℕ => (n : ℤ)) (digitGroups_eq h)
  | negSucc n =>
    have hstrip : stripBy isCSpace ('-'::Nat.toDigits 10 (n+1)) = '-'::Nat.toDigits 10 (n+1) := by
      refine stripBy_eq_self (List.forall_mem_cons.mpr ⟨by decide,fun c hc => ?_⟩)
      exact isCSpace_of_isDigit (hdigits (n+1) c hc)
    have hminus : py.toAscii '-' = '-' := rfl
    unfold int
    rw [str,List.map_cons,hascii,hminus,hstrip]
    exact congrArg (Option.map fun n : ℕ => -(n : ℤ)) (digitGroups_eq h)

end Interpreter
end Python
end AsyncDataLoader
