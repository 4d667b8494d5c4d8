import AsyncDataLoader.PythonNumbers
import Mathlib.Data.List.TakeWhile

/-!
# Floating-point numbers in Python, as text

`float` accepts no text with white space in it, only around it.
-/

namespace AsyncDataLoader
namespace Python
namespace Interpreter

variable {py : Interpreter}

abbrev Spaceless (text : List Char) : Prop := ∀ c ∈ text, isSpace c = false

theorem isSpace_of_digit? {c : Char} (h : (digit? c).isSome = true) : isSpace c = false := by
  unfold digit? at h
  split_ifs at h with hc
  · refine isSpace_of_isDigit ?_
    simp only [Char.isDigit,Bool.and_eq_true,decide_eq_true_eq]
    exact hc
  · cases h

theorem spaceless_takeWhile (text : List Char) :
    Spaceless (text.takeWhile fun c => (digit? c).isSome) := by
  intro c hc
  exact isSpace_of_digit? (List.mem_takeWhile_imp (p := fun c => (digit? c).isSome) hc)

theorem spaceless_of_digits? {text : List Char} {ds : List ℕ} (h : digits? text = some ds) :
    Spaceless text := by
  induction text generalizing ds with
  | nil => exact fun c hc => absurd hc List.not_mem_nil
  | cons c cs ih =>
    unfold digits? at h
    rw [List.mapM_cons] at h
    obtain ⟨d,hd,h⟩ := Option.bind_eq_some_iff.mp h
    obtain ⟨rest,hrest,-⟩ := Option.bind_eq_some_iff.mp h
    exact List.forall_mem_cons.mpr ⟨isSpace_of_digit? (by rw [hd]; rfl),ih hrest⟩

theorem spaceless_of_exponent? {text : List Char} {e : ℤ} (h : exponent? text = some e) :
    Spaceless text := by
  cases text with
  | nil => exact fun c hc => absurd hc List.not_mem_nil
  | cons c cs =>
    unfold exponent? at h
    dsimp only at h
    have hc : c = 'e' ∨ c = 'E' := by
      by_contra hc
      rw [if_neg hc] at h
      cases h
    rw [if_pos hc] at h
    have hfirst : isSpace c = false := by
      obtain rfl | rfl := hc <;> decide
    have hdigits : ∀ (sign : ℤ) (ds : List Char),
        (if ds = [] then none else (digits? ds).map fun ds => sign*(ofDigits ds : ℤ)) = some e →
        Spaceless ds := by
      intro sign ds hds
      split_ifs at hds
      obtain ⟨digits,hsome,-⟩ := Option.map_eq_some_iff.mp hds
      exact spaceless_of_digits? hsome
    refine List.forall_mem_cons.mpr ⟨hfirst,?_⟩
    split at h
    · exact List.forall_mem_cons.mpr ⟨by decide,hdigits _ _ h⟩
    · exact List.forall_mem_cons.mpr ⟨by decide,hdigits _ _ h⟩
    · exact hdigits _ _ h

theorem spaceless_of_unsigned? {text : List Char} {q : ℚ} (h : unsigned? text = some q) :
    Spaceless text := by
  have hrest : ∀ (cs : List Char) (e : ℤ),
      exponent? (cs.dropWhile fun c => (digit? c).isSome) = some e → Spaceless cs := by
    intro cs e he
    rw [← List.takeWhile_append_dropWhile (p := fun c => (digit? c).isSome) (l := cs)]
    exact List.forall_mem_append.mpr ⟨spaceless_takeWhile cs,spaceless_of_exponent? he⟩
  unfold unsigned? at h
  dsimp only at h
  split at h
  · rename_i cs hdot
    split_ifs at h
    split at h
    · rename_i ds e hds he
      rw [← List.takeWhile_append_dropWhile (p := fun c => (digit? c).isSome) (l := text),hdot]
      refine List.forall_mem_append.mpr ⟨spaceless_takeWhile text,?_⟩
      exact List.forall_mem_cons.mpr ⟨by decide,hrest cs e he⟩
    · cases h
  · split_ifs at h
    split at h
    · rename_i ds e hds he
      exact hrest text e he
    · cases h

theorem spaceless_of_removeUnderscores {previous : Option Char} {text kept : List Char}
    (h : removeUnderscores previous text = some kept) (hkept : Spaceless kept) :
    Spaceless text := by
  induction text generalizing previous kept with
  | nil => exact fun c hc => absurd hc List.not_mem_nil
  | cons c cs ih =>
    unfold removeUnderscores at h
    split_ifs at h with hunderscore
    · exact List.forall_mem_cons.mpr ⟨by rw [hunderscore]; decide,ih h hkept⟩
    · obtain ⟨rest,hrest,rfl⟩ := Option.map_eq_some_iff.mp h
      obtain ⟨hc,hcs⟩ := List.forall_mem_cons.mp hkept
      exact List.forall_mem_cons.mpr ⟨hc,ih hrest hcs⟩

theorem toLower_of_isSpace {c : Char} (h : isSpace c = true) : c.toLower = c := by
  simp only [isSpace,Bool.or_eq_true,Bool.and_eq_true,decide_eq_true_eq] at h
  unfold Char.toLower
  refine dif_neg fun hupper => ?_
  have hlow : 65 ≤ c.toNat := hupper.1
  have hhigh : c.toNat ≤ 90 := hupper.2
  omega

theorem spaceless_of_word {text word : List Char} (h : text.map Char.toLower = word)
    (hword : word.all (!isSpace ·) = true) : Spaceless text := by
  intro c hc
  by_contra hspace
  have htrue : isSpace c = true := by simpa using hspace
  have hmem : c.toLower ∈ word := h ▸ List.mem_map_of_mem hc
  rw [toLower_of_isSpace htrue] at hmem
  have hnone := List.all_eq_true.mp hword c hmem
  rw [htrue] at hnone
  cases hnone

/-- What stands between the spaces around a number has no spaces. -/
theorem spaceless_of_float {text : List Char} {x : PyFloat} (h : py.float text = some x) :
    Spaceless (stripBy isCSpace (text.map py.toAscii)) := by
  unfold float at h
  split at h
  · cases h
  · rename_i kept hkept
    refine spaceless_of_removeUnderscores hkept ?_
    have hbody : ∀ (sign : ℚ) (body : List Char),
        (if body.map Char.toLower = "inf".toList ∨ body.map Char.toLower = "infinity".toList then
          some PyFloat.infinite
        else if body.map Char.toLower = "nan".toList then some .nan
        else (unsigned? body).map fun q =>
          if py.overflows q then .infinite else .finite (sign*py.double q)) = some x →
        Spaceless body := by
      intro sign body hb
      split_ifs at hb with hinf hnan
      · obtain hinf | hinf := hinf
        · exact spaceless_of_word hinf (by decide)
        · exact spaceless_of_word hinf (by decide)
      · exact spaceless_of_word hnan (by decide)
      · obtain ⟨q,hq,-⟩ := Option.map_eq_some_iff.mp hb
        exact spaceless_of_unsigned? hq
    dsimp only at h
    split at h
    · exact List.forall_mem_cons.mpr ⟨by decide,hbody _ _ h⟩
    · exact List.forall_mem_cons.mpr ⟨by decide,hbody _ _ h⟩
    · exact hbody _ _ h

theorem toNat_digitChar (d : ℕ) : (Nat.digitChar d).toNat < 127 := by
  by_cases hd : d < 16
  · have hall : ∀ n : Fin 16, (Nat.digitChar n.val).toNat < 127 := by decide
    exact hall ⟨d,hd⟩
  · obtain ⟨n,rfl⟩ := Nat.exists_eq_add_of_le' (not_lt.mp hd)
    have hstar : Nat.digitChar (n+16) = '*' := rfl
    rw [hstar]
    decide

theorem toNat_toAscii (c : Char) : (py.toAscii c).toNat < 127 := by
  unfold toAscii
  split_ifs with hascii
  · exact hascii
  · decide
  · split
    · exact toNat_digitChar _
    · decide

theorem mem_of_mem_stripBy {space : Char → Bool} {text : List Char} {c : Char}
    (h : c ∈ stripBy space text) : c ∈ text := by
  unfold stripBy at h
  have hreverse := (List.dropWhile_suffix _).subset (List.mem_reverse.mp h)
  exact (List.dropWhile_suffix _).subset (List.mem_reverse.mp hreverse)

theorem isCSpace_of_isSpace {c : Char} (h : isSpace c = false) : isCSpace c = false := by
  simp only [isSpace,isCSpace,Bool.or_eq_false_iff,Bool.and_eq_false_iff,
    decide_eq_false_iff_not] at h ⊢
  refine ⟨?_,by omega⟩
  rintro rfl
  revert h
  decide

theorem float_trim {text : List Char} {x : PyFloat} (h : py.float text = some x) :
    py.float (strip (stripBy isCSpace (text.map py.toAscii))) = some x := by
  have hspaceless := spaceless_of_float h
  have hascii : (stripBy isCSpace (text.map py.toAscii)).map py.toAscii =
      stripBy isCSpace (text.map py.toAscii) := by
    refine (List.map_congr_left fun c hc => ?_).trans (List.map_id _)
    obtain ⟨original,-,rfl⟩ := List.mem_map.mp (mem_of_mem_stripBy hc)
    exact if_pos (toNat_toAscii original)
  have hcspace : ∀ c ∈ stripBy isCSpace (text.map py.toAscii), isCSpace c = false :=
    fun c hc => isCSpace_of_isSpace (hspaceless c hc)
  rw [strip,stripBy_eq_self hspaceless,float,hascii,stripBy_eq_self hcspace]
  exact h

end Interpreter
end Python
end AsyncDataLoader
