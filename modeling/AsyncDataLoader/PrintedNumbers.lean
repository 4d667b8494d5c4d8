import AsyncDataLoader.Numeral
import AsyncDataLoader.PythonNumbers
import AsyncDataLoader.Utf8

/-!
# The numbers that a stream prints, read in Python

`int` reads what a stream prints for an integer as that integer, and `float` reads every numeral.
-/

namespace AsyncDataLoader
namespace Python

open Numeral Utf8

theorem toNat_character {b : UInt8} (h : b.toNat < 128) : (character b).toNat = b.toNat := by
  have hall : ∀ n : Fin 128, (Char.ofNat n.val).toNat = n.val := by decide
  exact hall ⟨b.toNat,h⟩

theorem character_eq {b : UInt8} {c : Char} (h : b.toNat < 128) :
    character b = c ↔ b.toNat = c.toNat := by
  rw [← toNat_character h]
  exact ⟨fun heq => heq ▸ rfl,Char.toNat_inj.mp⟩

theorem isSome_digit? {b : UInt8} (h : b.toNat < 128) :
    (digit? (character b)).isSome = isDigit b := by
  have hall : ∀ n : Fin 128, (digit? (Char.ofNat n.val)).isSome = (48 ≤ n.val && n.val ≤ 57) := by
    decide +kernel
  exact hall ⟨b.toNat,h⟩

theorem toNat_lt_of_isPart {b : UInt8} (h : isPart b = true) : b.toNat < 128 := by
  simp only [isPart,isDigit,Bool.or_eq_true,Bool.and_eq_true,decide_eq_true_eq,beq_iff_eq] at h
  obtain ((((h | rfl) | rfl) | rfl) | rfl) | rfl := h
  · omega
  all_goals decide

theorem decimal_of_lt {n : ℕ} (h : n < 10) : decimal n = [digit n] := by
  unfold decimal
  split_ifs with hzero
  · rw [hzero]
  · rw [Nat.digits_of_lt 10 n hzero h]
    rfl

theorem decimal_of_le {n : ℕ} (h : 10 ≤ n) : decimal n = decimal (n/10)++[digit (n%10)] := by
  have hpos : n/10 ≠ 0 := by omega
  unfold decimal
  rw [if_neg hpos,if_neg (by omega),Nat.digits_def' (by decide) (by omega),List.map_cons,
    List.reverse_cons]

theorem character_digit {d : ℕ} (h : d < 10) : character (digit d) = d.digitChar := by
  have hall : ∀ d : Fin 10, character (digit d.val) = d.val.digitChar := by decide
  exact hall ⟨d,h⟩

/-- A stream and `str` write the same digits. -/
theorem character_decimal (n : ℕ) : (decimal n).map character = str n := by
  change _ = Nat.toDigits 10 n
  induction n using Nat.strong_induction_on with
  | _ n ih =>
    by_cases hlt : n < 10
    · rw [decimal_of_lt hlt,Nat.toDigits_of_lt_base hlt,List.map_singleton,character_digit hlt]
    · have hdigit : n%10 < 10 := Nat.mod_lt n (by decide)
      rw [decimal_of_le (not_lt.mp hlt),Nat.toDigits_of_base_le (by decide) (not_lt.mp hlt),
        List.map_append,ih (n/10) (by omega),List.map_singleton,character_digit hdigit]

theorem character_decimalInt (z : ℤ) : (decimalInt z).map character = str z := by
  cases z with
  | ofNat n => exact character_decimal n
  | negSucc n =>
    have hneg : decimalInt (Int.negSucc n) = 45::decimal (n+1) := if_pos (Int.negSucc_lt_zero n)
    rw [hneg,List.map_cons,character_decimal]
    rfl

section

open Interpreter (exponent? unsigned?)
variable {text : List UInt8}

abbrev Parts (text : List UInt8) : Prop := ∀ b ∈ text, isPart b = true

theorem takeWhile_digit? (h : Parts text) :
    (text.map character).takeWhile (fun c => (digit? c).isSome) =
      (text.takeWhile isDigit).map character := by
  induction text with
  | nil => rfl
  | cons b text ih =>
    obtain ⟨hb,htext⟩ := List.forall_mem_cons.mp h
    simp only [List.map_cons,List.takeWhile_cons,isSome_digit? (toNat_lt_of_isPart hb),ih htext]
    cases isDigit b <;> rfl

theorem dropWhile_digit? (h : Parts text) :
    (text.map character).dropWhile (fun c => (digit? c).isSome) =
      (text.dropWhile isDigit).map character := by
  induction text with
  | nil => rfl
  | cons b text ih =>
    obtain ⟨hb,htext⟩ := List.forall_mem_cons.mp h
    simp only [List.map_cons,List.dropWhile_cons,isSome_digit? (toNat_lt_of_isPart hb),ih htext]
    cases isDigit b <;> rfl

theorem digits?_isSome (h : ∀ b ∈ text, isDigit b = true) :
    (digits? (text.map character)).isSome = true := by
  induction text with
  | nil => rfl
  | cons b text ih =>
    obtain ⟨hb,htext⟩ := List.forall_mem_cons.mp h
    have hpart := toNat_lt_of_isPart (isPart_of_isDigit hb)
    obtain ⟨d,hd⟩ := Option.isSome_iff_exists.mp ((isSome_digit? hpart).trans hb)
    obtain ⟨ds,hds⟩ := Option.isSome_iff_exists.mp (ih htext)
    unfold digits? at hds ⊢
    rw [List.map_cons,List.mapM_cons,hd,hds]
    rfl

theorem digit?_of_digits? {c : Char} {cs : List Char} (h : (digits? (c::cs)).isSome = true) :
    (digit? c).isSome = true := by
  unfold digits? at h
  rw [List.mapM_cons] at h
  cases hc : digit? c with
  | none =>
    rw [hc] at h
    cases h
  | some d => rfl

theorem exponent?_isSome {c : Char} (hc : c = 'e' ∨ c = 'E') {ds : List Char} (hne : ds ≠ [])
    (hds : (digits? ds).isSome = true) : (exponent? (c::ds)).isSome = true ∧
      (exponent? (c:: '-'::ds)).isSome = true ∧ (exponent? (c:: '+'::ds)).isSome = true := by
  refine ⟨?_,?_,?_⟩
  · simp only [exponent?,if_pos hc]
    split
    · exact absurd (digit?_of_digits? hds) (by decide)
    · exact absurd (digit?_of_digits? hds) (by decide)
    · rw [if_neg hne,Option.isSome_map,hds]
  · simp only [exponent?,if_pos hc,if_neg hne,Option.isSome_map,hds]
  · simp only [exponent?,if_pos hc,if_neg hne,Option.isSome_map,hds]

theorem unsignedExponent_digits {e : ℤ} (h : unsignedExponent text = some e) :
    text.map character ≠ [] ∧ (digits? (text.map character)).isSome = true := by
  unfold unsignedExponent at h
  split_ifs at h with hdigits
  exact ⟨by simpa using hdigits.1,digits?_isSome (List.all_eq_true.mp hdigits.2)⟩

theorem exponent_isSome {e : ℤ} (h : Numeral.exponent text = some e) :
    (exponent? (text.map character)).isSome = true := by
  cases text with
  | nil => rfl
  | cons b text =>
    simp only [Numeral.exponent] at h
    split_ifs at h with hletter
    have hc : character b = 'e' ∨ character b = 'E' := by
      obtain rfl | rfl := hletter
      · exact .inr rfl
      · exact .inl rfl
    split at h
    · obtain ⟨hne,hds⟩ := unsignedExponent_digits h
      exact (exponent?_isSome hc hne hds).2.2
    · obtain ⟨m,hm,-⟩ := Option.map_eq_some_iff.mp h
      obtain ⟨hne,hds⟩ := unsignedExponent_digits hm
      exact (exponent?_isSome hc hne hds).2.1
    · obtain ⟨hne,hds⟩ := unsignedExponent_digits h
      exact (exponent?_isSome hc hne hds).1

theorem unsigned_isSome {r : ℤ × ℤ} (h : parseUnsigned text = some r) :
    (unsigned? (text.map character)).isSome = true := by
  have hparts : Parts text := (parseUnsigned_isPart h).2
  have hrest : Parts (text.dropWhile isDigit) := fun b hb =>
    hparts b ((List.dropWhile_suffix _).subset hb)
  simp only [parseUnsigned] at h
  split_ifs at h with hwhole
  simp only [wellFormedWhole,Bool.and_eq_true,decide_eq_true_eq] at hwhole
  obtain ⟨⟨digits,rest⟩,hfraction,hexponent⟩ := Option.bind_eq_some_iff.mp h
  obtain ⟨e,he,-⟩ := Option.map_eq_some_iff.mp hexponent
  have hne : (text.takeWhile isDigit).map character ≠ [] := by simpa using hwhole.1
  have hdigits : ∀ bs : List UInt8, ∀ b ∈ bs.takeWhile isDigit, isDigit b = true :=
    fun _ _ hb => List.mem_takeWhile_imp hb
  obtain ⟨e',he'⟩ := Option.isSome_iff_exists.mp (exponent_isSome he)
  unfold unsigned?
  simp only [takeWhile_digit? hparts,dropWhile_digit? hparts]
  unfold Numeral.fraction at hfraction
  split at hfraction
  · rename_i after hafter
    split_ifs at hfraction with hempty
    obtain ⟨rfl,rfl⟩ := Prod.mk.inj (Option.some.inj hfraction)
    have hparts' : Parts after := fun b hb => hrest b (by rw [hafter]; simp [hb])
    have hpoint : (text.dropWhile isDigit).map character = '.'::after.map character := by
      rw [hafter]
      rfl
    rw [hpoint]
    simp only [takeWhile_digit? hparts',dropWhile_digit? hparts',he',← List.map_append]
    obtain ⟨ds,hds⟩ := Option.isSome_iff_exists.mp (@digits?_isSome
      (text.takeWhile isDigit++after.takeWhile isDigit)
      (List.forall_mem_append.mpr ⟨hdigits text,hdigits after⟩))
    rw [hds,if_neg fun hnone => hne hnone.1]
    rfl
  · rename_i hpoint
    obtain ⟨rfl,rfl⟩ := Prod.mk.inj (Option.some.inj hfraction)
    obtain ⟨ds,hds⟩ := Option.isSome_iff_exists.mp (@digits?_isSome _ (hdigits text))
    have hother : ∀ cs, (text.dropWhile isDigit).map character ≠ '.'::cs := by
      intro cs heq
      obtain ⟨b,after,hafter,hb,-⟩ := List.map_eq_cons_iff.mp heq
      have hlt := toNat_lt_of_isPart (hrest b (by rw [hafter]; exact List.mem_cons_self))
      have hvalue : b.toNat = (46 : UInt8).toNat := (character_eq hlt).mp hb
      exact hpoint after (by rw [hafter,UInt8.toNat_inj.mp hvalue])
    split
    · rename_i cs heq
      exact absurd heq (hother cs)
    · rw [if_neg fun hnone => hne hnone.1,List.append_nil,hds,he']
      rfl

theorem removeUnderscores_eq_self {text : List Char} (h : '_' ∉ text) {previous : Option Char}
    (hprevious : previous ≠ some '_') :
    Interpreter.removeUnderscores previous text = some text := by
  induction text generalizing previous with
  | nil => exact if_neg hprevious
  | cons c cs ih =>
    rw [List.mem_cons,not_or] at h
    obtain ⟨hc,hcs⟩ := h
    have hne : some c ≠ some '_' := fun heq => hc (Option.some.inj heq).symm
    have hrest := ih hcs hne
    unfold Interpreter.removeUnderscores
    rw [if_neg (Ne.symm hc),if_neg fun heq => hprevious heq.1,hrest]
    rfl

theorem character_part {b : UInt8} (h : isPart b = true) : isCSpace (character b) = false ∧
    character b ≠ '_' ∧ (character b).toNat < 127 := by
  have hall : ∀ n : Fin 128, isPart (UInt8.ofNat n.val) = true →
      isCSpace (Char.ofNat n.val) = false ∧ Char.ofNat n.val ≠ '_' ∧
        (Char.ofNat n.val).toNat < 127 := by decide +kernel
  exact hall ⟨b.toNat,toNat_lt_of_isPart h⟩ (by rwa [UInt8.ofNat_toNat])

theorem float_isSome (py : Interpreter) {r : ℤ × ℤ} (h : Numeral.parse text = some r) :
    (py.float (text.map character)).isSome = true := by
  have hparts : Parts text := (parse_isPart h).2
  have hchars : ∀ c ∈ text.map character, isCSpace c = false ∧ c ≠ '_' ∧ c.toNat < 127 := by
    intro c hc
    obtain ⟨b,hb,rfl⟩ := List.mem_map.mp hc
    exact character_part (hparts b hb)
  have hascii : (text.map character).map py.toAscii = text.map character :=
    (List.map_congr_left fun c hc => if_pos (hchars c hc).2.2).trans (List.map_id _)
  have hstrip := stripBy_eq_self fun c hc => (hchars c hc).1
  have hkept : Interpreter.removeUnderscores none (text.map character) = _ :=
    removeUnderscores_eq_self (fun hmem => (hchars '_' hmem).2.1 rfl) (by simp)
  have hbody : ∀ (sign : ℚ) (body : List Char), (unsigned? body).isSome = true →
      (if body.map Char.toLower = "inf".toList ∨ body.map Char.toLower = "infinity".toList then
        some PyFloat.infinite
      else if body.map Char.toLower = "nan".toList then some .nan
      else (unsigned? body).map fun q =>
        if py.overflows q then .infinite else .finite (sign*py.double q)).isSome = true := by
    intro sign body hunsigned
    split_ifs
    · rfl
    · rfl
    · rw [Option.isSome_map,hunsigned]
  unfold Interpreter.float
  rw [hascii,hstrip,hkept]
  unfold Numeral.parse at h
  split at h
  · obtain ⟨r,hr,-⟩ := Option.map_eq_some_iff.mp h
    exact hbody _ _ (unsigned_isSome hr)
  · have hunsigned := unsigned_isSome h
    obtain ⟨⟨b,bs,rfl,hdigit⟩,-⟩ := parseUnsigned_isPart h
    dsimp only
    split
    · rename_i cs heq
      have hfirst := (List.cons.inj heq).1
      exact absurd (isSome_digit? (toNat_lt_of_isPart (isPart_of_isDigit hdigit)))
        (by rw [hfirst,hdigit]; decide)
    · rename_i cs heq
      have hfirst := (List.cons.inj heq).1
      exact absurd (isSome_digit? (toNat_lt_of_isPart (isPart_of_isDigit hdigit)))
        (by rw [hfirst,hdigit]; decide)
    · exact hbody _ _ hunsigned

end

end Python
end AsyncDataLoader
