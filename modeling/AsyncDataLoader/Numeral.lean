import Mathlib.Data.List.TakeWhile
import Mathlib.Data.Nat.Digits.Lemmas
import Mathlib.Data.UInt

/-!
# Numerals in bytes

Decimal numerals of integers, and the numerals of JSON with a fraction and an exponent.
-/

namespace AsyncDataLoader
namespace Numeral

def digit (d : ℕ) : UInt8 := (48+d).toUInt8

def isDigit (b : UInt8) : Bool := 48 ≤ b.toNat && b.toNat ≤ 57

def value (digits : List UInt8) : ℕ := digits.foldl (fun n b => 10*n+(b.toNat-48)) 0

/-- What a stream prints for an unsigned integer. -/
def decimal (n : ℕ) : List UInt8 :=
  if n = 0 then [digit 0] else ((Nat.digits 10 n).map digit).reverse

def decimalInt (z : ℤ) : List UInt8 :=
  if z < 0 then 45::decimal z.natAbs else decimal z.natAbs

theorem digit_toNat {d : ℕ} (h : d < 10) : (digit d).toNat = 48+d := by
  rw [digit,Nat.toUInt8,UInt8.toNat_ofNat']
  omega

theorem isDigit_digit {d : ℕ} (h : d < 10) : isDigit (digit d) = true := by
  rw [isDigit,digit_toNat h]
  simp only [Bool.and_eq_true,decide_eq_true_eq]
  omega

theorem decimal_ne_nil (n : ℕ) : decimal n ≠ [] := by
  unfold decimal
  split
  · simp
  · rename_i hne
    simpa [Nat.digits_ne_nil_iff_ne_zero] using hne

theorem isDigit_of_mem_decimal {n : ℕ} {b : UInt8} (h : b ∈ decimal n) : isDigit b = true := by
  unfold decimal at h
  split at h
  · obtain rfl := List.mem_singleton.mp h
    exact isDigit_digit (by decide)
  · obtain ⟨d,hd,rfl⟩ := List.mem_map.mp (List.mem_reverse.mp h)
    exact isDigit_digit (Nat.digits_lt_base (by decide) hd)

theorem value_append (ds : List UInt8) (b : UInt8) : value (ds++[b]) = 10*value ds+(b.toNat-48) := by
  simp [value]

theorem value_digits {ds : List ℕ} (h : ∀ d ∈ ds, d < 10) :
    value (ds.map digit).reverse = Nat.ofDigits 10 ds := by
  induction ds with
  | nil => rfl
  | cons d ds ih =>
    have hd := digit_toNat (h d List.mem_cons_self)
    have hds := ih fun e he => h e (List.mem_cons_of_mem _ he)
    rw [List.map_cons,List.reverse_cons,value_append,hds,hd,Nat.ofDigits_cons]
    simp
    omega

@[simp] theorem value_decimal (n : ℕ) : value (decimal n) = n := by
  unfold decimal
  split
  · rename_i hzero
    rw [hzero]
    rfl
  · rw [value_digits fun d hd => Nat.digits_lt_base (by decide) hd,Nat.ofDigits_digits]

theorem decimal_head {n : ℕ} (h : n ≠ 0) : (decimal n).head? ≠ some (digit 0) := by
  unfold decimal
  rw [if_neg h,List.head?_reverse,List.getLast?_map]
  intro heq
  obtain ⟨d,hd,hzero⟩ := Option.map_eq_some_iff.mp heq
  have hlt : d < 10 := Nat.digits_lt_base (by decide) (List.mem_of_getLast? hd)
  have hvalue := congrArg UInt8.toNat hzero
  rw [digit_toNat hlt,digit_toNat (by decide)] at hvalue
  have hlast := Nat.getLast_digit_ne_zero 10 h
  rw [List.getLast?_eq_some_getLast (Nat.digits_ne_nil_iff_ne_zero.mpr h)] at hd
  exact hlast (by rw [Option.some.inj hd]; omega)

/-- The digits of a fraction, and what is after it. -/
def fraction : List UInt8 → Option (List UInt8 × List UInt8)
  | 46::text =>
    if text.takeWhile isDigit = [] then none
    else some (text.takeWhile isDigit,text.dropWhile isDigit)
  | text => some ([],text)

def unsignedExponent (text : List UInt8) : Option ℤ :=
  if text ≠ [] ∧ text.all isDigit then some (value text) else none

def exponent : List UInt8 → Option ℤ
  | [] => some 0
  | b::text =>
    if b = 69 ∨ b = 101 then
      match text with
      | 43::digits => unsignedExponent digits
      | 45::digits => (unsignedExponent digits).map fun e => -e
      | _ => unsignedExponent text
    else none

/-- The whole part has no zero in front of other digits. -/
def wellFormedWhole (whole : List UInt8) : Bool :=
  whole ≠ [] && (whole.length = 1 || whole.head? ≠ some (digit 0))

def parseUnsigned (text : List UInt8) : Option (ℤ × ℤ) :=
  let whole := text.takeWhile isDigit
  if wellFormedWhole whole then
    (fraction (text.dropWhile isDigit)).bind fun (digits,rest) =>
      (exponent rest).map fun e => ((value (whole++digits) : ℤ),e-digits.length)
  else none

def parse : List UInt8 → Option (ℤ × ℤ)
  | 45::text => (parseUnsigned text).map fun r => (-r.1,r.2)
  | text => parseUnsigned text

def isPart (b : UInt8) : Bool :=
  isDigit b || b == 43 || b == 45 || b == 46 || b == 69 || b == 101

def isFirst (b : UInt8) : Bool := isDigit b || b == 45

theorem isPart_of_isDigit {b : UInt8} (h : isDigit b = true) : isPart b = true := by
  simp [isPart,h]

theorem decimal_takeWhile (n : ℕ) : (decimal n).takeWhile isDigit = decimal n :=
  List.takeWhile_eq_self_iff.mpr fun _ hb => isDigit_of_mem_decimal hb

theorem decimal_dropWhile (n : ℕ) : (decimal n).dropWhile isDigit = [] :=
  List.dropWhile_eq_nil_iff.mpr fun _ hb => isDigit_of_mem_decimal hb

theorem wellFormedWhole_decimal (n : ℕ) : wellFormedWhole (decimal n) = true := by
  simp only [wellFormedWhole,Bool.and_eq_true,decide_eq_true_eq,Bool.or_eq_true]
  refine ⟨decimal_ne_nil n,?_⟩
  by_cases hzero : n = 0
  · exact .inl (by rw [hzero]; rfl)
  · exact .inr (decimal_head hzero)

theorem parseUnsigned_decimal (n : ℕ) : parseUnsigned (decimal n) = some ((n : ℤ),0) := by
  simp only [parseUnsigned,decimal_takeWhile,decimal_dropWhile,wellFormedWhole_decimal,if_true,
    fraction,Option.bind_some,exponent,Option.map_some,List.append_nil,value_decimal]
  rfl

theorem head_decimal (n : ℕ) : ∃ b bs, decimal n = b::bs ∧ isDigit b = true := by
  obtain ⟨b,bs,hcons⟩ := List.exists_cons_of_ne_nil (decimal_ne_nil n)
  exact ⟨b,bs,hcons,isDigit_of_mem_decimal (by rw [hcons]; exact List.mem_cons_self)⟩

theorem parse_minus {text : List UInt8} {r : ℤ × ℤ} (h : parseUnsigned text = some r) :
    parse (45::text) = some (-r.1,r.2) := by
  rw [parse,h,Option.map_some]

theorem parse_decimal_append (n : ℕ) (rest : List UInt8) :
    parse (decimal n++rest) = parseUnsigned (decimal n++rest) := by
  obtain ⟨b,bs,hcons,hdigit⟩ := head_decimal n
  rw [hcons,List.cons_append]
  unfold parse
  split
  · rename_i heq
    obtain ⟨rfl,-⟩ := List.cons.inj heq
    cases hdigit
  · rfl

theorem parse_decimal (n : ℕ) : parse (decimal n) = some ((n : ℤ),0) := by
  have happend := parse_decimal_append n []
  rw [List.append_nil] at happend
  rw [happend,parseUnsigned_decimal]

theorem parse_decimalInt (z : ℤ) : parse (decimalInt z) = some (z,0) := by
  unfold decimalInt
  split
  · rename_i hneg
    have hvalue : -(z.natAbs : ℤ) = z := by omega
    rw [parse_minus (parseUnsigned_decimal _),hvalue]
  · have hvalue : (z.natAbs : ℤ) = z := by omega
    rw [parse_decimal,hvalue]

theorem parseUnsigned_fraction (n : ℕ) {digits : List UInt8} (hne : digits ≠ [])
    (hdigits : ∀ b ∈ digits, isDigit b = true) :
    parseUnsigned (decimal n++46::digits) =
      some ((value (decimal n++digits) : ℤ),-(digits.length : ℤ)) := by
  have hwhole : ∀ b ∈ decimal n, isDigit b = true := fun _ => isDigit_of_mem_decimal
  have htake : (decimal n++46::digits).takeWhile isDigit = decimal n := by
    rw [List.takeWhile_append_of_pos hwhole]
    exact List.append_nil _
  have hdrop : (decimal n++46::digits).dropWhile isDigit = 46::digits := by
    rw [List.dropWhile_append_of_pos hwhole]
    rfl
  have hfraction : fraction (46::digits) = some (digits,[]) := by
    simp only [fraction]
    rw [List.takeWhile_eq_self_iff.mpr hdigits,List.dropWhile_eq_nil_iff.mpr hdigits,if_neg hne]
  simp [parseUnsigned,htake,hdrop,wellFormedWhole_decimal,hfraction,exponent]

theorem unsignedExponent_isPart {text : List UInt8} {e : ℤ} (h : unsignedExponent text = some e) :
    ∀ b ∈ text, isPart b = true := by
  unfold unsignedExponent at h
  split at h
  · rename_i hdigits
    exact fun b hb => isPart_of_isDigit (List.all_eq_true.mp hdigits.2 b hb)
  · cases h

theorem exponent_isPart {text : List UInt8} {e : ℤ} (h : exponent text = some e) :
    ∀ b ∈ text, isPart b = true := by
  cases text with
  | nil => simp
  | cons b text =>
    simp only [exponent] at h
    split at h
    · rename_i hletter
      have hb : isPart b = true := by
        obtain rfl | rfl := hletter <;> rfl
      have htext : ∀ c ∈ text, isPart c = true := by
        split at h
        · exact List.forall_mem_cons.mpr ⟨rfl,unsignedExponent_isPart h⟩
        · obtain ⟨m,hm,-⟩ := Option.map_eq_some_iff.mp h
          exact List.forall_mem_cons.mpr ⟨rfl,unsignedExponent_isPart hm⟩
        · exact unsignedExponent_isPart h
      exact List.forall_mem_cons.mpr ⟨hb,htext⟩
    · cases h

theorem fraction_isPart {text digits rest : List UInt8} (h : fraction text = some (digits,rest))
    (hrest : ∀ b ∈ rest, isPart b = true) : ∀ b ∈ text, isPart b = true := by
  unfold fraction at h
  split at h
  · rename_i after
    split at h
    · cases h
    · obtain ⟨rfl,rfl⟩ := Prod.mk.inj (Option.some.inj h)
      refine List.forall_mem_cons.mpr ⟨rfl,fun b hb => ?_⟩
      rw [← List.takeWhile_append_dropWhile (p:=isDigit) (l:=after)] at hb
      obtain hb | hb := List.mem_append.mp hb
      · exact isPart_of_isDigit (List.mem_takeWhile_imp hb)
      · exact hrest b hb
  · obtain ⟨rfl,rfl⟩ := Prod.mk.inj (Option.some.inj h)
    exact hrest

theorem parseUnsigned_isPart {text : List UInt8} {r : ℤ × ℤ} (h : parseUnsigned text = some r) :
    (∃ b bs, text = b::bs ∧ isDigit b = true) ∧ ∀ b ∈ text, isPart b = true := by
  simp only [parseUnsigned] at h
  split at h
  · rename_i hwhole
    have hsplit := List.takeWhile_append_dropWhile (p:=isDigit) (l:=text)
    obtain ⟨⟨digits,rest⟩,hfraction,hexponent⟩ := Option.bind_eq_some_iff.mp h
    obtain ⟨e,he,-⟩ := Option.map_eq_some_iff.mp hexponent
    have hrest := fraction_isPart hfraction (exponent_isPart he)
    refine ⟨?_,fun b hb => ?_⟩
    · have hne : text.takeWhile isDigit ≠ [] := by
        simp only [wellFormedWhole,Bool.and_eq_true,decide_eq_true_eq] at hwhole
        exact hwhole.1
      obtain ⟨b,bs,hcons⟩ := List.exists_cons_of_ne_nil hne
      have hdigit : isDigit b = true :=
        List.mem_takeWhile_imp (by rw [hcons]; exact List.mem_cons_self)
      exact ⟨b,bs++text.dropWhile isDigit,by rw [← List.cons_append,← hcons,hsplit],hdigit⟩
    · rw [← hsplit] at hb
      obtain hb | hb := List.mem_append.mp hb
      · exact isPart_of_isDigit (List.mem_takeWhile_imp hb)
      · exact hrest b hb
  · cases h

theorem parse_isPart {text : List UInt8} {r : ℤ × ℤ} (h : parse text = some r) :
    (∃ b bs, text = b::bs ∧ isFirst b = true) ∧ ∀ b ∈ text, isPart b = true := by
  unfold parse at h
  split at h
  · rename_i digits
    obtain ⟨r,hr,-⟩ := Option.map_eq_some_iff.mp h
    exact ⟨⟨45,digits,rfl,rfl⟩,List.forall_mem_cons.mpr ⟨rfl,(parseUnsigned_isPart hr).2⟩⟩
  · obtain ⟨⟨b,bs,htext,hdigit⟩,hall⟩ := parseUnsigned_isPart h
    exact ⟨⟨b,bs,htext,by simp [isFirst,hdigit]⟩,hall⟩

end Numeral
end AsyncDataLoader
