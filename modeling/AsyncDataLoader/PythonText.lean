import Mathlib.Data.Rat.Defs
import Mathlib.Algebra.Order.Ring.Rat
import Mathlib.Data.Nat.Digits.Defs
import Mathlib.Tactic.Positivity

/-!
# Text and numbers in Python

The methods of `str` and the constructors `int` and `float` on lists of code points. What depends on
the interpreter is a parameter: its Unicode database, its limit on digits, and how a decimal number
becomes a `float`.
-/

namespace AsyncDataLoader
namespace Python

def isSpace (c : Char) : Bool :=
  let n := c.toNat
  (9 ≤ n && n ≤ 13) || (28 ≤ n && n ≤ 32) || n = 0x85 || n = 0xA0 || n = 0x1680 ||
    (0x2000 ≤ n && n ≤ 0x200A) || n = 0x2028 || n = 0x2029 || n = 0x202F || n = 0x205F || n = 0x3000

def stripBy (space : Char → Bool) (text : List Char) : List Char :=
  ((text.dropWhile space).reverse.dropWhile space).reverse

def strip (text : List Char) : List Char := stripBy isSpace text

def split (separator : Char) : List Char → List (List Char)
  | [] => [[]]
  | c::cs => match split separator cs with
    | [] => [[c]] -- not reached
    | piece::pieces => if c = separator then []::piece::pieces else (c::piece)::pieces

def str (value : ℤ) : List Char :=
  match value with
  | .ofNat n => Nat.toDigits 10 n
  | .negSucc n => '-'::Nat.toDigits 10 (n+1)

theorem split_eq_singleton {separator : Char} {text : List Char} (h : separator ∉ text) :
    split separator text = [text] := by
  induction text with
  | nil => rfl
  | cons c cs ih =>
    rw [List.mem_cons,not_or] at h
    rw [split,ih h.2]
    exact if_neg (Ne.symm h.1)

theorem stripBy_eq_self {space : Char → Bool} {text : List Char} (h : ∀ c ∈ text, space c = false) :
    stripBy space text = text := by
  have hkept : ∀ cs : List Char, (∀ c ∈ cs, space c = false) → cs.dropWhile space = cs := by
    intro cs hcs
    cases cs with
    | nil => rfl
    | cons c cs => exact List.dropWhile_cons_of_neg (by simp [hcs c List.mem_cons_self])
  rw [stripBy,hkept text h,hkept text.reverse (fun c hc => h c (List.mem_reverse.mp hc)),
    List.reverse_reverse]

/-- An interpreter. Its `float` of a decimal number is `double`, unless that overflows; a number
that is not too small does not become zero. -/
structure Interpreter where
  decimal : Char → Option ℕ
  maxStrDigits : ℕ -- 0 for no limit
  double : ℚ → ℚ
  overflows : ℚ → Bool
  double_pos : ∀ q, 1/2^200 ≤ q → 0 < double q

/-- A value of type `float`. -/
inductive PyFloat
  | finite (value : ℚ)
  | infinite
  | nan
  deriving DecidableEq

def isCSpace (c : Char) : Bool := c = ' ' || (9 ≤ c.toNat && c.toNat ≤ 13)

def digit? (c : Char) : Option ℕ :=
  if '0' ≤ c ∧ c ≤ '9' then some (c.toNat - '0'.toNat) else none

def digits? (text : List Char) : Option (List ℕ) := text.mapM digit?

def ofDigits (ds : List ℕ) : ℕ := ds.foldl (fun value d => 10*value+d) 0

namespace Interpreter

variable (py : Interpreter)

/-- Decimal digits and spaces of other scripts become those of ASCII; `?` stands for what is
neither. -/
def toAscii (c : Char) : Char :=
  if c.toNat < 127 then c
  else if isSpace c then ' '
  else match py.decimal c with
    | some d => Nat.digitChar d
    | none => '?'

/-- Digits with single underscores between them. -/
def digitGroups (text : List Char) : Option ℕ :=
  match (split '_' text).mapM fun piece => if piece = [] then none else digits? piece with
  | none => none
  | some groups =>
    let ds := groups.flatten
    if py.maxStrDigits ≠ 0 ∧ ds.length > py.maxStrDigits then none else some (ofDigits ds)

/-- `int(text)`; `none` when it raises `ValueError`. -/
def int (text : List Char) : Option ℤ :=
  match stripBy isCSpace (text.map py.toAscii) with
  | '-'::ds => (py.digitGroups ds).map fun n : ℕ => -(n : ℤ)
  | '+'::ds => (py.digitGroups ds).map fun n : ℕ => (n : ℤ)
  | ds => (py.digitGroups ds).map fun n : ℕ => (n : ℤ)

/-- Underscores stand between digits only; without them. -/
def removeUnderscores : Option Char → List Char → Option (List Char)
  | previous,[] => if previous = some '_' then none else some []
  | previous,c::cs =>
    if c = '_' then
      if (previous.bind digit?).isSome then removeUnderscores (some c) cs else none
    else if previous = some '_' ∧ digit? c = none then none
    else (removeUnderscores (some c) cs).map (c::·)

def exponent? : List Char → Option ℤ
  | [] => some 0
  | c::cs =>
    if c = 'e' ∨ c = 'E' then
      let (sign,ds) := match cs with
        | '-'::ds => ((-1 : ℤ),ds)
        | '+'::ds => (1,ds)
        | ds => (1,ds)
      if ds = [] then none else (digits? ds).map fun ds => sign*(ofDigits ds : ℤ)
    else none

def unsigned? (text : List Char) : Option ℚ :=
  let whole := text.takeWhile fun c => (digit? c).isSome
  let rest := text.dropWhile fun c => (digit? c).isSome
  let (fraction,rest) := match rest with
    | '.'::cs => (cs.takeWhile fun c => (digit? c).isSome,cs.dropWhile fun c => (digit? c).isSome)
    | cs => ([],cs)
  if whole = [] ∧ fraction = [] then none
  else match digits? (whole++fraction),exponent? rest with
    | some ds,some e => some ((ofDigits ds : ℚ)*(10 : ℚ)^(e-(fraction.length : ℤ)))
    | _,_ => none

/-- `float(text)`; `none` when it raises `ValueError`. -/
def float (text : List Char) : Option PyFloat :=
  match removeUnderscores none (stripBy isCSpace (text.map py.toAscii)) with
  | none => none
  | some text =>
    let (sign,body) := match text with
      | '-'::cs => ((-1 : ℚ),cs)
      | '+'::cs => (1,cs)
      | cs => (1,cs)
    let lower := body.map Char.toLower
    if lower = "inf".toList ∨ lower = "infinity".toList then some .infinite
    else if lower = "nan".toList then some .nan
    else (unsigned? body).map fun q =>
      if py.overflows q then .infinite else .finite (sign*py.double q)

theorem digit?_of_isDigit {c : Char} (h : c.isDigit = true) :
    digit? c = some (c.toNat - '0'.toNat) := by
  simp only [Char.isDigit,Bool.and_eq_true,decide_eq_true_eq] at h
  exact if_pos h

theorem toNat_of_isDigit {c : Char} (h : c.isDigit = true) : 48 ≤ c.toNat ∧ c.toNat ≤ 57 := by
  simp only [Char.isDigit,Bool.and_eq_true,decide_eq_true_eq] at h
  exact h

theorem isSpace_of_isDigit {c : Char} (h : c.isDigit = true) : isSpace c = false := by
  have hbounds := toNat_of_isDigit h
  simp only [isSpace,Bool.or_eq_false_iff,Bool.and_eq_false_iff,decide_eq_false_iff_not]
  omega

theorem isCSpace_of_isDigit {c : Char} (h : c.isDigit = true) : isCSpace c = false := by
  have hbounds := toNat_of_isDigit h
  have hspace : c ≠ ' ' := by
    rintro rfl
    revert h
    decide
  simp only [isCSpace,Bool.or_eq_false_iff,Bool.and_eq_false_iff,decide_eq_false_iff_not]
  exact ⟨hspace,by omega⟩

theorem digits?_of_isDigit {text : List Char} (h : ∀ c ∈ text, c.isDigit = true) :
    digits? text = some (text.map fun c => c.toNat - '0'.toNat) := by
  induction text with
  | nil => rfl
  | cons c cs ih =>
    rw [List.forall_mem_cons] at h
    have hrest := ih h.2
    unfold digits? at hrest ⊢
    rw [List.mapM_cons,digit?_of_isDigit h.1,hrest]
    rfl

theorem ofDigits_toDigits (n : ℕ) :
    ofDigits ((Nat.toDigits 10 n).map fun c => c.toNat - '0'.toNat) = n := by
  have hvalue := Nat.ofDigitChars_ten_toDigits (n := n)
  rw [Nat.ofDigitChars_eq_foldl] at hvalue
  rw [ofDigits,List.foldl_map]
  exact hvalue

theorem digitGroups_toDigits {n value : ℕ}
    (h : py.digitGroups (Nat.toDigits 10 n) = some value) : value = n := by
  have hdigits := @digits?_of_isDigit (Nat.toDigits 10 n)
    fun c hc => Nat.isDigit_of_mem_toDigits (by decide) (by decide) hc
  unfold digitGroups at h
  rw [split_eq_singleton Nat.underscore_not_in_toDigits] at h
  simp only [List.mapM_cons,List.mapM_nil,if_neg Nat.toDigits_ne_nil,hdigits] at h
  change (if _ then none else some (ofDigits (List.flatten [_]))) = some value at h
  split_ifs at h
  rw [List.flatten_singleton,ofDigits_toDigits] at h
  exact (Option.some.inj h).symm

theorem int_toDigits {n : ℕ} {value : ℤ} (h : py.int (Nat.toDigits 10 n) = some value) :
    value = n := by
  have hdigits : ∀ c ∈ Nat.toDigits 10 n, c.isDigit = true :=
    fun c hc => Nat.isDigit_of_mem_toDigits (by decide) (by decide) hc
  have hascii : (Nat.toDigits 10 n).map py.toAscii = Nat.toDigits 10 n := by
    refine (List.map_congr_left fun c hc => ?_).trans (List.map_id _)
    have hbounds := toNat_of_isDigit (hdigits c hc)
    exact if_pos (by omega)
  unfold int at h
  rw [hascii,stripBy_eq_self fun c hc => isCSpace_of_isDigit (hdigits c hc)] at h
  split at h
  · rename_i ds heq
    exact absurd (hdigits '-' (heq ▸ List.mem_cons_self)) (by decide)
  · rename_i ds heq
    exact absurd (hdigits '+' (heq ▸ List.mem_cons_self)) (by decide)
  · obtain ⟨read,hread,rfl⟩ := Option.map_eq_some_iff.mp h
    rw [py.digitGroups_toDigits hread]

end Interpreter

/-- An interpreter that reads ASCII digits, and every decimal number as itself. -/
def exact : Interpreter where
  decimal := fun _ => none
  maxStrDigits := 4300
  double := id
  overflows := fun _ => false
  double_pos := fun _ hq => lt_of_lt_of_le (by positivity) hq

example : exact.int " 1_000 ".toList = some 1000 := by decide
example : exact.int "1__0".toList = none := by decide
example : exact.float "-2.5e1".toList = some (.finite (-25)) := by decide +kernel

end Python
end AsyncDataLoader
