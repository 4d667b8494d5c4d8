import AsyncDataLoader.Json
import AsyncDataLoader.Numeral

/-!
# JSON texts

A lexer of bytes, one byte at a time. Scans compose, so a text that is put together from
pieces is read piece by piece.
-/

namespace AsyncDataLoader
namespace Json

/-- What a string literal is made of: a byte, or a UTF-16 code unit from an escape. -/
inductive Piece
  | byte (b : UInt8)
  | unit (u : ℕ)
  deriving DecidableEq, Repr

/-- The UTF-8 bytes of a code point. A lone surrogate gets three bytes like its neighbours. -/
def utf8 (n : ℕ) : List UInt8 :=
  if n < 0x80 then [n.toUInt8]
  else if n < 0x800 then [(0xC0+n/0x40).toUInt8,(0x80+n%0x40).toUInt8]
  else if n < 0x10000 then
    [(0xE0+n/0x1000).toUInt8,(0x80+n/0x40%0x40).toUInt8,(0x80+n%0x40).toUInt8]
  else
    [(0xF0+n/0x40000).toUInt8,(0x80+n/0x1000%0x40).toUInt8,(0x80+n/0x40%0x40).toUInt8,
      (0x80+n%0x40).toUInt8]

def isHighSurrogate (u : ℕ) : Bool := 0xD800 ≤ u && u < 0xDC00

def isLowSurrogate (u : ℕ) : Bool := 0xDC00 ≤ u && u < 0xE000

/-- The bytes of a string literal. A pair of surrogates is one code point. -/
def decode : List Piece → List UInt8
  | [] => []
  | .byte b::pieces => b::decode pieces
  | .unit u::.unit v::pieces =>
    if isHighSurrogate u && isLowSurrogate v then
      utf8 (0x10000+(u-0xD800)*0x400+(v-0xDC00))++decode pieces
    else utf8 u++decode (.unit v::pieces)
  | .unit u::pieces => utf8 u++decode pieces

inductive LexState
  | between
  | word (letters : List UInt8)
  | number (text : List UInt8)
  | string (pieces : List Piece)
  | escape (pieces : List Piece)
  | hex (pieces : List Piece) (missing value : ℕ)
  deriving DecidableEq, Repr

def isWhitespace (b : UInt8) : Bool := b == 32 || b == 9 || b == 10 || b == 13

def isLetter (b : UInt8) : Bool := 97 ≤ b.toNat && b.toNat ≤ 122

def punctuation (b : UInt8) : Option Token :=
  if b = 91 then some .leftBracket
  else if b = 93 then some .rightBracket
  else if b = 123 then some .leftBrace
  else if b = 125 then some .rightBrace
  else if b = 44 then some .comma
  else if b = 58 then some .colon
  else none

def wordToken (letters : List UInt8) : Option Token :=
  if letters = [110,117,108,108] then some .null
  else if letters = [116,114,117,101] then some (.bool true)
  else if letters = [102,97,108,115,101] then some (.bool false)
  else none

def numberToken (text : List UInt8) : Option Token :=
  (Numeral.parse text).map fun r => .number r.1 r.2

def unescape (b : UInt8) : Option UInt8 :=
  if b = 34 ∨ b = 92 ∨ b = 47 then some b
  else if b = 98 then some 8
  else if b = 102 then some 12
  else if b = 110 then some 10
  else if b = 114 then some 13
  else if b = 116 then some 9
  else none

def hexValue (b : UInt8) : Option ℕ :=
  if Numeral.isDigit b then some (b.toNat-48)
  else if 97 ≤ b.toNat ∧ b.toNat ≤ 102 then some (b.toNat-87)
  else if 65 ≤ b.toNat ∧ b.toNat ≤ 70 then some (b.toNat-55)
  else none

namespace LexState

def start (b : UInt8) : Option (List Token × LexState) :=
  if isWhitespace b then some ([],.between)
  else if b = 34 then some ([],.string [])
  else if Numeral.isFirst b then some ([],.number [b])
  else if isLetter b then some ([],.word [b])
  else (punctuation b).map fun token => ([token],.between)

def step : LexState → UInt8 → Option (List Token × LexState)
  | .between,b => start b
  | .word letters,b =>
    if isLetter b then some ([],.word (letters++[b]))
    else (wordToken letters).bind fun token => (start b).map fun r => (token::r.1,r.2)
  | .number text,b =>
    if Numeral.isPart b then some ([],.number (text++[b]))
    else (numberToken text).bind fun token => (start b).map fun r => (token::r.1,r.2)
  | .string pieces,b =>
    if b = 34 then some ([.string (decode pieces)],.between)
    else if b = 92 then some ([],.escape pieces)
    else if b.toNat < 32 then none
    else some ([],.string (pieces++[.byte b]))
  | .escape pieces,b =>
    if b = 117 then some ([],.hex pieces 3 0)
    else (unescape b).map fun c => ([],.string (pieces++[.byte c]))
  | .hex pieces missing value,b => (hexValue b).map fun d => match missing with
    | 0 => ([],.string (pieces++[.unit (16*value+d)]))
    | m+1 => ([],.hex pieces m (16*value+d))

def finish : LexState → Option (List Token)
  | .between => some []
  | .word letters => (wordToken letters).map fun token => [token]
  | .number text => (numberToken text).map fun token => [token]
  | _ => none

end LexState

def lexFrom (s : LexState) : List UInt8 → Option (List Token × LexState)
  | [] => some ([],s)
  | b::text => (s.step b).bind fun r => (lexFrom r.2 text).map fun q => (r.1++q.1,q.2)

def lex (text : List UInt8) : Option (List Token) :=
  (lexFrom .between text).bind fun r => r.2.finish.map fun ts => r.1++ts

def parse (text : List UInt8) : Option Json := (lex text).bind ofTokens

def Scans (s : LexState) (text : List UInt8) (ts : List Token) (s' : LexState) : Prop :=
  lexFrom s text = some (ts,s')

theorem lexFrom_append (s : LexState) (a b : List UInt8) :
    lexFrom s (a++b) = (lexFrom s a).bind fun r =>
      (lexFrom r.2 b).map fun q => (r.1++q.1,q.2) := by
  induction a generalizing s with
  | nil => simp [lexFrom]
  | cons c a ih =>
    simp only [List.cons_append,lexFrom]
    cases s.step c with
    | none => rfl
    | some r =>
      simp only [Option.bind_some,ih]
      cases lexFrom r.2 a with
      | none => rfl
      | some q => cases h : lexFrom q.2 b <;> simp [h]

theorem Scans.append {s s' s'' : LexState} {a b : List UInt8} {ts t : List Token}
    (ha : Scans s a ts s') (hb : Scans s' b t s'') : Scans s (a++b) (ts++t) s'' := by
  unfold Scans at *
  rw [lexFrom_append,ha,Option.bind_some,hb,Option.map_some]

theorem Scans.of_eq {s s' : LexState} {text : List UInt8} {ts us : List Token}
    (h : Scans s text ts s') (heq : ts = us) : Scans s text us s' := heq ▸ h

theorem Scans.nil (s : LexState) : Scans s [] [] s := rfl

theorem Scans.cons {s s' s'' : LexState} {b : UInt8} {text : List UInt8} {ts us : List Token}
    (hb : s.step b = some (ts,s')) (hrest : Scans s' text us s'') :
    Scans s (b::text) (ts++us) s'' := by
  unfold Scans at *
  rw [lexFrom,hb,Option.bind_some,hrest,Option.map_some]

theorem lex_of_scans {text : List UInt8} {ts : List Token} (h : Scans .between text ts .between) :
    lex text = some ts := by
  rw [lex,h,Option.bind_some]
  simp [LexState.finish]

theorem parse_eq_some_iff {text : List UInt8} {v : Json} :
    parse text = some v ↔ lex text = some v.tokens := by
  simp only [parse,Option.bind_eq_some_iff,ofTokens_eq_some_iff,exists_eq_right]

theorem parse_of_scans {text : List UInt8} {v : Json} (h : Scans .between text v.tokens .between) :
    parse text = some v :=
  parse_eq_some_iff.mpr (lex_of_scans h)

def Jams (text : List UInt8) : Prop := ∀ rest, lexFrom .between (text++rest) = none

theorem Jams.append {a : List UInt8} (h : Jams a) (b : List UInt8) : Jams (a++b) := by
  intro rest
  rw [List.append_assoc]
  exact h (b++rest)

theorem Scans.jams {a b : List UInt8} {ts : List Token} (h : Scans .between a ts .between)
    (hb : Jams b) : Jams (a++b) := by
  intro rest
  rw [List.append_assoc,lexFrom_append,h,Option.bind_some,hb rest,Option.map_none]

theorem Jams.parse {text : List UInt8} (h : Jams text) : parse text = none := by
  have hlex := h []
  rw [List.append_nil] at hlex
  rw [Json.parse,lex,hlex]
  rfl

theorem scans_part {read text : List UInt8} (h : ∀ b ∈ text, Numeral.isPart b = true) :
    Scans (.number read) text [] (.number (read++text)) := by
  induction text generalizing read with
  | nil => simpa using Scans.nil (.number read)
  | cons b text ih =>
    have hrest := @ih (read++[b]) fun c hc => h c (List.mem_cons_of_mem _ hc)
    rw [List.append_assoc,List.singleton_append] at hrest
    have hb : LexState.step (.number read) b = some ([],.number (read++[b])) := by
      rw [LexState.step,if_pos (h b List.mem_cons_self)]
    exact Scans.cons hb hrest

theorem start_of_isFirst {b : UInt8} (h : Numeral.isFirst b = true) :
    LexState.start b = some ([],.number [b]) := by
  have hspace : ¬ isWhitespace b = true := by
    intro hspace
    simp only [isWhitespace,Bool.or_eq_true,beq_iff_eq] at hspace
    obtain ((rfl | rfl) | rfl) | rfl := hspace <;> cases h
  have hquote : b ≠ 34 := by
    rintro rfl
    cases h
  rw [LexState.start,if_neg hspace,if_neg hquote,if_pos h]

def startsApart : List UInt8 → Bool
  | [] => false
  | b::_ => !Numeral.isPart b && !isLetter b

theorem startsApart_append {a : List UInt8} (b : List UInt8) (h : startsApart a = true) :
    startsApart (a++b) = true := by
  cases a with
  | nil => cases h
  | cons c a => exact h

/-- The text has these tokens wherever no numeral goes on after it. -/
def Emits (text : List UInt8) (ts : List Token) : Prop :=
  ∀ ⦃rest us s⦄, startsApart rest = true → Scans .between rest us s →
    Scans .between (text++rest) (ts++us) s

theorem Scans.emits {text : List UInt8} {ts : List Token} (h : Scans .between text ts .between) :
    Emits text ts := fun _ _ _ _ hrest => h.append hrest

theorem Emits.append {a b : List UInt8} {ts us : List Token} (ha : Emits a ts) (hb : Emits b us)
    (hapart : startsApart b = true) : Emits (a++b) (ts++us) := by
  intro rest vs s hrest hscans
  have hboth := ha (startsApart_append rest hapart) (hb hrest hscans)
  simpa only [List.append_assoc] using hboth

theorem Scans.item {s : LexState} {text item l : List UInt8} {ts us t : List Token}
    (h : Scans s text ts .between) (hitem : Emits item us) (hapart : startsApart l = true)
    (hliteral : Scans .between l t .between) :
    Scans s (text++item++l) (ts++us++t) .between := by
  have hrest := h.append (hitem hapart hliteral)
  simpa only [List.append_assoc] using hrest

theorem scans_ended {s s' : LexState} {rest : List UInt8} {token : Token} {ts : List Token}
    (hend : ∀ b, Numeral.isPart b = false → isLetter b = false →
      s.step b = (LexState.start b).map fun r => (token::r.1,r.2))
    (hapart : startsApart rest = true) (hrest : Scans .between rest ts s') :
    Scans s rest (token::ts) s' := by
  obtain _ | ⟨b,rest⟩ := rest
  · cases hapart
  · obtain ⟨hpart,hletter⟩ : Numeral.isPart b = false ∧ isLetter b = false := by
      simpa [startsApart] using hapart
    unfold Scans at hrest ⊢
    obtain ⟨⟨us,next⟩,hstep,hmore⟩ := Option.bind_eq_some_iff.mp hrest
    obtain ⟨q,hq,hts⟩ := Option.map_eq_some_iff.mp hmore
    obtain ⟨rfl,rfl⟩ := Prod.mk.inj hts
    have hstart : LexState.start b = some (us,next) := hstep
    simp [lexFrom,hend b hpart hletter,hstart,hq]

theorem emits_numeral {text : List UInt8} {r : ℤ × ℤ} (h : Numeral.parse text = some r) :
    Emits text [.number r.1 r.2] := by
  intro rest ts s hapart hrest
  obtain ⟨⟨c,cs,rfl,hfirst⟩,hparts⟩ := Numeral.parse_isPart h
  have hbegin : LexState.step .between c = some ([],.number [c]) := start_of_isFirst hfirst
  have hread : Scans .between (c::cs) [] (.number (c::cs)) :=
    .cons hbegin (scans_part fun d hd => hparts d (List.mem_cons_of_mem _ hd))
  have hend : Scans (.number (c::cs)) rest (.number r.1 r.2::ts) s :=
    scans_ended (fun b hpart _ => by simp [LexState.step,hpart,numberToken,h]) hapart hrest
  exact hread.append hend

theorem emits_word {text : List UInt8} {token : Token} (hread : Scans .between text [] (.word text))
    (htoken : wordToken text = some token) : Emits text [token] := by
  intro rest ts s hapart hrest
  have hend : Scans (.word text) rest (token::ts) s :=
    scans_ended (fun b _ hletter => by simp [LexState.step,hletter,htoken]) hapart hrest
  exact hread.append hend

/-- A loop that puts one text before the first item and another before the others. -/
def separated {α : Type*} (first between : List UInt8) (item : α → List UInt8) (items : List α) :
    List UInt8 :=
  items.zipIdx.flatMap fun p => (if p.2 = 0 then first else between)++item p.1

theorem separated_cons {α : Type*} (first between : List UInt8) (item : α → List UInt8) (x : α)
    (xs : List α) : separated first between item (x::xs) =
      first++item x++xs.flatMap fun y => between++item y := by
  have hrest : ∀ n, (xs.zipIdx (n+1)).flatMap (fun p => (if p.2 = 0 then first else between)++item p.1) =
      xs.flatMap fun y => between++item y := by
    induction xs with
    | nil => exact fun _ => rfl
    | cons y ys ih =>
      intro n
      rw [List.zipIdx_cons,List.flatMap_cons,List.flatMap_cons,ih (n+1),if_neg (Nat.succ_ne_zero n)]
  rw [separated,List.zipIdx_cons,List.flatMap_cons,hrest 0,if_pos rfl]

theorem emits_more {α : Type*} {between : List UInt8} {item : α → List UInt8} {value : α → Json}
    (hbetween : Scans .between between [.comma] .between) (hapart : startsApart between = true)
    {x : α} {xs : List α} (hitem : ∀ y ∈ x::xs, Emits (item y) (value y).tokens) :
    Emits (item x++xs.flatMap fun y => between++item y)
      ((value x).tokens++moreItems (xs.map value)) := by
  have hx := hitem x List.mem_cons_self
  induction xs generalizing x with
  | nil => simpa [moreItems] using hx
  | cons y ys ih =>
    have hys : ∀ z ∈ y::ys, Emits (item z) (value z).tokens :=
      fun z hz => hitem z (List.mem_cons_of_mem _ hz)
    have hcomma : Emits (between++(item y++ys.flatMap fun z => between++item z))
        ([.comma]++((value y).tokens++moreItems (ys.map value))) := by
      intro rest us s hrest hscans
      have hmore := hbetween.append (ih hys (hys y List.mem_cons_self) hrest hscans)
      simpa only [List.append_assoc] using hmore
    have hboth := hx.append hcomma (startsApart_append _ hapart)
    simpa [moreItems] using hboth

theorem emits_separated {α : Type*} {first between : List UInt8} {item : α → List UInt8}
    {value : α → Json} (hfirst : Scans .between first [] .between)
    (hbetween : Scans .between between [.comma] .between) (hapart : startsApart between = true)
    {xs : List α} (hitem : ∀ x ∈ xs, Emits (item x) (value x).tokens) :
    Emits (separated first between item xs) (items (xs.map value)) := by
  cases xs with
  | nil => exact fun _ _ _ _ hrest => hrest
  | cons x xs =>
    intro rest us s hrest hscans
    have hmore := hfirst.append (emits_more hbetween hapart hitem hrest hscans)
    simpa [separated_cons,items] using hmore

theorem scans_byte {pieces : List Piece} {b : UInt8} (hquote : b ≠ 34) (hescape : b ≠ 92)
    (hprint : 32 ≤ b.toNat) : Scans (.string pieces) [b] [] (.string (pieces++[.byte b])) := by
  have hb : LexState.step (.string pieces) b = some ([],.string (pieces++[.byte b])) := by
    rw [LexState.step,if_neg hquote,if_neg hescape,if_neg (by omega)]
  exact .cons hb (.nil _)

theorem scans_escape {pieces : List Piece} {b c : UInt8} (h : unescape b = some c) :
    Scans (.string pieces) [92,b] [] (.string (pieces++[.byte c])) := by
  have hne : b ≠ 117 := by
    rintro rfl
    cases h
  have hb : LexState.step (.escape pieces) b = some ([],.string (pieces++[.byte c])) := by
    rw [LexState.step,if_neg hne,h,Option.map_some]
  have hbegin : LexState.step (.string pieces) 92 = some ([],.escape pieces) := rfl
  exact .cons hbegin (.cons hb (.nil _))

theorem scans_unit {pieces : List Piece} {a b c d : UInt8} {i j k l : ℕ}
    (ha : hexValue a = some i) (hb : hexValue b = some j) (hc : hexValue c = some k)
    (hd : hexValue d = some l) :
    Scans (.string pieces) [92,117,a,b,c,d] []
      (.string (pieces++[.unit (16*(16*(16*i+j)+k)+l)])) := by
  unfold Scans
  simp [lexFrom,LexState.step,ha,hb,hc,hd]

theorem scans_quote (pieces : List Piece) :
    Scans (.string pieces) [34] [.string (decode pieces)] .between := rfl

theorem decode_unit {u : ℕ} (pieces : List Piece) (h : isHighSurrogate u = false) :
    decode (.unit u::pieces) = utf8 u++decode pieces := by
  obtain _ | ⟨_ | v,pieces⟩ := pieces <;> simp [decode,h]

end Json
end AsyncDataLoader
