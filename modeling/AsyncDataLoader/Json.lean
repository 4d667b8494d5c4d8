import Mathlib.Data.Int.Notation
import Mathlib.Data.List.Induction
import Mathlib.Tactic.Common

/-!
# JSON values and their tokens

A value has one sequence of tokens. A machine with a stack reads it back, and accepts nothing
else.
-/

namespace AsyncDataLoader

/-- A number is a decimal fraction `mantissa*10^exponent`. The members of an object are in the
order of the text. -/
inductive Json
  | null
  | bool (value : Bool)
  | number (mantissa exponent : ℤ)
  | string (bytes : List UInt8)
  | array (items : List Json)
  | object (members : List (List UInt8 × Json))

namespace Json

inductive Token
  | leftBracket
  | rightBracket
  | leftBrace
  | rightBrace
  | comma
  | colon
  | null
  | bool (value : Bool)
  | number (mantissa exponent : ℤ)
  | string (bytes : List UInt8)
  deriving DecidableEq, Repr

mutual

def tokens : Json → List Token
  | .null => [.null]
  | .bool value => [.bool value]
  | .number mantissa exponent => [.number mantissa exponent]
  | .string bytes => [.string bytes]
  | .array [] => [.leftBracket,.rightBracket]
  | .array (v::vs) => .leftBracket::(v.tokens++moreItems vs++[.rightBracket])
  | .object [] => [.leftBrace,.rightBrace]
  | .object ((k,v)::ms) =>
    .leftBrace::.string k::.colon::(v.tokens++moreMembers ms++[.rightBrace])

def moreItems : List Json → List Token
  | [] => []
  | v::vs => .comma::(v.tokens++moreItems vs)

def moreMembers : List (List UInt8 × Json) → List Token
  | [] => []
  | (k,v)::ms => .comma::.string k::.colon::(v.tokens++moreMembers ms)

end

def items : List Json → List Token
  | [] => []
  | v::vs => v.tokens++moreItems vs

theorem tokens_array (vs : List Json) :
    (array vs).tokens = .leftBracket::(items vs++[.rightBracket]) := by
  cases vs <;> rfl

def members : List (List UInt8 × Json) → List Token
  | [] => []
  | (k,v)::ms => .string k::.colon::(v.tokens++moreMembers ms)

theorem tokens_object (ms : List (List UInt8 × Json)) :
    (object ms).tokens = .leftBrace::(members ms++[.rightBrace]) := by
  rcases ms with _ | ⟨⟨k,v⟩,ms⟩ <;> rfl

/-- What has been read of an array or an object that goes on, the newest first. An object waits
for the value of a key. -/
inductive Frame
  | array (items : List Json)
  | object (members : List (List UInt8 × Json)) (key : List UInt8)

/-- What may come next: a value, an item or the end of a new array, a key or the end of a new
object, a key, a colon, or what follows a value. -/
inductive Place
  | value
  | item
  | member
  | key (members : List (List UInt8 × Json))
  | colon (members : List (List UInt8 × Json)) (key : List UInt8)
  | after (value : Json)

structure Machine where
  frames : List Frame
  place : Place

namespace Machine

def start : Machine := ⟨[],.value⟩

def value (frames : List Frame) : Token → Option Machine
  | .null => some ⟨frames,.after .null⟩
  | .bool value => some ⟨frames,.after (.bool value)⟩
  | .number mantissa exponent => some ⟨frames,.after (.number mantissa exponent)⟩
  | .string bytes => some ⟨frames,.after (.string bytes)⟩
  | .leftBracket => some ⟨frames,.item⟩
  | .leftBrace => some ⟨frames,.member⟩
  | _ => none

def after (v : Json) : List Frame → Token → Option Machine
  | .array items::frames,.comma => some ⟨.array (v::items)::frames,.value⟩
  | .array items::frames,.rightBracket => some ⟨frames,.after (.array (v::items).reverse)⟩
  | .object members key::frames,.comma => some ⟨frames,.key ((key,v)::members)⟩
  | .object members key::frames,.rightBrace =>
    some ⟨frames,.after (.object ((key,v)::members).reverse)⟩
  | _,_ => none

def step (m : Machine) (token : Token) : Option Machine :=
  match m.place with
  | .value => value m.frames token
  | .item =>
    if token = .rightBracket then some ⟨m.frames,.after (.array [])⟩
    else value (.array []::m.frames) token
  | .member => match token with
    | .rightBrace => some ⟨m.frames,.after (.object [])⟩
    | .string key => some ⟨m.frames,.colon [] key⟩
    | _ => none
  | .key members => match token with
    | .string key => some ⟨m.frames,.colon members key⟩
    | _ => none
  | .colon members key =>
    if token = .colon then some ⟨.object members key::m.frames,.value⟩ else none
  | .after v => after v m.frames token

def run (m : Machine) : List Token → Option Machine
  | [] => some m
  | token::tokens => (m.step token).bind fun next => run next tokens

theorem run_append (m : Machine) (ts us : List Token) :
    m.run (ts++us) = (m.run ts).bind fun next => next.run us := by
  induction ts generalizing m with
  | nil => rfl
  | cons t ts ih =>
    simp only [List.cons_append,run]
    cases m.step t with
    | none => rfl
    | some next => exact ih next

theorem run_append_of {m next : Machine} {ts : List Token} (h : m.run ts = some next)
    (us : List Token) : m.run (ts++us) = next.run us := by
  rw [run_append,h,Option.bind_some]

end Machine

def ofTokens (tokens : List Token) : Option Json :=
  match Machine.start.run tokens with
  | some ⟨[],.after v⟩ => some v
  | _ => none

theorem run_item (v : Json) (frames : List Frame) (ts : List Token) :
    Machine.run ⟨frames,.item⟩ (v.tokens++ts) =
      Machine.run ⟨.array []::frames,.value⟩ (v.tokens++ts) := by
  have hhead : ∀ t us, t ≠ Token.rightBracket →
      Machine.run ⟨frames,.item⟩ (t::us) = Machine.run ⟨.array []::frames,.value⟩ (t::us) := by
    intro t us hne
    simp only [Machine.run,Machine.step,if_neg hne]
  cases v with
  | null | bool | number | string => exact hhead _ _ (by simp)
  | array items =>
    cases items with
    | nil => exact hhead _ _ (by simp)
    | cons v vs => exact hhead _ _ (by simp)
  | object members =>
    cases members with
    | nil => exact hhead _ _ (by simp)
    | cons m ms => exact hhead _ _ (by simp)

mutual

theorem run_tokens (v : Json) (frames : List Frame) :
    Machine.run ⟨frames,.value⟩ v.tokens = some ⟨frames,.after v⟩ := by
  match v with
  | .null | .bool _ | .number _ _ | .string _ => rfl
  | .array [] => rfl
  | .array (v::vs) =>
    have hfirst := run_tokens v (.array []::frames)
    have hrest := run_items vs [] v frames
    have hitem := run_item v frames (moreItems vs++[.rightBracket])
    rw [Machine.run_append_of hfirst,hrest] at hitem
    simpa [tokens,Machine.run,Machine.step,Machine.value] using hitem
  | .object [] => rfl
  | .object ((k,v)::ms) =>
    have hfirst := run_tokens v (.object [] k::frames)
    have hrest := run_members ms [] k v frames
    have hboth := Machine.run_append_of hfirst (moreMembers ms++[.rightBrace])
    rw [hrest] at hboth
    simpa [tokens,Machine.run,Machine.step,Machine.value] using hboth

theorem run_items (vs before : List Json) (v : Json) (frames : List Frame) :
    Machine.run ⟨.array before::frames,.after v⟩ (moreItems vs++[.rightBracket]) =
      some ⟨frames,.after (.array (before.reverse++v::vs))⟩ := by
  match vs with
  | [] => simp [moreItems,Machine.run,Machine.step,Machine.after]
  | w::ws =>
    have hnext := run_tokens w (.array (v::before)::frames)
    have hrest := run_items ws (v::before) w frames
    have hboth := Machine.run_append_of hnext (moreItems ws++[.rightBracket])
    rw [hrest] at hboth
    simpa [moreItems,Machine.run,Machine.step,Machine.after] using hboth

theorem run_members (ms before : List (List UInt8 × Json)) (k : List UInt8) (v : Json)
    (frames : List Frame) :
    Machine.run ⟨.object before k::frames,.after v⟩ (moreMembers ms++[.rightBrace]) =
      some ⟨frames,.after (.object (before.reverse++(k,v)::ms))⟩ := by
  match ms with
  | [] => simp [moreMembers,Machine.run,Machine.step,Machine.after]
  | (l,w)::ws =>
    have hnext := run_tokens w (.object ((k,v)::before) l::frames)
    have hrest := run_members ws ((k,v)::before) l w frames
    have hboth := Machine.run_append_of hnext (moreMembers ws++[.rightBrace])
    rw [hrest] at hboth
    simpa [moreMembers,Machine.run,Machine.step,Machine.after] using hboth

end

theorem ofTokens_tokens (v : Json) : ofTokens v.tokens = some v := by
  simp only [ofTokens,Machine.start,run_tokens v []]

theorem moreItems_append (vs ws : List Json) :
    moreItems (vs++ws) = moreItems vs++moreItems ws := by
  induction vs with
  | nil => rfl
  | cons v vs ih => simp [moreItems,ih]

theorem moreMembers_append (ms ns : List (List UInt8 × Json)) :
    moreMembers (ms++ns) = moreMembers ms++moreMembers ns := by
  induction ms with
  | nil => rfl
  | cons m ms ih =>
    obtain ⟨k,v⟩ := m
    simp [moreMembers,ih]

def itemsBefore : List Json → List Token
  | [] => []
  | v::vs => itemsBefore vs++v.tokens++[.comma]

def membersBefore : List (List UInt8 × Json) → List Token
  | [] => []
  | (k,v)::ms => membersBefore ms++.string k::.colon::v.tokens++[.comma]

theorem tokens_array_reverse (v : Json) (vs : List Json) :
    tokens (.array (v::vs).reverse) =
      .leftBracket::(itemsBefore vs++v.tokens++[.rightBracket]) := by
  induction vs generalizing v with
  | nil => simp [tokens,moreItems,itemsBefore]
  | cons w ws ih =>
    have hbefore := ih w
    obtain ⟨first,rest,hsplit⟩ : ∃ first rest, (w::ws).reverse = first::rest :=
      List.exists_cons_of_ne_nil (by simp)
    rw [hsplit] at hbefore
    rw [List.reverse_cons,hsplit,List.cons_append]
    simp only [tokens,moreItems_append,moreItems,itemsBefore,List.append_nil,List.cons.injEq,
      true_and] at hbefore ⊢
    have hitems := List.append_cancel_right hbefore
    rw [← hitems]
    simp only [List.append_assoc,List.cons_append,List.nil_append]

theorem tokens_object_reverse (k : List UInt8) (v : Json) (ms : List (List UInt8 × Json)) :
    tokens (.object ((k,v)::ms).reverse) =
      .leftBrace::(membersBefore ms++.string k::.colon::v.tokens++[.rightBrace]) := by
  induction ms generalizing k v with
  | nil => simp [tokens,moreMembers,membersBefore]
  | cons m ms ih =>
    obtain ⟨l,w⟩ := m
    have hbefore := ih l w
    obtain ⟨⟨j,u⟩,rest,hsplit⟩ : ∃ first rest, ((l,w)::ms).reverse = first::rest :=
      List.exists_cons_of_ne_nil (by simp)
    rw [hsplit] at hbefore
    rw [List.reverse_cons,hsplit,List.cons_append]
    simp only [tokens,moreMembers_append,moreMembers,membersBefore,List.append_nil,
      List.cons.injEq,true_and] at hbefore ⊢
    have hmembers : .string j::.colon::(u.tokens++moreMembers rest) =
        membersBefore ms++.string l::.colon::w.tokens := List.append_cancel_right hbefore
    rw [← hmembers]
    simp only [List.append_assoc,List.cons_append,List.nil_append]

def Frame.spell : Frame → List Token
  | .array items => .leftBracket::itemsBefore items
  | .object members key => .leftBrace::(membersBefore members++[.string key,.colon])

def Place.spell : Place → List Token
  | .value => []
  | .item => [.leftBracket]
  | .member => [.leftBrace]
  | .key members => .leftBrace::membersBefore members
  | .colon members k => .leftBrace::(membersBefore members++[.string k])
  | .after v => v.tokens

namespace Machine

/-- The frames come from the inside out. -/
def spell (m : Machine) : List Token := m.frames.reverse.flatMap Frame.spell++m.place.spell

theorem value_spell {frames : List Frame} {t : Token} {m : Machine}
    (h : value frames t = some m) : m.spell = frames.reverse.flatMap Frame.spell++[t] := by
  unfold value at h
  split at h <;> first
    | (obtain rfl := Option.some.inj h; rfl)
    | cases h

theorem after_spell {v : Json} {frames : List Frame} {t : Token} {m : Machine}
    (h : after v frames t = some m) :
    m.spell = frames.reverse.flatMap Frame.spell++v.tokens++[t] := by
  unfold after at h
  split at h
  · obtain rfl := Option.some.inj h
    simp [spell,Frame.spell,Place.spell,itemsBefore]
  · obtain rfl := Option.some.inj h
    simp only [spell,Place.spell,tokens_array_reverse]
    simp [Frame.spell]
  · obtain rfl := Option.some.inj h
    simp [spell,Frame.spell,Place.spell,membersBefore]
  · obtain rfl := Option.some.inj h
    simp only [spell,Place.spell,tokens_object_reverse]
    simp [Frame.spell]
  · cases h

theorem step_spell {m next : Machine} {t : Token} (h : m.step t = some next) :
    next.spell = m.spell++[t] := by
  obtain ⟨frames,place⟩ := m
  cases place with
  | value => simpa [spell,Place.spell] using value_spell h
  | after v => exact after_spell h
  | item =>
    simp only [step] at h
    split at h
    · rename_i hclose
      obtain rfl := Option.some.inj h
      simp [spell,Place.spell,tokens,hclose]
    · simpa [spell,Place.spell,Frame.spell,itemsBefore] using value_spell h
  | member =>
    simp only [step] at h
    split at h
    · obtain rfl := Option.some.inj h
      simp [spell,Place.spell,tokens]
    · obtain rfl := Option.some.inj h
      simp [spell,Place.spell,membersBefore]
    · cases h
  | key members =>
    simp only [step] at h
    split at h
    · obtain rfl := Option.some.inj h
      simp [spell,Place.spell]
    · cases h
  | colon members key =>
    simp only [step] at h
    split at h
    · rename_i hcolon
      obtain rfl := Option.some.inj h
      simp [spell,Place.spell,Frame.spell,hcolon]
    · cases h

theorem run_spell {m next : Machine} {ts : List Token} (h : m.run ts = some next) :
    next.spell = m.spell++ts := by
  induction ts generalizing m with
  | nil =>
    obtain rfl := Option.some.inj h
    exact (List.append_nil _).symm
  | cons t ts ih =>
    obtain ⟨between,hstep,hrest⟩ := Option.bind_eq_some_iff.mp h
    rw [ih hrest,step_spell hstep,List.append_assoc,List.singleton_append]

end Machine

/-- A sequence of tokens has a value exactly when it is the tokens of that value. -/
theorem ofTokens_eq_some_iff {ts : List Token} {v : Json} : ofTokens ts = some v ↔ ts = v.tokens := by
  constructor
  · intro h
    unfold ofTokens at h
    split at h
    · rename_i w hrun
      obtain rfl := Option.some.inj h
      exact (Machine.run_spell hrun).symm
    · cases h
  · rintro rfl
    exact ofTokens_tokens v

end Json
end AsyncDataLoader
