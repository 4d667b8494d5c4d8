import Mathlib.Data.List.Basic
import Mathlib.Data.UInt

/-!
# Well-formed UTF-8

Bytes are well-formed when they encode a list of characters. A byte below 128 is a character
of its own, so bytes can be split there.
-/

namespace AsyncDataLoader
namespace Utf8

def encode (chars : List Char) : List UInt8 := chars.flatMap String.utf8EncodeChar

def WellFormed (bytes : List UInt8) : Prop := ∃ chars, encode chars = bytes

theorem encode_append (cs ds : List Char) : encode (cs++ds) = encode cs++encode ds :=
  List.flatMap_append

theorem encode_injective : Function.Injective encode := by
  intro cs ds h
  have hbytes : cs.utf8Encode = ds.utf8Encode := congrArg List.toByteArray h
  have hdecoded := congrArg ByteArray.utf8Decode? hbytes
  rw [List.utf8Decode?_utf8Encode,List.utf8Decode?_utf8Encode] at hdecoded
  exact congrArg Array.toList (Option.some.inj hdecoded)

def isAscii (bytes : List UInt8) : Bool := bytes.all fun b => b.toNat < 128

theorem toNat_lt_of_isAscii {bytes : List UInt8} (h : isAscii bytes = true) :
    ∀ b ∈ bytes, b.toNat < 128 :=
  fun b hb => of_decide_eq_true (List.all_eq_true.mp h b hb)

theorem encodeChar_cases (c : Char) :
    (∃ b, String.utf8EncodeChar c = [b] ∧ b.toNat < 128 ∧ c.toNat = b.toNat) ∨
      ∀ b ∈ String.utf8EncodeChar c, 128 ≤ b.toNat ∧ b.toNat < 0xF8 := by
  fun_cases String.utf8EncodeChar c
  · left
    refine ⟨_,rfl,?_⟩
    simp only [UInt8.toNat_ofNat',Char.toNat]
    omega
  all_goals
    right
    simp only [List.forall_mem_cons,UInt8.toNat_ofNat',List.not_mem_nil,false_implies,
      implies_true,and_true]
    omega

theorem toNat_lt_of_mem_encode {cs : List Char} {b : UInt8} (h : b ∈ encode cs) : b.toNat < 0xF8 := by
  obtain ⟨c,-,hb⟩ := List.mem_flatMap.mp h
  obtain ⟨d,hd,hlt,-⟩ | hall := encodeChar_cases c
  · rw [hd,List.mem_singleton] at hb
    subst hb
    omega
  · exact (hall b hb).2

/-- The character of a byte below 128. -/
def character (b : UInt8) : Char := Char.ofNat b.toNat

theorem encodeChar_character {b : UInt8} (h : b.toNat < 128) :
    String.utf8EncodeChar (character b) = [b] := by
  have hall : ∀ n : Fin 128, String.utf8EncodeChar (Char.ofNat n.val) = [UInt8.ofNat n.val] := by
    decide
  exact (hall ⟨b.toNat,h⟩).trans (congrArg (fun c => [c]) UInt8.ofNat_toNat)

/-- A byte below 128 inside encoded text is a character of the text. -/
theorem encode_split {cs : List Char} {p q : List UInt8} {b : UInt8} (hb : b.toNat < 128)
    (h : encode cs = p++b::q) :
    ∃ ds es, cs = ds++character b::es ∧ encode ds = p ∧ encode es = q := by
  induction cs generalizing p with
  | nil => exact absurd h.symm (by simp [encode])
  | cons c cs ih =>
    have hcons : String.utf8EncodeChar c++encode cs = p++b::q := h
    obtain ⟨t,ht,hrest⟩ | ⟨t,ht,hrest⟩ := List.append_eq_append_iff.mp hcons
    · obtain ⟨ds,es,rfl,rfl,rfl⟩ := ih hrest
      exact ⟨c::ds,es,rfl,ht.symm,rfl⟩
    · obtain _ | ⟨d,t⟩ := t
      · obtain ⟨ds,es,rfl,hds,rfl⟩ := ih (p:=[]) hrest.symm
        refine ⟨c::ds,es,rfl,?_,rfl⟩
        rw [List.append_nil] at ht
        rw [encode,List.flatMap_cons,ht]
        exact (congrArg (p++·) hds).trans (List.append_nil p)
      · obtain ⟨rfl,rfl⟩ := List.cons.inj hrest
        obtain ⟨d,hd,-,hc⟩ | hall := encodeChar_cases c
        · rw [hd] at ht
          obtain ⟨rfl,hsingle⟩ : p = [] ∧ [d] = b::t := by
            obtain _ | ⟨e,p⟩ := p
            · exact ⟨rfl,ht⟩
            · simp at ht
          obtain ⟨rfl,rfl⟩ := List.cons.inj hsingle
          refine ⟨[],cs,?_,rfl,rfl⟩
          rw [character,← hc,Char.ofNat_toNat,List.nil_append]
        · have habove := (hall b (by rw [ht]; simp)).1
          omega

theorem encode_infix {cs : List Char} {p m q : List UInt8} {a b : UInt8} (ha : a.toNat < 128)
    (hb : b.toNat < 128) (h : encode cs = p++a::m++b::q) :
    ∃ ds, encode ds = m ∧ ∀ c ∈ ds, c ∈ cs := by
  rw [List.append_assoc,List.cons_append] at h
  obtain ⟨before,after,rfl,-,hafter⟩ := encode_split ha h
  obtain ⟨ds,rest,rfl,hds,-⟩ := encode_split hb hafter
  exact ⟨ds,hds,fun c hc => by simp [hc]⟩

theorem encode_characters {bytes : List UInt8} (h : ∀ b ∈ bytes, b.toNat < 128) :
    encode (bytes.map character) = bytes := by
  induction bytes with
  | nil => rfl
  | cons b bytes ih =>
    obtain ⟨hb,hbytes⟩ := List.forall_mem_cons.mp h
    have hrest := ih hbytes
    rw [encode] at hrest ⊢
    rw [List.map_cons,List.flatMap_cons,encodeChar_character hb,hrest,List.singleton_append]

theorem WellFormed.append {p q : List UInt8} (hp : WellFormed p) (hq : WellFormed q) :
    WellFormed (p++q) := by
  obtain ⟨cs,rfl⟩ := hp
  obtain ⟨ds,rfl⟩ := hq
  exact ⟨cs++ds,encode_append cs ds⟩

theorem wellFormed_nil : WellFormed [] := ⟨[],rfl⟩

theorem wellFormed_ascii {m : List UInt8} (h : ∀ b ∈ m, b.toNat < 128) : WellFormed m :=
  ⟨m.map character,encode_characters h⟩

theorem wellFormed_append_cons {p q : List UInt8} {b : UInt8} (hb : b.toNat < 128) :
    WellFormed (p++b::q) ↔ WellFormed p ∧ WellFormed q := by
  constructor
  · rintro ⟨cs,hcs⟩
    obtain ⟨ds,es,-,hp,hq⟩ := encode_split hb hcs
    exact ⟨⟨ds,hp⟩,⟨es,hq⟩⟩
  · rintro ⟨hp,hq⟩
    have hsingle : WellFormed [b] := wellFormed_ascii (by simpa using hb)
    exact hp.append (hsingle.append hq)

theorem wellFormed_ascii_append {m q : List UInt8} (hm : ∀ b ∈ m, b.toNat < 128) :
    WellFormed (m++q) ↔ WellFormed q := by
  induction m with
  | nil => rfl
  | cons b m ih =>
    obtain ⟨hb,hrest⟩ := List.forall_mem_cons.mp hm
    have hsplit := wellFormed_append_cons (p:=[]) (q:=m++q) hb
    exact (hsplit.trans (and_iff_right wellFormed_nil)).trans (ih hrest)

theorem wellFormed_append_ascii {p m : List UInt8} (q : List UInt8) (hne : m ≠ [])
    (hm : ∀ b ∈ m, b.toNat < 128) : WellFormed (p++m++q) ↔ WellFormed p ∧ WellFormed q := by
  obtain ⟨b,m,rfl⟩ := List.exists_cons_of_ne_nil hne
  obtain ⟨hb,hrest⟩ := List.forall_mem_cons.mp hm
  rw [List.append_assoc,List.cons_append,wellFormed_append_cons hb,wellFormed_ascii_append hrest]

theorem wellFormed_append_ascii_right {p m : List UInt8} (hm : ∀ b ∈ m, b.toNat < 128) :
    WellFormed (p++m) ↔ WellFormed p := by
  obtain rfl | hne := eq_or_ne m []
  · rw [List.append_nil]
  · have hsplit := wellFormed_append_ascii (p:=p) [] hne hm
    rw [List.append_nil] at hsplit
    exact hsplit.trans (and_iff_left wellFormed_nil)

/-- A replacement of bytes below 128 by such bytes keeps what is well-formed, and what is not. -/
theorem wellFormed_flatMap {f : UInt8 → List UInt8}
    (hascii : ∀ b, b.toNat < 128 → f b ≠ [] ∧ ∀ c ∈ f b, c.toNat < 128)
    (hplain : ∀ b, 128 ≤ b.toNat → f b = [b]) (s : List UInt8) :
    WellFormed (s.flatMap f) ↔ WellFormed s := by
  induction hlen : s.length using Nat.strong_induction_on generalizing s with
  | _ n ih =>
    by_cases hany : ∃ b ∈ s, b.toNat < 128
    · obtain ⟨b,hmem,hb⟩ := hany
      obtain ⟨p,q,rfl⟩ := List.append_of_mem hmem
      obtain ⟨hne,hm⟩ := hascii b hb
      simp only [List.length_append,List.length_cons] at hlen
      rw [List.flatMap_append,List.flatMap_cons,← List.append_assoc,
        wellFormed_append_ascii _ hne hm,wellFormed_append_cons hb,
        ih p.length (by omega) p rfl,ih q.length (by omega) q rfl]
    · have hsame : s.flatMap f = s := by
        have hpoint : ∀ b ∈ s, f b = [b] :=
          fun b hb => hplain b (Nat.le_of_not_lt fun hlt => hany ⟨b,hb,hlt⟩)
        rw [List.flatMap_congr hpoint]
        simp
      rw [hsame]

end Utf8
end AsyncDataLoader
