import AsyncDataLoader.BuiltinStages
import Mathlib.Order.Bounds.Basic

/-!
# Min-max normalization

What `NormalizeStage` makes of a block depends on its least and its greatest byte only. It
stretches the bytes between them to the byte range, in the arithmetic of `unsigned int`.
-/

namespace AsyncDataLoader

open FileIO

namespace NormalizeStage

/-- The arithmetic of `unsigned int` and the cast to a byte; what would wrap, be undefined or be
cut off has no value. -/
def unsignedSub (left right : ℕ) : Option ℕ := if right ≤ left then some (left-right) else none

def unsignedMul (left right : ℕ) : Option ℕ := if left*right < 2^32 then some (left*right) else none

def unsignedDiv (left right : ℕ) : Option ℕ := if right = 0 then none else some (left/right)

def castByte (value : ℕ) : Option UInt8 := if value < 2^8 then some (UInt8.ofNat value) else none

/-- The body of the last loop, in this arithmetic. -/
def normalizedExact (minimum range : ℕ) (value : UInt8) : Option UInt8 := do
  let difference ← unsignedSub value.toNat minimum
  let product ← unsignedMul difference 255
  let normalized ← unsignedDiv product range
  castByte normalized

/-- `NormalizeStage::process` in this arithmetic. -/
def processExact : Bytes → Option Bytes
  | [] => some []
  | front::rest =>
    let (minimum,maximum) := extremes front (front::rest)
    if minimum = maximum then some ((front::rest).map fun _ => 0)
    else do
      let range ← unsignedSub maximum minimum
      (front::rest).mapM (normalizedExact minimum range)

def values (block : Bytes) : Set ℕ := {n | ∃ a ∈ block, a.toNat = n}

theorem values_cons (a : UInt8) (block : Bytes) :
    values (a::block) = insert a.toNat (values block) := by
  ext n
  simp [values,eq_comm]

section Bounds

variable {s : Set ℕ} {a b r : ℕ}

theorem isLeast_insert_min (h : IsLeast (insert (min a b) s) r) :
    IsLeast (insert a (insert b s)) r := by
  obtain ⟨hmem,hlow⟩ := h
  have hmin := hlow (Set.mem_insert _ _)
  refine ⟨?_,?_⟩
  · obtain rfl | hmem := hmem
    · obtain hleft | hright := min_choice a b
      · rw [hleft]
        exact .inl rfl
      · rw [hright]
        exact .inr (.inl rfl)
    · exact .inr (.inr hmem)
  · rintro n (rfl | rfl | hn)
    · exact hmin.trans (min_le_left _ _)
    · exact hmin.trans (min_le_right _ _)
    · exact hlow (.inr hn)

theorem isGreatest_insert_max (h : IsGreatest (insert (max a b) s) r) :
    IsGreatest (insert a (insert b s)) r := by
  obtain ⟨hmem,hhigh⟩ := h
  have hmax := hhigh (Set.mem_insert _ _)
  refine ⟨?_,?_⟩
  · obtain rfl | hmem := hmem
    · obtain hleft | hright := max_choice a b
      · rw [hleft]
        exact .inl rfl
      · rw [hright]
        exact .inr (.inl rfl)
    · exact .inr (.inr hmem)
  · rintro n (rfl | rfl | hn)
    · exact (le_max_left _ _).trans hmax
    · exact (le_max_right _ _).trans hmax
    · exact hhigh (.inr hn)

end Bounds

/-- The body of the first loop. -/
def scan (found : ℕ × ℕ) (value : UInt8) : ℕ × ℕ :=
  (if value.toNat < found.1 then value.toNat else found.1,
    if value.toNat > found.2 then value.toNat else found.2)

theorem scan_eq (found : ℕ × ℕ) (value : UInt8) :
    scan found value = (min found.1 value.toNat,max found.2 value.toNat) := by
  rw [scan,min_comm,min_def_lt,max_def_lt]

theorem foldl_scan (block : Bytes) (found : ℕ × ℕ) :
    IsLeast (insert found.1 (values block)) (block.foldl scan found).1 ∧
      IsGreatest (insert found.2 (values block)) (block.foldl scan found).2 := by
  induction block generalizing found with
  | nil =>
    have hnone : values [] = ∅ := by simp [values]
    rw [hnone]
    simp
  | cons value block ih =>
    obtain ⟨hleast,hgreatest⟩ := ih (scan found value)
    rw [values_cons,List.foldl_cons]
    rw [scan_eq] at hleast hgreatest ⊢
    exact ⟨isLeast_insert_min hleast,isGreatest_insert_max hgreatest⟩

theorem extremes_spec (front : UInt8) (rest : Bytes) :
    IsLeast (values (front::rest)) (extremes front (front::rest)).1 ∧
      IsGreatest (values (front::rest)) (extremes front (front::rest)).2 := by
  have hscan := foldl_scan (front::rest) (front.toNat,front.toNat)
  have hfront : front.toNat ∈ values (front::rest) := ⟨front,List.mem_cons_self,rfl⟩
  rwa [Set.insert_eq_of_mem hfront] at hscan

def stretch (minimum maximum : ℕ) (value : UInt8) : UInt8 :=
  if minimum = maximum then 0 else normalized minimum maximum value

/-- The range of the values of a block. -/
structure Spans (block : Bytes) (minimum maximum : ℕ) : Prop where
  least : IsLeast (values block) minimum
  greatest : IsGreatest (values block) maximum

theorem Spans.process {block : Bytes} {minimum maximum : ℕ} (h : Spans block minimum maximum) :
    process block = block.map (stretch minimum maximum) := by
  cases block with
  | nil => rfl
  | cons front rest =>
    obtain ⟨hleast,hgreatest⟩ := extremes_spec front rest
    simp only [NormalizeStage.process,hleast.unique h.least,hgreatest.unique h.greatest]
    unfold stretch
    split_ifs <;> rfl

theorem exists_spans {block : Bytes} (h : block ≠ []) : ∃ minimum maximum,
    Spans block minimum maximum := by
  cases block with
  | nil => exact absurd rfl h
  | cons front rest =>
    obtain ⟨hleast,hgreatest⟩ := extremes_spec front rest
    exact ⟨_,_,hleast,hgreatest⟩

section Spans

variable {block : Bytes} {minimum maximum : ℕ} {a b : UInt8}

theorem Spans.le (h : Spans block minimum maximum) (ha : a ∈ block) :
    minimum ≤ a.toNat ∧ a.toNat ≤ maximum :=
  ⟨h.least.2 ⟨a,ha,rfl⟩,h.greatest.2 ⟨a,ha,rfl⟩⟩

theorem quotient_le (hb : b.toNat ≤ maximum) :
    (b.toNat-minimum)*255/(maximum-minimum) ≤ 255 := by
  have hle : (b.toNat-minimum)*255 ≤ (maximum-minimum)*255 :=
    Nat.mul_le_mul_right 255 (Nat.sub_le_sub_right hb minimum)
  exact Nat.div_le_of_le_mul hle

theorem normalized_toNat (hb : b.toNat ≤ maximum) :
    (normalized minimum maximum b).toNat = (b.toNat-minimum)*255/(maximum-minimum) := by
  have hle := @quotient_le minimum maximum b hb
  rw [normalized,UInt8.toNat_ofNat']
  exact Nat.mod_eq_of_lt (by omega)

theorem stretch_mono (hab : a ≤ b) (hb : b.toNat ≤ maximum) :
    stretch minimum maximum a ≤ stretch minimum maximum b := by
  unfold stretch
  split_ifs with heq
  · exact UInt8.le_refl 0
  · have hab : a.toNat ≤ b.toNat := UInt8.le_iff_toNat_le.mp hab
    rw [UInt8.le_iff_toNat_le,normalized_toNat hb,normalized_toNat (hab.trans hb)]
    exact Nat.div_le_div_right (Nat.mul_le_mul_right _ (Nat.sub_le_sub_right hab _))

theorem stretch_minimum (ha : a.toNat = minimum) (hle : minimum ≤ maximum) :
    stretch minimum maximum a = 0 := by
  unfold stretch
  split_ifs with heq
  · rfl
  · rw [← UInt8.toNat_inj,normalized_toNat (ha.le.trans hle),ha,Nat.sub_self,Nat.zero_mul,
      Nat.zero_div]
    rfl

theorem stretch_maximum (ha : a.toNat = maximum) (hlt : minimum < maximum) :
    stretch minimum maximum a = 255 := by
  rw [stretch,if_neg hlt.ne,← UInt8.toNat_inj,normalized_toNat ha.le,ha,
    Nat.mul_div_cancel_left _ (Nat.sub_pos_of_lt hlt)]
  rfl

theorem stretch_whole (a : UInt8) : stretch 0 255 a = a := by
  have hle : a.toNat ≤ 255 := Nat.le_of_lt_succ a.toNat_lt
  rw [stretch,if_neg (by decide),← UInt8.toNat_inj,normalized_toNat hle,Nat.sub_zero,Nat.sub_zero,
    Nat.mul_div_cancel _ (by decide)]

/-- The arithmetic of `unsigned int` is that of the natural numbers here. -/
theorem Spans.normalizedExact (h : Spans block minimum maximum) (hlt : minimum < maximum)
    (ha : a ∈ block) :
    normalizedExact minimum (maximum-minimum) a = some (stretch minimum maximum a) := by
  obtain ⟨hlow,hhigh⟩ := h.le ha
  have hproduct : (a.toNat-minimum)*255 < 2^32 := by
    have hbyte := a.toNat_lt
    omega
  have hrange : maximum-minimum ≠ 0 := Nat.sub_ne_zero_of_lt hlt
  have hquotient := @quotient_le minimum maximum a hhigh
  have hfits : (a.toNat-minimum)*255/(maximum-minimum) < 2^8 := by omega
  simp only [NormalizeStage.normalizedExact,unsignedSub,if_pos hlow,unsignedMul,if_pos hproduct,
    unsignedDiv,if_neg hrange,castByte,Option.bind_eq_bind,Option.bind_some,if_pos hfits,stretch,
    if_neg hlt.ne,normalized]

theorem mapM_eq_some {f : UInt8 → Option UInt8} {g : UInt8 → UInt8}
    (h : ∀ a ∈ block, f a = some (g a)) : block.mapM f = some (block.map g) := by
  induction block with
  | nil => rfl
  | cons a block ih =>
    obtain ⟨ha,hrest⟩ := List.forall_mem_cons.mp h
    rw [List.mapM_cons,ha,ih hrest]
    rfl

theorem processExact_eq (block : Bytes) : processExact block = some (process block) := by
  cases block with
  | nil => rfl
  | cons front rest =>
    obtain ⟨hleast,hgreatest⟩ := extremes_spec front rest
    have hspans : Spans (front::rest) _ _ := ⟨hleast,hgreatest⟩
    have hle := hleast.2 hgreatest.1
    rw [hspans.process]
    simp only [processExact]
    by_cases heq : (extremes front (front::rest)).1 = (extremes front (front::rest)).2
    · rw [if_pos heq]
      refine congrArg some (List.map_congr_left fun a _ => ?_)
      rw [stretch,if_pos heq]
    · rw [if_neg heq,unsignedSub,if_pos hle,Option.bind_eq_bind,Option.bind_some]
      exact mapM_eq_some fun a ha => hspans.normalizedExact (lt_of_le_of_ne hle heq) ha

theorem Spans.perm (h : Spans block minimum maximum) {block' : Bytes} (hperm : block'.Perm block) :
    Spans block' minimum maximum := by
  have hvalues : values block' = values block := by
    ext n
    simp only [values,hperm.mem_iff]
  refine ⟨?_,?_⟩ <;> rw [hvalues]
  · exact h.least
  · exact h.greatest

theorem Spans.stretched (h : Spans block minimum maximum) (hlt : minimum < maximum) :
    Spans (block.map (stretch minimum maximum)) 0 255 := by
  obtain ⟨a,ha,hleast⟩ := h.least.1
  obtain ⟨b,hb,hgreatest⟩ := h.greatest.1
  refine ⟨⟨⟨0,?_,rfl⟩,fun n _ => Nat.zero_le n⟩,⟨255,?_,rfl⟩,?_⟩
  · exact List.mem_map.mpr ⟨a,ha,stretch_minimum hleast hlt.le⟩
  · exact List.mem_map.mpr ⟨b,hb,stretch_maximum hgreatest hlt⟩
  · rintro n ⟨c,-,rfl⟩
    exact Nat.le_of_lt_succ c.toNat_lt

end Spans

theorem process_process (block : Bytes) : process (process block) = process block := by
  cases block with
  | nil => rfl
  | cons front rest =>
    obtain ⟨minimum,maximum,h⟩ := exists_spans (List.cons_ne_nil front rest)
    rw [h.process]
    obtain hlt | heq := (h.least.2 h.greatest.1).lt_or_eq
    · rw [(h.stretched hlt).process,List.map_map]
      exact List.map_congr_left fun a _ => stretch_whole _
    · -- All bytes are zero, and stay so.
      have hzero : stretch minimum maximum = fun _ => 0 := by
        funext a
        rw [stretch,if_pos heq]
      rw [hzero]
      have hspans : Spans ((front::rest).map fun _ => (0 : UInt8)) 0 0 := by
        refine ⟨⟨⟨0,by simp,rfl⟩,fun n _ => Nat.zero_le n⟩,⟨0,by simp,rfl⟩,?_⟩
        rintro n ⟨c,hc,rfl⟩
        obtain ⟨-,-,rfl⟩ := List.mem_map.mp hc
        exact le_refl _
      rw [hspans.process,List.map_map]
      rfl

/-- A block in another order gives the same bytes in that order. -/
theorem process_reorder (block : Bytes) {order : List ℕ}
    (horder : order.Perm (List.range block.length)) :
    process (order.map fun i => block.getD i 0) = order.map fun i => (process block).getD i 0 := by
  have hblock : (List.range block.length).map (fun i => block.getD i 0) = block := by
    apply List.ext_getElem
    · simp
    · intro i hi hj
      simp [hj]
  have hperm : (order.map fun i => block.getD i 0).Perm block := by
    have hmap := horder.map fun i => block.getD i 0
    rwa [hblock] at hmap
  cases block with
  | nil =>
    obtain rfl := List.perm_nil.mp horder
    rfl
  | cons front rest =>
    obtain ⟨minimum,maximum,h⟩ := exists_spans (List.cons_ne_nil front rest)
    rw [(h.perm hperm).process,h.process,List.map_map]
    refine List.map_congr_left fun i hi => ?_
    have hlt : i < (front::rest).length := List.mem_range.mp (horder.mem_iff.mp hi)
    simp only [Function.comp_apply,List.getD_eq_getElem?_getD,List.getElem?_map,
      List.getElem?_eq_getElem hlt,Option.map_some,Option.getD_some]

end NormalizeStage

open NormalizeStage in
/-- Normalization is exact in `unsigned int`, keeps the length and the order of the bytes, maps the
least to 0 and the greatest to 255, commutes with every permutation, and needs no repetition. -/
theorem normalize_laws (block : Bytes) :
    let result := process block
    processExact block = some result ∧
    result.length = block.length ∧
    (∀ (i j : ℕ) a b a' b', block[i]? = some a → block[j]? = some b → result[i]? = some a' →
      result[j]? = some b' → (a ≤ b → a' ≤ b') ∧ (a = b → a' = b')) ∧
    (∀ (i : ℕ) a a', block[i]? = some a → result[i]? = some a' →
      ((∀ b ∈ block, a ≤ b) → a' = 0) ∧
      ((∀ b ∈ block, b ≤ a) → (∃ b ∈ block, b ≠ a) → a' = 255) ∧
      ((∀ b ∈ block, b = a) → a' = 0)) ∧
    (∀ order : List ℕ, order.Perm (List.range block.length) →
      process (order.map fun i => block.getD i 0) = order.map fun i => result.getD i 0) ∧
    process result = result := by
  intro result
  refine ⟨processExact_eq block,process_length block,?_,?_,fun order => process_reorder block,
    process_process block⟩
  · intro i j a b a' b' ha hb ha' hb'
    obtain ⟨minimum,maximum,h⟩ := exists_spans (List.ne_nil_of_mem (List.mem_of_getElem? ha))
    have hresult : result = block.map (stretch minimum maximum) := h.process
    rw [hresult,List.getElem?_map,ha] at ha'
    rw [hresult,List.getElem?_map,hb] at hb'
    obtain rfl := Option.some.inj ha'
    obtain rfl := Option.some.inj hb'
    exact ⟨fun hab => stretch_mono hab (h.le (List.mem_of_getElem? hb)).2,
      fun hab => congrArg _ hab⟩
  · intro i a a' ha ha'
    have hmem := List.mem_of_getElem? ha
    obtain ⟨minimum,maximum,h⟩ := exists_spans (List.ne_nil_of_mem hmem)
    have hresult : result = block.map (stretch minimum maximum) := h.process
    rw [hresult,List.getElem?_map,ha] at ha'
    obtain rfl := Option.some.inj ha'
    have hleast : (∀ b ∈ block, a ≤ b) → stretch minimum maximum a = 0 := by
      intro hall
      obtain ⟨b,hb,heq⟩ := h.least.1
      have hle : a.toNat ≤ b.toNat := UInt8.le_iff_toNat_le.mp (hall b hb)
      have hge := (h.le hmem).1
      exact stretch_minimum (by omega) (h.least.2 h.greatest.1)
    refine ⟨hleast,fun hall hother => ?_,fun hall => hleast fun b hb => ?_⟩
    · obtain ⟨b,hb,heq⟩ := h.greatest.1
      have hle : b.toNat ≤ a.toNat := UInt8.le_iff_toNat_le.mp (hall b hb)
      have hge := (h.le hmem).2
      obtain ⟨c,hc,hne⟩ := hother
      have hcle : c.toNat ≤ a.toNat := UInt8.le_iff_toNat_le.mp (hall c hc)
      have hcne : c.toNat ≠ a.toNat := fun heq => hne (UInt8.toNat_inj.mp heq)
      have hclow := (h.le hc).1
      exact stretch_maximum (by omega) (by omega)
    · rw [hall b hb]
      exact UInt8.le_refl a

end AsyncDataLoader
