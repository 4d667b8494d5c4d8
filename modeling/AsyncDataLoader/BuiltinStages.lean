import AsyncDataLoader.Stage

/-!
# Built-in stages

`ByteIncrementStage` changes every byte on its own; `NormalizeStage` stretches the values of
a block to the byte range, so that its result depends on where the block ends.
-/

namespace AsyncDataLoader

open FileIO

def byteIncrementStage : Stage Unit where
  process := fun state block => ⟨state,block.map fun value => UInt8.ofNat (value.toNat+1),none⟩
  process_length := fun _ _ => List.length_map _

namespace NormalizeStage

/-- The loop that finds `minimum` and `maximum`. -/
def extremes (front : UInt8) (block : Bytes) : ℕ × ℕ :=
  block.foldl (fun (minimum,maximum) value =>
    (if value.toNat < minimum then value.toNat else minimum,
      if value.toNat > maximum then value.toNat else maximum)) (front.toNat,front.toNat)

def normalized (minimum maximum : ℕ) (value : UInt8) : UInt8 :=
  UInt8.ofNat ((value.toNat-minimum)*255/(maximum-minimum))

def process : Bytes → Bytes
  | [] => []
  | front::rest =>
    let (minimum,maximum) := extremes front (front::rest)
    if minimum = maximum then (front::rest).map fun _ => 0
    else (front::rest).map (normalized minimum maximum)

theorem process_length (block : Bytes) : (process block).length = block.length := by
  cases block with
  | nil => rfl
  | cons front rest =>
    simp only [process]
    split <;> simp

end NormalizeStage

def normalizeStage : Stage Unit where
  process := fun state block => ⟨state,NormalizeStage.process block,none⟩
  process_length := fun _ block => NormalizeStage.process_length block

example : NormalizeStage.process [0,10,20] = [0,127,255] := by decide

end AsyncDataLoader
