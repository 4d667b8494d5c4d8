import AsyncDataLoader.FileIO
import AsyncDataLoader.Gauge

/-!
# Processing stages

A stage keeps a state between blocks, transforms the bytes of a block in place and may
throw, also after partial changes. A `Pipeline` applies its stages in order.
-/

namespace AsyncDataLoader

open FileIO

/-- What a call of `process` leaves behind, normally or by an exception. -/
structure StageResult (σ : Type*) where
  state : σ
  block : Bytes
  failure : Option Failure

/-- A block is a span: a stage changes its bytes and not its length. -/
structure Stage (σ : Type*) where
  process : σ → Bytes → StageResult σ
  process_length : ∀ state block, (process state block).block.length = block.length

structure StageEntry (σ : Type*) where
  stage : Stage σ
  state : σ
  latency : Option Counter

def noOpStage : Stage Unit := ⟨fun state block => ⟨state,block,none⟩,fun _ _ => rfl⟩

structure PipelineResult (σ : Type*) where
  stages : List (StageEntry σ)
  block : Bytes
  failure : Option Failure

namespace Pipeline

variable {σ : Type*}

/-- The timer of an instrumented stage records its sample also when the stage throws. -/
def process : List (StageEntry σ) → Bytes → PipelineResult σ
  | [],block => ⟨[],block,none⟩
  | entry::entries,block =>
    let r := entry.stage.process entry.state block
    let entry' := { entry with
      state := r.state
      latency := entry.latency.map fun samples => samples.increment 1 }
    match r.failure with
    | some failure => ⟨entry'::entries,r.block,some failure⟩
    | none =>
      let rest := process entries r.block
      ⟨entry'::rest.stages,rest.block,rest.failure⟩

@[simp] theorem process_block_length (stages : List (StageEntry σ)) (block : Bytes) :
    (process stages block).block.length = block.length := by
  induction stages generalizing block with
  | nil => rfl
  | cons entry entries ih =>
    have hlen := entry.stage.process_length entry.state block
    cases hf : (entry.stage.process entry.state block).failure with
    | some failure => simp only [process,hf]; exact hlen
    | none => simp only [process,hf]; rw [ih]; exact hlen

@[simp] theorem process_stages_length (stages : List (StageEntry σ)) (block : Bytes) :
    (process stages block).stages.length = stages.length := by
  induction stages generalizing block with
  | nil => rfl
  | cons entry entries ih =>
    cases hf : (entry.stage.process entry.state block).failure with
    | some failure => simp only [process,hf,List.length_cons]
    | none => simp only [process,hf,List.length_cons,ih]

end Pipeline
end AsyncDataLoader
