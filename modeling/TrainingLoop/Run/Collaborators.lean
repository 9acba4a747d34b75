import TrainingLoop.Batches
import TrainingLoop.Callback.Context
import TrainingLoop.Config
import TrainingLoop.Stateful
/-!
# Collaborators of a run

The code that a run drives and does not contain: the batch loop, which does the work of a batch and
has a state `σ` of its own; and the hooks of the model, the accelerator and the evaluator, which
share the world `W`.
-/

namespace TrainingLoop

structure BatchLoop (σ β : Type) where
  /-- Trains on a batch, given its index and that of its data loader. -/
  run : β → Nat → Nat → Stateful σ BatchOutput
  /-- The last batch closed an accumulation window. -/
  closedWindow : σ → Bool
  /-- Takes the width of the accumulation windows. A loop that steps on every batch has windows of
  one batch only. -/
  setAccumulation : Nat → Stateful σ Unit := fun batches =>
    if 1 < batches then throw (.misconfiguration (.accumulationUnsupported batches)) else pure ()

/-- A call of a hook that a model may override. -/
inductive HookCall (β : Type) where
  | trainEpochStart
  | trainBatchEnd (outputs : Processed) (batch : β) (index dataloader : Nat)
  | batchEnd
  | trainEpochEnd (outputs : Processed)
  | epochEnd

namespace HookCall

variable {β : Type}

def event : HookCall β → CallbackEvent
  | trainEpochStart => .trainEpochStart
  | trainBatchEnd outputs _ _ _ => .trainBatchEnd outputs
  | batchEnd => .batchEnd
  | trainEpochEnd outputs => .trainEpochEnd outputs
  | epochEnd => .epochEnd

def name (call : HookCall β) : String := call.event.name

end HookCall

/-- The two forms of a model's hook for the end of a training epoch. -/
inductive EpochEndHook (W : Type) where
  | current (action : Stateful W Unit)
  /-- The deprecated form, which receives the epoch's outputs. -/
  | legacy (action : Processed → Stateful W Unit)

structure ModelHooks (W β : Type) where
  onTrainEpochStart : Option (Stateful W Unit) := none
  /-- Receives the outputs, the batch, its index and that of its data loader. -/
  onTrainBatchEnd : Option (Processed → β → Nat → Nat → Stateful W Unit) := none
  onBatchEnd : Option (Stateful W Unit) := none
  /-- Consumes the epoch's outputs; the answer tells whether it returned a value. -/
  trainingEpochEnd : Option (Processed → Stateful W Bool) := none
  onTrainEpochEnd : Option (EpochEndHook W) := none
  onEpochEnd : Option (Stateful W Unit) := none

namespace ModelHooks

variable {W β : Type}

/-- The model consumes the outputs of an epoch itself. -/
def reduces (m : ModelHooks W β) : Bool := m.trainingEpochEnd.isSome || m.onTrainEpochEnd.isSome

/-- The model's own action for a call, if it overrides the hook. -/
def override? (m : ModelHooks W β) : HookCall β → Option (Stateful W Unit)
  | .trainEpochStart => m.onTrainEpochStart
  | .trainBatchEnd outputs batch index dataloader =>
    m.onTrainBatchEnd.map fun hook => hook outputs batch index dataloader
  | .batchEnd => m.onBatchEnd
  | .trainEpochEnd outputs => m.onTrainEpochEnd.map fun hook =>
    match hook with
    | .current action => action
    | .legacy action => action outputs
  | .epochEnd => m.onEpochEnd

/-- Whether the registered hook for the end of a training epoch has the deprecated form. -/
def legacy? (m : ModelHooks W β) : Option Bool :=
  m.onTrainEpochEnd.map fun hook =>
    match hook with
    | .current _ => false
    | .legacy _ => true

/-- The call goes to a hook of the deprecated form. -/
def isLegacyCall (m : ModelHooks W β) : HookCall β → Bool
  | .trainEpochEnd _ => m.legacy? == some true
  | _ => false

def legacyWarning : String :=
  "`on_train_epoch_end(outputs)` is deprecated; register the hook without the `outputs` argument"

def inspect (m : ModelHooks W β) : String :=
  Inspect.record "ModelHooks" [
    ("on_train_epoch_start", Inspect.bool m.onTrainEpochStart.isSome),
    ("on_train_batch_end", Inspect.bool m.onTrainBatchEnd.isSome),
    ("on_batch_end", Inspect.bool m.onBatchEnd.isSome),
    ("training_epoch_end", Inspect.bool m.trainingEpochEnd.isSome),
    ("on_train_epoch_end", Inspect.option Inspect.bool m.legacy?),
    ("on_epoch_end", Inspect.bool m.onEpochEnd.isSome)]

end ModelHooks

/-- The backend: it owns the devices, and its hooks stand in for those that the model lacks. -/
structure Accelerator (W β : Type) where
  /-- Wraps the data of an epoch. -/
  prepare : Batches β → W → Batches β × W := fun batches world => (batches, world)
  /-- The global step after an optimizer step, given the batches pulled so far and the global step
  before it. -/
  nextStep : Nat → Nat → W → Nat × W := fun _ current world => (current + 1, world)
  /-- This process writes the logs. -/
  isGlobalZero : Bool := true
  respond : HookCall β → Stateful W Unit := fun _ => pure ()

/-- Runs validation in an epoch at a global step, and gives back its metrics. -/
abbrev Evaluator (W : Type) := Nat → Nat → Stateful W Metrics

/-- What stays fixed for a run. -/
structure Setup (W β : Type) where
  config : Config
  model : ModelHooks W β := {}
  accelerator : Accelerator W β := {}
  evaluator : Option (Evaluator W) := none

end TrainingLoop
