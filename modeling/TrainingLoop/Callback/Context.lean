import TrainingLoop.Output.Processed
import TrainingLoop.State
/-!
# What callbacks are told

The events of a run that callbacks hear of, the view of the run that comes with an event, and the
answer that a callback gives.
-/

namespace TrainingLoop

/-- The run as a callback sees it. -/
structure Context where
  epoch : Nat := 0
  maxEpochs : Nat := 0
  batchIndex : Nat := 0
  trainingBatches : BatchCount := .finite 0
  globalStep : Nat := 0
  totalBatches : Nat := 0
  /-- Mean loss of the current batch. -/
  loss : Option Float32 := none
  /-- Learning rate of the first schedule. -/
  rate : Option Float32 := none
  metrics : Metrics := ∅
  stage : Stage := .training
  deriving DecidableEq

inductive CallbackEvent where
  | trainStart
  | trainEpochStart
  | trainBatchEnd (outputs : Processed)
  | batchEnd
  | validationEnd
  | trainEpochEnd (outputs : Processed)
  | epochEnd
  | trainEnd

namespace CallbackEvent

def name : CallbackEvent → String
  | trainStart => "on_train_start"
  | trainEpochStart => "on_train_epoch_start"
  | trainBatchEnd _ => "on_train_batch_end"
  | batchEnd => "on_batch_end"
  | validationEnd => "on_validation_end"
  | trainEpochEnd _ => "on_train_epoch_end"
  | epochEnd => "on_epoch_end"
  | trainEnd => "on_train_end"

def outputs? : CallbackEvent → Option Processed
  | trainBatchEnd outputs => some outputs
  | trainEpochEnd outputs => some outputs
  | _ => none

/-- When a run has ended there is nothing left to stop. -/
def mayStop : CallbackEvent → Bool
  | trainEnd => false
  | _ => true

end CallbackEvent

/-- What a callback asks for. A stop is honoured once the least epochs and steps are complete. -/
inductive CallbackAction where
  | proceed
  | stop
  deriving DecidableEq, Repr

namespace CallbackAction

instance : Inhabited CallbackAction := ⟨proceed⟩

def isStop (a : CallbackAction) : Bool := a == stop

/-- A stop if either is one. -/
def merge (a b : CallbackAction) : CallbackAction := if a.isStop || b.isStop then stop else proceed

end CallbackAction

end TrainingLoop
