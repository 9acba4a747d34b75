import TrainingLoop.Limit
/-!
# Counters of a run

The counters that survive an epoch, those of one epoch, and the stages that a run goes through.
-/

namespace TrainingLoop

/-- The counters that go on from epoch to epoch. -/
structure Progress where
  /-- Optimizer steps taken. -/
  globalStep : Nat := 0
  /-- Batches pulled, over all epochs. -/
  totalBatches : Nat := 0
  deriving DecidableEq, Repr

/-- The counters of one epoch, and the bounds of the global step. -/
structure EpochCounters where
  /-- Index within the epoch of the last batch pulled. -/
  batchIndex : Nat := 0
  /-- Batches pulled in this epoch. -/
  batchesSeen : Nat := 0
  dataloaderIndex : Nat := 0
  isLastBatch : Bool := false
  /-- The batch loop asked to end the epoch. -/
  skipRemaining : Bool := false
  minSteps : Option Nat := none
  maxSteps : Option Nat := none
  deriving DecidableEq, Repr

namespace EpochCounters

/-- The counters at the start of an epoch; the bounds stay. -/
def reset (c : EpochCounters) : EpochCounters := { minSteps := c.minSteps, maxSteps := c.maxSteps }

def minStepsReached (c : EpochCounters) (globalStep : Nat) : Bool :=
  match c.minSteps with
  | none => true
  | some least => least ≤ globalStep

def maxStepsReached (c : EpochCounters) (globalStep : Nat) : Bool :=
  match c.maxSteps with
  | none => false
  | some most => most ≤ globalStep

end EpochCounters

inductive Stage where
  | training
  | validating
  deriving DecidableEq, Repr

namespace Stage

def name : Stage → String
  | training => "training"
  | validating => "validating"

def inspect : Stage → String
  | training => "Training"
  | validating => "Validating"

end Stage

inductive StopReason where
  | maxEpochs
  | maxSteps
  | requested
  deriving DecidableEq, Repr

namespace StopReason

def name : StopReason → String
  | maxEpochs => "max_epochs"
  | maxSteps => "max_steps"
  | requested => "requested"

def inspect : StopReason → String
  | maxEpochs => "MaxEpochs"
  | maxSteps => "MaxSteps"
  | requested => "Requested"

end StopReason

end TrainingLoop
