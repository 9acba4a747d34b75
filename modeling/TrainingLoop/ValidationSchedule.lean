import TrainingLoop.Limit
/-!
# The validation schedule

After which batches of an epoch the evaluator runs. The schedule is asked twice: after every batch
of the epoch, and once at its end.
-/

namespace TrainingLoop

/-- What stays fixed for an epoch. -/
structure ValidationSchedule where
  interval : BatchCount
  everyNEpochs : Nat
  trainingBatches : BatchCount
  enabled : Bool
  deriving DecidableEq, Repr

namespace ValidationSchedule

/-- The epoch is one of those that are validated. -/
def coversEpoch (v : ValidationSchedule) (epoch : Nat) : Bool :=
  v.enabled && 0 < v.everyNEpochs && (epoch + 1) % v.everyNEpochs == 0

/-- Validation runs in the middle of an epoch, after the batch of the given index. The batch that
completes the epoch is left to its end. -/
def dueAfterBatch (v : ValidationSchedule) (epoch batchIndex : Nat) : Bool :=
  v.interval.divides (batchIndex + 1) && !v.trainingBatches.divides (batchIndex + 1) &&
    v.coversEpoch epoch

/-- Validation runs at the end of an epoch whose last batch had the given index: if the interval
ends with the epoch, a stop was requested, or data without a length ran out. -/
def dueAfterEpoch (v : ValidationSchedule) (epoch : Nat) (stopRequested : Bool) (batchIndex : Nat)
    (lastOfData : Bool) : Bool :=
  ((v.interval.divides (batchIndex + 1) && v.trainingBatches.divides (batchIndex + 1)) ||
      stopRequested || (lastOfData && v.interval.isInfinite)) &&
    v.coversEpoch epoch

end ValidationSchedule

end TrainingLoop
