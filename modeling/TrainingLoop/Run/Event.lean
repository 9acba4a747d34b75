import TrainingLoop.Metric.Record
import TrainingLoop.Rate.Board
import TrainingLoop.Run.Collaborators
/-!
# The events of a run

What a run did, call by call: every hook that it dispatched, every collaborator that it called and
every batch that it pulled, in order. A call is recorded before it is made; what came of it is
recorded where it is a request to stop or a failure.
-/

namespace TrainingLoop

inductive Hook where
  | trainStart
  | trainEpochStart
  | trainBatchEnd
  | batchEnd
  | validationEnd
  | trainingEpochEnd
  | trainEpochEnd
  | epochEnd
  | trainEnd
  deriving DecidableEq, Repr

namespace Hook

def name : Hook → String
  | trainStart => "on_train_start"
  | trainEpochStart => "on_train_epoch_start"
  | trainBatchEnd => "on_train_batch_end"
  | batchEnd => "on_batch_end"
  | validationEnd => "on_validation_end"
  | trainingEpochEnd => "training_epoch_end"
  | trainEpochEnd => "on_train_epoch_end"
  | epochEnd => "on_epoch_end"
  | trainEnd => "on_train_end"

end Hook

def HookCall.hook {β : Type} : HookCall β → Hook
  | trainEpochStart => .trainEpochStart
  | trainBatchEnd _ _ _ _ => .trainBatchEnd
  | batchEnd => .batchEnd
  | trainEpochEnd _ => .trainEpochEnd
  | epochEnd => .epochEnd

inductive RunEvent (β : Type) where
  /-- The batch loop was given the width of the accumulation windows. -/
  | accumulation (batches : Nat)
  /-- The data of an epoch were asked for. -/
  | dataRequested (epoch : Nat)
  | dispatched (hook : Hook)
  /-- The callback at a position heard of an event. -/
  | callback (position : Nat) (event : CallbackEvent) (context : Context)
  /-- The callback at a position answered with a request to stop. -/
  | stopAsked (position : Nat)
  /-- The model's override of a hook was called. -/
  | model (call : HookCall β)
  /-- The accelerator's hook was called in place of the model's. -/
  | accelerator (call : HookCall β)
  /-- The model consumed the outputs of an epoch. -/
  | reduced (outputs : Processed)
  | pulled (index : Nat) (isLast : Bool)
  | batchRun (batch : β) (index dataloader : Nat)
  /-- The batch loop asked to end the epoch, at the batch of an index. -/
  | signalled (index : Nat)
  /-- The accelerator was asked for the next global step. -/
  | stepRequested (totalBatches current : Nat)
  /-- The schedules of an interval ticked. -/
  | ratesTicked (interval : Interval)
  | evaluated (epoch globalStep : Nat)
  | logged (record : LogRecord)
  | saved
  /-- The call recorded last failed. -/
  | failed (error : Error)

end TrainingLoop
