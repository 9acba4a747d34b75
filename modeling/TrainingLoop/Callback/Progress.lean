import TrainingLoop.Callback.Context
import TrainingLoop.Notice
/-!
# Progress reports

A callback that reports the start and end of epochs, every so many batches, and validations.
-/

namespace TrainingLoop

structure ProgressReport where
  /-- A report every so many batches; zero for none. -/
  every : Nat := 10
  deriving DecidableEq

namespace ProgressReport

def nan : Float32 := 0.0 / 0.0

def inspectMetrics (m : Metrics) : String :=
  Inspect.map (m.entries.map fun (key, value) => (key, Inspect.number value))

def batches (c : Context) : String × Notice.Value := ("batches", .text c.trainingBatches.text)

def notices (p : ProgressReport) (event : CallbackEvent) (c : Context) : List Notice :=
  match event with
  | .trainEpochStart =>
    [.info "epoch starting"
      [("epoch", .count (c.epoch + 1)), ("max_epochs", .count c.maxEpochs), batches c]]
  | .trainBatchEnd _ =>
    if 0 < p.every && (c.batchIndex + 1) % p.every == 0 then
      [.info "training"
        [("batch", .count (c.batchIndex + 1)), batches c, ("global_step", .count c.globalStep),
          ("loss", .number (c.loss.getD nan))]]
    else []
  | .validationEnd =>
    [.info "validation finished"
      [("epoch", .count (c.epoch + 1)), ("metrics", .text (inspectMetrics c.metrics))]]
  | .epochEnd =>
    [.info "epoch finished"
      [("epoch", .count (c.epoch + 1)), ("max_epochs", .count c.maxEpochs),
        ("loss", .number ((c.metrics.get? "loss_epoch").getD nan))]]
  | _ => []

end ProgressReport

end TrainingLoop
