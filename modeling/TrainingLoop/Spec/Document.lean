import TrainingLoop.Spec.Simulation
/-!
# Documents of specifications and reports

Specifications and reports as documents, which are written as JSON or YAML text. The format says
how numbers appear in it.
-/

namespace TrainingLoop

def BatchLimit.document (form : NumberForm) : BatchLimit → Document
  | .batches n => .count n
  | .fraction f => form.single f

namespace ParameterValue

mutual

def document (form : NumberForm) : ParameterValue → Document
  | null => .null
  | bool b => .bool b
  | natural n => .count n
  | negative n => .number { NumberLiteral.ofNat n with negative := true }
  | real x => form.double x
  | text s => .text s
  | list items => .list (documents form items)
  | record fields => .record (fieldDocuments form fields)

def documents (form : NumberForm) : List ParameterValue → List Document
  | [] => []
  | item :: rest => document form item :: documents form rest

def fieldDocuments (form : NumberForm) :
    List (String × ParameterValue) → List (String × Document)
  | [] => []
  | (name, value) :: rest => (name, document form value) :: fieldDocuments form rest

end

end ParameterValue

def Config.document (form : NumberForm) (c : Config) : Document :=
  .record [
    ("max_epochs", .count c.maxEpochs),
    ("min_epochs", .count c.minEpochs),
    ("max_steps", Document.ofOption .count c.maxSteps),
    ("min_steps", Document.ofOption .count c.minSteps),
    ("limit_train_batches", c.limitTrainBatches.document form),
    ("val_check_interval", c.valCheckInterval.document form),
    ("check_val_every_n_epoch", .count c.checkValEveryNEpochs),
    ("enable_validation", .bool c.enableValidation),
    ("accumulate_grad_batches", .count c.accumulateGradBatches),
    ("log_every_n_steps", .count c.logEveryNSteps),
    ("flush_logs_every_n_steps", .count c.flushLogsEveryNSteps)]

/-- The parameters stand beside the settings that all schedules share. -/
def ScheduleSpec.document (form : NumberForm) (s : ScheduleSpec) : Document :=
  .record ([
    ("name", .text s.name),
    ("lr", form.single s.rate),
    ("interval", .text s.interval.name),
    ("frequency", .count s.frequency),
    ("monitor", Document.ofOption .text s.monitor)] ++
    ParameterValue.fieldDocuments form s.parameters)

def SyntheticModel.document (form : NumberForm) (m : SyntheticModel) : Document :=
  .record [
    ("batches_per_epoch", .count m.batchesPerEpoch),
    ("num_optimizers", .count m.optimizers),
    ("tbptt_splits", .count m.splits),
    ("initial_loss", form.single m.initialLoss),
    ("decay", form.single m.decay),
    ("noise", form.single m.noise),
    ("reduce_on_epoch_end", Document.ofOption .bool m.reduceOnEpochEnd),
    ("stop_epoch_at", Document.ofOption .count m.stopEpochAt),
    ("seed", .count m.seed.toNat)]

def SimulationSpec.document (form : NumberForm) (s : SimulationSpec) : Document :=
  .record [
    ("model", s.model.document form),
    ("evaluate", .bool s.evaluate),
    ("training_epoch_end", .bool s.trainingEpochEnd)]

def EarlyStoppingSpec.document (form : NumberForm) (s : EarlyStoppingSpec) : Document :=
  .record [
    ("monitor", .text s.monitor),
    ("patience", .count s.patience),
    ("min_delta", form.single s.minDelta),
    ("on_validation", .bool s.onValidation)]

def LoggingSpec.document (s : LoggingSpec) : Document :=
  .record [
    ("metrics_path", Document.ofOption .text s.metricsPath),
    ("progress_every", .count s.progressEvery)]

def LoopSpec.document (form : NumberForm) (s : LoopSpec) : Document :=
  .record [
    ("trainer", s.trainer.document form),
    ("schedulers", .list (s.schedules.map (ScheduleSpec.document form))),
    ("simulation", s.simulation.document form),
    ("early_stopping", Document.ofOption (EarlyStoppingSpec.document form) s.earlyStopping),
    ("logging", s.logging.document)]

def Progress.document (p : Progress) : Document :=
  .record [("global_step", .count p.globalStep), ("total_batch_idx", .count p.totalBatches)]

/-- The result of a run as JSON data, with the seconds that it took. -/
def FitResult.document (elapsed : Document) (r : FitResult) : Document :=
  .record [
    ("epochs_completed", .count r.epochsCompleted),
    ("progress", r.progress.document),
    ("stop_reason", .text r.stopReason.name),
    ("last_epoch_outputs", r.lastEpochOutputs.document),
    ("best_loss", Document.ofOption Document.jsonSingle r.bestLoss),
    ("elapsed_secs", elapsed)]

def SimulationReport.document (elapsed : Document) (r : SimulationReport) : Document :=
  .record [
    ("fit", r.fit.document elapsed),
    ("learning_rates", .list (r.rates.map Document.jsonSingle)),
    ("callback_metrics", Processed.metricsDocument r.metrics),
    ("epoch_history", .list (r.history.map Processed.metricsDocument)),
    ("epoch_end_calls", .count r.epochEndCalls)]

end TrainingLoop
