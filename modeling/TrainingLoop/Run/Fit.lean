import TrainingLoop.Run.Epoch
/-!
# A training run

Epochs back to back, until the configured epochs or steps are complete or a stop request is
honoured. A stop request is honoured once the least epochs and steps are complete; before that it
is cleared and training goes on.
-/

namespace TrainingLoop

/-- A run with all that it changes. -/
structure FitRun (σ W β : Type) where
  trainer : Trainer W β
  worker : σ
  progress : Progress := {}
  /-- The next epoch to run. -/
  currentEpoch : Nat := 0

structure FitResult where
  epochsCompleted : Nat
  progress : Progress
  stopReason : StopReason
  lastEpochOutputs : Processed
  /-- The least average loss of an epoch, if any epoch logged one. -/
  bestLoss : Option Float32

namespace FitResult

def stoppedEarly (r : FitResult) : Bool := r.stopReason == .requested

end FitResult

/-- The metric by which a run's best epoch is told. -/
def lossAverageKey : String := lossKey ++ epochSuffix

/-- Epochs that a run has completed, and the outputs of the last of them. -/
structure Completed where
  epochs : Nat := 0
  lastOutputs : Processed := .nothing

namespace FitRun

variable {σ W β : Type}

def mapTrainer (f : Trainer W β → Trainer W β) (r : FitRun σ W β) : FitRun σ W β :=
  { r with trainer := f r.trainer }

/-- The epoch that this run goes into. -/
def epochRun (config : Config) (r : FitRun σ W β) : EpochRun σ W β :=
  { trainer := r.trainer
    worker := r.worker
    progress := r.progress
    counters := { minSteps := config.minSteps, maxSteps := config.maxSteps } }

/-- The bounds that end a run by themselves. -/
def limitReached? (config : Config) (r : FitRun σ W β) : Option StopReason :=
  if config.maxEpochs ≤ r.currentEpoch then some .maxEpochs
  else
    match config.maxSteps with
    | none => none
    | some most => if most ≤ r.progress.globalStep then some .maxSteps else none

/-- The least epochs and steps are complete. -/
def mayStop (config : Config) (r : FitRun σ W β) : Bool :=
  config.minEpochs ≤ r.currentEpoch &&
    (match config.minSteps with
      | none => true
      | some least => decide (least ≤ r.progress.globalStep))

/-- Why the run ends before its next epoch, if it does. -/
def stopReason? (config : Config) (r : FitRun σ W β) : Option StopReason :=
  (r.limitReached? config).or
    (if r.trainer.state.shouldStop && r.mayStop config then some .requested else none)

/-- A stop request that comes too early, cleared and reported. -/
def declineStop (config : Config) (r : FitRun σ W β) : FitRun σ W β :=
  if r.trainer.state.shouldStop then
    r.mapTrainer fun t => (t.report [.info
      "stop requested before the minimum epochs or steps were met; training continues"
      [("min_epochs", .count config.minEpochs),
        ("min_steps", .text (Inspect.option Inspect.count config.minSteps))]]).clearStop
  else r

/-- The next epoch made the current one, its data asked for. -/
def enterEpoch (r : FitRun σ W β) : FitRun σ W β :=
  r.mapTrainer fun t =>
    { t with state := { t.state with currentEpoch := r.currentEpoch } }.record
      (.dataRequested r.currentEpoch)

/-- The start of the run told to the callbacks. -/
def tellStart (setup : Setup W β) (r : FitRun σ W β) : FitRun σ W β :=
  r.mapTrainer fun t => t.tellCallbacks .trainStart .trainStart (t.context setup r.progress 0 none)

/-- The end of the run told to the callbacks, and reported. -/
def tellEnd (setup : Setup W β) (reason : StopReason) (completed : Completed) (r : FitRun σ W β) :
    FitRun σ W β :=
  r.mapTrainer fun t =>
    (t.tellCallbacks .trainEnd .trainEnd (t.context setup r.progress 0 none)).report
      [.info "training finished"
        [("epochs", .count completed.epochs), ("global_step", .count r.progress.globalStep),
          ("reason", .text reason.inspect)]]

/-- Validation runs at the end of the epoch that the counters are of; an epoch without batches has
none. -/
def dueForValidation (setup : Setup W β) (counters : EpochCounters) (r : FitRun σ W β) : Bool :=
  0 < counters.batchesSeen &&
    (r.trainer.validationSchedule setup).dueAfterEpoch r.currentEpoch
      r.trainer.state.shouldStop counters.batchIndex counters.isLastBatch

end FitRun

/-- A step of a run, which may fail. -/
abbrev FitStep (σ W β α : Type) := Stateful (FitRun σ W β) α

namespace FitStep

variable {σ W β α : Type}

def onTrainer (action : TrainerStep W β α) : FitStep σ W β α :=
  Stateful.onPart FitRun.trainer (fun trainer r => { r with trainer }) action

def onWorker (action : Stateful σ α) : FitStep σ W β α :=
  Stateful.onPart FitRun.worker (fun worker r => { r with worker }) action

/-- A step whose failure is recorded. -/
def recordFailure (step : FitStep σ W β α) : FitStep σ W β α :=
  Stateful.noteFailure (fun e r => r.mapTrainer fun t => t.record (.failed e)) step

/-- An epoch run to its end, unless it passes the horizon; gives its outputs and its counters. The
run's counters move on only if the epoch succeeds. -/
def epoch (setup : Setup W β) (loop : BatchLoop σ β) (horizon : Nat) (data : Batches β) :
    FitStep σ W β (Option (Processed × EpochCounters)) :=
  Stateful.of fun r =>
    let (result, e) := (EpochStep.run setup loop horizon data).runOn (r.epochRun setup.config)
    let r := { r with trainer := e.trainer, worker := e.worker }
    match result with
    | .error error => (.error error, r)
    | .ok none => (.ok none, r)
    | .ok (some outputs) => (.ok (some (outputs, e.counters)), { r with progress := e.progress })

/-- Validation at the end of an epoch, if it is due. -/
def evaluateEpoch (setup : Setup W β) (counters : EpochCounters) : FitStep σ W β Unit := do
  let r ← get
  if r.dueForValidation setup counters then
    onTrainer <| TrainerStep.evaluate setup r.progress

/-- What follows the batches of an epoch: validation at its end, the tick of the epoch schedules,
and the step to the next epoch. -/
def closeEpoch (setup : Setup W β) (counters : EpochCounters) : FitStep σ W β Unit := do
  evaluateEpoch setup counters
  onTrainer <| TrainerStep.tickRates .epoch
  modify fun r => { r with currentEpoch := r.currentEpoch + 1 }

/-- One epoch with all that belongs to it, of which gives the outputs. -/
def nextEpoch (setup : Setup W β) (loop : BatchLoop σ β) (horizon : Nat) (data : Nat → Batches β) :
    FitStep σ W β (Option Processed) := do
  modify FitRun.enterEpoch
  let r ← get
  let batches := data r.currentEpoch
  onTrainer <| TrainerStep.resolveCounts setup batches.knownLength
  let r ← get
  onTrainer <| TrainerStep.call setup .trainEpochStart (r.trainer.context setup r.progress 0 none)
  match ← epoch setup loop horizon batches with
  | none => pure none
  | some (outputs, counters) =>
    closeEpoch setup counters
    pure (some outputs)

/-- Epochs until the run ends, of which at most `remaining` are left. -/
def epochs (setup : Setup W β) (loop : BatchLoop σ β) (horizon : Nat) (data : Nat → Batches β) :
    (remaining : Nat) → Completed → FitStep σ W β (Option (StopReason × Completed))
  | remaining, completed => do
    match (← get).stopReason? setup.config with
    | some reason => pure (some (reason, completed))
    | none =>
      match remaining with
      | 0 => pure none
      | remaining + 1 =>
        modify (FitRun.declineStop setup.config)
        match ← nextEpoch setup loop horizon data with
        | none => pure none
        | some outputs =>
          epochs setup loop horizon data remaining ⟨completed.epochs + 1, outputs⟩

/-- The whole run over the data of each epoch; no result if an epoch passes the horizon. -/
def run (setup : Setup W β) (loop : BatchLoop σ β) (horizon : Nat) (data : Nat → Batches β) :
    FitStep σ W β (Option FitResult) := do
  setup.config.check
  let batches := setup.config.accumulateGradBatches
  modify fun r => r.mapTrainer fun t => t.record (.accumulation batches)
  recordFailure <| onWorker <| loop.setAccumulation batches
  modify (FitRun.tellStart setup)
  let remaining := setup.config.maxEpochs - (← get).currentEpoch
  match ← epochs setup loop horizon data remaining {} with
  | none => pure none
  | some (reason, completed) =>
    modify (FitRun.tellEnd setup reason completed)
    let r ← get
    pure <| some
      { epochsCompleted := completed.epochs
        progress := r.progress
        stopReason := reason
        lastEpochOutputs := completed.lastOutputs
        bestLoss := r.trainer.log.best? lossAverageKey }

end FitStep

end TrainingLoop
