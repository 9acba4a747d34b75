import TrainingLoop.Output.Kept
import TrainingLoop.Run.Trainer
/-!
# One training epoch

A run of batches: `start` prepares the epoch's data, then batch by batch `advance` trains and
`advanceEnd` does what follows a completed batch, until the epoch `isDone`, and `finish` hands the
kept outputs to the hooks for its end. `run` does it all.

Data may have no end, so `run` has a horizon, a number of batches after which it gives up without
a result. Every run that ends at all is the same for all horizons large enough.
-/

namespace TrainingLoop

/-- Where an epoch stands; its data are at hand while it runs. -/
inductive EpochPhase (β : Type) where
  | notStarted
  | running (feed : Feed β)
  | done

namespace EpochPhase

variable {β : Type}

def isDone : EpochPhase β → Bool
  | done => true
  | _ => false

def name : EpochPhase β → String
  | notStarted => "not_started"
  | running _ => "running"
  | done => "done"

end EpochPhase

/-- An epoch with all that it changes: the trainer and the state of the batch loop as well. -/
structure EpochRun (σ W β : Type) where
  trainer : Trainer W β
  worker : σ
  progress : Progress := {}
  counters : EpochCounters := {}
  phase : EpochPhase β := .notStarted
  /-- The model consumes the epoch's outputs, so that all of them are kept. -/
  modelReduces : Bool := false

/-- What became of an attempt to train on one more batch. -/
inductive Advance where
  /-- A batch was completed, of which some outputs are kept. -/
  | completed (kept : KeptOutputs)
  /-- The batch loop asked to end the epoch; nothing of the batch is kept. -/
  | skipped
  /-- There was no further batch. -/
  | exhausted

/-- The mean of the losses of a batch, if it has any. -/
def Processed.meanLoss? (p : Processed) : Option Float32 :=
  if p.losses.isEmpty then none else some (Single.mean p.losses)

namespace EpochRun

variable {σ W β : Type}

def mapTrainer (f : Trainer W β → Trainer W β) (r : EpochRun σ W β) : EpochRun σ W β :=
  { r with trainer := f r.trainer }

/-- The batches pulled cover the epoch, or the data have run out. -/
def allBatchesSeen (r : EpochRun σ W β) : Bool :=
  r.trainer.state.trainingBatches.reachedBy r.counters.batchesSeen || r.counters.isLastBatch

/-- The epoch ends before a further batch is pulled. -/
def isDone (loop : BatchLoop σ β) (r : EpochRun σ W β) : Bool :=
  r.phase.isDone || r.counters.skipRemaining ||
    (r.counters.maxStepsReached r.progress.globalStep && loop.closedWindow r.worker) ||
    r.trainer.state.shouldStop || r.allBatchesSeen

/-- The last batch ends with an optimizer step: it closed a window or was the last of the epoch. -/
def atStepBoundary (loop : BatchLoop σ β) (r : EpochRun σ W β) : Bool :=
  loop.closedWindow r.worker || r.allBatchesSeen

/-- Validation runs after the last batch, in the middle of the epoch. -/
def dueForValidation (setup : Setup W β) (r : EpochRun σ W β) : Bool :=
  (r.trainer.validationSchedule setup).dueAfterBatch r.trainer.state.currentEpoch
    r.counters.batchIndex

def start (setup : Setup W β) (batches : Batches β) (r : EpochRun σ W β) : EpochRun σ W β :=
  let (batches, world) := setup.accelerator.prepare batches r.trainer.world
  { r with
    trainer := { r.trainer with world }
    counters := r.counters.reset
    phase := .running (.ofBatches batches)
    modelReduces := setup.model.reduces }

def pull (handed : Handed β) (feed : Feed β) (r : EpochRun σ W β) : EpochRun σ W β :=
  { r with
    trainer := r.trainer.record (.pulled handed.index handed.isLast)
    progress := { r.progress with totalBatches := r.progress.totalBatches + 1 }
    counters := { r.counters with
      batchIndex := handed.index
      batchesSeen := r.counters.batchesSeen + 1
      isLastBatch := handed.isLast }
    phase := .running feed }

/-- The rest of the epoch skipped, as the batch loop asked for at the batch of the given index. -/
def skip (batchIndex : Nat) (r : EpochRun σ W β) : EpochRun σ W β :=
  { r with
    trainer := (r.trainer.record (.signalled batchIndex)).report
      [.info "batch loop requested end of epoch"
        [("epoch", .count r.trainer.state.currentEpoch), ("batch_idx", .count batchIndex)]]
    counters := { r.counters with skipRemaining := true } }

end EpochRun

/-- A step of an epoch, which may fail. -/
abbrev EpochStep (σ W β α : Type) := Stateful (EpochRun σ W β) α

namespace EpochStep

variable {σ W β α : Type}

def onTrainer (action : TrainerStep W β α) : EpochStep σ W β α :=
  Stateful.onPart EpochRun.trainer (fun trainer r => { r with trainer }) action

def onWorker (action : Stateful σ α) : EpochStep σ W β α :=
  Stateful.onPart EpochRun.worker (fun worker r => { r with worker }) action

/-- A step whose failure is recorded. -/
def recordFailure (step : EpochStep σ W β α) : EpochStep σ W β α :=
  Stateful.noteFailure (fun e r => r.mapTrainer fun t => t.record (.failed e)) step

/-- A step inside a profiling region, which is closed whatever its result. -/
def inRegion (action : String) (body : EpochStep σ W β α) : EpochStep σ W β α :=
  Stateful.of fun r =>
    let (result, r) := body.runOn (r.mapTrainer fun t => t.openRegion action)
    (result, r.mapTrainer fun t => t.closeRegion action)

def runBatch (loop : BatchLoop σ β) (handed : Handed β) : EpochStep σ W β BatchOutput :=
  inRegion "run_training_batch" do
    let dataloader := (← get).counters.dataloaderIndex
    modify fun r => r.mapTrainer fun t => t.record (.batchRun handed.batch handed.index dataloader)
    Stateful.mapError Error.ofBatchLoop <| recordFailure <|
      onWorker (loop.run handed.batch handed.index dataloader)

/-- The hooks told of a completed batch, its outputs kept where needed, and its metrics logged. -/
def completeBatch (setup : Setup W β) (handed : Handed β) (results : BatchResults) :
    EpochStep σ W β KeptOutputs := do
  let r ← get
  let outputs := (OutputTree.ofBatch results).collapse .batch
  let context := r.trainer.context setup r.progress handed.index outputs.meanLoss?
  onTrainer <| TrainerStep.call setup
    (.trainBatchEnd outputs handed.batch handed.index r.counters.dataloaderIndex) context
  onTrainer <| TrainerStep.call setup .batchEnd context
  onTrainer <| TrainerStep.logStep outputs r.progress.globalStep
  pure (KeptOutputs.track r.modelReduces (.ofOptimizers results.length) results).1

/-- One more batch. -/
def advance (setup : Setup W β) (loop : BatchLoop σ β) : EpochStep σ W β Advance := do
  match (← get).phase with
  | .running feed =>
    match feed.next with
    | (none, _) =>
      modify fun r => { r with phase := .done }
      pure .exhausted
    | (some handed, feed) =>
      modify fun r => r.pull handed feed
      let output ← runBatch loop handed
      if output.stopsEpoch then
        modify fun r => r.skip handed.index
        pure .skipped
      else
        .completed <$> completeBatch setup handed output.results
  | _ => throw (.invalidParameter .advancedBeforeStart)

/-- Validation in mid-epoch, if it is due. -/
def evaluateBatch (setup : Setup W β) : EpochStep σ W β Unit := do
  let r ← get
  if r.dueForValidation setup then
    onTrainer <| TrainerStep.evaluate setup r.progress

/-- An optimizer step: the step schedules tick, and the global step goes on. -/
def takeStep (setup : Setup W β) : EpochStep σ W β Unit := do
  onTrainer <| TrainerStep.tickRates .step
  modify fun r => r.mapTrainer Trainer.markTrained
  let globalStep ← onTrainer <| TrainerStep.nextStep setup (← get).progress
  modify fun r => { r with progress := { r.progress with globalStep } }

/-- What follows a completed batch: validation in mid-epoch, the logger saved, and, where the batch
ends with one, an optimizer step. -/
def advanceEnd (setup : Setup W β) (loop : BatchLoop σ β) : EpochStep σ W β Unit := do
  evaluateBatch setup
  let r ← get
  onTrainer <| TrainerStep.flush r.progress.globalStep
  if r.atStepBoundary loop then takeStep setup
  else modify fun r => r.mapTrainer Trainer.markTrained

/-- The end of an epoch: its averages are made, and the kept outputs go to the hooks. -/
def finish (setup : Setup W β) (kept : KeptOutputs) : EpochStep σ W β Processed := do
  modify fun r => { r with phase := .done }
  modify fun r => r.mapTrainer fun t => { t with log := t.log.closeEpoch }
  let outputs := kept.tree.collapse .epoch
  onTrainer <| TrainerStep.reduce setup outputs
  let r ← get
  let context := r.trainer.context setup r.progress r.counters.batchIndex none
  onTrainer <| TrainerStep.call setup (.trainEpochEnd outputs) context
  onTrainer <| TrainerStep.call setup .epochEnd context
  pure outputs

/-- Batches until the epoch is done; the outputs kept of them follow those already kept. -/
def batches (setup : Setup W β) (loop : BatchLoop σ β) : (horizon : Nat) → KeptOutputs →
    EpochStep σ W β (Option KeptOutputs)
  | 0, _ => pure none
  | horizon + 1, kept => do
    if (← get).isDone loop then
      pure (some kept)
    else
      match ← advance setup loop with
      | .completed more =>
        advanceEnd setup loop
        batches setup loop horizon (kept.extend more)
      | .skipped => pure (some kept)
      | .exhausted => pure (some kept)

/-- The whole epoch; gives its outputs, unless it passes the horizon. -/
def run (setup : Setup W β) (loop : BatchLoop σ β) (horizon : Nat) (data : Batches β) :
    EpochStep σ W β (Option Processed) := do
  modify fun r => r.start setup data
  match ← batches setup loop horizon .empty with
  | none => pure none
  | some kept => some <$> finish setup kept

end EpochStep

end TrainingLoop
