import TrainingLoop.Files
import TrainingLoop.Run.Fit
import TrainingLoop.Spec.Build
/-!
# Simulated runs

A specification run on its synthetic model. The metrics file, if there is one, is given as a value
and comes back with what the run wrote to it.
-/

namespace TrainingLoop

structure SimulationReport where
  fit : FitResult
  /-- The learning rates at the end, in the order of the specification. -/
  rates : List Float32
  metrics : Metrics
  history : List Metrics
  /-- How often the model consumed the outputs of an epoch. -/
  epochEndCalls : Nat

/-- The state of all code from outside in a simulated run. -/
structure SimulatedWorld where
  noise : Generator
  epochEndCalls : Nat := 0
  deriving DecidableEq

/-- A simulated run with what it leaves behind. -/
structure Simulation where
  /-- The report; it would be missing if an epoch passed the horizon. -/
  result : Except Error (Option SimulationReport)
  /-- The metrics file after the run, if it has one. -/
  file : Option LogFile
  notices : List Notice

namespace LoopSpec

/-- The model of a simulated run. It may count the epochs whose outputs it consumes. -/
def modelHooks (s : LoopSpec) : ModelHooks SimulatedWorld Nat :=
  if s.simulation.trainingEpochEnd then
    { trainingEpochEnd := some fun _ => Stateful.of fun w =>
        (.ok false, { w with epochEndCalls := w.epochEndCalls + 1 }) }
  else {}

/-- The synthetic evaluator, whose noise is a part of the world. -/
def evaluator (s : LoopSpec) : Evaluator SimulatedWorld := fun epoch globalStep =>
  Stateful.onPart SimulatedWorld.noise (fun noise w => { w with noise })
    (s.simulation.model.evaluator epoch globalStep)

def setup (s : LoopSpec) : Setup SimulatedWorld Nat :=
  { config := s.trainer
    model := s.modelHooks
    evaluator := if s.simulation.evaluate then some s.evaluator else none }

/-- Progress reports, if there are to be any, then early stopping. -/
def callbacks (s : LoopSpec) : List (Callback SimulatedWorld) :=
  (if 0 < s.logging.progressEvery then [.progress { every := s.logging.progressEvery }] else []) ++
    (match s.earlyStopping with
      | none => []
      | some e => [.earlyStopping e.build])

def sink (s : LoopSpec) (file : String → LogFile) : Option (Sink SimulatedWorld) :=
  s.logging.metricsPath.map fun path => .jsonLines { path, file := file path }

def startNotice (s : LoopSpec) : Notice :=
  .info "starting simulation"
    [("max_epochs", .count s.trainer.maxEpochs),
      ("batches_per_epoch", .count s.simulation.model.batchesPerEpoch),
      ("schedulers", .count s.schedules.length)]

def startTrainer (s : LoopSpec) (board : RateBoard) (file : String → LogFile) :
    Trainer SimulatedWorld Nat :=
  let bare : Trainer SimulatedWorld Nat :=
    .ofSetup s.setup { noise := s.simulation.model.evaluatorNoise }
  { bare with
    callbacks := s.callbacks
    log := { bare.log with
      sink := s.sink file
      nanArises := !s.simulation.model.holdsNaN }
    board
    notices := bare.notices.push s.startNotice }

/-- The run at its start. -/
def start (s : LoopSpec) (board : RateBoard) (file : String → LogFile) :
    FitRun SyntheticWorker SimulatedWorld Nat :=
  { trainer := s.startTrainer board file, worker := .ofModel s.simulation.model }

/-- Every epoch has the same batches, numbered from zero. -/
def data (s : LoopSpec) (_epoch : Nat) : Batches Nat :=
  .exact s.simulation.model.batchesPerEpoch id

/-- No epoch has more batches than its data, so this horizon is never passed. -/
def horizon (s : LoopSpec) : Nat := s.simulation.model.batchesPerEpoch + 1

def fileOf : Option (Sink SimulatedWorld) → Option LogFile
  | some (.jsonLines l) => some l.file
  | _ => none

/-- The report of a run that ended. -/
def report (fit : FitResult) (t : Trainer SimulatedWorld Nat) : SimulationReport :=
  { fit
    rates := t.board.current
    metrics := t.log.latest
    history := t.log.history
    epochEndCalls := t.world.epochEndCalls }

/-- The board of a specification that is accepted. -/
def accept (s : LoopSpec) : Except Error RateBoard := do
  s.check.mapError fun fault => .configuration (.invalid fault.message)
  let _ ← s.config
  s.board

/-- The specification run on its synthetic model, with the metrics file at each path given. -/
def simulate (s : LoopSpec) (file : String → LogFile) : Simulation :=
  match s.accept with
  | .error e => ⟨.error e, s.logging.metricsPath.map file, []⟩
  | .ok board =>
    let loop := s.simulation.model.batchLoop Nat
    let (result, r) := (FitStep.run s.setup loop s.horizon s.data).runOn (s.start board file)
    { result := result.map fun fit => fit.map fun fit => report fit r.trainer
      file := fileOf r.trainer.log.sink
      notices := r.trainer.notices.toList }

end LoopSpec

end TrainingLoop
