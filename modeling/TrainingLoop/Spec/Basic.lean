import TrainingLoop.Config
import TrainingLoop.KeyMap
import TrainingLoop.Rate.Board
import TrainingLoop.Synthetic
/-!
# Specifications of simulated runs

What a configuration file says: the trainer's settings, the schedules, the synthetic model to run
them on, early stopping and logging.
-/

namespace TrainingLoop

/-- The value of a schedule's own parameter. A `negative n` is `-n`, and a `real` is finite. -/
inductive ParameterValue where
  | null
  | bool (b : Bool)
  | natural (n : Nat)
  | negative (n : Nat)
  | real (x : Float)
  | text (s : String)
  | list (items : List ParameterValue)
  | record (fields : List (String × ParameterValue))

namespace ParameterValue

instance : Inhabited ParameterValue := ⟨null⟩

def natural? : ParameterValue → Option Nat
  | natural n => some n
  | _ => none

/-- Any number, as the nearest 32-bit number to the nearest 64-bit one. -/
def single? : ParameterValue → Option Float32
  | natural n => some (Double.narrow (Float.ofNat n))
  | negative n => some (Double.narrow (-Float.ofNat n))
  | real x => some (Double.narrow x)
  | _ => none

end ParameterValue

structure ScheduleSpec where
  /-- The kind of schedule, in any case of letters. -/
  name : String
  rate : Float32
  interval : Interval := .epoch
  frequency : Nat := 1
  monitor : Option String := none
  /-- The parameters of the kind of schedule, each key once. -/
  parameters : List (String × ParameterValue) := []

structure SimulationSpec where
  model : SyntheticModel := {}
  /-- Validate with the synthetic evaluator. -/
  evaluate : Bool := true
  /-- The model consumes the outputs of each epoch. -/
  trainingEpochEnd : Bool := false

structure EarlyStoppingSpec where
  monitor : String
  patience : Nat := 3
  minDelta : Float32 := 0.0
  /-- Check after validations instead of training epochs. -/
  onValidation : Bool := false

structure LoggingSpec where
  /-- The file that logged metrics are appended to. -/
  metricsPath : Option String := none
  /-- A progress report every so many batches; zero for none. -/
  progressEvery : Nat := 0

structure LoopSpec where
  trainer : Config := {}
  schedules : List ScheduleSpec := []
  simulation : SimulationSpec := {}
  earlyStopping : Option EarlyStoppingSpec := none
  logging : LoggingSpec := {}

namespace LoopSpec

structure Overrides where
  epochs : Option Nat := none
  maxSteps : Option Nat := none
  seed : Option UInt64 := none
  metricsPath : Option String := none
  deriving DecidableEq

/-- The run ends after so many epochs; the least number of epochs gives way. -/
def withEpochs (epochs : Nat) (s : LoopSpec) : LoopSpec :=
  { s with trainer := { s.trainer with
      maxEpochs := epochs
      minEpochs := min s.trainer.minEpochs epochs } }

def withMaxSteps (steps : Nat) (s : LoopSpec) : LoopSpec :=
  { s with trainer := { s.trainer with maxSteps := some steps } }

def withSeed (seed : UInt64) (s : LoopSpec) : LoopSpec :=
  { s with simulation := { s.simulation with model := { s.simulation.model with seed } } }

def withMetricsPath (path : String) (s : LoopSpec) : LoopSpec :=
  { s with logging := { s.logging with metricsPath := some path } }

def applyIf {α β : Type} (f : α → β → β) : Option α → β → β
  | none, b => b
  | some a, b => f a b

def override (o : Overrides) (s : LoopSpec) : LoopSpec :=
  applyIf withMetricsPath o.metricsPath <| applyIf withSeed o.seed <|
    applyIf withMaxSteps o.maxSteps <| applyIf withEpochs o.epochs s

end LoopSpec

end TrainingLoop
