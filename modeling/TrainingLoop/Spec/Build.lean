import TrainingLoop.Callback.EarlyStopping
import TrainingLoop.Spec.Validation
/-!
# From specifications to parts of a run

The schedules and the callback that a specification describes. A parameter that is not given, or is
no number of the right kind, has its default.
-/

namespace TrainingLoop

namespace ScheduleSpec

def parameter? (s : ScheduleSpec) (key : String) : Option ParameterValue := s.parameters.lookup key

def natural (s : ScheduleSpec) (key : String) (default : Nat) : Nat :=
  ((s.parameter? key).bind ParameterValue.natural?).getD default

def single (s : ScheduleSpec) (key : String) (default : Float32) : Float32 :=
  ((s.parameter? key).bind ParameterValue.single?).getD default

def schedule (s : ScheduleSpec) : ScheduleKind → Schedule
  | .cosine => .cosine
    { highest := s.rate, lowest := s.single "lr_min" 0.0, length := s.natural "t_max" 100 }
  | .warmup => .warmup { target := s.rate, length := s.natural "warmup_steps" 10 }
  | .stepDecay => .stepDecay
    { initial := s.rate, gamma := s.single "gamma" 0.1, stepSize := s.natural "step_size" 10 }
  | .plateau => .plateau
    { rate := s.rate
      lowest := s.single "lr_min" 0.0
      factor := s.single "factor" 0.1
      patience := s.natural "patience" 10
      minDelta := s.single "min_delta" 0.0 }

def build (s : ScheduleSpec) : Except Error ScheduledRate :=
  match s.kind? with
  | none => .error (.configuration (.unknownScheduler (lowercase s.name)))
  | some kind =>
    let bare : ScheduledRate := { schedule := s.schedule kind, interval := s.interval }
    let scheduled := bare.withFrequency s.frequency
    .ok (match s.monitor with
      | none => scheduled
      | some key => scheduled.withMonitor key)

end ScheduleSpec

def EarlyStoppingSpec.build (s : EarlyStoppingSpec) : EarlyStopping :=
  { monitor := s.monitor
    patience := s.patience
    minDelta := s.minDelta
    onValidation := s.onValidation }

namespace LoopSpec

/-- The trainer's settings, if a run can follow them. -/
def config (s : LoopSpec) : Except Error Config := do
  s.trainer.check
  pure s.trainer

/-- The schedules, in the order of the specification. -/
def buildBoard : List ScheduleSpec → RateBoard → Except Error RateBoard
  | [], b => .ok b
  | s :: rest, b => do buildBoard rest (b.add (← s.build))

def board (s : LoopSpec) : Except Error RateBoard := buildBoard s.schedules .empty

end LoopSpec

end TrainingLoop
