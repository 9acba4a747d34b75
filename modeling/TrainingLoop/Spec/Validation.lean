import TrainingLoop.Metric.Log
import TrainingLoop.Spec.Basic
import TrainingLoop.Text.Lowercase
/-!
# Validation of specifications

`LoopSpec.check` refuses a specification that no run can follow and tells the first reason for it.
`SpecFault.message` words the reasons.
-/

namespace TrainingLoop

/-- Why a specification is refused. -/
inductive SpecFault where
  | noEpochs (epochs : Nat)
  | epochRange (least most : Nat)
  | stepRange (least most : Nat)
  | fractionOutOfRange (setting : String) (value : Float32)
  | zeroCount (setting : String)
  | rateNotPositive (rate : Float32)
  | unknownSchedule (name : String)
  | unknownParameter (schedule key : String)
  | missingMonitor (schedule : String)
  /-- The metric comes into being at the end of an epoch only. -/
  | stepMonitor (schedule metric : String)
  | simulation (reason : String)
  deriving DecidableEq

def SpecFault.message : SpecFault → String
  | noEpochs epochs => s!"Invalid epochs: {epochs} (must be > 0)"
  | epochRange least most => s!"min_epochs ({least}) exceeds max_epochs ({most})"
  | stepRange least most => s!"min_steps ({least}) exceeds max_steps ({most})"
  | fractionOutOfRange setting value =>
    s!"Invalid {setting}: " ++ NumberLayout.message.single value ++
      " (fraction must be within [0.0, 1.0])"
  | zeroCount setting => s!"Invalid {setting}: 0 (must be > 0)"
  | rateNotPositive rate =>
    "Invalid learning rate: " ++ NumberLayout.message.single rate ++ " (must be > 0.0)"
  | unknownSchedule name =>
    s!"Invalid scheduler: {name} (must be one of: cosine, warmup, step_decay, plateau)"
  | unknownParameter schedule key =>
    "Scheduler '" ++ schedule ++ "' has no parameter '" ++ key ++ "'"
  | missingMonitor schedule => "Scheduler '" ++ schedule ++ "' needs a monitor metric"
  | stepMonitor schedule metric =>
    "Scheduler '" ++ schedule ++ "' runs per step and cannot monitor '" ++ metric ++ "'"
  | simulation reason => s!"Invalid simulation: {reason}"

/-- The kinds of schedule that a specification can name. -/
inductive ScheduleKind where
  | cosine
  | warmup
  | stepDecay
  | plateau
  deriving DecidableEq, Repr

namespace ScheduleKind

/-- The kind of a name, which may be written in any case of letters. -/
def ofName? (name : String) : Option ScheduleKind :=
  match lowercase name with
  | "cosine" => some cosine
  | "warmup" => some warmup
  | "step_decay" => some stepDecay
  | "plateau" => some plateau
  | _ => none

def parameters : ScheduleKind → List String
  | cosine => ["t_max", "lr_min"]
  | warmup => ["warmup_steps"]
  | stepDecay => ["step_size", "gamma"]
  | plateau => ["factor", "patience", "lr_min", "min_delta"]

end ScheduleKind

/-- The least of the given texts. -/
def leastText? : List String → Option String
  | [] => none
  | s :: rest => some (rest.foldl (fun least t => if t < least then t else least) s)

namespace ScheduleSpec

def kind? (s : ScheduleSpec) : Option ScheduleKind := ScheduleKind.ofName? s.name

/-- The first parameter, in the order of texts, that the kind does not have. -/
def unknownParameter? (s : ScheduleSpec) (kind : ScheduleKind) : Option String :=
  leastText? ((s.parameters.map Prod.fst).filter fun key => !kind.parameters.contains key)

/-- A metric with this name is an average over an epoch. -/
def isEpochAverage (metric : String) : Bool := metric.endsWith epochSuffix

/-- The metric that the schedule would have to monitor before its epoch's end. -/
def earlyMonitor? (s : ScheduleSpec) : Option String :=
  match s.interval with
  | .step => s.monitor.filter isEpochAverage
  | .epoch => none

def check (s : ScheduleSpec) : Except SpecFault Unit :=
  match s.kind? with
  | none => .error (.unknownSchedule s.name)
  | some kind => do
    if let some key := s.unknownParameter? kind then
      .error (.unknownParameter s.name key)
    if s.rate ≤ 0.0 then
      .error (.rateNotPositive s.rate)
    if s.frequency = 0 then
      .error (.zeroCount "frequency")
    if kind = .plateau ∧ s.monitor = none then
      .error (.missingMonitor s.name)
    if let some metric := s.earlyMonitor? then
      .error (.stepMonitor s.name metric)

end ScheduleSpec

namespace LoopSpec

def checkFraction (setting : String) : BatchLimit → Except SpecFault Unit
  | .batches _ => .ok ()
  | .fraction f =>
    if Single.isFraction f then .ok () else .error (.fractionOutOfRange setting f)

/-- An interval of no batches is refused too. -/
def checkInterval (setting : String) : BatchLimit → Except SpecFault Unit
  | .batches 0 => .error (.zeroCount setting)
  | limit => checkFraction setting limit

def checkPositive (setting : String) (n : Nat) : Except SpecFault Unit :=
  if n = 0 then .error (.zeroCount setting) else .ok ()

def checkTrainer (c : Config) : Except SpecFault Unit := do
  if c.maxEpochs = 0 then
    .error (.noEpochs c.maxEpochs)
  if c.maxEpochs < c.minEpochs then
    .error (.epochRange c.minEpochs c.maxEpochs)
  match c.minSteps, c.maxSteps with
  | some least, some most => if most < least then .error (.stepRange least most)
  | _, _ => pure ()
  checkFraction "limit_train_batches" c.limitTrainBatches
  checkInterval "val_check_interval" c.valCheckInterval
  checkPositive "accumulate_grad_batches" c.accumulateGradBatches
  checkPositive "log_every_n_steps" c.logEveryNSteps
  checkPositive "flush_logs_every_n_steps" c.flushLogsEveryNSteps

def checkSchedules : List ScheduleSpec → Except SpecFault Unit
  | [] => .ok ()
  | s :: rest => do
    s.check
    checkSchedules rest

/-- The first reason to refuse a specification, if there is one. -/
def check (s : LoopSpec) : Except SpecFault Unit := do
  checkTrainer s.trainer
  checkSchedules s.schedules
  s.simulation.model.check.mapError fun e => .simulation e.message

end LoopSpec

end TrainingLoop
