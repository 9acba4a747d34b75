import TrainingLoop.Limit
/-!
# The configuration of a run

The limits and cadences of a training run. `check` refuses those that no run can follow.
-/

namespace TrainingLoop

structure Config where
  /-- The run ends after this many epochs. -/
  maxEpochs : Nat := 1000
  /-- A stop request waits until this many epochs are complete. -/
  minEpochs : Nat := 1
  /-- The run ends once the global step gets here. -/
  maxSteps : Option Nat := none
  /-- A stop request waits until the global step gets here. -/
  minSteps : Option Nat := none
  limitTrainBatches : BatchLimit := .whole
  valCheckInterval : BatchLimit := .whole
  /-- Every so many epochs are validated; zero for none. -/
  checkValEveryNEpochs : Nat := 1
  enableValidation : Bool := true
  accumulateGradBatches : Nat := 1
  logEveryNSteps : Nat := 50
  flushLogsEveryNSteps : Nat := 100
  deriving DecidableEq

namespace Config

/-- The least accumulation window is one batch. -/
def withAccumulation (c : Config) (batches : Nat) : Config :=
  { c with accumulateGradBatches := max 1 batches }

/-- A fraction outside of the unit interval is refused. -/
def checkLimit (name : String) : BatchLimit → Except Error Unit
  | .batches _ => .ok ()
  | .fraction f =>
    if Single.isFraction f then .ok () else .error (.misconfiguration (.limitOutOfRange name f))

/-- The bounds of the global step, where both are set, are in order. -/
def checkSteps (c : Config) : Except Error Unit :=
  match c.minSteps, c.maxSteps with
  | some least, some most =>
    if most < least then .error (.misconfiguration (.stepRange least most)) else .ok ()
  | _, _ => .ok ()

def check (c : Config) : Except Error Unit := do
  if c.accumulateGradBatches = 0 then
    .error (.invalidParameter .noAccumulation)
  if c.maxEpochs < c.minEpochs then
    .error (.misconfiguration (.epochRange c.minEpochs c.maxEpochs))
  c.checkSteps
  checkLimit "limit_train_batches" c.limitTrainBatches
  checkLimit "val_check_interval" c.valCheckInterval

def inspect (c : Config) : String :=
  Inspect.record "TrainerConfig" [
    ("max_epochs", Inspect.count c.maxEpochs),
    ("min_epochs", Inspect.count c.minEpochs),
    ("max_steps", Inspect.option Inspect.count c.maxSteps),
    ("min_steps", Inspect.option Inspect.count c.minSteps),
    ("limit_train_batches", c.limitTrainBatches.inspect),
    ("val_check_interval", c.valCheckInterval.inspect),
    ("check_val_every_n_epoch", Inspect.count c.checkValEveryNEpochs),
    ("enable_validation", Inspect.bool c.enableValidation),
    ("accumulate_grad_batches", Inspect.count c.accumulateGradBatches),
    ("log_every_n_steps", Inspect.count c.logEveryNSteps),
    ("flush_logs_every_n_steps", Inspect.count c.flushLogsEveryNSteps)]

end Config

end TrainingLoop
