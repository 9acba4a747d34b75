import TrainingLoop.Text.Inspect
/-!
# Failures

Why an operation of the library fails. `Error.message` is the one place that words them.

Code outside the library (hooks, batch loops, evaluators, loggers) fails with the same type; its
own texts are carried by the `stated` causes.
-/

namespace TrainingLoop

/-- Why a file cannot be read or written. -/
inductive IoFault where
  | notFound
  | notADirectory
  | isADirectory
  | nameTooLong
  /-- The path holds the character with the code zero. -/
  | zeroInName
  | invalidUtf8
  | stated (text : String)
  deriving DecidableEq, Repr

def IoFault.message : IoFault → String
  | .notFound => "No such file or directory (os error 2)"
  | .notADirectory => "Not a directory (os error 20)"
  | .isADirectory => "Is a directory (os error 21)"
  | .nameTooLong => "File name too long (os error 36)"
  | .zeroInName => "file name contained an unexpected NUL byte"
  | .invalidUtf8 => "stream did not contain valid UTF-8"
  | .stated text => text

inductive Misconfiguration where
  | epochRange (least most : Nat)
  | stepRange (least most : Nat)
  | limitOutOfRange (name : String) (fraction : Float32)
  | limitNeedsLength (fraction : Float32)
  | validationNeedsLength (fraction : Float32)
  | validationBeyondEpoch (interval batches : Nat)
  | accumulationUnsupported (batches : Nat)
  | metricUnavailable (key : String) (available : List String)
  | epochEndReturnedValue
  | stated (text : String)
  deriving DecidableEq

namespace Misconfiguration

def message : Misconfiguration → String
  | epochRange least most => s!"min_epochs ({least}) exceeds max_epochs ({most})"
  | stepRange least most => s!"min_steps ({least}) exceeds max_steps ({most})"
  | limitOutOfRange name fraction =>
    name ++ " fraction must be within [0.0, 1.0], got " ++ NumberLayout.message.single fraction
  | limitNeedsLength fraction =>
    "limit_train_batches must be 1.0 or an integer for a dataloader without length, got " ++
      NumberLayout.message.single fraction
  | validationNeedsLength fraction =>
    "val_check_interval must be 1.0 or an integer for a dataloader without length, got " ++
      NumberLayout.message.single fraction
  | validationBeyondEpoch interval batches =>
    s!"val_check_interval ({interval}) must be less than or equal to the number of training " ++
      s!"batches ({batches})"
  | accumulationUnsupported batches =>
    s!"accumulate_grad_batches is {batches}, but the batch loop steps on every batch"
  | metricUnavailable key available =>
    "scheduler conditioned on metric `" ++ key ++
      "` which is not available; available metrics are: " ++
      Inspect.list (available.map Inspect.text)
  | epochEndReturnedValue =>
    "training_epoch_end expects a return of None. " ++
      "HINT: remove the return statement in training_epoch_end"
  | stated text => text

end Misconfiguration

inductive InvalidParameter where
  | noAccumulation
  | noOptimizerOrSplit
  | decayOutOfRange (decay : Float32)
  | advancedBeforeStart
  | stated (text : String)
  deriving DecidableEq

def InvalidParameter.message : InvalidParameter → String
  | noAccumulation => "accumulate_grad_batches must be at least 1"
  | noOptimizerOrSplit => "num_optimizers and tbptt_splits must be at least 1"
  | decayOutOfRange decay =>
    "decay must be within [0.0, 1.0], got " ++ NumberLayout.message.single decay
  | advancedBeforeStart => "epoch loop advanced before start"
  | stated text => text

inductive ConfigurationFault where
  | unreadable (path : String) (fault : IoFault)
  | unparsable
  | invalid (reason : String)
  | unknownScheduler (name : String)
  | stated (text : String)
  deriving DecidableEq

def ConfigurationFault.message : ConfigurationFault → String
  | unreadable path fault => s!"Failed to read config file {path}: {fault.message}"
  | unparsable => "Failed to parse YAML config"
  | invalid reason => s!"Invalid config: {reason}"
  | unknownScheduler name =>
    s!"Unknown scheduler: {name}. Supported: cosine, warmup, step_decay, plateau"
  | stated text => text

inductive InvalidOutput where
  | missingLoss
  | stated (text : String)
  deriving DecidableEq

def InvalidOutput.message : InvalidOutput → String
  | missingLoss => "step mapping has no `loss` key"
  | stated text => text

inductive Error where
  | misconfiguration (cause : Misconfiguration)
  | configuration (cause : ConfigurationFault)
  | hook (name reason : String)
  | batchLoop (reason : String)
  | evaluation (reason : String)
  | invalidOutput (cause : InvalidOutput)
  | io (fault : IoFault)
  | serialization (reason : String)
  | invalidParameter (cause : InvalidParameter)
  deriving DecidableEq

namespace Error

def message : Error → String
  | misconfiguration cause => "Misconfiguration: " ++ cause.message
  | configuration cause => "Configuration error: " ++ cause.message
  | hook name reason => s!"Hook `{name}` failed: {reason}"
  | batchLoop reason => "Batch loop failed: " ++ reason
  | evaluation reason => "Evaluation failed: " ++ reason
  | invalidOutput cause => "Invalid step output: " ++ cause.message
  | io fault => "I/O error: " ++ fault.message
  | serialization reason => "Serialization error: " ++ reason
  | invalidParameter cause => "Invalid parameter: " ++ cause.message

/-- A failure of a batch loop's run. Failures of hooks and misconfigurations keep their kind; the
others become failures of the batch loop. -/
def ofBatchLoop : Error → Error
  | batchLoop reason => .batchLoop reason
  | hook name reason => .hook name reason
  | misconfiguration cause => .misconfiguration cause
  | other => .batchLoop other.message

/-- A failure of an evaluation, whatever its kind was. -/
def ofEvaluation : Error → Error
  | evaluation reason => .evaluation reason
  | other => .evaluation other.message

end Error

end TrainingLoop
