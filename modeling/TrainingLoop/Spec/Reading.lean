import TrainingLoop.Spec.Basic
import TrainingLoop.Yaml.Reading
/-!
# Reading specifications

A specification read from YAML text. A section or setting that is left out has its default, also a
section that is there and empty. Unknown settings are refused in the trainer's and the model's
sections and are parameters in a schedule's; everywhere else they are ignored.
-/

namespace TrainingLoop

open Yaml

/-- A limit is a number of batches if it is a natural number, and a fraction if it is any other. -/
def BatchLimit.ofNode (n : Node) : Reading BatchLimit := do
  match ← n.target with
  | .scalar tag style text =>
    match ScalarValue.ofScalar? tag style text with
    | some (.natural n) => pure (.batches n)
    | some (.negative n) => pure (.fraction (-Float32.ofNat n))
    | some (.real x) => pure (.fraction (Double.narrow x))
    | _ => .refuse
  | _ => .refuse

def Interval.ofName? : String → Option Interval
  | "step" => some .step
  | "epoch" => some .epoch
  | _ => none

/-- An interval is named by a scalar, or by the tag of a null. -/
def Interval.ofNode (n : Node) : Reading Interval := do
  match ← n.target with
  | .scalar (some (.own name)) style text =>
    if style = .plain && ScalarValue.isNullText text then .ofOption (Interval.ofName? name)
    else .refuse
  | .scalar _ _ text => .ofOption (Interval.ofName? text)
  | _ => .refuse

namespace ParameterValue

def ofScalar? : ScalarValue → Option ParameterValue
  | .null => some null
  | .bool b => some (bool b)
  | .natural n => some (natural n)
  | .negative n => some (negative n)
  | .wide => none
  | .real x => some (if x.isFinite then real x else null)
  | .text s => some (text s)

/-- The name of a field of a record: a scalar that stands for its text. -/
def nameOf (n : Node) : Reading String := do
  match ← n.target with
  | .scalar tag style s =>
    match ScalarValue.ofScalar? tag style s with
    | some (.text s) => pure s
    | _ => .refuse
  | _ => .refuse

/-- How deep lists and records may stand in a parameter. -/
def depthLimit : Nat := 125

/-- A list or a record that is said to be of an application's own type is none here. -/
def mayHold : Option TagMeaning → Bool
  | some (.own _) => false
  | _ => true

/-- The value of a node of limited depth. The last field of a name counts, and fields are in the
order of names. -/
def ofNode (depth : Nat) (n : Node) : Reading ParameterValue := do
  match depth, ← n.target with
  | _, .scalar tag style s => .ofOption ((ScalarValue.ofScalar? tag style s).bind ofScalar?)
  | depth + 1, .list tag items =>
    if mayHold tag then list <$> items.mapM (ofNode depth) else .refuse
  | depth + 1, .map tag entries =>
    if mayHold tag then
      let fields ← entries.mapM fun (key, node) => do
        let name ← nameOf key
        let value ← ofNode depth node
        pure (name, value)
      pure (record (KeyMap.ofList fields).entries)
    else .refuse
  | _, _ => .refuse

end ParameterValue

def Config.settings : List String :=
  ["max_epochs", "min_epochs", "max_steps", "min_steps", "limit_train_batches",
    "val_check_interval", "check_val_every_n_epoch", "enable_validation",
    "accumulate_grad_batches", "log_every_n_steps", "flush_logs_every_n_steps"]

def Config.ofNode (n : Node) : Reading Config := do
  let f ← n.fields
  .require (Fields.once Config.settings f && Fields.within Config.settings f)
  let d : Config := {}
  let natural (name : String) (default : Nat) : Reading Nat :=
    Fields.given f name default Node.natural
  let limit (name : String) (default : BatchLimit) : Reading BatchLimit :=
    Fields.given f name default BatchLimit.ofNode
  let bound (name : String) : Reading (Option Nat) :=
    Fields.given f name none (Node.optional Node.natural)
  pure
    { maxEpochs := ← natural "max_epochs" d.maxEpochs
      minEpochs := ← natural "min_epochs" d.minEpochs
      maxSteps := ← bound "max_steps"
      minSteps := ← bound "min_steps"
      limitTrainBatches := ← limit "limit_train_batches" d.limitTrainBatches
      valCheckInterval := ← limit "val_check_interval" d.valCheckInterval
      checkValEveryNEpochs := ← natural "check_val_every_n_epoch" d.checkValEveryNEpochs
      enableValidation :=
        ← Fields.given f "enable_validation" d.enableValidation Node.bool
      accumulateGradBatches := ← natural "accumulate_grad_batches" d.accumulateGradBatches
      logEveryNSteps := ← natural "log_every_n_steps" d.logEveryNSteps
      flushLogsEveryNSteps := ← natural "flush_logs_every_n_steps" d.flushLogsEveryNSteps }

def ScheduleSpec.settings : List String := ["name", "lr", "interval", "frequency", "monitor"]

/-- The last value of each parameter, at the place of its first. -/
def ScheduleSpec.lastValues (fields : List (String × ParameterValue)) :
    List (String × ParameterValue) :=
  (fields.map Prod.fst).eraseDups.filterMap fun name =>
    (fields.reverse.lookup name).map fun value => (name, value)

def ScheduleSpec.ofNode (n : Node) : Reading ScheduleSpec := do
  let f ← n.fields
  .require (Fields.once ScheduleSpec.settings f)
  let own := f.filter fun field => !ScheduleSpec.settings.contains field.1
  let values ← own.mapM fun (name, node) => do
    let value ← ParameterValue.ofNode ParameterValue.depthLimit node
    pure (name, value)
  pure
    { name := ← Fields.required f "name" Node.text
      rate := ← Fields.required f "lr" Node.single
      interval := ← Fields.given f "interval" .epoch Interval.ofNode
      frequency := ← Fields.given f "frequency" 1 Node.natural
      monitor := ← Fields.given f "monitor" none (Node.optional Node.text)
      parameters := lastValues values }

def SyntheticModel.settings : List String :=
  ["batches_per_epoch", "num_optimizers", "tbptt_splits", "initial_loss", "decay", "noise",
    "reduce_on_epoch_end", "stop_epoch_at", "seed"]

def SyntheticModel.ofNode (n : Node) : Reading SyntheticModel := do
  let f ← n.fields
  .require (Fields.once SyntheticModel.settings f && Fields.within SyntheticModel.settings f)
  let d : SyntheticModel := {}
  pure
    { batchesPerEpoch := ← Fields.given f "batches_per_epoch" d.batchesPerEpoch Node.natural
      optimizers := ← Fields.given f "num_optimizers" d.optimizers Node.natural
      splits := ← Fields.given f "tbptt_splits" d.splits Node.natural
      initialLoss := ← Fields.given f "initial_loss" d.initialLoss Node.single
      decay := ← Fields.given f "decay" d.decay Node.single
      noise := ← Fields.given f "noise" d.noise Node.single
      reduceOnEpochEnd :=
        ← Fields.given f "reduce_on_epoch_end" none (Node.optional Node.bool)
      stopEpochAt := ← Fields.given f "stop_epoch_at" none (Node.optional Node.natural)
      seed := UInt64.ofNat (← Fields.given f "seed" d.seed.toNat Node.natural) }

def SimulationSpec.ofNode (n : Node) : Reading SimulationSpec := do
  let f ← n.fields
  .require (Fields.once ["model", "evaluate", "training_epoch_end"] f)
  let d : SimulationSpec := {}
  pure
    { model := ← Fields.given f "model" d.model SyntheticModel.ofNode
      evaluate := ← Fields.given f "evaluate" d.evaluate Node.bool
      trainingEpochEnd := ← Fields.given f "training_epoch_end" d.trainingEpochEnd Node.bool }

def EarlyStoppingSpec.ofNode (n : Node) : Reading EarlyStoppingSpec := do
  let f ← n.fields
  .require (Fields.once ["monitor", "patience", "min_delta", "on_validation"] f)
  pure
    { monitor := ← Fields.required f "monitor" Node.text
      patience := ← Fields.given f "patience" 3 Node.natural
      minDelta := ← Fields.given f "min_delta" 0.0 Node.single
      onValidation := ← Fields.given f "on_validation" false Node.bool }

def LoggingSpec.ofNode (n : Node) : Reading LoggingSpec := do
  let f ← n.fields
  .require (Fields.once ["metrics_path", "progress_every"] f)
  pure
    { metricsPath := ← Fields.given f "metrics_path" none (Node.optional Node.text)
      progressEvery := ← Fields.given f "progress_every" 0 Node.natural }

namespace LoopSpec

def ofNode (n : Node) : Reading LoopSpec := do
  let f ← n.fields
  .require (Fields.once
    ["trainer", "schedulers", "simulation", "early_stopping", "logging"] f)
  pure
    { trainer := ← Fields.given f "trainer" {} Config.ofNode
      schedules := ← Fields.given f "schedulers" []
        (fun n => do (← n.items).mapM ScheduleSpec.ofNode)
      simulation := ← Fields.given f "simulation" {} SimulationSpec.ofNode
      earlyStopping :=
        ← Fields.given f "early_stopping" none (Node.optional EarlyStoppingSpec.ofNode)
      logging := ← Fields.given f "logging" {} LoggingSpec.ofNode }

def ofText? (text : String) : Option LoopSpec :=
  (LinkedDocument.ofText? text).bind (Reading.run? ofNode)

/-- The specification in a file, given what reading the file gave. -/
def load (path : String) (content : Except IoFault ByteArray) : Except Error LoopSpec :=
  match content with
  | .error fault => .error (.configuration (.unreadable path fault))
  | .ok bytes =>
    match String.fromUTF8? bytes with
    | none => .error (.configuration (.unreadable path .invalidUtf8))
    | some text =>
      match ofText? text with
      | none => .error (.configuration .unparsable)
      | some spec => .ok spec

end LoopSpec

end TrainingLoop
