import TrainingLoop.Error
import TrainingLoop.KeyMap
/-!
# Step results

The result of one optimization step, its view as a mapping of names to numbers, and what one run
of the batch loop gives back.
-/

namespace TrainingLoop

/-- The name under which a step's minimization target appears in its mapping. -/
def lossKey : String := "loss"

/-- Whether a step result takes part in the reduction at the end of an epoch. -/
inductive ResultKind where
  | plain
  | reducible (onEpochEnd : Bool)
  deriving DecidableEq, Repr

structure StepResult where
  loss : Float32
  extra : Metrics
  kind : ResultKind
  deriving DecidableEq

namespace StepResult

def plain (loss : Float32) : StepResult := ⟨loss, ∅, .plain⟩

def reducible (loss : Float32) (onEpochEnd : Bool) : StepResult := ⟨loss, ∅, .reducible onEpochEnd⟩

def addExtra (r : StepResult) (key : String) (value : Float32) : StepResult :=
  { r with extra := r.extra.insert key value }

def isReducible (r : StepResult) : Bool :=
  match r.kind with
  | .plain => false
  | .reducible _ => true

/-- The result asks to be reduced when its epoch ends. -/
def reduces (r : StepResult) : Bool := r.kind == .reducible true

/-- The mapping that hooks see. The loss hides an extra value of its name. -/
def values (r : StepResult) : Metrics := r.extra.insert lossKey r.loss

def ofValues (values : Metrics) : Except Error StepResult :=
  match values.get? lossKey with
  | none => .error (.invalidOutput .missingLoss)
  | some loss => .ok ⟨loss, values.erase lossKey, .plain⟩

end StepResult

/-- The results of one batch: for each optimizer, one result a split. -/
abbrev BatchResults := List (List StepResult)

/-- What a run of the batch loop asks of the epoch. -/
inductive BatchSignal where
  | proceed
  | stopEpoch
  deriving DecidableEq, Repr

namespace BatchSignal

/-- The number by which a training step asks to end the epoch. -/
def stopCode : Int := -1

def ofCode (code : Int) : BatchSignal := if code = stopCode then .stopEpoch else .proceed

def code : BatchSignal → Int
  | .proceed => 0
  | .stopEpoch => stopCode

end BatchSignal

structure BatchOutput where
  signal : BatchSignal
  results : BatchResults
  deriving DecidableEq

namespace BatchOutput

def ofResults (results : BatchResults) : BatchOutput := ⟨.proceed, results⟩

def stopEpoch : BatchOutput := ⟨.stopEpoch, []⟩

def stopsEpoch (o : BatchOutput) : Bool := o.signal == .stopEpoch

end BatchOutput

end TrainingLoop
