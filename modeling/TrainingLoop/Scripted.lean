import TrainingLoop.Number.Generator
import TrainingLoop.Run.Trainer
/-!
# Scripted collaborators

Stand-ins for the code that a run drives. What they do is written down beforehand: at which calls
they fail, stop or return something. They rehearse a run, and give examples of one.
-/

namespace TrainingLoop

/-- The world of scripted collaborators: how often each was called, and the noise of a synthetic
evaluator among them. -/
structure ScriptedWorld where
  calls : KeyMap Nat := ∅
  noise : Generator := .ofSeed 0

/-- The calls of a collaborator that fail, counted from zero, and how they fail. -/
structure FailurePlan where
  calls : List Nat := []
  error : Error := .invalidParameter (.stated "boom")

/-- How the global step goes on. -/
inductive StepRule where
  | add (steps : Nat)
  /-- It is the number of batches pulled. -/
  | totalBatches
  deriving DecidableEq, Repr

/-- The global step after a step, given the batches pulled and the global step before it. -/
def StepRule.next : StepRule → Nat → Nat → Nat
  | .add steps, _, current => current + steps
  | .totalBatches, total, _ => total

structure AcceleratorScript where
  /-- Only every so many batches of the data are used. -/
  stepBy : Option Nat := none
  /-- Only the first so many batches are used, of those that are left. -/
  take : Option Nat := none
  step : StepRule := .add 1
  isGlobalZero : Bool := true
  plan : Hook → FailurePlan := fun _ => {}

/-- What the batch loop does with a batch. -/
inductive ScriptedBatch where
  /-- One plain result, whose loss is the batch. -/
  | echo
  | stopEpoch
  | fail (error : Error)
  | results (results : BatchResults)

/-- Which batches end with an optimizer step. -/
inductive ScriptedBoundary where
  | window
  | always
  | never
  deriving DecidableEq, Repr

structure BatchScript where
  /-- Used in turn, over and over. -/
  items : List ScriptedBatch := []
  boundary : ScriptedBoundary := .window
  acceptsAccumulation : Bool := true

structure ScriptedWorker where
  runs : Nat := 0
  window : Nat := 1
  /-- The index of the last batch that went well. -/
  lastBatch : Option Nat := none

/-- What the batch loop does in a run of the given number. -/
def BatchScript.item (s : BatchScript) (run : Nat) : ScriptedBatch :=
  (s.items[run % s.items.length]?).getD .echo

def ScriptedWorker.complete (index : Nat) (s : ScriptedWorker) : ScriptedWorker :=
  { s with lastBatch := some index }

def ScriptedWorker.closedWindow (boundary : ScriptedBoundary) (s : ScriptedWorker) : Bool :=
  match boundary, s.lastBatch with
  | .always, _ => true
  | .never, _ => false
  | .window, none => false
  | .window, some index => (index + 1) % s.window == 0

namespace Scripted

variable {β : Type}

/-- A call counted; gives the number of calls before it. -/
def count (name : String) (w : ScriptedWorld) : Nat × ScriptedWorld :=
  let number := (w.calls.get? name).getD 0
  (number, { w with calls := w.calls.insert name (number + 1) })

/-- A call that may fail; gives the number of calls before it. -/
def act (name : String) (plan : FailurePlan) : Stateful ScriptedWorld Nat :=
  Stateful.of fun w =>
    let (number, w) := count name w
    (if plan.calls.contains number then .error plan.error else .ok number, w)

def perform (name : String) (plan : FailurePlan) : Stateful ScriptedWorld Unit := do
  let _ ← act name plan

/-- A model that overrides the hooks that have a plan. At the given calls its use of the epoch's
outputs returns a value. -/
def model (plan : Hook → Option FailurePlan) (legacyEpochEnd : Bool) (returnsAt : List Nat) :
    ModelHooks ScriptedWorld β :=
  let hook (h : Hook) : Option (Stateful ScriptedWorld Unit) :=
    (plan h).map (perform ("model " ++ h.name))
  { onTrainEpochStart := hook .trainEpochStart
    onTrainBatchEnd := (hook .trainBatchEnd).map fun action _ _ _ _ => action
    onBatchEnd := hook .batchEnd
    trainingEpochEnd := (plan .trainingEpochEnd).map fun p _ => do
      let number ← act ("model " ++ Hook.trainingEpochEnd.name) p
      pure (returnsAt.contains number)
    onTrainEpochEnd := (hook .trainEpochEnd).map fun action =>
      if legacyEpochEnd then .legacy fun _ => action else .current action
    onEpochEnd := hook .epochEnd }

def applyIf (f : Nat → α → α) : Option Nat → α → α
  | none, a => a
  | some n, a => f n a

def accelerator (s : AcceleratorScript) : Accelerator ScriptedWorld β where
  prepare batches world :=
    (applyIf Batches.take s.take (applyIf Batches.stepBy s.stepBy batches), world)
  nextStep total current world := (s.step.next total current, world)
  isGlobalZero := s.isGlobalZero
  respond call := perform ("accelerator " ++ call.name) (s.plan call.hook)

/-- An evaluator that gives the values in turn, and the last one from then on. -/
def evaluator (values : List Metrics) (plan : FailurePlan) : Evaluator ScriptedWorld :=
  fun _ _ => do
  let number ← act "evaluator" plan
  pure ((values[min number (values.length - 1)]?).getD ∅)

/-- An evaluator that has its generator in the scripted world. -/
def noisyEvaluator (evaluator : Evaluator Generator) : Evaluator ScriptedWorld :=
  fun epoch globalStep =>
    Stateful.onPart ScriptedWorld.noise (fun noise w => { w with noise })
      (evaluator epoch globalStep)

/-- A logger that keeps nothing. -/
def logger (name : String) (log save : FailurePlan) : OutsideLogger ScriptedWorld where
  name
  log _ := perform "log" log
  save := perform "save" save

/-- The callback at a position, which asks to stop at the given calls of an event. -/
def callback (position : Nat) (name : String) (stopAt : String → List Nat) :
    OutsideCallback ScriptedWorld where
  name
  respond event _ w :=
    let (number, w) := count s!"callback {position} {event.name}" w
    (if (stopAt event.name).contains number then .stop else .proceed, w)

/-- A batch loop for batches that are counts. -/
def batchLoop (script : BatchScript) : BatchLoop ScriptedWorker Nat :=
  let run (batch index : Nat) (_ : Nat) : Stateful ScriptedWorker BatchOutput :=
    Stateful.of fun s =>
      let next := { s with runs := s.runs + 1 }
      match script.item s.runs with
      | .echo =>
        (.ok (.ofResults [[.plain (Single.ofCount batch)]]), next.complete index)
      | .stopEpoch => (.ok .stopEpoch, next)
      | .fail error => (.error error, next)
      | .results results => (.ok (.ofResults results), next.complete index)
  let closedWindow := ScriptedWorker.closedWindow script.boundary
  if script.acceptsAccumulation then
    { run, closedWindow
      setAccumulation := fun batches => modify fun s => { s with window := max 1 batches } }
  else { run, closedWindow }

end Scripted

end TrainingLoop
