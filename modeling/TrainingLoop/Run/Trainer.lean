import TrainingLoop.Callback.Basic
import TrainingLoop.Config
import TrainingLoop.Journal
import TrainingLoop.Metric.Log
import TrainingLoop.Profile
import TrainingLoop.Run.Event
import TrainingLoop.ValidationSchedule
/-!
# The trainer

The state that all loops of a run share, and the dispatch of hooks. A hook goes to the callbacks
first, then to the model's override or, where the model has none, to the accelerator. Every
dispatch runs inside a profiling region of its name, which is closed on every way out.
-/

namespace TrainingLoop

/-- The state of a run that loops and callbacks see. -/
structure RunState where
  currentEpoch : Nat := 0
  /-- A stop was requested, by a callback or from outside. -/
  shouldStop : Bool := false
  trainingBatches : BatchCount := .infinite
  /-- Batches between two validations. -/
  valCheckBatch : BatchCount := .infinite
  stage : Stage := .training
  /-- This process writes the logs. -/
  isGlobalZero : Bool := true
  /-- Some batch was completed. -/
  hasTrained : Bool := false
  deriving DecidableEq, Repr

def RunState.inspect (s : RunState) : String :=
  Inspect.record "TrainerState" [
    ("current_epoch", Inspect.count s.currentEpoch),
    ("should_stop", Inspect.bool s.shouldStop),
    ("num_training_batches", s.trainingBatches.inspect),
    ("val_check_batch", s.valCheckBatch.inspect),
    ("stage", s.stage.inspect),
    ("is_global_zero", Inspect.bool s.isGlobalZero),
    ("has_trained", Inspect.bool s.hasTrained)]

/-- The warnings given so far; each is given once. -/
structure Warnings where
  seen : List String := []
  deriving DecidableEq, Repr

namespace Warnings

def isNew (w : Warnings) (message : String) : Bool := !w.seen.contains message

def add (w : Warnings) (message : String) : Warnings :=
  if w.isNew message then ⟨message :: w.seen⟩ else w

/-- What a warning reports: nothing the second time. -/
def notices (w : Warnings) (message : String) : List Notice :=
  if w.isNew message then [.warn message] else []

def size (w : Warnings) : Nat := w.seen.length

def isEmpty (w : Warnings) : Bool := w.seen.isEmpty

end Warnings

structure Trainer (W β : Type) where
  state : RunState
  callbacks : List (Callback W) := []
  log : MetricsLog W
  board : RateBoard := .empty
  profiler : Profiler := .passThrough
  warnings : Warnings := {}
  /-- The state of all code from outside. -/
  world : W
  events : Journal (RunEvent β) := ∅
  notices : Journal Notice := ∅

namespace Trainer

variable {W β α : Type}

/-- A trainer at the start, without callbacks, schedules and a logger. -/
def ofSetup (setup : Setup W β) (world : W) : Trainer W β :=
  { state := { isGlobalZero := setup.accelerator.isGlobalZero }
    log := { logEvery := setup.config.logEveryNSteps
             flushEvery := setup.config.flushLogsEveryNSteps }
    world }

def record (event : RunEvent β) (t : Trainer W β) : Trainer W β :=
  { t with events := t.events.push event }

/-- What a callback answered, where it asked to stop. -/
def recordAnswer (position : Nat) (action : CallbackAction) (t : Trainer W β) : Trainer W β :=
  if action.isStop then t.record (.stopAsked position) else t

def report (notices : List Notice) (t : Trainer W β) : Trainer W β :=
  { t with notices := t.notices.append notices }

def openRegion (action : String) (t : Trainer W β) : Trainer W β :=
  { t with profiler := t.profiler.start action }

def closeRegion (action : String) (t : Trainer W β) : Trainer W β :=
  { t with profiler := t.profiler.stop action }

def markTrained (t : Trainer W β) : Trainer W β :=
  { t with state := { t.state with hasTrained := true } }

/-- A stop requested from outside. -/
def requestStop (t : Trainer W β) : Trainer W β :=
  { t with state := { t.state with shouldStop := true } }

def clearStop (t : Trainer W β) : Trainer W β :=
  { t with state := { t.state with shouldStop := false } }

/-- The schedule by which the current epoch is validated. -/
def validationSchedule (setup : Setup W β) (t : Trainer W β) : ValidationSchedule :=
  { interval := t.state.valCheckBatch
    everyNEpochs := setup.config.checkValEveryNEpochs
    trainingBatches := t.state.trainingBatches
    enabled := setup.config.enableValidation && setup.evaluator.isSome }

def context (setup : Setup W β) (progress : Progress) (batchIndex : Nat) (loss : Option Float32)
    (t : Trainer W β) : Context :=
  { epoch := t.state.currentEpoch
    maxEpochs := setup.config.maxEpochs
    batchIndex
    trainingBatches := t.state.trainingBatches
    globalStep := progress.globalStep
    totalBatches := progress.totalBatches
    loss
    rate := t.board.current.head?
    metrics := t.log.latest
    stage := t.state.stage }

/-- An event told to callbacks, the first of which has the given position. Each is told once, in
order; the answers are merged. -/
def notifyFrom (event : CallbackEvent) (context : Context) (position : Nat) :
    List (Callback W) → Trainer W β → CallbackAction × List (Callback W) × Trainer W β
  | [], t => (.proceed, [], t)
  | c :: rest, t =>
    let reply := c.notify event context t.world
    let told := { t with world := reply.world }
    let heard := (told.record (.callback position event context)).recordAnswer position reply.action
    let (action, callbacks, t) :=
      notifyFrom event context (position + 1) rest (heard.report reply.notices)
    (reply.action.merge action, reply.callback :: callbacks, t)

def notify (event : CallbackEvent) (context : Context) (t : Trainer W β) :
    CallbackAction × Trainer W β :=
  let (action, callbacks, t) := notifyFrom event context 0 t.callbacks t
  (action, { t with callbacks })

/-- The first stop asked for by callbacks is reported. -/
def applyAction (action : CallbackAction) (hook : String) (t : Trainer W β) : Trainer W β :=
  if action.isStop && !t.state.shouldStop then
    (t.report [.info "callback requested stop" [("hook", .text hook)]]).requestStop
  else t

/-- A hook told to all callbacks, their answers applied. -/
def tellCallbacks (hook : Hook) (event : CallbackEvent) (context : Context) (t : Trainer W β) :
    Trainer W β :=
  let (action, t) := (t.record (.dispatched hook)).notify event context
  t.applyAction action hook.name

end Trainer

/-- A step of a run that changes the trainer and may fail. -/
abbrev TrainerStep (W β α : Type) := Stateful (Trainer W β) α

namespace TrainerStep

variable {W β α : Type}

open Trainer

/-- A step whose failure is recorded. -/
def recordFailure (step : TrainerStep W β α) : TrainerStep W β α :=
  Stateful.noteFailure (fun e t => t.record (.failed e)) step

/-- Code from outside on its world. -/
def outside (action : Stateful W α) : TrainerStep W β α :=
  recordFailure (Stateful.onPart Trainer.world (fun world t => { t with world }) action)

/-- A step inside a profiling region, which is closed whatever its result. -/
def inRegion (action : String) (body : TrainerStep W β α) : TrainerStep W β α :=
  Stateful.of fun t =>
    let (result, t) := body.runOn (t.openRegion action)
    (result, t.closeRegion action)

/-- An action of the metrics log, which may call the logger. -/
def onLog (action : MetricsLog W → W → Except Error Unit × MetricsLog W × W) :
    TrainerStep W β Unit :=
  recordFailure <| Stateful.of fun t =>
    let (result, log, world) := action t.log t.world
    (result, { t with log, world })

/-- The batch counts of an epoch, from the length of its data. -/
def resolveCounts (setup : Setup W β) (length : Option Nat) : TrainerStep W β Unit := do
  let trainingBatches ← setup.config.limitTrainBatches.resolveBatches length
  let valCheckBatch ← setup.config.valCheckInterval.resolveInterval trainingBatches
  modify fun t => { t with state := { t.state with trainingBatches, valCheckBatch } }

/-- The model's override of a hook called or, where the model has none, the accelerator's. -/
def answer (setup : Setup W β) (hookCall : HookCall β) : TrainerStep W β Unit := do
  match setup.model.override? hookCall with
  | some action =>
    if setup.model.isLegacyCall hookCall then
      modify fun t =>
        { t.report (t.warnings.notices ModelHooks.legacyWarning) with
          warnings := t.warnings.add ModelHooks.legacyWarning }
    modify fun t => t.record (.model hookCall)
    outside action
  | none =>
    modify fun t => t.record (.accelerator hookCall)
    outside (setup.accelerator.respond hookCall)

/-- A call of a hook that the model may override. -/
def call (setup : Setup W β) (hookCall : HookCall β) (context : Context) : TrainerStep W β Unit :=
  inRegion hookCall.name do
    modify fun t => t.tellCallbacks hookCall.hook hookCall.event context
    answer setup hookCall

/-- The model's own use of the epoch's outputs; it must not return a value. -/
def reduce (setup : Setup W β) (outputs : Processed) : TrainerStep W β Unit :=
  inRegion Hook.trainingEpochEnd.name do
    modify fun t => t.record (.dispatched .trainingEpochEnd)
    match setup.model.trainingEpochEnd with
    | none => pure ()
    | some action =>
      modify fun t => t.record (.reduced outputs)
      let returned ← outside (action outputs)
      if returned then throw (.misconfiguration .epochEndReturnedValue)

/-- The evaluator run. While it runs the stage is that of validation, and a failure is part of the
result. -/
def runEvaluator (evaluator : Evaluator W) (globalStep : Nat) :
    TrainerStep W β (Except Error Metrics) := do
  modify fun t => { t with state := { t.state with stage := .validating } }
  let epoch := (← get).state.currentEpoch
  let result ← Stateful.attempt <| inRegion "run_evaluation" do
    modify fun t => t.record (.evaluated epoch globalStep)
    outside (evaluator epoch globalStep)
  modify fun t => { t with state := { t.state with stage := .training } }
  pure result

/-- The metrics of an evaluation published, and the callbacks told. -/
def publishEvaluation (setup : Setup W β) (progress : Progress) :
    Except Error Metrics → TrainerStep W β Unit
  | .error e => throw e.ofEvaluation
  | .ok metrics => do
    modify fun t => { t with log := t.log.publish metrics }
    modify fun t => t.tellCallbacks .validationEnd .validationEnd (t.context setup progress 0 none)

/-- A validation, if there is an evaluator. -/
def evaluate (setup : Setup W β) (progress : Progress) : TrainerStep W β Unit :=
  match setup.evaluator with
  | none => pure ()
  | some evaluator => do
    let result ← runEvaluator evaluator progress.globalStep
    publishEvaluation setup progress result

/-- A batch's outputs taken into the metrics log. -/
def logStep (outputs : Processed) (globalStep : Nat) : TrainerStep W β Unit := do
  let t ← get
  if t.log.sink.isSome then
    match t.log.due? outputs globalStep t.state.shouldStop with
    | some due => modify fun t => t.record (.logged due)
    | none => pure ()
  onLog (MetricsLog.logStep outputs globalStep t.state.shouldStop)

/-- The logger saved, where this is due and this process writes the logs. -/
def flush (globalStep : Nat) : TrainerStep W β Unit := do
  let t ← get
  if t.log.flushDue globalStep t.state.shouldStop && t.state.isGlobalZero && t.log.sink.isSome then
    modify fun t => t.record .saved
    onLog MetricsLog.save

/-- A tick of the schedules of an interval, with the latest metrics. -/
def tickRates (interval : Interval) : TrainerStep W β Unit :=
  recordFailure <| Stateful.of fun t =>
    let update := t.board.update interval t.log.latest
    (update.result.map fun _ => (),
      { (t.record (.ratesTicked interval)).report update.notices with board := ⟨update.rates⟩ })

/-- The global step after an optimizer step, as the accelerator counts it. -/
def nextStep (setup : Setup W β) (progress : Progress) : TrainerStep W β Nat :=
  Stateful.of fun t =>
    let t := t.record (.stepRequested progress.totalBatches progress.globalStep)
    let (globalStep, world) :=
      setup.accelerator.nextStep progress.totalBatches progress.globalStep t.world
    (.ok globalStep, { t with world })

end TrainerStep

namespace Trainer

variable {W β : Type}

def inspect (setup : Setup W β) (t : Trainer W β) : String :=
  Inspect.openRecord "Trainer" [
    ("config", setup.config.inspect),
    ("state", t.state.inspect),
    ("callbacks", Inspect.list (t.callbacks.map fun c => Inspect.text c.name)),
    ("model", setup.model.inspect),
    ("logger", t.log.inspect),
    ("schedulers", t.board.inspect)]

end Trainer

end TrainingLoop
