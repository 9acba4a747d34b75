import TrainingLoop.Document.Json
import TrainingLoop.Spec.Document
import TrainingLoop.Yaml.Printer
/-!
# Reports

The lines that the commands print. How many there are depends on the verbosity.
-/

namespace TrainingLoop.Command

inductive Verbosity where
  | quiet
  | normal
  | verbose
  deriving DecidableEq, Repr

namespace Verbosity

/-- Lines that are left out when all is to be quiet. -/
def lines (v : Verbosity) (lines : List String) : List String := if v = .quiet then [] else lines

/-- Lines for those who want to know more. -/
def details (v : Verbosity) (lines : List String) : List String :=
  if v = .verbose then lines else []

/-- Warnings are reported unless all is to be quiet; other notices are details. -/
def reports (v : Verbosity) (n : Notice) : Bool :=
  match n.level with
  | .info => v = .verbose
  | .warn => v ≠ .quiet

end Verbosity

/-- The time that a run took, if it was measured. -/
inductive Elapsed where
  | unmeasured
  | seconds (s : Float)

namespace Elapsed

def document : Elapsed → Document
  | unmeasured => .count 0
  | seconds s => Document.jsonDouble s

def text : Elapsed → String
  | unmeasured => "-"
  | seconds s => NumberLayout.fixedPlaces 3 (Double.decode s) ++ "s"

end Elapsed

def inspectNumbers (xs : List Float32) : String := Inspect.list (xs.map Inspect.number)

def simulationHeading (path : String) : String := s!"Vuelta: Simulating {path}"

/-- The averages of each epoch, the first of which has the given number. -/
def historyLines : Nat → List Metrics → List String
  | _, [] => []
  | epoch, m :: rest =>
    s!"  Epoch {epoch}: {ProgressReport.inspectMetrics m}" :: historyLines (epoch + 1) rest

def simulationLines (v : Verbosity) (elapsed : Elapsed) (r : SimulationReport) : List String :=
  v.lines (
    ["Simulation complete!",
      s!"  Epochs: {r.fit.epochsCompleted} ({r.fit.stopReason.inspect})",
      s!"  Global step: {r.fit.progress.globalStep} (batches: {r.fit.progress.totalBatches})"] ++
    (match r.fit.bestLoss with
      | none => []
      | some best => ["  Best epoch loss: " ++ NumberLayout.fixedPlaces 4 (Single.decode best)]) ++
    (if r.rates.isEmpty then [] else ["  Learning rates: " ++ inspectNumbers r.rates])) ++
  v.details (historyLines 0 r.history ++ ["  Elapsed: " ++ elapsed.text])

def validationHeading (path : String) : String := s!"Validating config: {path}"

def scheduleLines (s : ScheduleSpec) : List String :=
  ("    " ++ s.name ++ " (lr=" ++ NumberLayout.message.single s.rate ++ ", interval=" ++
    s.interval.name ++ ")") ::
    (match s.monitor with
      | none => []
      | some metric => ["      Monitor: " ++ metric])

def detailLines (s : LoopSpec) : List String :=
  let c := s.trainer
  ["", "Configuration Summary:", s!"  Epochs: {c.minEpochs}..={c.maxEpochs}"] ++
  (match c.maxSteps with
    | none => []
    | some steps => [s!"  Max steps: {steps}"]) ++
  ["  Train batches: " ++ c.limitTrainBatches.inspect,
    "  Validation interval: " ++ c.valCheckInterval.inspect,
    s!"  Accumulate grad batches: {c.accumulateGradBatches}",
    s!"  Logging: every {c.logEveryNSteps} steps, flush every {c.flushLogsEveryNSteps}"] ++
  (if s.schedules.isEmpty then []
    else ["", "  Schedulers:"] ++ s.schedules.flatMap scheduleLines) ++
  (match s.earlyStopping with
    | none => []
    | some e =>
      ["", "  Early stopping:", "    Monitor: " ++ e.monitor, s!"    Patience: {e.patience}"])

def infoLines (v : Verbosity) (s : LoopSpec) : List String :=
  v.lines ["Configuration Info:"] ++
  ["", s!"Max epochs: {s.trainer.maxEpochs}",
    s!"Batches per epoch: {s.simulation.model.batchesPerEpoch}",
    s!"Optimizers: {s.simulation.model.optimizers}",
    s!"Schedulers: {s.schedules.length}"] ++
  (if s.simulation.evaluate then ["Validation: enabled"] else []) ++
  (if s.earlyStopping.isSome then ["Early stopping: enabled"] else [])

end TrainingLoop.Command
