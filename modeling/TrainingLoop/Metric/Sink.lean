import TrainingLoop.Metric.JsonLines
import TrainingLoop.Stateful
/-!
# Loggers

Where records go: into memory, into a metrics file, or to a logger from outside the library.
-/

namespace TrainingLoop

/-- A logger from outside the library. -/
structure OutsideLogger (W : Type) where
  name : String := "MetricsLogger"
  log : LogRecord → Stateful W Unit
  save : Stateful W Unit := pure ()

structure MemoryLog where
  records : Journal LogRecord := ∅
  saves : Nat := 0

inductive Sink (W : Type) where
  | memory (m : MemoryLog)
  | jsonLines (l : JsonLines)
  | outside (o : OutsideLogger W)

namespace Sink

variable {W : Type}

def name : Sink W → String
  | memory _ => "InMemoryLogger"
  | jsonLines _ => "JsonLinesLogger"
  | outside o => o.name

/-- The result of a logger's action, the logger and the world after it. -/
abbrev Outcome (W : Type) := Except Error Unit × Sink W × W

def log (record : LogRecord) (world : W) : Sink W → Outcome W
  | memory m => (.ok (), memory { m with records := m.records.push record }, world)
  | jsonLines l => (.ok (), jsonLines (l.log record), world)
  | outside o =>
    let (result, world) := (o.log record).runOn world
    (result, outside o, world)

def save (world : W) : Sink W → Outcome W
  | memory m => (.ok (), memory { m with saves := m.saves + 1 }, world)
  | jsonLines l =>
    let (result, l) := l.save
    (result, jsonLines l, world)
  | outside o =>
    let (result, world) := o.save.runOn world
    (result, outside o, world)

end Sink

end TrainingLoop
