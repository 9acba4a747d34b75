import TrainingLoop.Output.Processed
/-!
# Log records

One row of logged metrics, and its line in a metrics file.
-/

namespace TrainingLoop

structure LogRecord where
  step : Nat
  metrics : Metrics
  deriving DecidableEq

namespace LogRecord

def document (r : LogRecord) : Document :=
  .record [("step", .count r.step), ("metrics", Processed.metricsDocument r.metrics)]

def line (r : LogRecord) : String := r.document.toJson ++ "\n"

end LogRecord

end TrainingLoop
