import TrainingLoop.Main
import TrainingLoop.Scripted
import TrainingLoop.Proofs.Stateful
import TrainingLoop.Proofs.Batches
import TrainingLoop.Proofs.Metric.Log
import TrainingLoop.Proofs.Run.Trainer
import TrainingLoop.Proofs.Run.Aside
import TrainingLoop.Proofs.Run.LogFrame
import TrainingLoop.Proofs.Run.Trace
import TrainingLoop.Proofs.Run.Epoch
import TrainingLoop.Proofs.Run.EpochTrace
import TrainingLoop.Proofs.Run.EpochMetrics
import TrainingLoop.Proofs.Run.Consumption
import TrainingLoop.Proofs.Run.Fit
import TrainingLoop.Proofs.Run.FitTrace
import TrainingLoop.Proofs.Run.HookOrder
import TrainingLoop.Proofs.Run.Counting
import TrainingLoop.Proofs.Run.Limits
import TrainingLoop.Proofs.Run.StopProtocol
import TrainingLoop.Proofs.Rate.Ticks
import TrainingLoop.Proofs.Run.Lockstep
import TrainingLoop.Proofs.ValidationSchedule
import TrainingLoop.Proofs.Run.Validation
import TrainingLoop.Proofs.EpochPlan
import TrainingLoop.Proofs.Output.Kept
import TrainingLoop.Proofs.Output.Steps
import TrainingLoop.Proofs.Output.Modes
import TrainingLoop.Proofs.Output.Rebuild
import TrainingLoop.Proofs.Output.Means
import TrainingLoop.Proofs.Run.Reliable
import TrainingLoop.Proofs.Run.Synthetic
import TrainingLoop.Proofs.Run.ResumePoint
import TrainingLoop.Proofs.Run.Calm
import TrainingLoop.Proofs.Run.Ledger
import TrainingLoop.Proofs.Run.BatchOutputs
import TrainingLoop.Proofs.Run.ValidatedOnce
import TrainingLoop.Proofs.Run.OptimizerSteps
import TrainingLoop.Proofs.Run.MetricsFile
import TrainingLoop.Proofs.Run.LoggedSteps
import TrainingLoop.Proofs.Metric.Averages
import TrainingLoop.Proofs.Run.EpochEnd
import TrainingLoop.Proofs.Run.EpochAverages
import TrainingLoop.Proofs.Run.Course
import TrainingLoop.Proofs.Run.Resumption
import TrainingLoop.Proofs.Run.Silent
import TrainingLoop.Proofs.Run.Unlogged
import TrainingLoop.Proofs.Run.Unvalidated
import TrainingLoop.Proofs.Run.Profiling
import TrainingLoop.Proofs.Spec.Validation
import TrainingLoop.Proofs.Spec.Completion
import TrainingLoop.Proofs.Spec.Unvalidated
import TrainingLoop.Proofs.Callback.Patience
import TrainingLoop.Proofs.Spec.Overrides
import TrainingLoop.Proofs.Spec.Parameters
import TrainingLoop.Proofs.Number.Rounding
import TrainingLoop.Proofs.Number.Packing
import TrainingLoop.Proofs.Number.Single
import TrainingLoop.Proofs.Number.Order
import TrainingLoop.Proofs.Number.Counts
import TrainingLoop.Proofs.Limit
import TrainingLoop.Proofs.Rate.Plateau
import TrainingLoop.Proofs.Rate.Independence
import TrainingLoop.Proofs.Document.Visible
import TrainingLoop.Proofs.Metric.JsonLines
import TrainingLoop.Proofs.Number.Products
import TrainingLoop.Proofs.Spec.PlateauRates
import TrainingLoop.Proofs.Metric.Undisturbed
import TrainingLoop.Proofs.Number.Powers
import TrainingLoop.Proofs.Rate.StepDecay
import TrainingLoop.Proofs.Regions
import TrainingLoop.Proofs.Number.Shortest
import TrainingLoop.Proofs.Document.Literals
import TrainingLoop.Proofs.Document.Reading
import TrainingLoop.Proofs.Output.Json
import TrainingLoop.Proofs.Metric.RecordLines
