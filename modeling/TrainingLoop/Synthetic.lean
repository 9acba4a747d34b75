import TrainingLoop.Number.Generator
import TrainingLoop.Run.Collaborators
/-!
# A synthetic model

A batch loop and an evaluator without a model behind them: the loss decays by a factor with every
optimizer step and carries some noise. They exercise accumulation windows, early ends of epochs
and outputs of several optimizers and splits.
-/

namespace TrainingLoop

/-- The shape of a synthetic model and how its loss goes. -/
structure SyntheticModel where
  batchesPerEpoch : Nat := 20
  optimizers : Nat := 1
  /-- Results of one optimizer for one batch. -/
  splits : Nat := 1
  initialLoss : Float32 := 2.0
  /-- The factor of the loss at each optimizer step. -/
  decay : Float32 := 0.98
  /-- The range of the noise added to each loss. -/
  noise : Float32 := 0.05
  /-- Whether results ask to be reduced at the end of the epoch; plain results if not given. -/
  reduceOnEpochEnd : Option Bool := none
  /-- The index of the batch at which the epoch is ended early. -/
  stopEpochAt : Option Nat := none
  seed : UInt64 := 42
  deriving DecidableEq

namespace SyntheticModel

def check (m : SyntheticModel) : Except Error Unit := do
  if m.optimizers = 0 ∨ m.splits = 0 then
    .error (.invalidParameter .noOptimizerOrSplit)
  if !Single.isFraction m.decay then
    .error (.invalidParameter (.decayOutOfRange m.decay))

/-- A setting of the loss is NaN. If none is, a NaN among the losses arose in their arithmetic. -/
def holdsNaN (m : SyntheticModel) : Bool := m.initialLoss.isNaN || m.decay.isNaN || m.noise.isNaN

def decayedLoss (m : SyntheticModel) (steps : Nat) : Float32 :=
  m.initialLoss * Single.power m.decay (Single.exponentOfCount steps)

/-- The share of each optimizer: every further one lies a tenth of the first above. -/
def optimizerScale (optimizer : Nat) : Float32 := 1.0 + Single.ofCount optimizer * 0.1

def addNoise (m : SyntheticModel) (x : Float32) (g : Generator) : Float32 × Generator :=
  let (r, g) := g.unit
  (x + m.noise * r, g)

def accuracyKey : String := "acc"

/-- The result of a split with the given loss. -/
def resultOf (m : SyntheticModel) (loss : Float32) : StepResult :=
  let result : StepResult := match m.reduceOnEpochEnd with
    | none => .plain loss
    | some onEpochEnd => .reducible loss onEpochEnd
  result.addExtra accuracyKey (1.0 / (1.0 + loss))

/-- The results of one optimizer, each with noise of its own. -/
def splitResults (m : SyntheticModel) (base : Float32) : (splits : Nat) → Generator →
    List StepResult × Generator
  | 0, g => ([], g)
  | splits + 1, g =>
    let (loss, g) := m.addNoise base g
    let (rest, g) := splitResults m base splits g
    (m.resultOf loss :: rest, g)

/-- The results of so many optimizers, of which the first has the given number. -/
def batchResults (m : SyntheticModel) (steps : Nat) : (optimizer count : Nat) → Generator →
    BatchResults × Generator
  | _, 0, g => ([], g)
  | optimizer, count + 1, g =>
    let (first, g) := m.splitResults (m.decayedLoss steps * optimizerScale optimizer) m.splits g
    let (rest, g) := batchResults m steps (optimizer + 1) count g
    (first :: rest, g)

def valLossKey : String := "val_loss"

/-- Validation reports the decayed loss of the global step, a twentieth higher. -/
def evaluator (m : SyntheticModel) : Evaluator Generator := fun _ globalStep =>
  Stateful.of fun g =>
    let (loss, g) := m.addNoise (m.decayedLoss globalStep * 1.05) g
    (.ok (KeyMap.ofList [(valLossKey, loss)]), g)

/-- The generator of the evaluator's noise. -/
def evaluatorNoise (m : SyntheticModel) : Generator := .ofSeed (m.seed + 1)

end SyntheticModel

structure SyntheticWorker where
  noise : Generator
  /-- Batches to one optimizer step. -/
  window : Nat := 1
  optimizerSteps : Nat := 0
  batchesTrained : Nat := 0
  /-- The index within its epoch of the last batch trained on. -/
  lastBatch : Option Nat := none
  window_pos : 0 < window := by exact Nat.one_pos

namespace SyntheticWorker

def ofModel (m : SyntheticModel) : SyntheticWorker := { noise := .ofSeed m.seed }

/-- Windows begin anew with every epoch, so they follow the index of the batch. -/
def closedWindow (s : SyntheticWorker) : Bool :=
  match s.lastBatch with
  | none => false
  | some index => (index + 1) % s.window == 0

def withWindow (s : SyntheticWorker) (batches : Nat) : SyntheticWorker :=
  { s with window := max batches 1, window_pos := Nat.le_max_right batches 1 }

/-- A batch counted, and the optimizer step that it may end with. -/
def countBatch (index : Nat) (noise : Generator) (s : SyntheticWorker) : SyntheticWorker :=
  let trained := { s with noise, batchesTrained := s.batchesTrained + 1, lastBatch := some index }
  if trained.closedWindow then { trained with optimizerSteps := s.optimizerSteps + 1 } else trained

/-- A batch trained on, or the end of the epoch asked for. -/
def train (m : SyntheticModel) (index : Nat) (s : SyntheticWorker) :
    BatchOutput × SyntheticWorker :=
  if m.stopEpochAt = some index then (.stopEpoch, s)
  else
    let (results, noise) := m.batchResults s.optimizerSteps 0 m.optimizers s.noise
    (.ofResults results, s.countBatch index noise)

end SyntheticWorker

/-- The synthetic batch loop. It looks at no batch. -/
def SyntheticModel.batchLoop (m : SyntheticModel) (β : Type) : BatchLoop SyntheticWorker β where
  run _ index _ := Stateful.of fun s =>
    let (output, s) := s.train m index
    (.ok output, s)
  closedWindow := SyntheticWorker.closedWindow
  setAccumulation batches := Stateful.of fun s => (.ok (), s.withWindow batches)

end TrainingLoop
