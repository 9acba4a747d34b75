import TrainingLoop.Output.Processed
/-!
# Output trees and their collapse

A batch loop reports results by optimizer, batch and split. Before hooks see them the tree is
collapsed: optimizers without a batch are dropped, a batch with a single split becomes that split's
mapping, and a single remaining optimizer stands without the list around it. For one batch the
batch level is removed, for an epoch it stays.
-/

namespace TrainingLoop

inductive BatchEntry where
  | single (result : StepResult)
  | splits (results : List StepResult)
  deriving DecidableEq

def BatchEntry.results : BatchEntry → List StepResult
  | single result => [result]
  | splits results => results

/-- What the batch level of a tree holds. -/
inductive CollapseMode where
  /-- The one entry of a single batch. -/
  | batch
  /-- Every kept batch of an epoch. -/
  | epoch
  deriving DecidableEq, Repr

/-- For each optimizer its batches, in order. -/
structure OutputTree where
  optimizers : List (List BatchEntry)
  deriving DecidableEq

namespace OutputTree

/-- The tree of a single batch. An optimizer without results has no batch. -/
def ofBatch (results : BatchResults) : OutputTree :=
  ⟨results.map fun splits => if splits.isEmpty then [] else [.splits splits]⟩

/-- One batch of one optimizer: a single split stands by itself. -/
def collapseSplits : List StepResult → Processed
  | [only] => .step only.values
  | splits => .list (splits.map fun result => .step result.values)

/-- The batches of one optimizer, unless there are none. -/
def collapseOptimizer (mode : CollapseMode) : List BatchEntry → Option Processed
  | [] => none
  | first :: rest =>
    match mode with
    | .batch => some (collapseSplits first.results)
    | .epoch => some (.list ((first :: rest).map fun entry => collapseSplits entry.results))

def collapse (mode : CollapseMode) (t : OutputTree) : Processed :=
  match t.optimizers.filterMap (collapseOptimizer mode) with
  | [only] => only
  | optimizers => .list optimizers

end OutputTree

end TrainingLoop
