import Mathlib.Data.List.Basic
import TrainingLoop.Output.Tree
import TrainingLoop.Proofs.KeyMap
/-!
# The steps of a collapsed output

A collapse changes the nesting of a tree and nothing else. Read depth first, the output has the
mapping of every result of the tree once, in the order of optimizers, batches and splits
(`collapse_steps`).
-/

namespace TrainingLoop

theorem StepResult.get?_values (r : StepResult) (key : String) :
    r.values.get? key = if lossKey = key then some r.loss else r.extra.get? key :=
  KeyMap.get?_insert r.extra lossKey r.loss key

/-! ## Depth-first order -/

namespace Processed

theorem stepsOfAll_eq (items : List Processed) : stepsOfAll items = items.flatMap steps := by
  induction items with
  | nil => rfl
  | cons item items ih => rw [stepsOfAll, ih, List.flatMap_cons]

theorem losses_of_steps {p : Processed} {results : List StepResult}
    (hsteps : p.steps = results.map StepResult.values) :
    p.losses = results.map StepResult.loss := by
  have hloss : (fun m : Metrics => m.get? lossKey) ∘ StepResult.values =
      fun r => some r.loss := by
    funext r
    exact (r.get?_values lossKey).trans (if_pos rfl)
  rw [losses, hsteps, List.filterMap_map, hloss]
  exact congrFun List.filterMap_eq_map results

end Processed

namespace OutputTree

def results (t : OutputTree) : List StepResult :=
  t.optimizers.flatMap fun entries => entries.flatMap BatchEntry.results

/-- What the batch mode takes for granted: an optimizer that has a batch has one only. -/
def IsSingleBatch (t : OutputTree) : Prop :=
  ∀ entries ∈ t.optimizers, entries ≠ [] → entries.length = 1

theorem steps_collapseSplits (splits : List StepResult) :
    (collapseSplits splits).steps = splits.map StepResult.values := by
  unfold collapseSplits
  split
  · rfl
  · rw [Processed.steps, Processed.stepsOfAll_eq, List.flatMap_map, List.map_eq_flatMap]
    rfl

theorem steps_collapse_eq (mode : CollapseMode) (t : OutputTree) :
    (t.collapse mode).steps =
      t.optimizers.flatMap fun entries =>
        (collapseOptimizer mode entries).toList.flatMap Processed.steps := by
  rw [← List.flatMap_assoc, ← List.filterMap_eq_flatMap_toList, collapse]
  split
  · rename_i only hone
    rw [hone, List.flatMap_singleton]
  · rw [Processed.steps, Processed.stepsOfAll_eq]

/-- Only the batch mode can lose results, and only of an optimizer with several batches. -/
theorem steps_collapseOptimizer {mode : CollapseMode} {entries : List BatchEntry}
    (hsingle : mode = .batch → entries ≠ [] → entries.length = 1) :
    (collapseOptimizer mode entries).toList.flatMap Processed.steps =
      (entries.flatMap BatchEntry.results).map StepResult.values := by
  cases entries with
  | nil => rfl
  | cons first rest =>
      cases mode with
      | batch =>
          have hnil : rest = [] := by
            have hlength := hsingle rfl (List.cons_ne_nil first rest)
            rw [List.length_cons] at hlength
            exact List.length_eq_zero_iff.1 (by omega)
          subst hnil
          rw [collapseOptimizer, Option.toList_some, List.flatMap_singleton,
            List.flatMap_singleton, steps_collapseSplits]
      | epoch =>
          rw [collapseOptimizer, Option.toList_some, List.flatMap_singleton, Processed.steps,
            Processed.stepsOfAll_eq, List.flatMap_map, List.map_flatMap]
          simp only [steps_collapseSplits]

theorem steps_collapse {mode : CollapseMode} {t : OutputTree}
    (hsingle : mode = .batch → t.IsSingleBatch) :
    (t.collapse mode).steps = t.results.map StepResult.values := by
  rw [steps_collapse_eq, results, List.map_flatMap]
  exact List.flatMap_congr fun entries hentries =>
    steps_collapseOptimizer fun hmode => hsingle hmode entries hentries

theorem steps_collapse_epoch (t : OutputTree) :
    (t.collapse .epoch).steps = t.results.map StepResult.values := steps_collapse nofun

/-! ## The tree of one batch -/

theorem isSingleBatch_ofBatch (results : BatchResults) : (ofBatch results).IsSingleBatch := by
  intro entries hentries hnonempty
  obtain ⟨splits, -, rfl⟩ := List.mem_map.1 hentries
  cases splits with
  | nil => exact absurd rfl hnonempty
  | cons first rest => rfl

theorem results_ofBatch (batch : BatchResults) : (ofBatch batch).results = batch.flatten := by
  rw [results, ofBatch, List.flatMap_map, List.flatten_eq_flatMap]
  apply List.flatMap_congr
  intro splits _
  cases splits with
  | nil => rfl
  | cons first rest => exact List.flatMap_singleton ..

theorem steps_ofBatch (results : BatchResults) :
    ((ofBatch results).collapse .batch).steps = results.flatten.map StepResult.values := by
  rw [steps_collapse fun _ => isSingleBatch_ofBatch results, results_ofBatch]

/-- A collapsed output shows each result of the tree once, in order. That is so of every tree whose
batch level is kept, and without it of the tree of a batch: there no optimizer has a second batch
that could be lost. The mapping of a result has its extra values, and its loss under its own key
whether an extra value is named so or not. -/
theorem collapse_steps (t : OutputTree) (batch : BatchResults) :
    (t.collapse .epoch).steps = t.results.map StepResult.values ∧
    (t.collapse .epoch).losses = t.results.map StepResult.loss ∧
    (ofBatch batch).IsSingleBatch ∧
    (ofBatch batch).results = batch.flatten ∧
    ((ofBatch batch).collapse .batch).steps = (ofBatch batch).results.map StepResult.values ∧
    ((ofBatch batch).collapse .batch).losses = (ofBatch batch).results.map StepResult.loss ∧
    ∀ (r : StepResult) (key : String),
      r.values.get? key = if lossKey = key then some r.loss else r.extra.get? key := by
  have hbatch : ((ofBatch batch).collapse .batch).steps =
      (ofBatch batch).results.map StepResult.values :=
    steps_collapse fun _ => isSingleBatch_ofBatch batch
  exact ⟨steps_collapse_epoch t, Processed.losses_of_steps (steps_collapse_epoch t),
    isSingleBatch_ofBatch batch, results_ofBatch batch, hbatch, Processed.losses_of_steps hbatch,
    StepResult.get?_values⟩

end OutputTree

end TrainingLoop
