import TrainingLoop.Metric.Log
import TrainingLoop.Proofs.Output.Steps
/-!
# The means of a batch

The collapse of a batch loses none of its results, and every result has a loss. So there are means
to log of a batch just if it has a result (`isEmpty_means_ofBatch`).
-/

namespace TrainingLoop

namespace Processed

theorem isEmpty_means (p : Processed) :
    p.means.isEmpty = (p.steps.flatMap KeyMap.entries).isEmpty := by
  rw [means, Sample.values, KeyMap.isEmpty_mapValues, averages, KeyMap.isEmpty_mapValues,
    KeyMap.isEmpty_foldl_alter]
  exact Bool.true_and _

end Processed

theorem isEmpty_means_ofBatch (results : BatchResults) :
    ((OutputTree.ofBatch results).collapse .batch).means.isEmpty = results.flatten.isEmpty := by
  rw [Processed.isEmpty_means, OutputTree.steps_ofBatch]
  cases results.flatten with
  | nil => rfl
  | cons first rest =>
      have hloss : first.values.entries.isEmpty = false :=
        KeyMap.isEmpty_insert first.extra lossKey first.loss
      rw [List.isEmpty_eq_false_iff] at hloss
      rw [List.map_cons, List.flatMap_cons, List.isEmpty_cons, List.isEmpty_eq_false_iff]
      exact List.append_ne_nil_of_left_ne_nil hloss _

end TrainingLoop
