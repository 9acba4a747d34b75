import TrainingLoop.Proofs.Output.Kept
/-!
# The modes of the collapse

The two modes differ in the batch level only. An epoch of one batch shows for each optimizer the
list of that one batch, where the batch shows it bare (`collapse_ofBatch`). It does not matter
whether the epoch got the batch as a tree or kept its results one optimizer after the other:
collapsing looks at the results in a bucket and not at how an entry holds them (`collapse_congr`).
-/

namespace TrainingLoop

theorem Processed.aloneOrList_of_length_ne_one {items : List Processed}
    (hlength : items.length ≠ 1) : aloneOrList items = .list items := by
  match items with
  | [] => rfl
  | [_] => exact absurd rfl hlength
  | _ :: _ :: _ => rfl

def CollapseMode.around : CollapseMode → Processed → Processed
  | .batch, outcome => outcome
  | .epoch, outcome => .list [outcome]

namespace OutputTree

/-! ## One batch in both modes -/

def outcomes (batch : BatchResults) : List Processed :=
  (batch.filter fun splits => !splits.isEmpty).map collapseSplits

theorem length_outcomes (batch : BatchResults) :
    (outcomes batch).length = batch.countP fun splits => !splits.isEmpty := by
  rw [outcomes, List.length_map, List.countP_eq_length_filter]

theorem filterMap_ofBatch (mode : CollapseMode) (batch : BatchResults) :
    (ofBatch batch).optimizers.filterMap (collapseOptimizer mode) =
      (outcomes batch).map mode.around := by
  rw [ofBatch, outcomes]
  induction batch with
  | nil => rfl
  | cons splits batch ih =>
      rw [List.map_cons, List.filterMap_cons, ih]
      cases splits with
      | nil => rfl
      | cons first rest => cases mode <;> rfl

theorem collapse_ofBatch (mode : CollapseMode) (batch : BatchResults) :
    (ofBatch batch).collapse mode = .aloneOrList ((outcomes batch).map mode.around) := by
  rw [collapse_eq, filterMap_ofBatch]

end OutputTree

/-! ## One batch kept for the end of an epoch -/

namespace KeptOutputs

theorem collapse_congr {k k' : KeptOutputs}
    (hsame : ∀ i, (k.bucket i).map BatchEntry.results = (k'.bucket i).map BatchEntry.results) :
    k.tree.collapse .epoch = k'.tree.collapse .epoch := by
  have hbucket : ∀ i, OutputTree.collapseOptimizer .epoch (k.buckets.getD i []) =
      OutputTree.collapseOptimizer .epoch (k'.buckets.getD i []) := by
    intro i
    have hresults : (k.buckets.getD i []).map BatchEntry.results =
        (k'.buckets.getD i []).map BatchEntry.results := hsame i
    rw [OutputTree.collapseOptimizer_epoch, OutputTree.collapseOptimizer_epoch, hresults]
  have hrest : ∀ (buckets : List (List BatchEntry)) (i : Nat), buckets.length ≤ i →
      OutputTree.collapseOptimizer .epoch (buckets.getD i []) = none := by
    intro buckets i hi
    rw [List.getD_eq_getElem?_getD, List.getElem?_eq_none hi]
    rfl
  let n := max k.buckets.length k'.buckets.length
  rw [OutputTree.collapse_eq, OutputTree.collapse_eq]
  congr 1
  calc k.buckets.filterMap (OutputTree.collapseOptimizer .epoch)
      = (List.range n).filterMap fun i =>
          OutputTree.collapseOptimizer .epoch (k.buckets.getD i []) :=
        OutputTree.filterMap_eq_range [] rfl fun i hi =>
          hrest k.buckets i (Nat.le_trans (Nat.le_max_left _ _) hi)
    _ = (List.range n).filterMap fun i =>
          OutputTree.collapseOptimizer .epoch (k'.buckets.getD i []) := by
        simp only [hbucket]
    _ = k'.buckets.filterMap (OutputTree.collapseOptimizer .epoch) :=
        (OutputTree.filterMap_eq_range [] rfl fun i hi =>
          hrest k'.buckets i (Nat.le_trans (Nat.le_max_right _ _) hi)).symm

theorem results_ofBatch (batch : BatchResults) (i : Nat) :
    ((KeptOutputs.mk (OutputTree.ofBatch batch).optimizers).bucket i).map BatchEntry.results =
      [batch.getD i []].filter fun splits => decide (splits ≠ []) := by
  rw [bucket, OutputTree.ofBatch, List.getD_eq_getElem?_getD, List.getElem?_map,
    List.getD_eq_getElem?_getD]
  cases batch[i]? with
  | none => rfl
  | some splits => cases splits <;> rfl

/-- A model that reduces the outputs itself keeps a batch as its tree has it. -/
theorem collapse_track (count : Nat) (batch : BatchResults) :
    (track true (.ofOptimizers count) batch).1.tree.collapse .epoch =
      (OutputTree.ofBatch batch).collapse .epoch := by
  have hsame : ∀ i,
      ((track true (.ofOptimizers count) batch).1.bucket i).map BatchEntry.results =
        ((KeptOutputs.mk (OutputTree.ofBatch batch).optimizers).bucket i).map
          BatchEntry.results := by
    intro i
    rw [results_track, results_ofBatch]
    simp [IsKept]
  exact collapse_congr hsame

end KeptOutputs

/-- The collapse of an epoch of one batch is the collapse of the batch with the batch level put in:
around the whole output where one optimizer has results, around each item otherwise. A model that
reduces the outputs itself gets the same of the batch that was kept for it. -/
theorem OutputTree.collapse_modes (batch : BatchResults) (count : Nat) :
    (if batch.countP (fun splits => !splits.isEmpty) = 1 then
      (ofBatch batch).collapse .epoch = .list [(ofBatch batch).collapse .batch]
    else ∃ items, (ofBatch batch).collapse .batch = .list items ∧
      (ofBatch batch).collapse .epoch = .list (items.map fun item => .list [item])) ∧
    (KeptOutputs.track true (.ofOptimizers count) batch).1.tree.collapse .epoch =
      (ofBatch batch).collapse .epoch := by
  refine ⟨?_, KeptOutputs.collapse_track count batch⟩
  rw [collapse_ofBatch, collapse_ofBatch, ← length_outcomes]
  split
  · rename_i hone
    obtain ⟨outcome, houtcome⟩ := List.length_eq_one_iff.1 hone
    rw [houtcome]
    rfl
  · rename_i hmany
    have hlist : ∀ mode : CollapseMode, Processed.aloneOrList ((outcomes batch).map mode.around) =
        .list ((outcomes batch).map mode.around) := by
      intro mode
      apply Processed.aloneOrList_of_length_ne_one
      rwa [List.length_map]
    refine ⟨outcomes batch, ?_, hlist .epoch⟩
    rw [hlist .batch]
    exact congrArg Processed.list (List.map_id _)

end TrainingLoop
