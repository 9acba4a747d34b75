import TrainingLoop.Proofs.Output.Kept
import TrainingLoop.Proofs.Output.Steps
/-!
# Collapsed outputs read back

A mapping that has a loss is the mapping of a plain result, so the items of a collapsed output can
be read as the batches of one optimizer. These need not be the batches that were collapsed: the
kinds of the results are gone, and so is an extra value that a loss hid. But they collapse to the
same output (`collapse_rebuilt`).
-/

namespace TrainingLoop

/-! ## Results -/

namespace StepResult

theorem ofValues_ok_iff {values : Metrics} :
    (∃ r, ofValues values = .ok r) ↔ values.contains lossKey = true := by
  rw [ofValues, KeyMap.contains]
  cases values.get? lossKey <;> simp

theorem values_of_ofValues {values : Metrics} {r : StepResult} (hread : ofValues values = .ok r) :
    r.values = values := by
  rw [ofValues] at hread
  cases hloss : values.get? lossKey with
  | none =>
      rw [hloss] at hread
      cases hread
  | some loss =>
      rw [hloss] at hread
      cases hread
      exact KeyMap.insert_erase hloss

def reread (r : StepResult) : StepResult := ⟨r.loss, r.values.erase lossKey, .plain⟩

theorem ofValues_values (r : StepResult) : ofValues r.values = .ok r.reread := by
  have hloss : r.values.get? lossKey = some r.loss := (r.get?_values lossKey).trans (if_pos rfl)
  rw [ofValues, hloss]
  rfl

theorem values_reread (r : StepResult) : r.reread.values = r.values :=
  values_of_ofValues r.ofValues_values

end StepResult

/-! ## Batches -/

def Processed.result? : Processed → Option StepResult
  | .step values => (StepResult.ofValues values).toOption
  | .list _ => none

namespace BatchEntry

/-- The batch that a top-level item stands for: a mapping is a single result, and a list of mappings
is the list of splits. -/
def ofItem? : Processed → Option BatchEntry
  | .step values => (StepResult.ofValues values).toOption.map .single
  | .list items => (items.mapM Processed.result?).map .splits

def reread : List StepResult → BatchEntry
  | [only] => .single only.reread
  | results => .splits (results.map StepResult.reread)

theorem results_reread (splits : List StepResult) :
    (reread splits).results = splits.map StepResult.reread := by
  match splits with
  | [] => rfl
  | [_] => rfl
  | _ :: _ :: _ => rfl

end BatchEntry

theorem mapM_map_eq_some {α β γ : Type} {f : β → Option γ} {g : α → β} {h : α → γ}
    (hsome : ∀ x, f (g x) = some (h x)) (items : List α) :
    (items.map g).mapM f = some (items.map h) := by
  have hpure : f ∘ g = fun x => pure (h x) := funext hsome
  rw [List.mapM_map, hpure]
  exact List.mapM_pure

theorem Processed.result?_step (r : StepResult) : result? (.step r.values) = some r.reread := by
  rw [result?, r.ofValues_values]
  rfl

theorem BatchEntry.ofItem?_ofSplits (splits : List StepResult) :
    ofItem? (.ofSplits splits) = some (reread splits) := by
  match splits with
  | [] => rfl
  | [only] =>
      change (StepResult.ofValues only.values).toOption.map BatchEntry.single = _
      rw [only.ofValues_values]
      rfl
  | first :: second :: rest =>
      have hread := mapM_map_eq_some Processed.result?_step (first :: second :: rest)
      exact congrArg (Option.map BatchEntry.splits) hread

theorem Processed.ofSplits_reread (splits : List StepResult) :
    ofSplits (BatchEntry.reread splits).results = ofSplits splits := by
  rw [BatchEntry.results_reread, ofSplits, ofSplits, List.map_map]
  congr 2
  funext split
  exact congrArg Processed.step split.values_reread

/-! ## Trees -/

namespace OutputTree

def ofItems? (items : List Processed) : Option OutputTree :=
  (items.mapM BatchEntry.ofItem?).map fun entries => ⟨[entries]⟩

theorem filterMap_epoch (optimizers : List (List BatchEntry)) :
    optimizers.filterMap (collapseOptimizer .epoch) =
      (optimizers.filter fun entries => !entries.isEmpty).map fun entries =>
        .list (entries.map fun entry => .ofSplits entry.results) := by
  induction optimizers with
  | nil => rfl
  | cons entries optimizers ih =>
      rw [List.filterMap_cons, ih, collapseOptimizer_epoch, List.map_map]
      cases entries with
      | nil => rfl
      | cons first rest => rfl

theorem collapse_one {t : OutputTree} {entries : List BatchEntry}
    (hone : (t.optimizers.filter fun entries => !entries.isEmpty) = [entries]) :
    t.collapse .epoch = .list (entries.map fun entry => .ofSplits entry.results) := by
  rw [collapse_eq, filterMap_epoch, hone]
  rfl

/-- The output of a tree in which one optimizer has batches can be read back and collapsed again:
each of its mappings is read as a result, its items are read as batches, and their collapse is the
same output. A mapping is read just if it has a loss, and is then the mapping of what was read. -/
theorem collapse_rebuilt (t : OutputTree)
    (hone : (t.optimizers.countP fun entries => !entries.isEmpty) = 1) :
    (∀ values ∈ (t.collapse .epoch).steps, ∃ r, StepResult.ofValues values = .ok r) ∧
    (∃ items rebuilt, t.collapse .epoch = .list items ∧ ofItems? items = some rebuilt ∧
      rebuilt.collapse .epoch = t.collapse .epoch) ∧
    ∀ values : Metrics,
      ((∃ r, StepResult.ofValues values = .ok r) ↔ values.contains lossKey = true) ∧
      ∀ r, StepResult.ofValues values = .ok r → r.values = values := by
  refine ⟨?_, ?_, fun values =>
    ⟨StepResult.ofValues_ok_iff, fun r => StepResult.values_of_ofValues⟩⟩
  · intro values hvalues
    rw [steps_collapse_epoch] at hvalues
    obtain ⟨r, -, rfl⟩ := List.mem_map.1 hvalues
    exact ⟨r.reread, r.ofValues_values⟩
  · rw [List.countP_eq_length_filter] at hone
    obtain ⟨entries, hentries⟩ := List.length_eq_one_iff.1 hone
    have hnonempty : entries.isEmpty = false := by
      have hmem := List.mem_filter.1 (hentries ▸ List.mem_singleton_self entries)
      simpa using hmem.2
    let read := entries.map fun entry => BatchEntry.reread entry.results
    have hrebuilt : ([read].filter fun entries => !entries.isEmpty) = [read] := by
      simp [read, hnonempty]
    refine ⟨_, ⟨[read]⟩, collapse_one hentries, ?_, ?_⟩
    · have hread := mapM_map_eq_some
        (fun entry : BatchEntry => BatchEntry.ofItem?_ofSplits entry.results) entries
      rw [ofItems?, hread]
      rfl
    · rw [collapse_one hrebuilt, collapse_one hentries, List.map_map]
      congr 2
      funext entry
      exact Processed.ofSplits_reread entry.results

/-- The second of three optimizers has four batches: a bare result, one without splits, one with two
splits, and one whose only split has an extra value with the name of the loss. -/
def fourBatches : OutputTree :=
  ⟨[[], [
    .single (.plain 0.5),
    .splits [],
    .splits [.plain 1.5, .reducible 2.5 true],
    .splits [(StepResult.plain 3.5).addExtra lossKey 4.5]], []]⟩

theorem collapse_rebuilt_fourBatches :
    (fourBatches.optimizers.countP fun entries => !entries.isEmpty) = 1 ∧
    (∀ values ∈ (fourBatches.collapse .epoch).steps, ∃ r, StepResult.ofValues values = .ok r) ∧
    ∃ items rebuilt, fourBatches.collapse .epoch = .list items ∧ ofItems? items = some rebuilt ∧
      rebuilt.collapse .epoch = fourBatches.collapse .epoch := by
  obtain ⟨hread, hrebuilt, -⟩ := collapse_rebuilt fourBatches rfl
  exact ⟨rfl, hread, hrebuilt⟩

end OutputTree

end TrainingLoop
