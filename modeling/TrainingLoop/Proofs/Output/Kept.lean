import TrainingLoop.Output.Kept
/-!
# The outputs of an epoch

What the hooks at the end of an epoch receive, defined outright from the results of its batches
(`epochOutputs`), and that keeping the outputs batch by batch and collapsing them gives the same.
All buckets are compared one by one (`bucket_foldl`), and the collapse looks at nothing else
(`filterMap_eq_range`).
-/

namespace TrainingLoop

/-! ## The direct definition -/

namespace Processed

def aloneOrList : List Processed → Processed
  | [only] => only
  | items => .list items

def ofSplits (splits : List StepResult) : Processed :=
  aloneOrList (splits.map fun split => .step split.values)

end Processed

/-- An epoch keeps the splits of an optimizer in a batch: there are some, and the model reduces the
outputs or the last split asks for it. -/
def IsKept (modelReduces : Bool) (splits : List StepResult) : Prop :=
  splits ≠ [] ∧
    (modelReduces = true ∨ ∃ last ∈ splits.getLast?, last.kind = .reducible true)

instance (modelReduces : Bool) (splits : List StepResult) :
    Decidable (IsKept modelReduces splits) :=
  inferInstanceAs (Decidable (splits ≠ [] ∧
    (modelReduces = true ∨ ∃ last ∈ splits.getLast?, last.kind = .reducible true)))

/-- What an epoch keeps of one optimizer, batch by batch. A batch that lacks the optimizer has no
splits for it. -/
def keptSplits (modelReduces : Bool) (batches : List BatchResults) (optimizer : Nat) :
    List (List StepResult) :=
  (batches.map fun results => results.getD optimizer []).filter fun splits =>
    decide (IsKept modelReduces splits)

def optimizerCount (batches : List BatchResults) : Nat := (batches.map List.length).foldr max 0

/-- The outputs of an epoch: for each optimizer that keeps something the list of what it keeps. -/
def epochOutputs (modelReduces : Bool) (batches : List BatchResults) : Processed :=
  let kept := (List.range (optimizerCount batches)).map (keptSplits modelReduces batches)
  .aloneOrList ((kept.filter fun splits => splits ≠ []).map fun splits =>
    .list (splits.map Processed.ofSplits))

/-! ## Buckets -/

namespace KeptOutputs

theorem bucket_empty (i : Nat) : empty.bucket i = [] := rfl

theorem bucket_ofOptimizers (count i : Nat) : (ofOptimizers count).bucket i = [] := by
  rw [bucket, ofOptimizers, List.getD_eq_getElem?_getD, List.getElem?_replicate]
  split <;> rfl

theorem bucket_push (k : KeptOutputs) (j : Nat) (entry : BatchEntry) (i : Nat) :
    (k.push j entry).bucket i = k.bucket i ++ if i = j then [entry] else [] := by
  obtain ⟨buckets⟩ := k
  simp only [push, bucket]
  induction j generalizing buckets i with
  | zero => cases buckets <;> cases i <;> simp [pushBucket]
  | succ j ih =>
      cases buckets with
      | nil =>
          cases i with
          | zero => simp [pushBucket]
          | succ i => simpa [pushBucket] using ih i []
      | cons bucket rest =>
          cases i with
          | zero => simp [pushBucket]
          | succ i => simpa [pushBucket] using ih i rest

theorem bucket_foldl_push (entries : List BatchEntry) (k : KeptOutputs) (j i : Nat) :
    (entries.foldl (fun k entry => k.push j entry) k).bucket i =
      k.bucket i ++ if i = j then entries else [] := by
  induction entries generalizing k with
  | nil => simp
  | cons entry entries ih =>
      rw [List.foldl_cons, ih, bucket_push]
      split <;> simp

theorem bucket_extendFrom (j : Nat) (k : KeptOutputs) (buckets : List (List BatchEntry)) (i : Nat) :
    (extendFrom j k buckets).bucket i =
      k.bucket i ++ if j ≤ i then buckets.getD (i - j) [] else [] := by
  induction buckets generalizing j k with
  | nil => simp [extendFrom]
  | cons entries rest ih =>
      rw [extendFrom, ih, bucket_foldl_push, List.append_assoc]
      congr 1
      rcases Nat.lt_trichotomy i j with hlt | heq | hgt
      · rw [if_neg (by omega), if_neg (by omega), if_neg (by omega)]
        rfl
      · subst heq
        rw [if_pos rfl, if_neg (by omega), if_pos (Nat.le_refl i), Nat.sub_self]
        exact List.append_nil _
      · have hindex : i - j = i - (j + 1) + 1 := by omega
        rw [if_neg (by omega), if_pos (by omega), if_pos (by omega), hindex]
        rfl

theorem bucket_extend (k other : KeptOutputs) (i : Nat) :
    (k.extend other).bucket i = k.bucket i ++ other.bucket i := by
  rw [extend, bucket_extendFrom, if_pos (Nat.zero_le i)]
  rfl

theorem keeps_iff {modelReduces : Bool} {results : List StepResult} :
    keeps modelReduces results = true ↔ IsKept modelReduces results := by
  rw [keeps, IsKept]
  cases hlast : results.getLast? with
  | none => simp [List.getLast?_eq_none_iff.1 hlast]
  | some last =>
      have hsome : results ≠ [] := by
        rintro rfl
        cases hlast
      simp [hsome, StepResult.reduces]

/-- The entry of an optimizer's results loses nothing of them. -/
theorem entryOf_results (results : List StepResult) : (entryOf results).results = results := by
  unfold entryOf
  split
  · split <;> rfl
  · rfl

theorem bucket_trackFrom (modelReduces : Bool) (j : Nat) (k : KeptOutputs) (results : BatchResults)
    (i : Nat) :
    (trackFrom modelReduces j k results).1.bucket i =
      k.bucket i ++ if j ≤ i ∧ IsKept modelReduces (results.getD (i - j) []) then
        [entryOf (results.getD (i - j) [])] else [] := by
  induction results generalizing j k with
  | nil => simp [trackFrom, IsKept]
  | cons first rest ih =>
      have hfirst : (trackFrom modelReduces j k (first :: rest)).1.bucket i =
          k.bucket i ++ (if i = j ∧ IsKept modelReduces first then [entryOf first] else []) ++
            if j + 1 ≤ i ∧ IsKept modelReduces (rest.getD (i - (j + 1)) []) then
              [entryOf (rest.getD (i - (j + 1)) [])] else [] := by
        rw [trackFrom]
        by_cases hkept : IsKept modelReduces first
        · rw [if_pos (keeps_iff.2 hkept)]
          simp only [ih, bucket_push, hkept, and_true]
        · rw [if_neg (fun h => hkept (keeps_iff.1 h))]
          simp only [ih, hkept, and_false, if_false, List.append_nil]
      rw [hfirst, List.append_assoc]
      congr 1
      rcases Nat.lt_trichotomy i j with hlt | heq | hgt
      · rw [if_neg (by omega), if_neg (by omega), if_neg (by omega)]
        rfl
      · subst heq
        rw [if_neg (show ¬(i + 1 ≤ i ∧ _) by omega), Nat.sub_self, List.append_nil]
        simp
      · have hindex : i - j = i - (j + 1) + 1 := by omega
        rw [if_neg (show ¬(i = j ∧ _) by omega), hindex, List.nil_append, List.getD_cons_succ]
        simp [show j + 1 ≤ i by omega, Nat.le_of_lt hgt]

theorem results_track (modelReduces : Bool) (count : Nat) (results : BatchResults) (i : Nat) :
    ((track modelReduces (.ofOptimizers count) results).1.bucket i).map BatchEntry.results =
      [results.getD i []].filter fun splits => decide (IsKept modelReduces splits) := by
  rw [track, bucket_trackFrom, bucket_ofOptimizers, List.filter_cons, List.filter_nil]
  simp only [Nat.zero_le, true_and, Nat.sub_zero, List.nil_append, decide_eq_true_eq]
  split
  · rw [List.map_singleton, entryOf_results]
  · rfl

theorem bucket_foldl (modelReduces : Bool) (batches : List BatchResults) (k : KeptOutputs)
    (i : Nat) :
    ((batches.foldl (fun k results =>
      k.extend (track modelReduces (.ofOptimizers results.length) results).1) k).bucket i).map
        BatchEntry.results =
      (k.bucket i).map BatchEntry.results ++ keptSplits modelReduces batches i := by
  induction batches generalizing k with
  | nil => simp [keptSplits]
  | cons results batches ih =>
      have hhead : keptSplits modelReduces (results :: batches) i =
          ([results.getD i []].filter fun splits => decide (IsKept modelReduces splits)) ++
            keptSplits modelReduces batches i := by
        rw [keptSplits, List.map_cons, ← List.singleton_append, List.filter_append]
        rfl
      rw [List.foldl_cons, ih, bucket_extend, List.map_append, results_track, hhead,
        List.append_assoc]

def ofBatches (modelReduces : Bool) (batches : List BatchResults) : KeptOutputs :=
  batches.foldl (fun k results =>
    k.extend (track modelReduces (.ofOptimizers results.length) results).1) empty

theorem bucket_ofBatches (modelReduces : Bool) (batches : List BatchResults) (i : Nat) :
    ((ofBatches modelReduces batches).bucket i).map BatchEntry.results =
      keptSplits modelReduces batches i := by
  rw [ofBatches, bucket_foldl, bucket_empty, List.map_nil, List.nil_append]

end KeptOutputs

/-! ## The collapse -/

theorem length_le_optimizerCount {batches : List BatchResults} {results : BatchResults}
    (h : results ∈ batches) : results.length ≤ optimizerCount batches := by
  unfold optimizerCount
  induction batches with
  | nil => cases h
  | cons first rest ih =>
      rw [List.map_cons, List.foldr_cons]
      cases h with
      | head => exact Nat.le_max_left _ _
      | tail _ hrest => exact Nat.le_trans (ih hrest) (Nat.le_max_right _ _)

theorem keptSplits_eq_nil {modelReduces : Bool} {batches : List BatchResults} {i : Nat}
    (h : optimizerCount batches ≤ i) : keptSplits modelReduces batches i = [] := by
  rw [keptSplits, List.filter_eq_nil_iff]
  intro splits hsplits
  obtain ⟨results, hresults, rfl⟩ := List.mem_map.1 hsplits
  have hlength : results.length ≤ i := Nat.le_trans (length_le_optimizerCount hresults) h
  rw [List.getD_eq_getElem?_getD, List.getElem?_eq_none hlength]
  simp [IsKept]

namespace OutputTree

theorem collapseSplits_eq (splits : List StepResult) :
    collapseSplits splits = Processed.ofSplits splits := by
  unfold collapseSplits Processed.ofSplits
  match splits with
  | [] => rfl
  | [_] => rfl
  | _ :: _ :: _ => rfl

theorem collapseOptimizer_epoch (entries : List BatchEntry) :
    collapseOptimizer .epoch entries =
      if entries.map BatchEntry.results = [] then none
      else some (.list ((entries.map BatchEntry.results).map Processed.ofSplits)) := by
  cases entries with
  | nil => rfl
  | cons first rest =>
      rw [List.map_map, if_neg (by simp)]
      simp [collapseOptimizer, collapseSplits_eq]

/-- A list with the entries that come after its end is the same to a function that drops those. -/
theorem filterMap_eq_range {α γ : Type} {f : α → Option γ} (default : α) (hdrop : f default = none)
    {items : List α} {n : Nat} (hrest : ∀ i, n ≤ i → f (items.getD i default) = none) :
    items.filterMap f = (List.range n).filterMap fun i => f (items.getD i default) := by
  induction items generalizing n with
  | nil =>
      symm
      simp [hdrop]
  | cons item items ih =>
      cases n with
      | zero =>
          have hall := ih (n := 0) fun i _ => hrest (i + 1) (Nat.zero_le _)
          rw [List.filterMap_cons, show f item = none from hrest 0 (Nat.zero_le _), hall]
          rfl
      | succ n =>
          have hall := ih (n := n) fun i hi => hrest (i + 1) (Nat.succ_le_succ hi)
          rw [List.range_succ_eq_map, List.filterMap_cons, List.filterMap_cons,
            List.filterMap_map, hall]
          rfl

theorem filterMap_ite_none {α γ : Type} {p : α → Prop} [DecidablePred p] (f : α → γ)
    (items : List α) :
    (items.filterMap fun item => if p item then none else some (f item)) =
      (items.filter fun item => ¬ p item).map f := by
  induction items with
  | nil => rfl
  | cons item items ih =>
      by_cases hitem : p item
      · simpa [hitem] using ih
      · simpa [hitem] using ih

theorem collapse_eq (mode : CollapseMode) (t : OutputTree) :
    t.collapse mode = .aloneOrList (t.optimizers.filterMap (collapseOptimizer mode)) := by
  unfold collapse Processed.aloneOrList
  split <;> simp_all

theorem collapse_epoch (t : OutputTree) :
    t.collapse .epoch = .aloneOrList (t.optimizers.filterMap (collapseOptimizer .epoch)) :=
  collapse_eq .epoch t

end OutputTree

/-- Outputs whose buckets hold what an epoch keeps of each optimizer collapse to its outputs. -/
theorem KeptOutputs.collapse_of_buckets {modelReduces : Bool} {batches : List BatchResults}
    {k : KeptOutputs}
    (hbucket : ∀ i, (k.bucket i).map BatchEntry.results = keptSplits modelReduces batches i) :
    k.tree.collapse .epoch = epochOutputs modelReduces batches := by
  have hcollapse : ∀ i, OutputTree.collapseOptimizer .epoch (k.buckets.getD i []) =
      if keptSplits modelReduces batches i = [] then none
      else some (.list ((keptSplits modelReduces batches i).map Processed.ofSplits)) := by
    intro i
    rw [OutputTree.collapseOptimizer_epoch, ← hbucket i]
    rfl
  have hnone : ∀ i, optimizerCount batches ≤ i →
      OutputTree.collapseOptimizer .epoch (k.buckets.getD i []) = none := by
    intro i hi
    rw [hcollapse, if_pos (keptSplits_eq_nil hi)]
  rw [OutputTree.collapse_epoch, epochOutputs]
  congr 1
  calc k.buckets.filterMap (OutputTree.collapseOptimizer .epoch)
      = (List.range (optimizerCount batches)).filterMap fun i =>
          OutputTree.collapseOptimizer .epoch (k.buckets.getD i []) :=
        OutputTree.filterMap_eq_range [] rfl hnone
    _ = (List.range (optimizerCount batches)).filterMap fun i =>
          if keptSplits modelReduces batches i = [] then none
          else some (.list ((keptSplits modelReduces batches i).map Processed.ofSplits)) := by
        simp only [hcollapse]
    _ = ((List.range (optimizerCount batches)).map (keptSplits modelReduces batches)).filterMap
          fun splits =>
            if splits = [] then none else some (.list (splits.map Processed.ofSplits)) := by
        rw [List.filterMap_map]
        rfl
    _ = _ := OutputTree.filterMap_ite_none _ _

/-- The hooks at the end of an epoch receive what the direct definition says: the outputs kept
batch by batch, merged and collapsed. -/
theorem collapse_kept_eq_epochOutputs (modelReduces : Bool) (batches : List BatchResults) :
    (batches.foldl (fun k results =>
      k.extend (KeptOutputs.track modelReduces (.ofOptimizers results.length) results).1)
        KeptOutputs.empty).tree.collapse .epoch =
      epochOutputs modelReduces batches :=
  KeptOutputs.collapse_of_buckets (KeptOutputs.bucket_ofBatches modelReduces batches)

end TrainingLoop
