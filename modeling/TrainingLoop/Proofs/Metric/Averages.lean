import TrainingLoop.Proofs.KeyMap
import TrainingLoop.Proofs.Metric.Log
import TrainingLoop.Proofs.Output.Means
/-!
# The averages of an epoch

The mean of a metric over a batch is that of its values in the batch (`Processed.meanOf?`), and its
average over an epoch is the mean of those means, in the order of the batches (`epochMean?`). A log
that starts empty and takes in the batches of an epoch holds just these averages
(`MetricsLog.get?_epochAverages`).
-/

namespace TrainingLoop

theorem foldl_getD {α γ : Type} (f : α → γ → α) (start : α) (xs : List γ) (old : Option α) :
    xs.foldl (fun old x => some (f (old.getD start) x)) old =
      if xs = [] then old else some (xs.foldl f (old.getD start)) := by
  induction xs generalizing old with
  | nil => rfl
  | cons x xs ih =>
      rw [List.foldl_cons, ih, if_neg (List.cons_ne_nil x xs), List.foldl_cons, Option.getD_some]
      split
      · rename_i hnil
        rw [hnil, List.foldl_nil]
      · rfl

/-! ## The mean over a batch -/

namespace Tally

theorem foldl_add (samples : List Sample) (t : Tally) :
    (samples.foldl add t).sum.value = (samples.map Sample.value).foldl (· + ·) t.sum.value ∧
      (samples.foldl add t).count = t.count + samples.length := by
  induction samples generalizing t with
  | nil => exact ⟨rfl, rfl⟩
  | cons s samples ih =>
      obtain ⟨hsum, hcount⟩ := ih (t.add s)
      have hone : (t.add s).count = t.count + 1 := rfl
      rw [List.foldl_cons, hcount, hone, List.length_cons]
      exact ⟨hsum, by omega⟩

end Tally

namespace Processed

variable {key : String} {p : Processed}

/-- The mean of a metric over the results of a batch that have it, summed in their order. -/
def meanOf? (key : String) (p : Processed) : Option Float32 :=
  let values := p.steps.filterMap (·.get? key)
  if values = [] then none
  else some (values.foldl (· + ·) 0.0 / Single.ofCount values.length)

/-- The averages of a batch are its means, whether a NaN among them arose or was given. -/
theorem get?_averages (nanArises : Bool) (key : String) (p : Processed) :
    ((p.averages nanArises).get? key).map Sample.value = p.meanOf? key := by
  let samples := (p.steps.filterMap (·.get? key)).map (sampleOf nanArises)
  have htallies : (p.averages nanArises).get? key =
      ((p.steps.filterMap (·.get? key)).foldl
        (fun old x => some ((old.getD {}).add (sampleOf nanArises x))) none).map Tally.mean := by
    rw [averages, KeyMap.get?_mapValues, KeyMap.get?_foldl_alter (f := fun x (old : Option Tally) =>
      (old.getD {}).add (sampleOf nanArises x)), KeyMap.valuesOf_flatMap_entries]
    rfl
  have hsame : samples.map Sample.value = p.steps.filterMap (·.get? key) := by
    rw [List.map_map]
    exact List.map_id _
  obtain ⟨hsum, hcount⟩ := Tally.foldl_add samples {}
  rw [htallies, foldl_getD (fun t x => Tally.add t (sampleOf nanArises x)), meanOf?]
  split
  · rfl
  · rw [List.foldl_map] at hsum hcount
    rw [hsame] at hsum
    rw [List.length_map, Nat.zero_add] at hcount
    rw [Option.map_some, Option.map_some, Option.getD_none, Tally.mean, Sample.dividedBy, hcount,
      hsum]

end Processed

/-! ## The average over an epoch -/

/-- The average of a metric over some batches: the mean of its means over those that have it. -/
def epochMean? (key : String) (batches : List Processed) : Option Float32 :=
  let means := batches.filterMap (Processed.meanOf? key)
  if means = [] then none else some (Single.mean means)

structure AveragesOver (batches : List Processed) (entry : Metrics) : Prop where
  average : ∀ key, entry.get? (key ++ epochSuffix) = epochMean? key batches
  suffixed : ∀ name value, entry.get? name = some value → ∃ key, name = key ++ epochSuffix

theorem AveragesOver.isEmpty_iff {batches : List Processed} {entry : Metrics}
    (h : AveragesOver batches entry) :
    entry.isEmpty = true ↔ ∀ key, epochMean? key batches = none := by
  rw [KeyMap.isEmpty_iff_get?]
  constructor
  · intro hnone key
    rw [← h.average, hnone]
  · intro hnone name
    cases hvalue : entry.get? name with
    | none => rfl
    | some value =>
        obtain ⟨key, rfl⟩ := h.suffixed name value hvalue
        rw [h.average, hnone] at hvalue
        cases hvalue

/-- The entry of the history that an epoch with some batches leaves: their averages, or none if they
have no metrics. -/
structure EntryOf (batches : List Processed) (entry : Option Metrics) : Prop where
  isSome_iff : entry.isSome = true ↔ ∃ key, (epochMean? key batches).isSome = true
  averages : ∀ metrics, entry = some metrics → AveragesOver batches metrics

namespace MetricsLog

variable {W : Type} {l l' : MetricsLog W} {batches : List Processed} {key : String}

def takeInAll (l : MetricsLog W) (batches : List Processed) : MetricsLog W :=
  batches.foldl takeIn l

theorem takeInAll_append (l : MetricsLog W) (batches more : List Processed) :
    l.takeInAll (batches ++ more) = (l.takeInAll batches).takeInAll more :=
  List.foldl_append

theorem Agrees.history (h : l.Agrees l') : l'.history = l.history := by
  rw [MetricsLog.history, MetricsLog.history, h.finished]

theorem Agrees.takeInAll (h : l.Agrees l') (batches : List Processed) :
    (l.takeInAll batches).Agrees (l'.takeInAll batches) := by
  induction batches generalizing l l' with
  | nil => exact h
  | cons p batches ih => exact ih (h.takeIn p)

theorem takeIn_rest (l : MetricsLog W) (p : Processed) :
    (l.takeIn p).nanArises = l.nanArises ∧ (l.takeIn p).finished = l.finished := by
  rw [takeIn_eq]
  exact ⟨rfl, rfl⟩

theorem takeInAll_rest (l : MetricsLog W) (batches : List Processed) :
    (l.takeInAll batches).nanArises = l.nanArises ∧
      (l.takeInAll batches).finished = l.finished := by
  induction batches generalizing l with
  | nil => exact ⟨rfl, rfl⟩
  | cons p batches ih =>
      obtain ⟨hnan, hfinished⟩ := takeIn_rest l p
      obtain ⟨hnan', hfinished'⟩ := ih (l.takeIn p)
      exact ⟨hnan'.trans hnan, hfinished'.trans hfinished⟩

def gather (samples : List Sample) (old : Option (Journal Sample)) : Option (Journal Sample) :=
  samples.foldl (fun old s => some ((old.getD ∅).push s)) old

theorem get?_takeIn (l : MetricsLog W) (p : Processed) (key : String) :
    (l.takeIn p).epochValues.get? key =
      gather ((p.averages l.nanArises).get? key).toList (l.epochValues.get? key) := by
  have hobserved : (l.observe (p.averages l.nanArises)).epochValues.get? key =
      gather ((p.averages l.nanArises).get? key).toList (l.epochValues.get? key) := by
    rw [← KeyMap.valuesOf_entries]
    exact KeyMap.get?_foldl_alter (f := fun s (old : Option (Journal Sample)) =>
      (old.getD ∅).push s) _ _ _
  unfold takeIn
  split
  · rename_i hempty
    rw [Processed.means, Sample.values, KeyMap.isEmpty_mapValues, KeyMap.isEmpty_iff_get?] at hempty
    have hnone : (p.averages l.nanArises).get? key = none := by
      have hmean := Processed.get?_averages l.nanArises key p
      rw [← Processed.get?_averages false, hempty key] at hmean
      exact Option.map_eq_none_iff.1 hmean
    rw [hnone]
    rfl
  · exact hobserved

theorem get?_takeInAll (l : MetricsLog W) (batches : List Processed) (key : String) :
    (l.takeInAll batches).epochValues.get? key =
      gather (batches.filterMap fun p => (p.averages l.nanArises).get? key)
        (l.epochValues.get? key) := by
  induction batches generalizing l with
  | nil => rfl
  | cons p batches ih =>
      rw [takeInAll, List.foldl_cons, ← takeInAll, ih, get?_takeIn, (takeIn_rest l p).1,
        List.filterMap_cons]
      cases (p.averages l.nanArises).get? key <;> rfl

/-! ## The averages made of them -/

theorem valuesOf_suffixed {α γ : Type} (f : α → γ) (key : String) (entries : List (String × α)) :
    KeyMap.valuesOf (key ++ epochSuffix)
        (entries.map fun entry => (entry.1 ++ epochSuffix, f entry.2)) =
      (KeyMap.valuesOf key entries).map f := by
  induction entries with
  | nil => rfl
  | cons entry entries ih =>
      rw [List.map_cons, KeyMap.valuesOf_cons, KeyMap.valuesOf_cons, ih, List.map_append]
      simp only [String.append_left_inj]
      by_cases h : entry.1 = key <;> simp [h]

theorem get?_epochAverages (l : MetricsLog W) (key : String) :
    l.epochAverages.get? (key ++ epochSuffix) =
      (l.epochValues.get? key).map fun values => Sample.mean values.toList := by
  rw [epochAverages, KeyMap.get?_ofList, valuesOf_suffixed (fun values : Journal Sample =>
    Sample.mean values.toList), KeyMap.valuesOf_entries]
  cases l.epochValues.get? key <;> rfl

theorem suffixed_of_get?_epochAverages {name : String} {s : Sample}
    (h : l.epochAverages.get? name = some s) : ∃ key, name = key ++ epochSuffix := by
  rw [epochAverages, KeyMap.get?_ofList] at h
  obtain ⟨entry, hentry, hvalue⟩ := List.mem_filterMap.1 (List.mem_of_getLast? h)
  obtain ⟨source, -, rfl⟩ := List.mem_map.1 hentry
  by_cases hname : source.1 ++ epochSuffix = name
  · exact ⟨source.1, hname.symm⟩
  · rw [if_neg hname] at hvalue
    cases hvalue

theorem toList_foldl_push {α : Type} (j : Journal α) (entries : List α) :
    (entries.foldl Journal.push j).toList = j.toList ++ entries := by
  induction entries generalizing j with
  | nil => exact (List.append_nil _).symm
  | cons entry entries ih => rw [List.foldl_cons, ih, Journal.toList_push, List.append_assoc]; rfl

theorem gather_none (samples : List Sample) :
    (gather samples none).map Journal.toList = if samples = [] then none else some samples := by
  rw [gather, foldl_getD Journal.push]
  split
  · rfl
  · rw [Option.map_some, toList_foldl_push]
    rfl

theorem averagesOver_takeInAll (hempty : l.epochValues = ∅) (batches : List Processed) :
    AveragesOver batches (Sample.values (l.takeInAll batches).epochAverages) := by
  constructor
  · intro key
    let samples := batches.filterMap fun p => (p.averages l.nanArises).get? key
    have hmeans : samples.map Sample.value = batches.filterMap (Processed.meanOf? key) := by
      rw [List.map_filterMap]
      exact List.filterMap_congr fun p _ => Processed.get?_averages l.nanArises key p
    have hgathered : (l.takeInAll batches).epochValues.get? key = gather samples none := by
      rw [get?_takeInAll, hempty]
      rfl
    have hmean : (gather samples none).map (fun values => Sample.mean values.toList) =
        ((gather samples none).map Journal.toList).map Sample.mean := by
      rw [Option.map_map]
      rfl
    rw [Sample.values, KeyMap.get?_mapValues, get?_epochAverages, hgathered, hmean, gather_none,
      epochMean?, ← hmeans]
    cases samples with
    | nil => rfl
    | cons s samples => exact congrArg some (Sample.value_mean _)
  · intro name value hvalue
    rw [Sample.values, KeyMap.get?_mapValues] at hvalue
    obtain ⟨s, hs, -⟩ := Option.map_eq_some_iff.1 hvalue
    exact suffixed_of_get?_epochAverages hs

theorem Agrees.averagesOver (hempty : l.epochValues = ∅) (h : (l.takeInAll batches).Agrees l') :
    AveragesOver batches (Sample.values l'.epochAverages) := by
  have hsame : l'.epochAverages = (l.takeInAll batches).epochAverages := by
    rw [epochAverages, h.epochValues, epochAverages]
  rw [hsame]
  exact averagesOver_takeInAll hempty batches

/-- What closing an epoch does to a log that has taken in just its batches. Nothing is left for the
next epoch, the history has the entry of this one, and its averages are the latest values. -/
theorem closeEpoch_averages (hempty : l.epochValues = ∅) (h : (l.takeInAll batches).Agrees l') :
    l'.closeEpoch.epochValues = ∅ ∧
      (∃ entry : Option Metrics, l'.closeEpoch.history = l.history ++ entry.toList ∧
        EntryOf batches entry) ∧
      ∀ key mean, epochMean? key batches = some mean →
        l'.closeEpoch.latest.get? (key ++ epochSuffix) = some mean := by
  have haverages := h.averagesOver hempty
  have hfinished : l'.finished = l.finished := h.finished.trans (takeInAll_rest l batches).2
  have hiff := haverages.isEmpty_iff
  rw [Sample.values, KeyMap.isEmpty_mapValues] at hiff
  cases hnone : l'.epochAverages.isEmpty with
  | true =>
      have hclosed : l'.closeEpoch = { l' with epochValues := ∅ } := if_pos hnone
      have hmeans := hiff.1 hnone
      rw [hclosed]
      refine ⟨rfl, ⟨none, ?_, ?_, fun _ hentry => ?_⟩, fun key mean hmean => ?_⟩
      · rw [history, history, hfinished]
        exact (List.append_nil _).symm
      · simp [hmeans]
      · cases hentry
      · rw [hmeans] at hmean
        cases hmean
  | false =>
      have hclosed : l'.closeEpoch = { l'.publish (Sample.values l'.epochAverages) with
          epochValues := ∅, finished := l'.finished.push l'.epochAverages } := by
        rw [closeEpoch, hnone]
        rfl
      rw [hclosed]
      refine ⟨rfl, ⟨some (Sample.values l'.epochAverages), ?_, ?_, ?_⟩, fun key mean hmean => ?_⟩
      · rw [history, history, Journal.toList_push, hfinished, List.map_append]
        rfl
      · have hsome : ¬ ∀ key, epochMean? key batches = none := by
          rw [← hiff, hnone]
          exact Bool.false_ne_true
        obtain ⟨key, hkey⟩ := not_forall.1 hsome
        exact iff_of_true rfl ⟨key, Option.isSome_iff_ne_none.2 hkey⟩
      · intro metrics hmetrics
        cases hmetrics
        exact haverages
      · rw [publish, KeyMap.get?_merge, haverages.average, hmean]
        rfl

end MetricsLog

end TrainingLoop
