import TrainingLoop.Proofs.Document.Reading
import TrainingLoop.Proofs.Output.Kept
import TrainingLoop.Proofs.Output.Steps
/-!
# Outputs read back from JSON

The JSON text of an output does not say whether it stands for a step or a list; the reader tells
them apart as a record and a list. A collapsed output is read back from its text if each of its
values is (`collapse_ofJson`): whatever its names are, its text is read as the document that was
written, and a document is nested three lists deep at most. A value that is not finite is written as
`null`, which is no number.
-/

namespace TrainingLoop

/-- A number that is written to JSON text and read from it as what it was. -/
def Single.ReadsBack (x : Float32) : Prop :=
  (Document.parse? (Document.jsonSingle x).compact).bind Processed.metricOfDocument? = some x

instance (x : Float32) : Decidable (Single.ReadsBack x) :=
  inferInstanceAs (Decidable (_ = _))

namespace Processed

open Document (jsonSingle Legible depthLimit)

def values (p : Processed) : List Float32 := p.steps.flatMap fun m => m.entries.map (·.2)

@[elab_as_elim]
theorem induction {P : Processed → Prop} (step : ∀ values, P (.step values))
    (list : ∀ items, (∀ item ∈ items, P item) → P (.list items)) (p : Processed) : P p :=
  @Processed.rec P (fun items => ∀ item ∈ items, P item) step list nofun
    (fun _ _ hitem hitems => List.forall_mem_cons.2 ⟨hitem, hitems⟩) p

theorem mem_values_step {m : Metrics} {x : Float32} :
    x ∈ (step m).values ↔ ∃ entry ∈ m.entries, entry.2 = x := by
  rw [values, steps, List.flatMap_singleton, List.mem_map]

theorem mem_values_list {items : List Processed} {x : Float32} :
    x ∈ (list items).values ↔ ∃ item ∈ items, x ∈ item.values := by
  rw [values, steps, stepsOfAll_eq, List.flatMap_assoc, List.mem_flatMap]
  rfl

theorem documents_eq (items : List Processed) : documents items = items.map document := by
  induction items with
  | nil => rfl
  | cons item items ih => rw [documents, ih, List.map_cons]

theorem depthOfAll_le_iff {items : List Processed} {k : Nat} :
    depthOfAll items ≤ k ↔ ∀ item ∈ items, item.depth ≤ k := by
  induction items with
  | nil => simp [depthOfAll]
  | cons item items ih => rw [depthOfAll, max_le_iff, ih, List.forall_mem_cons]

/-! ## Writing -/

theorem document_legible {p : Processed} {k : Nat} (hdepth : p.depth ≤ k) :
    Legible (k + 1) p.document := by
  induction p using Processed.induction generalizing k with
  | step values =>
      refine .record fun field hfield => ?_
      obtain ⟨entry, -, rfl⟩ := List.mem_map.1 hfield
      exact Document.jsonSingle_legible k entry.2
  | list items ih =>
      rw [depth] at hdepth
      obtain ⟨k, rfl⟩ := Nat.exists_eq_add_one_of_ne_zero (n := k) (by omega)
      rw [document, documents_eq]
      refine .list fun d hd => ?_
      obtain ⟨item, hitem, rfl⟩ := List.mem_map.1 hd
      exact ih item hitem (depthOfAll_le_iff.1 (by omega) item hitem)

/-! ## Reading -/

theorem readsBack_iff {x : Float32} :
    Single.ReadsBack x ↔ metricOfDocument? (jsonSingle x) = some x := by
  rw [Single.ReadsBack, Document.parse?_compact (Document.jsonSingle_legible _ x), Option.bind_some]

theorem entriesOfFields?_map (entries : List (String × Float32))
    (hvalues : ∀ entry ∈ entries, metricOfDocument? (jsonSingle entry.2) = some entry.2) :
    entriesOfFields? (entries.map fun (key, value) => (key, jsonSingle value)) = some entries := by
  induction entries with
  | nil => rfl
  | cons entry entries ih =>
      obtain ⟨hvalue, hvalues⟩ := List.forall_mem_cons.1 hvalues
      rw [List.map_cons, entriesOfFields?, hvalue, ih hvalues]

theorem entriesOfFields?_eq_none {fields : List (String × Document)}
    (hnone : ∃ field ∈ fields, metricOfDocument? field.2 = none) :
    entriesOfFields? fields = none := by
  induction fields with
  | nil =>
      obtain ⟨_, hmem, -⟩ := hnone
      cases hmem
  | cons field fields ih =>
      rw [entriesOfFields?]
      obtain hfield | hrest := (List.exists_mem_cons_iff ..).1 hnone
      · rw [hfield]
      · rw [ih hrest]
        cases metricOfDocument? field.2 <;> rfl

theorem ofDocuments?_map {items : List Processed}
    (hitems : ∀ item ∈ items, ofDocument? item.document = some item) :
    ofDocuments? (items.map document) = some items := by
  induction items with
  | nil => rfl
  | cons item items ih =>
      obtain ⟨hitem, hitems⟩ := List.forall_mem_cons.1 hitems
      rw [List.map_cons, ofDocuments?, hitem, ih hitems]

theorem ofDocuments?_eq_none {ds : List Document} (hnone : ∃ d ∈ ds, ofDocument? d = none) :
    ofDocuments? ds = none := by
  induction ds with
  | nil =>
      obtain ⟨_, hmem, -⟩ := hnone
      cases hmem
  | cons d ds ih =>
      rw [ofDocuments?]
      obtain hd | hrest := (List.exists_mem_cons_iff ..).1 hnone
      · rw [hd]
      · rw [ih hrest]
        cases ofDocument? d <;> rfl

theorem ofDocument?_document {p : Processed}
    (hvalues : ∀ x ∈ p.values, metricOfDocument? (jsonSingle x) = some x) :
    ofDocument? p.document = some p := by
  induction p using Processed.induction with
  | step m =>
      have hentries := entriesOfFields?_map m.entries fun entry hentry =>
        hvalues entry.2 (mem_values_step.2 ⟨entry, hentry, rfl⟩)
      rw [document, metricsDocument, ofDocument?, hentries, Option.map_some, KeyMap.ofList_entries]
  | list items ih =>
      have hitems := ofDocuments?_map fun item hitem =>
        ih item hitem fun x hx => hvalues x (mem_values_list.2 ⟨item, hitem, hx⟩)
      rw [document, documents_eq, ofDocument?, hitems, Option.map_some]

/-- One value that is not read as a number spoils the whole output. -/
theorem ofDocument?_document_eq_none {p : Processed}
    (hnone : ∃ x ∈ p.values, metricOfDocument? (jsonSingle x) = none) :
    ofDocument? p.document = none := by
  induction p using Processed.induction with
  | step m =>
      obtain ⟨x, hx, hnone⟩ := hnone
      obtain ⟨entry, hentry, rfl⟩ := mem_values_step.1 hx
      have hfields := entriesOfFields?_eq_none
        ⟨_, List.mem_map_of_mem (f := fun (key, value) => (key, jsonSingle value)) hentry, hnone⟩
      rw [document, metricsDocument, ofDocument?, hfields, Option.map_none]
  | list items ih =>
      obtain ⟨x, hx, hnone⟩ := hnone
      obtain ⟨item, hitem, hx⟩ := mem_values_list.1 hx
      have hitems := ofDocuments?_eq_none
        ⟨_, List.mem_map_of_mem (f := document) hitem, ih item hitem ⟨x, hx, hnone⟩⟩
      rw [document, documents_eq, ofDocument?, hitems, Option.map_none]

theorem ofJson?_toJson {p : Processed} (hdepth : p.depth < depthLimit) :
    ofJson? p.document.toJson = ofDocument? p.document := by
  obtain ⟨k, hk⟩ := Nat.exists_eq_add_of_lt hdepth
  have hlegible : Legible depthLimit p.document := by
    rw [hk]
    exact document_legible (Nat.le_add_right _ _)
  rw [ofJson?, Document.toJson, String.toList_ofList, Document.parse?_compact hlegible,
    Option.bind_some]

end Processed

namespace OutputTree

open Processed

/-! ## Collapsed outputs -/

theorem depth_aloneOrList {items : List Processed} {k : Nat}
    (hitems : ∀ item ∈ items, item.depth ≤ k) : (aloneOrList items).depth ≤ k + 1 := by
  unfold aloneOrList
  split
  · exact (hitems _ List.mem_cons_self).trans (Nat.le_succ k)
  · rw [depth, Nat.add_comm 1]
    exact Nat.succ_le_succ (depthOfAll_le_iff.2 hitems)

theorem depth_ofSplits (splits : List StepResult) : (ofSplits splits).depth ≤ 1 := by
  refine depth_aloneOrList fun item hitem => ?_
  obtain ⟨split, -, rfl⟩ := List.mem_map.1 hitem
  exact Nat.le_refl 0

theorem depth_collapseOptimizer {mode : CollapseMode} {entries : List BatchEntry} {p : Processed}
    (hp : collapseOptimizer mode entries = some p) : p.depth ≤ 2 := by
  cases entries with
  | nil => cases hp
  | cons first rest =>
      cases mode with
      | batch =>
          obtain rfl := Option.some.inj hp
          rw [collapseSplits_eq]
          exact (depth_ofSplits _).trans (by decide)
      | epoch =>
          obtain rfl := Option.some.inj hp
          rw [depth, Nat.add_comm 1]
          refine Nat.succ_le_succ (depthOfAll_le_iff.2 fun item hitem => ?_)
          obtain ⟨entry, -, rfl⟩ := List.mem_map.1 hitem
          rw [collapseSplits_eq]
          exact depth_ofSplits _

theorem depth_collapse (t : OutputTree) (mode : CollapseMode) : (t.collapse mode).depth ≤ 3 := by
  rw [collapse_eq]
  refine depth_aloneOrList fun item hitem => ?_
  obtain ⟨entries, -, hitem⟩ := List.mem_filterMap.1 hitem
  exact depth_collapseOptimizer hitem

/-- A collapsed output of finite values is read back from its JSON text if each value on its own is.
The text of an output with a value that is not finite is read as no output at all. -/
theorem collapse_ofJson (t : OutputTree) (mode : CollapseMode) :
    ((∀ x ∈ (t.collapse mode).values, Single.isFinite x = true) →
      (∀ x ∈ (t.collapse mode).values, Single.isFinite x = true → Single.ReadsBack x) →
      ofJson? (t.collapse mode).document.toJson = some (t.collapse mode)) ∧
    ((∃ x ∈ (t.collapse mode).values, ¬ Single.isFinite x = true) →
      ofJson? (t.collapse mode).document.toJson = none) := by
  have hdepth : (t.collapse mode).depth < Document.depthLimit :=
    (depth_collapse t mode).trans_lt (by decide)
  rw [ofJson?_toJson hdepth]
  constructor
  · intro hfinite hreads
    exact ofDocument?_document fun x hx => readsBack_iff.1 (hreads x hx (hfinite x hx))
  · rintro ⟨x, hx, hinfinite⟩
    refine ofDocument?_document_eq_none ⟨x, hx, ?_⟩
    rw [Document.jsonSingle_eq_null hinfinite]
    rfl

/-- Three optimizers, of which the second has no batch: names that need escapes, values at both ends
of the positional notation, and batches with no split, with one and with two. -/
def escapedNames : OutputTree :=
  ⟨[[
    .single ((StepResult.plain 0.5).addExtra "say \"no\"\\ \n\x01" (-0.0)),
    .splits [],
    .splits [.plain 1e13, (StepResult.reducible 0.1 true).addExtra "" 1e-6]], [],
    [.splits [.plain 1e-45]]]⟩

theorem collapse_ofJson_escapedNames :
    ofJson? (escapedNames.collapse .epoch).document.toJson = some (escapedNames.collapse .epoch) ∧
    ofJson? ((ofBatch [[.plain 0.1, .plain (0.0 / 0.0)], []]).collapse .batch).document.toJson =
      none := by
  have hvalues : ∀ x ∈ (escapedNames.collapse .epoch).values,
      Single.isFinite x = true ∧ Single.ReadsBack x := by
    decide +kernel
  constructor
  · exact (collapse_ofJson escapedNames .epoch).1 (fun x hx => (hvalues x hx).1)
      fun x hx _ => (hvalues x hx).2
  · exact (collapse_ofJson (ofBatch [[.plain 0.1, .plain (0.0 / 0.0)], []]) .batch).2
      (by decide +kernel)

end OutputTree

end TrainingLoop
