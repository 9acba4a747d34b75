import TrainingLoop.Proofs.Run.Unvalidated
import TrainingLoop.Proofs.Spec.Completion
/-!
# Validation does not change a simulation

The evaluator of a simulation has a source of noise of its own and reports a single metric. So if
neither early stopping nor a schedule monitors a metric, two simulations that are validated in
different ways have the same report, up to that metric (`simulate_unvalidated`).
-/

namespace TrainingLoop

open Stateful

namespace LoopSpec

variable {s s' : LoopSpec} {file file' : String → LogFile} {board : RateBoard}
  {report report' : SimulationReport}

/-- The specification with all that it says about validation left out. -/
def unvalidated (s : LoopSpec) : LoopSpec :=
  { s with
    trainer := { s.trainer with
      valCheckInterval := .whole
      checkValEveryNEpochs := 0
      enableValidation := false }
    simulation := { s.simulation with evaluate := false } }

def validation (s : LoopSpec) : Validation SimulatedWorld :=
  { interval := s.trainer.valCheckInterval
    everyNEpochs := s.trainer.checkValEveryNEpochs
    enabled := s.trainer.enableValidation
    evaluator := s.setup.evaluator }

theorem setup_eq_withValidation (s : LoopSpec) :
    s.setup = s.unvalidated.setup.withValidation s.validation := rfl

theorem validation_apart (s : LoopSpec) :
    s.validation.Apart SimulatedWorld.epochEndCalls (· = SyntheticModel.valLossKey) := by
  intro evaluator hevaluator epoch globalStep world metrics world' hrun
  change (if s.simulation.evaluate then some s.evaluator else none) = some evaluator at hevaluator
  split at hevaluator
  · cases hevaluator
    cases hrun
    refine ⟨rfl, fun key hkey => ?_⟩
    rw [KeyMap.get?_ofList, KeyMap.valuesOf_eq_nil.2]
    · rfl
    · simpa [eq_comm] using hkey
  · cases hevaluator

/-- The model counts the epochs that it consumes, and the accelerator does nothing. -/
theorem setup_sees (s : LoopSpec) : s.setup.Sees SimulatedWorld.epochEndCalls where
  override call action h := by
    have hnone : s.modelHooks.override? call = none := by
      unfold modelHooks
      split <;> cases call <;> rfl
    exact absurd (hnone.symm.trans h) (by simp)
  consume action h outputs := by
    change s.modelHooks.trainingEpochEnd = some action at h
    unfold modelHooks at h
    split at h
    · cases h
      intro world world' _ _ _ _ hview hrun hrun'
      cases hrun
      cases hrun'
      exact ⟨rfl, congrArg Nat.succ hview⟩
    · cases h
  respond call := .pure ()
  prepare batches world world' hview := ⟨rfl, hview⟩
  nextStep totalBatches current world world' hview := ⟨rfl, hview⟩

theorem startTrainer_trainsLike (hearly : s.earlyStopping = none)
    (hunmonitored : ∀ rate ∈ board.rates, rate.monitor = none) (file' : String → LogFile) :
    (s.startTrainer board file).TrainsLike SimulatedWorld.epochEndCalls
      (· = SyntheticModel.valLossKey) (s.unvalidated.startTrainer board file') := by
  have hcallbacks : ∀ c ∈ s.callbacks, c.isProgress = true := by
    intro c hc
    rw [callbacks, hearly, List.append_nil] at hc
    split at hc
    · rw [List.mem_singleton.1 hc]
      rfl
    · cases hc
  have hspares (file : String → LogFile) (sink : Sink SimulatedWorld)
      (hsink : s.sink file = some sink) : sink.Spares SimulatedWorld.epochEndCalls := by
    obtain ⟨path, -, rfl⟩ := Option.map_eq_some_iff.1 hsink
    trivial
  exact
    { state := rfl
      board := rfl
      log := ⟨⟨rfl, rfl, rfl⟩, fun _ _ => rfl⟩
      world := rfl
      unmonitored := hunmonitored
      callbacks := hcallbacks
      callbacks' := hcallbacks
      spares := hspares file
      spares' := hspares file' }

/-- The run of a simulation, told apart by its validation, and what the report says of its end. -/
theorem simulate_validated (h : (s.simulate file).result = .ok (some report)) :
    ∃ board r, s.accept = .ok board ∧
      (FitStep.run (s.unvalidated.setup.withValidation s.validation)
        (s.unvalidated.simulation.model.batchLoop Nat) s.unvalidated.horizon
        s.unvalidated.data).runOn (s.start board file) = (.ok (some report.fit), r) ∧
      report = LoopSpec.report report.fit r.trainer := by
  obtain ⟨board, r, haccept, hrun, -, hreport⟩ := simulate_ran h
  rw [setup_eq_withValidation] at hrun
  exact ⟨board, r, haccept, hrun, hreport⟩

/-- Two simulations that are validated in different ways, or not at all, have the same report, up to
the metric that the evaluator reports. -/
theorem simulate_unvalidated (hsame : s.unvalidated = s'.unvalidated)
    (hearly : s.earlyStopping = none)
    (hmonitors : ∀ schedule ∈ s.schedules, schedule.monitor = none)
    (h : (s.simulate file).result = .ok (some report))
    (h' : (s'.simulate file').result = .ok (some report')) :
    report.fit = report'.fit ∧ report.rates = report'.rates ∧ report.history = report'.history ∧
      report.epochEndCalls = report'.epochEndCalls ∧
      ∀ key, key ≠ SyntheticModel.valLossKey →
        report.metrics.get? key = report'.metrics.get? key := by
  obtain ⟨board, r, haccept, hrun, hreport⟩ := simulate_validated h
  obtain ⟨board', r', haccept', hrun', hreport'⟩ := simulate_validated h'
  obtain ⟨hcheck, hboard⟩ := parts_of_accept haccept
  have hboards : board = board' := by
    have hsameBoard : s.board = s'.board := (congrArg LoopSpec.board hsame :)
    exact Except.ok.inj (hboard.symm.trans (hsameBoard.trans (parts_of_accept haccept').2))
  have hunmonitored : ∀ rate ∈ board.rates, rate.monitor = none := by
    obtain ⟨_, haccepted, hrates⟩ := accept_unmonitored hcheck hmonitors
    rwa [Except.ok.inj (haccept.symm.trans haccepted)]
  have hearly' : s'.earlyStopping = none :=
    (congrArg LoopSpec.earlyStopping hsame :).symm.trans hearly
  have hstart : (s.start board file).TrainsLike SimulatedWorld.epochEndCalls
      (· = SyntheticModel.valLossKey) (s'.start board' file') := by
    have hright : (s'.startTrainer board file').TrainsLike _ _
        (s'.unvalidated.startTrainer board file) :=
      startTrainer_trainsLike hearly' hunmonitored file
    rw [← hsame] at hright
    refine ⟨_, (startTrainer_trainsLike hearly hunmonitored file).trans hright.symm, ?_⟩
    have hmodel : s.simulation.model = s'.simulation.model :=
      (congrArg (fun s => s.simulation.model) hsame :)
    rw [start, start, hmodel, hboards]
  rw [← hsame] at hrun'
  obtain ⟨hfit, t', ht, rfl⟩ := FitStep.run_trainsLike s.unvalidated.setup_sees
    s.validation_apart s'.validation_apart _ _ hstart hrun hrun'
  refine ⟨Option.some.inj hfit, ?_⟩
  rw [hreport, hreport']
  exact ⟨congrArg RateBoard.current ht.board,
    congrArg (fun finished => finished.toList.map Sample.values) ht.log.finished.symm, ht.world,
    fun key hkey => (ht.log.latest key hkey).symm⟩

def twiceAnEpoch : LoopSpec :=
  { trainer := { maxEpochs := 2, valCheckInterval := .batches 2 }
    schedules := [{ name := "Cosine", rate := 0.5, parameters := [("t_max", .natural 3)] }]
    simulation := { model := { batchesPerEpoch := 4 }, trainingEpochEnd := true } }

def neverValidated : LoopSpec :=
  { twiceAnEpoch with trainer := { maxEpochs := 2, enableValidation := false } }

/-- Only one of the two simulations has a metric of its validation; the rest is the same. -/
theorem simulate_unvalidated_twiceAnEpoch :
    ∃ report report' : SimulationReport,
      (twiceAnEpoch.simulate fun _ => {}).result = .ok (some report) ∧
      (neverValidated.simulate fun _ => {}).result = .ok (some report') ∧
      (report.metrics.get? SyntheticModel.valLossKey).isSome = true ∧
      (report'.metrics.get? SyntheticModel.valLossKey).isSome = false ∧
      report.fit = report'.fit ∧ report.history = report'.history := by
  have hvalidated : (twiceAnEpoch.simulate fun _ => {}).report?.any
      (fun report => (report.metrics.get? SyntheticModel.valLossKey).isSome) = true := by
    decide +kernel
  have hnever : (neverValidated.simulate fun _ => {}).report?.any
      (fun report => !(report.metrics.get? SyntheticModel.valLossKey).isSome) = true := by
    decide +kernel
  obtain ⟨report, hreport, hreported⟩ := (Option.any_eq_true _ _).1 hvalidated
  obtain ⟨report', hreport', hreported'⟩ := (Option.any_eq_true _ _).1 hnever
  have hresult := Simulation.report?_eq_some hreport
  have hresult' := Simulation.report?_eq_some hreport'
  have hsame : twiceAnEpoch.unvalidated = neverValidated.unvalidated := rfl
  have hmonitors : ∀ schedule ∈ twiceAnEpoch.schedules, schedule.monitor = none := by
    simp [twiceAnEpoch]
  obtain ⟨hfit, -, hhistory, -⟩ := simulate_unvalidated hsame rfl hmonitors hresult hresult'
  exact ⟨report, report', hresult, hresult', hreported, by simpa using hreported', hfit, hhistory⟩

end LoopSpec

end TrainingLoop
