import TrainingLoop.Proofs.Run.MetricsFile
import TrainingLoop.Proofs.Run.Silent
/-!
# Logging does not change a simulation

Where a metrics file is written, how often metrics are logged and saved and how often progress is
reported makes no difference to what a simulation comes to, as long as the metrics file can be
written: `simulate_unlogged` compares any two specifications that agree in the rest.
-/

namespace TrainingLoop

open Stateful

namespace LoopSpec

variable {s s' : LoopSpec} {file file' : String → LogFile}

/-- The specification with all that it says about logging left out. -/
def unlogged (s : LoopSpec) : LoopSpec :=
  { s with
    trainer := s.trainer.withCadences 1 1
    logging := {} }

def Opens (s : LoopSpec) (file : String → LogFile) : Prop :=
  ∀ path, s.logging.metricsPath = some path → ∀ attempt, (file path).faultAt attempt = none

def ran (s : LoopSpec) (board : RateBoard) (file : String → LogFile) :
    Except Error (Option FitResult) × FitRun SyntheticWorker SimulatedWorld Nat :=
  (FitStep.run s.setup (s.simulation.model.batchLoop Nat) s.horizon s.data).runOn
    (s.start board file)

def reported (ended : Except Error (Option FitResult) × FitRun SyntheticWorker SimulatedWorld Nat) :
    Except Error (Option SimulationReport) :=
  ended.1.map fun fit => fit.map fun fit => report fit ended.2.trainer

/-! ## The start of a simulation -/

theorem sink_obliging (h : s.Opens file) {sink : Sink SimulatedWorld}
    (hsink : s.sink file = some sink) : sink.Obliging := by
  obtain ⟨path, hpath, rfl⟩ := Option.map_eq_some_iff.1 hsink
  exact h path hpath

theorem deciding_callbacks (s : LoopSpec) :
    Callback.deciding s.callbacks = Callback.deciding s.unlogged.callbacks := by
  have hreports : Callback.deciding (if 0 < s.logging.progressEvery then
      [.progress { every := s.logging.progressEvery }] else [] : List (Callback SimulatedWorld)) =
        [] := by
    split <;> rfl
  rw [callbacks, callbacks, Callback.deciding, List.filter_append, ← Callback.deciding, hreports]
  rfl

theorem start_alike (h : s.Opens file) (board : RateBoard) :
    (s.start board file).Alike (s.unlogged.start board fun _ => {}) := by
  refine ⟨s.unlogged.startTrainer board fun _ => {}, ⟨?_, ?_, ?_⟩, rfl⟩
  · change { (s.unlogged.startTrainer board fun _ => {}).silent with
      callbacks := Callback.deciding s.callbacks } = _
    rw [deciding_callbacks]
    rfl
  · exact fun sink hsink => sink_obliging h hsink
  · nofun

/-! ## The run of a simulation -/

theorem reported_ran (h : s.Opens file) (board : RateBoard) :
    reported (s.ran board file) = reported (s.unlogged.ran board fun _ => {}) := by
  have hunlogged : s.unlogged.ran board (fun _ => {}) =
      (FitStep.run s.setup (s.simulation.model.batchLoop Nat) s.horizon s.data).runOn
        (s.unlogged.start board fun _ => {}) := by
    have hcadences := FitStep.run_withCadences s.setup (s.simulation.model.batchLoop Nat) s.horizon
      1 1 s.data
    rw [← hcadences]
    rfl
  have hsame : (s.ran board file).1 = (s.unlogged.ran board fun _ => {}).1 ∧
      (s.ran board file).2.Alike (s.unlogged.ran board fun _ => {}).2 := by
    rw [hunlogged]
    exact FitStep.run_alike _ _ _ _ (start_alike h board)
  obtain ⟨hresult, t, ht, hend⟩ := hsame
  have hreport (fit : FitResult) : report fit (s.ran board file).2.trainer = report fit t := by
    simp only [report, ht.board, ht.latest, ht.world, MetricsLog.history, ht.finished]
  simp only [reported, hreport, hresult, hend]

theorem simulate_accepted (hcheck : s.check = .ok ()) (file : String → LogFile) :
    (s.simulate file).result =
      (do let _ ← s.config; let board ← s.board; reported (s.ran board file)) := by
  have haccept : s.accept = (do let _ ← s.config; s.board) := by
    rw [accept, hcheck]
    rfl
  rw [simulate, haccept]
  cases s.config with
  | error e => rfl
  | ok config => cases s.board <;> rfl

/-- What an accepted specification comes to is a matter of what it says besides logging. -/
theorem simulate_eq_unlogged (hcheck : s.check = .ok ()) (hopens : s.Opens file) :
    (s.simulate file).result = (do
      let _ ← s.unlogged.config
      let board ← s.unlogged.board
      reported (s.unlogged.ran board fun _ => {})) := by
  have hconfig : s.unlogged.config = s.config.map (Config.withCadences 1 1) := by
    have hsame : s.unlogged.trainer.check = s.trainer.check := rfl
    rw [config, config, hsame]
    cases s.trainer.check <;> rfl
  have hboard : s.unlogged.board = s.board := rfl
  simp only [simulate_accepted hcheck, reported_ran hopens, hconfig, hboard]
  cases s.config <;> rfl

theorem simulate_settles (s : LoopSpec) (file : String → LogFile) :
    (s.simulate file).result ≠ .ok none := by
  have hdata (epoch : Nat) (world : SimulatedWorld) : ∃ n < s.horizon,
      (s.setup.accelerator.prepare (s.data epoch) world).1.length = some n :=
    ⟨s.simulation.model.batchesPerEpoch, Nat.lt_succ_self _, rfl⟩
  unfold simulate
  cases s.accept with
  | error e => nofun
  | ok board =>
      dsimp only
      rcases hrun : (FitStep.run s.setup (s.simulation.model.batchLoop Nat) s.horizon s.data).runOn
        (s.start board file) with ⟨_ | _ | fit, r'⟩
      · nofun
      · exact absurd hrun (FitStep.run_settles hdata _ _)
      · nofun

/-- Two accepted specifications that differ only in their logging come to the same, an error or a
report, if the metrics files can be opened. -/
theorem simulate_unlogged (hsame : s.unlogged = s'.unlogged) (hcheck : s.check = .ok ())
    (hcheck' : s'.check = .ok ()) (hopens : s.Opens file) (hopens' : s'.Opens file') :
    ∃ outcome : Except Error SimulationReport,
      (s.simulate file).result = outcome.map some ∧
      (s'.simulate file').result = outcome.map some := by
  have hequal : (s'.simulate file').result = (s.simulate file).result := by
    rw [simulate_eq_unlogged hcheck hopens, simulate_eq_unlogged hcheck' hopens', hsame]
  rw [hequal]
  cases hresult : (s.simulate file).result with
  | error e => exact ⟨.error e, rfl, rfl⟩
  | ok report =>
      cases report with
      | none => exact absurd hresult (simulate_settles s file)
      | some report => exact ⟨.ok report, rfl, rfl⟩

def loud : LoopSpec :=
  { trainer := { maxEpochs := 2, logEveryNSteps := 1, flushLogsEveryNSteps := 1 }
    simulation := { model := { batchesPerEpoch := 2 }, evaluate := false }
    earlyStopping := some { monitor := lossAverageKey }
    logging := { metricsPath := some "metrics.jsonl", progressEvery := 1 } }

def quiet : LoopSpec :=
  { loud with
    trainer := { maxEpochs := 2 }
    logging := {} }

/-- Both give the same report, and one of them has written a file. -/
theorem simulate_unlogged_loud :
    ∃ report : SimulationReport,
      (loud.simulate fun _ => {}).result = .ok (some report) ∧
      (quiet.simulate fun _ => {}).result = .ok (some report) ∧
      (loud.simulate fun _ => {}).file.any (·.text.isSome) = true ∧
      (quiet.simulate fun _ => {}).file.isNone = true := by
  have hreturns : (loud.simulate fun _ => {}).report?.isSome = true := by
    decide +kernel
  have hfiles : (loud.simulate fun _ => {}).file.any (·.text.isSome) = true ∧
      (quiet.simulate fun _ => {}).file.isNone = true := by
    decide +kernel
  obtain ⟨report, hreport⟩ := Option.isSome_iff_exists.1 hreturns
  have hresult := Simulation.report?_eq_some hreport
  have hopens : loud.Opens fun _ => {} := fun _ _ _ => rfl
  have hopens' : quiet.Opens fun _ => {} := nofun
  have hsame : loud.unlogged = quiet.unlogged := rfl
  obtain ⟨outcome, hloud, hquiet⟩ := simulate_unlogged hsame rfl rfl hopens hopens'
  refine ⟨report, hresult, ?_, hfiles⟩
  rw [hquiet, ← hloud, hresult]

end LoopSpec

end TrainingLoop
