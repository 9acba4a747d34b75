import TrainingLoop.Proofs.Run.Ledger
import TrainingLoop.Proofs.Run.OptimizerSteps
import TrainingLoop.Proofs.Spec.Validation
import TrainingLoop.Spec.Simulation
/-!
# What a simulated run leaves in its metrics file

Records are logged at one cadence and written at another, both told by the global step, and the end
of a run writes nothing. So the file is whole just if no step that logs comes after the last one
that writes (`simulate_metricsFile`). A step may have several batches; it counts from its first one
on.
-/

namespace TrainingLoop

variable {W β : Type}

/-! ## Cadences -/

namespace MetricsLog

/-- How many of so many steps lie in whole groups of `n`. -/
def inGroups (n steps : Nat) : Nat := n * (steps / n)

theorem inGroups_le (n steps : Nat) : inGroups n steps ≤ steps := Nat.mul_div_le steps n

theorem inGroups_succ (n step : Nat) :
    inGroups n (step + 1) = if closesGroup n step = true then step + 1 else inGroups n step := by
  rcases n.eq_zero_or_pos with rfl | hpos
  · simp [inGroups, closesGroup]
  · have hcloses : closesGroup n step = true ↔ n ∣ step + 1 := by
      rw [closesGroup_iff, and_iff_right hpos]
    rw [inGroups, inGroups, Nat.succ_div]
    by_cases hdvd : n ∣ step + 1
    · rw [if_pos hdvd, if_pos (hcloses.2 hdvd), ← Nat.succ_div_of_dvd hdvd,
        Nat.mul_div_cancel' hdvd]
    · rw [if_neg hdvd, if_neg (mt hcloses.1 hdvd), Nat.add_zero]

/-- Whether the last step that logs is covered by one that writes, before and after a batch of a
step, the first one or a later one. -/
theorem inGroups_le_inGroups_succ {n k step begun : Nat}
    (hbegun : begun = step ∨ begun = step + 1) :
    inGroups n (step + 1) ≤ inGroups k (step + 1) ↔
      (inGroups n begun ≤ inGroups k begun ∧ closesGroup n step = false) ∨
        closesGroup k step = true := by
  have hn := inGroups_succ n step
  have hk := inGroups_succ k step
  have hnle := inGroups_le n step
  have hkle := inGroups_le k step
  cases hlogs : closesGroup n step <;> cases hwrites : closesGroup k step <;>
    rcases hbegun with rfl | rfl <;> simp [hlogs, hwrites] at hn hk ⊢ <;> omega

end MetricsLog

/-! ## The synthetic batch loop -/

namespace SyntheticModel

theorem batchResults_ne_nil {m : SyntheticModel} (hsplits : 0 < m.splits) {count : Nat}
    (hcount : 0 < count) (steps optimizer : Nat) (g : Generator) :
    (m.batchResults steps optimizer count g).1.flatten ≠ [] := by
  obtain ⟨count, rfl⟩ := Nat.exists_eq_add_one_of_ne_zero hcount.ne'
  obtain ⟨splits, hsplits'⟩ := Nat.exists_eq_add_one_of_ne_zero hsplits.ne'
  simp [batchResults, hsplits', splitResults]

theorem pos_of_check {m : SyntheticModel} (h : m.check = .ok ()) :
    0 < m.optimizers ∧ 0 < m.splits := by
  have hsome : ¬ (m.optimizers = 0 ∨ m.splits = 0) := by
    intro hnone
    rw [check, if_pos hnone] at h
    cases h
  omega

theorem hasResults {m : SyntheticModel} (h : m.check = .ok ()) : (m.batchLoop β).HasResults := by
  obtain ⟨hoptimizers, hsplits⟩ := pos_of_check h
  intro batch index dataloader worker output worker' hrun hproceeds
  simp only [batchLoop, Stateful.runOn_of, SyntheticWorker.train, Prod.mk.injEq,
    Except.ok.injEq] at hrun
  obtain ⟨rfl, -⟩ := hrun
  split at hproceeds
  · cases hproceeds
  · rename_i hgoes
    rw [if_neg hgoes]
    exact batchResults_ne_nil hsplits hoptimizers _ _ _

end SyntheticModel

/-! ## One epoch -/

/-- The optimizer steps begun when an epoch has completed `b` batches. A window that is still open
has begun one. -/
def EpochRun.stepsBegun (window b : Nat) (r : EpochRun SyntheticWorker W β) : Nat :=
  r.progress.globalStep + if window ∣ b ∨ r.allBatchesSeen = true then 0 else 1

/-- Nothing waits to be written just if no step that logs comes after the last one that writes. -/
def Trainer.Drained (config : Config) (steps : Nat) (t : Trainer W β) : Prop :=
  t.ledger.waiting = [] ↔
    MetricsLog.inGroups config.logEveryNSteps steps ≤
      MetricsLog.inGroups config.flushLogsEveryNSteps steps

theorem Trainer.drained_congr {t t' : Trainer W β} (h : t'.ledger = t.ledger) (config : Config)
    (steps : Nat) : t'.Drained config steps ↔ t.Drained config steps := by
  rw [Drained, h, Drained]

theorem Trainer.drained_of_fresh {t : Trainer W β} (h : t.events.toList = []) (config : Config) :
    t.Drained config 0 := by
  simp [Drained, ledger, h, Ledger.ofEvents, MetricsLog.inGroups]

/-- An epoch that started as `start` has completed `b` batches of its data, with its books kept and
nothing waiting that its cadences do not explain. -/
structure EpochRun.Draining (setup : Setup W β) (before : Option String) (B : Batches β)
    (start : EpochRun SyntheticWorker W β) (window b : Nat) (r : EpochRun SyntheticWorker W β) :
    Prop where
  atBatch : r.AtBatch B b
  tallied : start.Tallied window b r
  books : r.trainer.Books setup before
  drained : r.trainer.state.shouldStop = false →
    r.trainer.Drained setup.config (r.stepsBegun window b)

namespace EpochStep

open EpochRun

variable {setup : Setup W β} {m : SyntheticModel} {before : Option String} {window b : Nat}
  {B : Batches β} {start r r₁ r₂ : EpochRun SyntheticWorker W β}

theorem start_draining {data : Batches β} (hwindow : r.worker.window = window)
    (hbooks : r.trainer.Books setup before)
    (hdrained : r.trainer.Drained setup.config r.progress.globalStep) :
    Draining setup before (setup.accelerator.prepare data r.trainer.world).1 r window 0
      (r.start setup data) := by
  have hstarted : r.trainer.Aside (r.start setup data).trainer := .of_eq rfl rfl rfl
  refine ⟨start_at setup data r, start_tallied hwindow, hstarted.keepsBooks hbooks, fun _ => ?_⟩
  rw [Trainer.drained_congr hstarted.ledger, stepsBegun, if_pos (.inl (Nat.dvd_zero window))]
  exact hdrained

theorem step_draining (hresults : (m.batchLoop β).HasResults)
    (hcounts : setup.accelerator.CountsSteps) (hzero : setup.accelerator.isGlobalZero = true)
    (h : Draining setup before B start window b r)
    (hgoes : r.isDone (m.batchLoop β) = false) {more : KeptOutputs}
    (hadvance : (advance setup (m.batchLoop β)).runOn r = (.ok (.completed more), r₁))
    (hend : (advanceEnd setup (m.batchLoop β)).runOn r₁ = (.ok (), r₂)) :
    Draining setup before B start window (b + 1) r₂ := by
  refine ⟨step_at h.atBatch hadvance hend,
    step_tallied hcounts h.atBatch h.tallied hgoes hadvance hend,
    advanceEnd_books.of_ok hend (advance_books.of_ok hadvance h.books), fun hunasked => ?_⟩
  have hfollows := (advance_follows (advance_ok hadvance)).trans (advanceEnd_follows hend)
  have hdrained := h.drained (hfollows.unasked hunasked)
  obtain ⟨-, -, hglobal⟩ := step_steps hcounts h.atBatch h.tallied.worker hadvance hend
  -- The batch is the first one of its step, or a further one of a step already begun.
  have hbegun : r.stepsBegun window b = r.progress.globalStep ∨
      r.stepsBegun window b = r.progress.globalStep + 1 := by
    unfold stepsBegun
    split
    · exact .inl rfl
    · exact .inr rfl
  have hnext : r₂.stepsBegun window (b + 1) = r.progress.globalStep + 1 := by
    rw [stepsBegun, hglobal]
    split <;> rfl
  rw [Trainer.Drained, hnext, batch_waiting hresults hzero h.books hadvance hend hunasked,
    MetricsLog.inGroups_le_inGroups_succ hbegun]
  exact or_congr (and_congr hdrained Iff.rfl) Iff.rfl

/-- At the end of an epoch that nothing cuts short every step begun is taken. -/
theorem run_drained {horizon : Nat} {data : Batches β} {outputs : Processed}
    (hresults : (m.batchLoop β).HasResults) (hcounts : setup.accelerator.CountsSteps)
    (hzero : setup.accelerator.isGlobalZero = true) (hwindow : r.worker.window = window)
    (hbooks : r.trainer.Books setup before)
    (hdrained : r.trainer.Drained setup.config r.progress.globalStep)
    (h : (run setup (m.batchLoop β) horizon data).runOn r = (.ok (some outputs), r₁))
    (hunasked : r₁.trainer.state.shouldStop = false)
    (hunsignalled : ∀ index new, r₁.trainer.events.toList = r.trainer.events.toList ++ new →
      .signalled index ∉ new) :
    r₁.trainer.Drained setup.config r₁.progress.globalStep := by
  obtain ⟨b, r₀, kept, trainer, hinv, hunasked₀, hends, hhooks, rfl⟩ := run_calm
    (I := fun b r₀ _ =>
      Draining setup before (setup.accelerator.prepare data r.trainer.world).1 r window b r₀)
    (fun _ _ _ _ _ _ hI hgoes hadvance hend =>
      step_draining hresults hcounts hzero hI hgoes hadvance hend)
    (start_draining hwindow hbooks hdrained) h hunasked hunsignalled
  have hsteps : r₀.stepsBegun window b = r₀.progress.globalStep := by
    rw [stepsBegun, if_pos (ends_at_boundary hinv.atBatch hinv.tallied hunasked₀ hends),
      Nat.add_zero]
  have hlast := hinv.drained hunasked₀
  rw [hsteps] at hlast
  rwa [Trainer.drained_congr hhooks.ledger]

end EpochStep

/-! ## The whole run -/

namespace FitStep

open Trainer EpochStep RunEvent

variable {setup : Setup W β} {m : SyntheticModel} {before : Option String} {window horizon : Nat}
  {data : Nat → Batches β} {r r₁ r' : FitRun SyntheticWorker W β}

structure MetricsKept (setup : Setup W β) (before : Option String) (window : Nat)
    (r : FitRun SyntheticWorker W β) (epochs : List (List (RunEvent β))) : Prop where
  books : r.trainer.Books setup before
  drained : (∀ events ∈ epochs, ∀ event ∈ events, event.isCalm = true) →
    r.worker.window = window ∧ r.trainer.Drained setup.config r.progress.globalStep

theorem nextEpoch_drained {outputs : Processed} (hresults : (m.batchLoop β).HasResults)
    (hcounts : setup.accelerator.CountsSteps) (hzero : setup.accelerator.isGlobalZero = true)
    (hwindow : r.worker.window = window) (hbooks : r.trainer.Books setup before)
    (hdrained : r.trainer.Drained setup.config r.progress.globalStep)
    (h : (nextEpoch setup (m.batchLoop β) horizon data).runOn r = (.ok (some outputs), r'))
    (hunasked : r.trainer.state.shouldStop = false) {new : List (RunEvent β)}
    (hnew : r'.trainer.events.toList = r.trainer.events.toList ++ new)
    (hcalm : ∀ event ∈ new, event.isCalm = true) :
    r'.trainer.Drained setup.config r'.progress.globalStep := by
  obtain ⟨t, e, hthrough⟩ := nextEpoch_calm h hunasked hnew hcalm
  obtain ⟨outputs', htrained⟩ := hthrough.trained
  rw [← drained_congr hthrough.begins.ledger] at hdrained
  have hended := run_drained hresults hcounts hzero hwindow (hthrough.begins.keepsBooks hbooks)
    hdrained htrained hthrough.unasked hthrough.unsignalled
  rwa [drained_congr hthrough.ends.ledger, hthrough.progress]

theorem nextEpoch_metricsKept {outputs : Processed} {epochs : List (List (RunEvent β))}
    (hresults : (m.batchLoop β).HasResults) (hcounts : setup.accelerator.CountsSteps)
    (hzero : setup.accelerator.isGlobalZero = true)
    (hr : MetricsKept setup before window r epochs)
    (h : (nextEpoch setup (m.batchLoop β) horizon data).runOn (r.declineStop setup.config) =
      (.ok (some outputs), r')) {new : List (RunEvent β)}
    (hnew : r'.trainer.events.toList = r.trainer.events.toList ++ new) :
    MetricsKept setup before window r' (epochs ++ [new]) := by
  have hdeclined := declineStop_aside setup.config r
  have hbooks := hdeclined.keepsBooks hr.books
  refine ⟨(nextEpoch_books horizon data).of_ok h hbooks, fun hcalm => ?_⟩
  obtain ⟨hcalmEpochs, hcalmNew⟩ := List.forall_mem_append.1 hcalm
  have hcalmLast := hcalmNew new (List.mem_singleton_self new)
  obtain ⟨hwindow, hdrained⟩ := hr.drained hcalmEpochs
  rw [← declineStop_worker setup.config] at hwindow
  rw [← drained_congr hdeclined.ledger, ← declineStop_progress setup.config] at hdrained
  rw [← (declineStop_events setup.config r).1] at hnew
  have hunasked := declineStop_shouldStop setup.config r
  exact ⟨(nextEpoch_tallied hcounts hwindow h hunasked hnew hcalmLast).1,
    nextEpoch_drained hresults hcounts hzero hwindow hbooks hdrained h hunasked hnew hcalmLast⟩

/-- The books of a run of the synthetic batch loop are kept. Where nothing cuts it short, records
are left waiting just if a step that logs comes after the last one that writes. -/
theorem run_metricsKept {fit : FitResult} (hresults : (m.batchLoop β).HasResults)
    (hcounts : setup.accelerator.CountsSteps) (hzero : setup.accelerator.isGlobalZero = true)
    (hbooks : r.trainer.Books setup before)
    (hdrained : r.trainer.Drained setup.config r.progress.globalStep)
    (h : (run setup (m.batchLoop β) horizon data).runOn r = (.ok (some fit), r')) :
    r'.trainer.Books setup before ∧
      ((∀ event ∈ r.trainer.eventsSince r'.trainer, event.isCalm = true) →
        r'.trainer.Drained setup.config fit.progress.globalStep) := by
  have hbooks' : r'.trainer.Books setup before := (run_books horizon data).of_ok h hbooks
  obtain ⟨worker, r₁, reason, completed, hset, hran, rfl, -, hprogress⟩ := run_returns h
  cases hset
  let window := max setup.config.accumulateGradBatches 1
  have hbegun := begun_aside setup (r.worker.withWindow setup.config.accumulateGradBatches) r
  have hstart : MetricsKept setup before window
      (begun setup (r.worker.withWindow setup.config.accumulateGradBatches) r) [] :=
    ⟨hbegun.keepsBooks hbooks, fun _ => ⟨rfl, (drained_congr hbegun.ledger _ _).2 hdrained⟩⟩
  obtain ⟨epochs, hepochs, -, hkept⟩ := hran.epochwise (J := MetricsKept setup before window)
    (fun r₀ epochs outputs r₁ new hJ _ hnext hnew _ =>
      nextEpoch_metricsKept hresults hcounts hzero hJ hnext hnew) hstart
  have hended := tellEnd_aside setup reason completed r₁
  refine ⟨hbooks', fun hcalm => ?_⟩
  obtain ⟨first, hfirst, -⟩ :=
    begun_quiet setup (r.worker.withWindow setup.config.accumulateGradBatches) r
  obtain ⟨last, hlast, -⟩ := tellEnd_quiet setup reason completed r₁
  have hevents := events_trans hfirst (events_trans hepochs hlast)
  rw [hprogress, drained_congr hended.ledger]
  exact (hkept.drained (calm_of_epochs hevents hcalm)).2

end FitStep

/-! ## Simulated runs -/

/-- All records given to a logger are in its file, in their order and after the text that the file
had before, and none is left in the buffer. -/
structure JsonLines.Complete (l : JsonLines) (before : Option String) (records : List LogRecord) :
    Prop where
  text : l.file.text.getD "" = before.getD "" ++ lines records
  pending : l.pending.toList = []

theorem JsonLines.Holds.complete_iff {l : JsonLines} {before : Option String}
    {events : List (RunEvent β)} (h : l.Holds before (.ofEvents events)) :
    l.Complete before (events.filterMap RunEvent.record?) ↔
      (Ledger.ofEvents events).waiting = [] := by
  constructor
  · rintro ⟨-, hpending⟩
    rw [← h.pending, hpending]
  · intro hnone
    refine ⟨?_, h.pending.trans hnone⟩
    rw [h.text, Ledger.getD_text, ← Ledger.written_append_waiting, hnone, List.append_nil]

def Simulation.report? (s : Simulation) : Option SimulationReport :=
  match s.result with
  | .ok report => report
  | .error _ => none

theorem Simulation.report?_eq_some {s : Simulation} {report : SimulationReport}
    (h : s.report? = some report) : s.result = .ok (some report) := by
  unfold report? at h
  cases hresult : s.result with
  | ok reported =>
      rw [hresult] at h
      exact congrArg Except.ok h
  | error e =>
      rw [hresult] at h
      cases h

namespace LoopSpec

open Trainer FitStep

variable {s : LoopSpec} {file : String → LogFile}

theorem simulate_ran {report : SimulationReport}
    (h : (s.simulate file).result = .ok (some report)) :
    ∃ board r', s.accept = .ok board ∧
      (FitStep.run s.setup (s.simulation.model.batchLoop Nat) s.horizon s.data).runOn
        (s.start board file) = (.ok (some report.fit), r') ∧
      (s.simulate file).file = fileOf r'.trainer.log.sink ∧
      report = LoopSpec.report report.fit r'.trainer := by
  unfold simulate at h ⊢
  cases haccept : s.accept with
  | error e =>
      rw [haccept] at h
      cases h
  | ok board =>
      rw [haccept] at h
      dsimp only at h ⊢
      cases hrun : (FitStep.run s.setup (s.simulation.model.batchLoop Nat) s.horizon s.data).runOn
        (s.start board file) with
      | mk result r' =>
          rw [hrun] at h
          match result with
          | .error e => cases h
          | .ok none => cases h
          | .ok (some fit) =>
              cases h
              exact ⟨board, r', rfl, hrun, rfl, rfl⟩

theorem parts_of_accept {board : RateBoard} (h : s.accept = .ok board) :
    s.check = .ok () ∧ s.board = .ok board := by
  rw [accept] at h
  cases hcheck : s.check with
  | error fault =>
      rw [hcheck] at h
      cases h
  | ok _ =>
      rw [hcheck] at h
      cases hconfig : s.config with
      | error e =>
          rw [hconfig] at h
          cases h
      | ok config =>
          rw [hconfig] at h
          exact ⟨rfl, h⟩

theorem check_of_accept {board : RateBoard} (h : s.accept = .ok board) :
    s.simulation.model.check = .ok () :=
  SyntheticModel.check_eq_ok_iff.2 (check_eq_ok_iff.1 (parts_of_accept h).1).2.2

theorem start_books {path : String} (hpath : s.logging.metricsPath = some path)
    (hopens : ∀ attempt, (file path).faultAt attempt = none) (board : RateBoard) :
    (s.start board file).trainer.Books s.setup (file path).text where
  logEvery := rfl
  flushEvery := rfl
  isGlobalZero := rfl
  sink := by
    refine ⟨{ path, file := file path }, ?_, rfl, rfl, hopens⟩
    simp [start, startTrainer, sink, hpath]

theorem simulate_kept {path : String} {report : SimulationReport}
    (hpath : s.logging.metricsPath = some path)
    (hopens : ∀ attempt, (file path).faultAt attempt = none)
    (h : (s.simulate file).result = .ok (some report)) :
    ∃ board r' l, s.accept = .ok board ∧
      (FitStep.run s.setup (s.simulation.model.batchLoop Nat) s.horizon s.data).runOn
        (s.start board file) = (.ok (some report.fit), r') ∧
      r'.trainer.log.sink = some (.jsonLines l) ∧ (s.simulate file).file = some l.file ∧
      l.Holds (file path).text r'.trainer.ledger ∧
      ((∀ event ∈ r'.trainer.events.toList, event.isCalm = true) →
        r'.trainer.Drained s.trainer report.fit.progress.globalStep) := by
  obtain ⟨board, r', haccept, hrun, hfile, -⟩ := simulate_ran h
  obtain ⟨hbooks, hcalm⟩ := run_metricsKept (SyntheticModel.hasResults (check_of_accept haccept))
    Accelerator.countsSteps_default rfl (start_books hpath hopens board)
    (drained_of_fresh rfl s.setup.config) hrun
  obtain ⟨l, hsink, hholds⟩ := hbooks.sink
  refine ⟨board, r', l, haccept, hrun, hsink, ?_, hholds, hcalm⟩
  rw [hfile, hsink]
  rfl

/-- Of the records of a simulated run its metrics file has those that were given to the logger
before its last save, one line each, after the text that it had before; all later ones are left in
the buffer. None is later just if no step that logs comes after the last one that writes, where
neither a stop request nor a signal of the batch loop cuts the run short. -/
theorem simulate_metricsFile {path : String} {report : SimulationReport}
    (hpath : s.logging.metricsPath = some path)
    (hopens : ∀ attempt, (file path).faultAt attempt = none)
    (h : (s.simulate file).result = .ok (some report)) :
    ∃ board r' l, s.accept = .ok board ∧
      (FitStep.run s.setup (s.simulation.model.batchLoop Nat) s.horizon s.data).runOn
        (s.start board file) = (.ok (some report.fit), r') ∧
      r'.trainer.log.sink = some (.jsonLines l) ∧ (s.simulate file).file = some l.file ∧
      l.Holds (file path).text r'.trainer.ledger ∧
      r'.trainer.ledger.written ++ r'.trainer.ledger.waiting =
        r'.trainer.events.toList.filterMap RunEvent.record? ∧
      (l.Complete (file path).text (r'.trainer.events.toList.filterMap RunEvent.record?) ↔
        r'.trainer.ledger.waiting = []) ∧
      ((∀ event ∈ r'.trainer.events.toList, event.isCalm = true) →
        (r'.trainer.ledger.waiting = [] ↔
          MetricsLog.inGroups s.trainer.logEveryNSteps report.fit.progress.globalStep ≤
            MetricsLog.inGroups s.trainer.flushLogsEveryNSteps
              report.fit.progress.globalStep)) := by
  obtain ⟨board, r', l, haccept, hrun, hsink, hfile, hholds, hcalm⟩ :=
    simulate_kept hpath hopens h
  exact ⟨board, r', l, haccept, hrun, hsink, hfile, hholds, Ledger.written_append_waiting _,
    hholds.complete_iff, hcalm⟩

def everyStep : LoopSpec :=
  { trainer := { maxEpochs := 1, logEveryNSteps := 1, flushLogsEveryNSteps := 1 }
    simulation := { model := { batchesPerEpoch := 2 }, evaluate := false }
    logging := { metricsPath := some "metrics.jsonl" } }

/-- Both records are in the file. -/
theorem simulate_metricsFile_everyStep :
    ∃ (report : SimulationReport) (board : RateBoard)
      (r' : FitRun SyntheticWorker SimulatedWorld Nat) (l : JsonLines),
      (everyStep.simulate fun _ => {}).result = .ok (some report) ∧
      everyStep.accept = .ok board ∧
      (FitStep.run everyStep.setup (everyStep.simulation.model.batchLoop Nat) everyStep.horizon
        everyStep.data).runOn (everyStep.start board fun _ => {}) =
          (.ok (some report.fit), r') ∧
      (everyStep.simulate fun _ => {}).file = some l.file ∧
      (r'.trainer.events.toList.filterMap RunEvent.record?).length = 2 ∧
      l.Complete none (r'.trainer.events.toList.filterMap RunEvent.record?) := by
  have hreturns : (everyStep.simulate fun _ => {}).report?.isSome = true := by
    decide +kernel
  have hevents : (everyStep.accept.toOption.any fun board =>
      let events := ((FitStep.run everyStep.setup (everyStep.simulation.model.batchLoop Nat)
        everyStep.horizon everyStep.data).runOn
          (everyStep.start board fun _ => {})).2.trainer.events.toList
      events.all RunEvent.isCalm && (events.filterMap RunEvent.record?).length == 2) = true := by
    decide +kernel
  obtain ⟨report, hreport⟩ := Option.isSome_iff_exists.1 hreturns
  have hresult := Simulation.report?_eq_some hreport
  obtain ⟨board, r', l, haccept, hrun, -, hfile, -, -, hcomplete, hwaiting⟩ :=
    simulate_metricsFile (s := everyStep) rfl (fun _ => rfl) hresult
  rw [haccept] at hevents
  dsimp only [Except.toOption, Option.any_some] at hevents
  rw [hrun, Bool.and_eq_true, List.all_eq_true, beq_iff_eq] at hevents
  obtain ⟨hcalm, htwo⟩ := hevents
  refine ⟨report, board, r', l, hresult, haccept, hrun, hfile, htwo, hcomplete.2 ?_⟩
  exact (hwaiting hcalm).2 (le_refl _)

def fourBatches : LoopSpec :=
  { trainer := { maxEpochs := 1, logEveryNSteps := 1, flushLogsEveryNSteps := 100 }
    simulation := { model := { batchesPerEpoch := 4 }, evaluate := false }
    logging := { metricsPath := some "metrics.jsonl" } }

/-- All four records are lost: none of them is written, and there is not even a file. -/
theorem simulate_fourBatches_lost :
    ∃ (report : SimulationReport) (board : RateBoard)
      (r' : FitRun SyntheticWorker SimulatedWorld Nat) (l : JsonLines),
      (fourBatches.simulate fun _ => {}).result = .ok (some report) ∧
      fourBatches.accept = .ok board ∧
      (FitStep.run fourBatches.setup (fourBatches.simulation.model.batchLoop Nat)
        fourBatches.horizon fourBatches.data).runOn (fourBatches.start board fun _ => {}) =
          (.ok (some report.fit), r') ∧
      r'.trainer.log.sink = some (.jsonLines l) ∧
      (fourBatches.simulate fun _ => {}).file = some l.file ∧
      (r'.trainer.events.toList.filterMap RunEvent.record?).length = 4 ∧
      l.pending.toList.length = 4 ∧ l.file.text = none := by
  have hreturns : (fourBatches.simulate fun _ => {}).report?.isSome = true := by
    decide +kernel
  have hledger : (fourBatches.accept.toOption.any fun board =>
      let t := ((FitStep.run fourBatches.setup (fourBatches.simulation.model.batchLoop Nat)
        fourBatches.horizon fourBatches.data).runOn
          (fourBatches.start board fun _ => {})).2.trainer
      t.ledger.written.length == 0 && t.ledger.waiting.length == 4) = true := by
    decide +kernel
  obtain ⟨report, hreport⟩ := Option.isSome_iff_exists.1 hreturns
  have hresult := Simulation.report?_eq_some hreport
  obtain ⟨board, r', l, haccept, hrun, hsink, hfile, hholds, -⟩ :=
    simulate_kept (s := fourBatches) rfl (fun _ => rfl) hresult
  rw [haccept] at hledger
  dsimp only [Except.toOption, Option.any_some] at hledger
  rw [hrun, Bool.and_eq_true, beq_iff_eq, beq_iff_eq, List.length_eq_zero_iff] at hledger
  obtain ⟨hwritten, hwaiting⟩ := hledger
  refine ⟨report, board, r', l, hresult, haccept, hrun, hsink, hfile, ?_, ?_, ?_⟩
  · rw [← Ledger.written_append_waiting]
    have hall : r'.trainer.ledger.written ++ r'.trainer.ledger.waiting =
        r'.trainer.ledger.waiting := by rw [hwritten, List.nil_append]
    exact (congrArg List.length hall).trans hwaiting
  · rw [hholds.pending, hwaiting]
  · rw [hholds.text, Ledger.text, if_pos hwritten]

end LoopSpec

end TrainingLoop
