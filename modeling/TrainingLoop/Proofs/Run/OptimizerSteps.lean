import TrainingLoop.Proofs.Run.Calm
import TrainingLoop.Proofs.Run.Synthetic
/-!
# Optimizer steps counted twice

The counters of a run and the synthetic batch loop both count the optimizer steps, each on its own.
Both count one where a batch closes an accumulation window. Only the counters of the run count the
one at the end of an epoch that leaves its last window open, so with every such epoch they get one
step ahead (`run_optimizerSteps`).
-/

namespace TrainingLoop

variable {W β : Type}

namespace SyntheticWorker

theorem countBatch_optimizerSteps {window b : Nat} {s : SyntheticWorker} (h : s.At window b)
    (noise : Generator) :
    (s.countBatch b noise).optimizerSteps =
      s.optimizerSteps + if window ∣ b + 1 then 1 else 0 := by
  have hclosed := closedWindow_iff (countBatch_at h noise) (Nat.succ_pos b)
  unfold countBatch at hclosed ⊢
  dsimp only at hclosed ⊢
  split at hclosed
  · rename_i htrained
    rw [if_pos htrained, if_pos (hclosed.1 htrained)]
  · rename_i htrained
    rw [if_neg htrained, if_neg fun hdvd => htrained (hclosed.2 hdvd)]
    rfl

/-- The batch loop counts a step with every window that a batch closes. -/
theorem run_steps {m : SyntheticModel} {window b dataloader : Nat} {batch : β}
    {s s' : SyntheticWorker} {output : BatchOutput} (hat : s.At window b)
    (h : ((m.batchLoop β).run batch b dataloader).runOn s = (.ok output, s'))
    (hproceeds : output.stopsEpoch = false) :
    s'.At window (b + 1) ∧
      s'.optimizerSteps = s.optimizerSteps + if window ∣ b + 1 then 1 else 0 := by
  have hgoes : m.stopEpochAt ≠ some b := by
    intro hstop
    rw [((run_ok hat h).1 hstop).1] at hproceeds
    cases hproceeds
  refine ⟨((run_ok hat h).2 hgoes).2, ?_⟩
  simp only [SyntheticModel.batchLoop, Stateful.runOn_of, train, if_neg hgoes, Prod.mk.injEq,
    Except.ok.injEq] at h
  rw [← h.2]
  exact countBatch_optimizerSteps hat _

end SyntheticWorker

/-! ## One epoch -/

/-- The optimizer steps that an epoch of so many batches takes with its last window open. -/
def openSteps (window batches : Nat) : Nat := if window ∣ batches then 0 else 1

/-- An epoch that started as `start` has completed `b` batches. The counters have taken the steps
that the batch loop has, and one more where all batches are seen and the last window is open. -/
structure EpochRun.Tallied (start : EpochRun SyntheticWorker W β) (window b : Nat)
    (r : EpochRun SyntheticWorker W β) : Prop where
  worker : r.worker.At window b
  unskipped : r.counters.skipRemaining = false
  steps : r.progress.globalStep + start.worker.optimizerSteps =
    start.progress.globalStep + r.worker.optimizerSteps +
      if r.allBatchesSeen = true then openSteps window b else 0

namespace EpochStep

variable {setup : Setup W β} {m : SyntheticModel} {window b : Nat} {B : Batches β}
  {start r r₁ r₂ : EpochRun SyntheticWorker W β}

theorem start_tallied {data : Batches β} (hwindow : r.worker.window = window) :
    r.Tallied window 0 (r.start setup data) where
  worker := ⟨hwindow, fun hpos => absurd hpos (Nat.lt_irrefl 0)⟩
  unskipped := rfl
  steps := by simp [EpochRun.start, openSteps]

theorem allBatchesSeen_of_goes {loop : BatchLoop SyntheticWorker β}
    (hgoes : r.isDone loop = false) : r.allBatchesSeen = false := by
  simp only [EpochRun.isDone, Bool.or_eq_false_iff] at hgoes
  exact hgoes.2

/-- A completed batch, with what follows it, adds a step to both counts where it closes a window,
and to the counters also where it is the last one. -/
theorem step_steps (hcounts : setup.accelerator.CountsSteps) (hat : r.AtBatch B b)
    (hworker : r.worker.At window b) {more : KeptOutputs}
    (hadvance : (advance setup (m.batchLoop β)).runOn r = (.ok (.completed more), r₁))
    (hend : (advanceEnd setup (m.batchLoop β)).runOn r₁ = (.ok (), r₂)) :
    r₂.worker.At window (b + 1) ∧
      r₂.worker.optimizerSteps = r.worker.optimizerSteps + (if window ∣ b + 1 then 1 else 0) ∧
      r₂.progress.globalStep = r.progress.globalStep +
        if window ∣ b + 1 ∨ r₂.allBatchesSeen = true then 1 else 0 := by
  have hglobal := advanceEnd_globalStep hcounts hend
  have hseen : r₂.allBatchesSeen = r₁.allBatchesSeen := by
    have hfollows := advanceEnd_follows hend
    obtain ⟨t₁, t₂, globalStep, -, -, -, -, rfl⟩ := advanceEnd_parts hend
    rw [EpochRun.allBatchesSeen, EpochRun.allBatchesSeen, hfollows.trainingBatches]
  obtain ⟨t₁, t₂, globalStep, -, -, -, -, rfl⟩ := advanceEnd_parts hend
  cases advance_ok hadvance with
  | @completed feed feed' handed output worker trainer hphase hnext hrun hproceeds htrainer =>
      obtain ⟨hindex, -⟩ := pull_at hat hphase hnext
      rw [hindex] at hrun
      obtain ⟨hworker', htaken⟩ := SyntheticWorker.run_steps hworker hrun hproceeds
      have hclosed : (m.batchLoop β).closedWindow worker = true ↔ window ∣ b + 1 :=
        SyntheticWorker.closedWindow_iff hworker' (Nat.succ_pos b)
      refine ⟨hworker', htaken, ?_⟩
      simp only [EpochRun.atStepBoundary, Bool.or_eq_true, hclosed, ← hseen] at hglobal
      exact hglobal

theorem step_tallied (hcounts : setup.accelerator.CountsSteps) (hat : r.AtBatch B b)
    (h : start.Tallied window b r) (hgoes : r.isDone (m.batchLoop β) = false) {more : KeptOutputs}
    (hadvance : (advance setup (m.batchLoop β)).runOn r = (.ok (.completed more), r₁))
    (hend : (advanceEnd setup (m.batchLoop β)).runOn r₁ = (.ok (), r₂)) :
    start.Tallied window (b + 1) r₂ := by
  obtain ⟨hworker, htaken, hglobal⟩ := step_steps hcounts hat h.worker hadvance hend
  have hsteps := h.steps
  rw [allBatchesSeen_of_goes hgoes, if_neg Bool.false_ne_true] at hsteps
  refine ⟨hworker, ?_, ?_⟩
  · obtain ⟨t₁, t₂, globalStep, -, -, -, -, rfl⟩ := advanceEnd_parts hend
    cases advance_ok hadvance with
    | completed => exact h.unskipped
  · have hboth : (if window ∣ b + 1 ∨ r₂.allBatchesSeen = true then 1 else 0) =
        (if window ∣ b + 1 then 1 else 0) +
          if r₂.allBatchesSeen = true then openSteps window (b + 1) else 0 := by
      by_cases hdvd : window ∣ b + 1 <;> simp [openSteps, hdvd]
    rw [htaken, hglobal, hboth]
    omega

/-- Where an epoch ends that nothing cuts short, the last window is closed, or all batches are
seen. -/
theorem ends_at_boundary (hat : r.AtBatch B b) (h : start.Tallied window b r)
    (hunasked : r.trainer.state.shouldStop = false)
    (hends : r.isDone (m.batchLoop β) = true ∨
      r.isDone (m.batchLoop β) = false ∧ ∃ feed, r.phase = .running feed ∧ feed.next.1 = none) :
    window ∣ b ∨ r.allBatchesSeen = true := by
  by_cases hdvd : window ∣ b
  · exact .inl hdvd
  right
  have hpos : 0 < b := Nat.pos_of_ne_zero fun hzero => hdvd (hzero ▸ Nat.dvd_zero window)
  have hopen : (m.batchLoop β).closedWindow r.worker = false :=
    Bool.eq_false_iff.2 (mt (SyntheticWorker.closedWindow_iff h.worker hpos).1 hdvd)
  obtain ⟨feed, hphase, hfeed⟩ := hat.feed
  rcases hends with hdone | ⟨-, feed', hphase', hnext⟩
  · simpa [EpochRun.isDone, hphase, EpochPhase.isDone, h.unskipped, hunasked, hopen] using hdone
  · -- The batch pulled last was the last one of the data.
    obtain rfl : feed = feed' := EpochPhase.running.inj (hphase.symm.trans hphase')
    have hlast := (hat.last hpos).2
    rw [Feed.eq_none_of_next hfeed hnext] at hlast
    rw [EpochRun.allBatchesSeen, hlast]
    exact Bool.or_true _

theorem ends_tallied (h : start.Tallied window b r)
    (hboundary : window ∣ b ∨ r.allBatchesSeen = true) :
    r.progress.globalStep + start.worker.optimizerSteps =
      start.progress.globalStep + r.worker.optimizerSteps + openSteps window b := by
  have hsteps := h.steps
  by_cases hdvd : window ∣ b
  · rwa [openSteps, if_pos hdvd, ite_self] at *
  · rwa [if_pos (hboundary.resolve_left hdvd)] at hsteps

/-- Over an epoch that nothing cuts short the counters take the steps that the batch loop takes, and
one more if its last window is left open. -/
theorem run_tallied {horizon : Nat} {data : Batches β} {outputs : Processed}
    (hcounts : setup.accelerator.CountsSteps) (hwindow : r.worker.window = window)
    (h : (run setup (m.batchLoop β) horizon data).runOn r = (.ok (some outputs), r₁))
    (hunasked : r₁.trainer.state.shouldStop = false)
    (hunsignalled : ∀ index new, r₁.trainer.events.toList = r.trainer.events.toList ++ new →
      .signalled index ∉ new) :
    r₁.worker.window = window ∧
      r₁.progress.globalStep + r.worker.optimizerSteps =
        r.progress.globalStep + r₁.worker.optimizerSteps +
          openSteps window r₁.counters.batchesSeen := by
  obtain ⟨b, r₀, kept, trainer, ⟨hat, hinv⟩, hunasked₀, hends, -, rfl⟩ := run_calm
    (I := fun b r₀ _ => r₀.AtBatch (setup.accelerator.prepare data r.trainer.world).1 b ∧
      r.Tallied window b r₀)
    (fun b r₀ kept more r₂ r₃ hI hgoes hadvance hend =>
      ⟨step_at hI.1 hadvance hend, step_tallied hcounts hI.1 hI.2 hgoes hadvance hend⟩)
    ⟨start_at setup data r, start_tallied hwindow⟩ h hunasked hunsignalled
  have hsteps := ends_tallied hinv (ends_at_boundary hat hinv hunasked₀ hends)
  rw [← hat.seen] at hsteps
  exact ⟨hinv.worker.window, hsteps⟩

end EpochStep

/-! ## The whole run -/

namespace FitStep

open Trainer EpochStep RunEvent Trace

variable {setup : Setup W β} {m : SyntheticModel} {window horizon : Nat} {data : Nat → Batches β}
  {r r₁ r' : FitRun SyntheticWorker W β}

theorem nextEpoch_tallied {outputs : Processed} (hcounts : setup.accelerator.CountsSteps)
    (hwindow : r.worker.window = window)
    (h : (nextEpoch setup (m.batchLoop β) horizon data).runOn r = (.ok (some outputs), r'))
    (hunasked : r.trainer.state.shouldStop = false) {new : List (RunEvent β)}
    (hnew : r'.trainer.events.toList = r.trainer.events.toList ++ new)
    (hcalm : ∀ event ∈ new, event.isCalm = true) :
    r'.worker.window = window ∧
      r'.progress.globalStep + r.worker.optimizerSteps =
        r.progress.globalStep + r'.worker.optimizerSteps +
          openSteps window (new.countP isPulled) := by
  obtain ⟨t, e, hthrough⟩ := nextEpoch_calm h hunasked hnew hcalm
  obtain ⟨outputs', htrained⟩ := hthrough.trained
  have hrun := run_tallied hcounts hwindow htrained hthrough.unasked hthrough.unsignalled
  rw [← hthrough.pulled, ← hthrough.progress, ← hthrough.worker] at hrun
  exact hrun

/-- How many of some epochs, told by their events, leave their last window open. -/
def openEpochs (window : Nat) (epochs : List (List (RunEvent β))) : Nat :=
  epochs.countP fun events => !decide (window ∣ events.countP isPulled)

theorem openEpochs_snoc (window : Nat) (epochs : List (List (RunEvent β)))
    (new : List (RunEvent β)) :
    openEpochs window (epochs ++ [new]) =
      openEpochs window epochs + openSteps window (new.countP isPulled) := by
  rw [openEpochs, List.countP_append, List.countP_singleton, openSteps, openEpochs]
  by_cases hdvd : window ∣ new.countP isPulled <;> simp [hdvd]

theorem openEpochs_eq_zero {window : Nat} {epochs : List (List (RunEvent β))} :
    openEpochs window epochs = 0 ↔ ∀ events ∈ epochs, window ∣ events.countP isPulled := by
  simp [openEpochs, List.countP_eq_zero]

def StepsCounted (window : Nat) (r : FitRun SyntheticWorker W β)
    (epochs : List (List (RunEvent β))) : Prop :=
  (∀ events ∈ epochs, ∀ event ∈ events, event.isCalm = true) →
    r.worker.window = window ∧
      r.progress.globalStep = r.worker.optimizerSteps + openEpochs window epochs

theorem nextEpoch_stepsCounted {outputs : Processed} {epochs : List (List (RunEvent β))}
    (hcounts : setup.accelerator.CountsSteps) (hr : StepsCounted window r epochs)
    (h : (nextEpoch setup (m.batchLoop β) horizon data).runOn (r.declineStop setup.config) =
      (.ok (some outputs), r')) {new : List (RunEvent β)}
    (hnew : r'.trainer.events.toList = r.trainer.events.toList ++ new) :
    StepsCounted window r' (epochs ++ [new]) := by
  intro hcalm
  obtain ⟨hcalmEpochs, hcalmNew⟩ := List.forall_mem_append.1 hcalm
  obtain ⟨hwindow, hsteps⟩ := hr hcalmEpochs
  rw [← declineStop_worker setup.config] at hwindow hsteps
  rw [← (declineStop_events setup.config r).1] at hnew
  obtain ⟨hwindow', hsteps'⟩ := nextEpoch_tallied hcounts hwindow h (declineStop_shouldStop _ _)
    hnew (hcalmNew new (List.mem_singleton_self new))
  refine ⟨hwindow', ?_⟩
  rw [declineStop_progress, hsteps] at hsteps'
  rw [openEpochs_snoc]
  omega

theorem Ran.stepsCounted {c c' : Completed} (hcounts : setup.accelerator.CountsSteps)
    (h : Ran setup (m.batchLoop β) horizon data r c r' c') (hr : StepsCounted window r []) :
    ∃ epochs : List (List (RunEvent β)),
      r'.trainer.events.toList = r.trainer.events.toList ++ epochs.flatten ∧
      c'.epochs = c.epochs + epochs.length ∧
      EpochsFrom (fun epoch events => events ∈ wholeEpoch setup r.trainer.callbacks.length epoch)
        r.currentEpoch epochs ∧
      StepsCounted window r' epochs := by
  refine h.epochwise (J := fun r₀ epochs => EpochsFrom (fun epoch events =>
      events ∈ wholeEpoch setup r.trainer.callbacks.length epoch) r.currentEpoch epochs ∧
    StepsCounted window r₀ epochs) ?_ ⟨nofun, hr⟩
  rintro r₀ epochs outputs r₁ new ⟨hwhole, hsteps⟩ hcurrent hnext hnew hword
  rw [hcurrent] at hword
  exact ⟨hwhole.snoc hword, nextEpoch_stepsCounted hcounts hsteps hnext hnew⟩

/-- Of a run that no stop request and no signal of the batch loop cuts short, at the end of every
epoch: the counters are ahead of the batch loop by a step for each epoch so far whose batches did
not fill its last window. The two agree just if every epoch filled its windows. -/
theorem run_optimizerSteps {result : Except Error (Option FitResult)} {completed : Completed}
    (h : (run setup (m.batchLoop β) horizon data).runOn r = (result, r'))
    (hcheck : setup.config.check = .ok ()) (hcounts : setup.accelerator.CountsSteps)
    (hfresh : r.progress.globalStep = r.worker.optimizerSteps)
    (hcalm : ∀ event ∈ r.trainer.eventsSince r'.trainer, event.isCalm = true)
    (hran : Ran setup (m.batchLoop β) horizon data
      (begun setup (r.worker.withWindow setup.config.accumulateGradBatches) r) {} r₁ completed) :
    ∃ (begun : List (RunEvent β)) (epochs : List (List (RunEvent β))) (rest : List (RunEvent β)),
      r'.trainer.events.toList = r.trainer.events.toList ++ (begun ++ (epochs.flatten ++ rest)) ∧
      (∀ event ∈ begun, event.IsQuiet) ∧ epochs.length = completed.epochs ∧
      EpochsFrom (fun epoch events =>
        events ∈ wholeEpoch setup r.trainer.callbacks.length epoch) r.currentEpoch epochs ∧
      r₁.progress.globalStep = r₁.worker.optimizerSteps +
        openEpochs setup.config.accumulateGradBatches epochs ∧
      (r₁.worker.optimizerSteps = r₁.progress.globalStep ↔
        ∀ events ∈ epochs, setup.config.accumulateGradBatches ∣ events.countP isPulled) := by
  obtain ⟨first, hfirst, hquiet⟩ :=
    begun_quiet setup (r.worker.withWindow setup.config.accumulateGradBatches) r
  obtain ⟨hn, -⟩ := begun_traced setup
    (r.worker.withWindow setup.config.accumulateGradBatches) (r := r) rfl
  have hstart : StepsCounted setup.config.accumulateGradBatches
      (begun setup (r.worker.withWindow setup.config.accumulateGradBatches) r) [] := by
    intro _
    exact ⟨Nat.max_eq_left (window_pos_of_check hcheck), hfresh⟩
  obtain ⟨epochs, hepochs, hcount, hwhole, hsteps⟩ := hran.stepsCounted hcounts hstart
  rw [hn] at hwhole
  obtain ⟨rest, hrest⟩ := hran.rest hcheck rfl h
  have hevents := events_trans hfirst (events_trans hepochs hrest)
  obtain ⟨-, hahead⟩ := hsteps (calm_of_epochs hevents hcalm)
  refine ⟨first, epochs, rest, hevents, hquiet, ?_, hwhole, hahead, ?_⟩
  · exact (hcount.trans (Nat.zero_add _)).symm
  · rw [← openEpochs_eq_zero]
    omega

def twoWindows : Setup Unit Unit := { config := { maxEpochs := 2, accumulateGradBatches := 2 } }

def freshSynthetic (setup : Setup Unit Unit) : FitRun SyntheticWorker Unit Unit :=
  { trainer := .ofSetup setup (), worker := .ofModel {} }

/-- Of four batches an epoch none is left over. -/
theorem run_optimizerSteps_twoWindows :
    ∃ (fit : FitResult) (r' r₁ : FitRun SyntheticWorker Unit Unit) (completed : Completed)
      (epochs : List (List (RunEvent Unit))),
      (run twoWindows (SyntheticModel.batchLoop {} Unit) 5 fun _ => .exact 4 fun _ => ()).runOn
        (freshSynthetic twoWindows) = (.ok (some fit), r') ∧
      Ran twoWindows (SyntheticModel.batchLoop {} Unit) 5 (fun _ => .exact 4 fun _ => ())
        (begun twoWindows ((SyntheticWorker.ofModel {}).withWindow 2)
          (freshSynthetic twoWindows)) {} r₁ completed ∧
      completed.epochs = 2 ∧ epochs.length = 2 ∧ r₁.worker.optimizerSteps = 4 ∧
      r₁.progress.globalStep = 4 ∧ ∀ events ∈ epochs, 2 ∣ events.countP isPulled := by
  let data (_ : Nat) : Batches Unit := .exact 4 fun _ => ()
  have hreturns : (Stateful.returned? (run twoWindows (SyntheticModel.batchLoop {} Unit) 5 data)
      (freshSynthetic twoWindows)).map FitResult.epochsCompleted = some 2 := by
    decide +kernel
  have hcounts : ((run twoWindows (SyntheticModel.batchLoop {} Unit) 5 data).runOn
        (freshSynthetic twoWindows)).2.progress.globalStep = 4 ∧
      ((run twoWindows (SyntheticModel.batchLoop {} Unit) 5 data).runOn
        (freshSynthetic twoWindows)).2.worker.optimizerSteps = 4 := by
    decide +kernel
  have hcalm : ((freshSynthetic twoWindows).trainer.eventsSince
      ((run twoWindows (SyntheticModel.batchLoop {} Unit) 5 data).runOn
        (freshSynthetic twoWindows)).2.trainer).all RunEvent.isCalm = true := by
    decide +kernel
  obtain ⟨fit, hfit, htwo⟩ := Option.map_eq_some_iff.1 hreturns
  obtain ⟨r', hrun⟩ := Stateful.returned?_eq_some hfit
  rw [hrun] at hcounts hcalm
  obtain ⟨worker, r₁, reason, completed, hset, hran, rfl, hcompleted, -⟩ := run_returns hrun
  cases hset
  have hepochs : completed.epochs = 2 := hcompleted.symm.trans htwo
  have hsteps : r₁.worker.optimizerSteps = r₁.progress.globalStep := hcounts.2.trans hcounts.1.symm
  obtain ⟨begun, epochs, rest, -, -, hlength, -, -, hagree⟩ := run_optimizerSteps hrun rfl
    Accelerator.countsSteps_default rfl (List.all_eq_true.1 hcalm) hran
  exact ⟨fit, _, r₁, completed, epochs, hrun, hran, hepochs, hlength.trans hepochs, hcounts.2,
    hcounts.1, hagree.1 hsteps⟩

def oneWindow : Setup Unit Unit := { config := { maxEpochs := 1, accumulateGradBatches := 4 } }

/-- An epoch of three batches does not fill its window: the counters have taken a step, the batch
loop has not. -/
theorem run_oneWindow_ahead :
    ∃ (fit : FitResult) (r' r₁ : FitRun SyntheticWorker Unit Unit) (completed : Completed),
      (run oneWindow (SyntheticModel.batchLoop {} Unit) 4 fun _ => .exact 3 fun _ => ()).runOn
        (freshSynthetic oneWindow) = (.ok (some fit), r') ∧
      Ran oneWindow (SyntheticModel.batchLoop {} Unit) 4 (fun _ => .exact 3 fun _ => ())
        (begun oneWindow ((SyntheticWorker.ofModel {}).withWindow 4)
          (freshSynthetic oneWindow)) {} r₁ completed ∧
      completed.epochs = 1 ∧ r₁.progress.globalStep = 1 ∧ r₁.worker.optimizerSteps = 0 := by
  let data (_ : Nat) : Batches Unit := .exact 3 fun _ => ()
  have hreturns : (Stateful.returned? (run oneWindow (SyntheticModel.batchLoop {} Unit) 4 data)
      (freshSynthetic oneWindow)).map FitResult.epochsCompleted = some 1 := by
    decide +kernel
  have hcounts : ((run oneWindow (SyntheticModel.batchLoop {} Unit) 4 data).runOn
        (freshSynthetic oneWindow)).2.progress.globalStep = 1 ∧
      ((run oneWindow (SyntheticModel.batchLoop {} Unit) 4 data).runOn
        (freshSynthetic oneWindow)).2.worker.optimizerSteps = 0 := by
    decide +kernel
  obtain ⟨fit, hfit, hone⟩ := Option.map_eq_some_iff.1 hreturns
  obtain ⟨r', hrun⟩ := Stateful.returned?_eq_some hfit
  rw [hrun] at hcounts
  obtain ⟨worker, r₁, reason, completed, hset, hran, rfl, hcompleted, -⟩ := run_returns hrun
  cases hset
  exact ⟨fit, _, r₁, completed, hrun, hran, hcompleted.symm.trans hone, hcounts⟩

end FitStep

end TrainingLoop
