import TrainingLoop.Proofs.EpochPlan
import TrainingLoop.Proofs.Run.Reliable
import TrainingLoop.Synthetic
/-!
# Counters of synthetic runs

The synthetic batch loop follows its plan, so the counters of a run without callbacks have a closed
form. One invariant carries an epoch (`Counted`), batch by batch, and one carries the run, epoch by
epoch; the arithmetic of both is that of `EpochPlan`.
-/

namespace TrainingLoop

variable {W β : Type}

/-! ## The batch loop -/

namespace SyntheticWorker

structure At (window b : Nat) (s : SyntheticWorker) : Prop where
  window : s.window = window
  last : 0 < b → s.lastBatch = some (b - 1)

theorem closedWindow_iff {window b : Nat} {s : SyntheticWorker} (h : s.At window b) (hpos : 0 < b) :
    s.closedWindow = true ↔ window ∣ b := by
  rw [closedWindow, h.last hpos, h.window]
  dsimp only
  rw [Nat.sub_add_cancel hpos, beq_iff_eq, Nat.dvd_iff_mod_eq_zero]

theorem countBatch_at {window b : Nat} {s : SyntheticWorker} (h : s.At window b)
    (noise : Generator) : (s.countBatch b noise).At window (b + 1) := by
  unfold countBatch
  dsimp only
  split <;> exact ⟨h.window, fun _ => rfl⟩

theorem run_ok {m : SyntheticModel} {window b dataloader : Nat} {batch : β}
    {s s' : SyntheticWorker} {output : BatchOutput} (hat : s.At window b)
    (h : ((m.batchLoop β).run batch b dataloader).runOn s = (.ok output, s')) :
    (m.stopEpochAt = some b → output.stopsEpoch = true ∧ s' = s) ∧
      (m.stopEpochAt ≠ some b → output.stopsEpoch = false ∧ s'.At window (b + 1)) := by
  simp only [SyntheticModel.batchLoop, Stateful.runOn_of, train, Prod.mk.injEq,
    Except.ok.injEq] at h
  obtain ⟨houtput, hworker⟩ := h
  constructor
  · intro hstop
    rw [← houtput, ← hworker, if_pos hstop]
    exact ⟨rfl, rfl⟩
  · intro hgoes
    rw [← houtput, ← hworker, if_neg hgoes]
    exact ⟨rfl, countBatch_at hat _⟩

end SyntheticWorker

theorem reliable_batchLoop (m : SyntheticModel) : (m.batchLoop β).Reliable :=
  ⟨fun _ _ _ _ => ⟨_, _, rfl⟩, fun _ _ => ⟨_, _, rfl⟩⟩

/-! ## The trainer -/

structure Trainer.Unattended (batches : Nat) (t : Trainer W β) : Prop where
  callbacks : t.callbacks = []
  shouldStop : t.state.shouldStop = false
  trainingBatches : t.state.trainingBatches = .finite batches

theorem Trainer.Unattended.of_eq {batches : Nat} {t t' : Trainer W β} (h : t.Unattended batches)
    (hcallbacks : t'.callbacks = t.callbacks) (hstate : t'.state = t.state) :
    t'.Unattended batches :=
  ⟨hcallbacks.trans h.callbacks, by rw [hstate, h.shouldStop], by rw [hstate, h.trainingBatches]⟩

theorem Trainer.Unattended.follows {P : RunEvent β → Prop} {batches : Nat} {t t' : Trainer W β}
    (h : t.Unattended batches) (hfollows : Follows P t t') : t'.Unattended batches := by
  obtain ⟨hcallbacks, hstop⟩ := hfollows.uncalled h.callbacks
  exact ⟨hcallbacks, hstop.trans h.shouldStop, hfollows.trainingBatches.trans h.trainingBatches⟩

/-! ## One epoch -/

/-- The plan of a model's epochs, in a setup that counts every optimizer step. -/
structure SyntheticModel.Plans (m : SyntheticModel) (setup : Setup W β) (p : EpochPlan) : Prop where
  counts : setup.accelerator.CountsSteps
  batches : 0 < p.batches
  window : 0 < p.window
  stopAt : p.stopAt = m.stopEpochAt

/-- An epoch that started with some counters has completed `b` batches of its plan. -/
structure EpochRun.Counted (p : EpochPlan) (maxSteps : Option Nat) (start : Progress) (b : Nat)
    (r : EpochRun SyntheticWorker W β) : Prop where
  le : b ≤ p.batches
  progress : r.progress = ⟨start.globalStep + p.stepsAfter b, start.totalBatches + b⟩
  worker : r.worker.At p.window b
  trainer : r.trainer.Unattended p.batches
  stepBound : r.counters.maxSteps = maxSteps
  skipRemaining : r.counters.skipRemaining = false
  isLastBatch : r.counters.isLastBatch = true → p.batches ≤ b
  stopAt : ∀ index, p.stopAt = some index → b ≤ index
  bound : ∀ most, maxSteps = some most → b ≤ (most - start.globalStep) * p.window

namespace EpochStep

open EpochRun

section

variable {setup : Setup W β} {m : SyntheticModel} {p : EpochPlan} {maxSteps : Option Nat}
  {start : Progress} {b : Nat} {r r₁ r₂ : EpochRun SyntheticWorker W β}

theorem pull_unattended {batches : Nat} (handed : Handed β) (feed : Feed β)
    (h : r.trainer.Unattended batches) : (r.pull handed feed).trainer.Unattended batches :=
  h.of_eq rfl rfl

theorem counted_of_not_done (hwindow : 0 < p.window)
    (hbelow : ∀ most, maxSteps = some most → start.globalStep < most)
    (hat : r.counters.batchesSeen = b) (h : r.Counted p maxSteps start b)
    (hgoes : r.isDone (m.batchLoop β) = false) :
    b < p.batches ∧ ∀ most, maxSteps = some most → b < (most - start.globalStep) * p.window := by
  have hlt : b < p.batches := by
    rw [← hat]
    exact lt_of_not_done hgoes h.trainer.trainingBatches
  refine ⟨hlt, ?_⟩
  intro most hmost
  apply Nat.lt_of_le_of_ne (h.bound most hmost)
  -- At this batch a window is closed and the bound is reached, so the epoch would be done.
  intro heq
  have hleft : 0 < most - start.globalStep := by
    have := hbelow most hmost
    omega
  have hpos : 0 < b := by
    rw [heq]
    exact Nat.mul_pos hleft hwindow
  have hclosed : (m.batchLoop β).closedWindow r.worker = true :=
    (SyntheticWorker.closedWindow_iff h.worker hpos).2 ⟨_, by rw [heq, Nat.mul_comm]⟩
  have hsteps : p.stepsAfter b = most - start.globalStep := by
    rw [EpochPlan.stepsAfter_of_lt hlt, heq, Nat.mul_div_cancel _ hwindow]
  have hreached : r.counters.maxStepsReached r.progress.globalStep = true := by
    rw [EpochCounters.maxStepsReached, h.stepBound, hmost, h.progress, hsteps]
    dsimp only
    rw [decide_eq_true_iff]
    omega
  simp [EpochRun.isDone, hclosed, hreached] at hgoes

theorem step_counted {B : Batches β} (hplan : m.Plans setup p)
    (hlength : ∀ n, B.length = some n → p.batches ≤ n)
    (hbelow : ∀ most, maxSteps = some most → start.globalStep < most) (hat : r.AtBatch B b)
    (h : r.Counted p maxSteps start b) (hgoes : r.isDone (m.batchLoop β) = false)
    {more : KeptOutputs}
    (hadvance : (advance setup (m.batchLoop β)).runOn r = (.ok (.completed more), r₁))
    (hend : (advanceEnd setup (m.batchLoop β)).runOn r₁ = (.ok (), r₂)) :
    r₂.Counted p maxSteps start (b + 1) := by
  obtain ⟨hlt, hbound⟩ := counted_of_not_done hplan.window hbelow hat.seen h hgoes
  have hglobal := advanceEnd_globalStep hplan.counts hend
  cases advance_ok hadvance with
  | @completed feed feed' handed output worker trainer hphase hnext hrun hproceeds htrainer =>
      obtain ⟨hindex, hpulled⟩ := pull_at hat hphase hnext
      rw [hindex] at hrun
      obtain ⟨hstops, htrains⟩ := SyntheticWorker.run_ok h.worker hrun
      have hnostop : m.stopEpochAt ≠ some b := by
        intro heq
        rw [(hstops heq).1] at hproceeds
        cases hproceeds
      obtain ⟨-, hworker⟩ := htrains hnostop
      have hunattended : trainer.Unattended p.batches :=
        (pull_unattended handed feed' h.trainer).follows htrainer
      have hlast : (r.pull handed feed').counters.isLastBatch = true → p.batches ≤ b + 1 := by
        intro htrue
        rw [(hpulled.last (Nat.succ_pos b)).2, Option.isNone_iff_eq_none,
          Batches.get?_eq_none_iff] at htrue
        obtain ⟨n, hn, hle⟩ := htrue
        exact Nat.le_trans (hlength n hn) hle
      -- The counters take a step just where the plan does.
      have hboundary : EpochRun.atStepBoundary (m.batchLoop β)
          { r.pull handed feed' with trainer, worker } = true ↔
            p.window ∣ b + 1 ∨ b + 1 = p.batches := by
        have hclosed : (m.batchLoop β).closedWindow worker = true ↔ p.window ∣ b + 1 :=
          SyntheticWorker.closedWindow_iff hworker (Nat.succ_pos b)
        have hseen : (r.pull handed feed').counters.batchesSeen = b + 1 := hpulled.seen
        rw [EpochRun.atStepBoundary, EpochRun.allBatchesSeen, hunattended.trainingBatches,
          BatchCount.reachedBy, hseen, Bool.or_eq_true, Bool.or_eq_true, decide_eq_true_iff,
          hclosed]
        apply or_congr_right
        constructor
        · intro hover
          have hle : p.batches ≤ b + 1 := hover.elim id hlast
          omega
        · intro hall
          exact .inl (Nat.le_of_eq hall.symm)
      obtain ⟨t₁, t₂, globalStep, hvalidated, -, -, hupkeep, rfl⟩ := advanceEnd_parts hend
      refine ⟨hlt, ?_, hworker, (hunattended.follows hvalidated).follows hupkeep, h.stepBound,
        h.skipRemaining, hlast, ?_, hbound⟩
      · have hstart : r.progress.globalStep = start.globalStep + p.stepsAfter b := by
          rw [h.progress]
        have htotal : r.progress.totalBatches = start.totalBatches + b := by
          rw [h.progress]
        have hstep : globalStep = start.globalStep + p.stepsAfter (b + 1) := by
          rw [EpochPlan.stepsAfter_succ hplan.window hlt, ← Nat.add_assoc, ← hstart]
          simp only [hboundary] at hglobal
          exact hglobal
        rw [hstep, ← Nat.add_assoc, ← htotal]
        rfl
      · intro index hstop
        have hle := h.stopAt index hstop
        have hne : index ≠ b := by
          rintro rfl
          exact hnostop (hplan.stopAt ▸ hstop)
        omega

/-- An epoch that is done has trained on all its batches, or has reached the bound of the global
step with a window closed. -/
theorem done_counted {B : Batches β} (hwindow : 0 < p.window)
    (hbelow : ∀ most, maxSteps = some most → start.globalStep < most) (hat : r.AtBatch B b)
    (h : r.Counted p maxSteps start b) (hdone : r.isDone (m.batchLoop β) = true) :
    p.after maxSteps start = ⟨start.globalStep + p.stepsAfter b, start.totalBatches + b⟩ := by
  by_cases hall : p.batches ≤ b
  · have heq : b = p.batches := Nat.le_antisymm h.le hall
    rw [heq]
    apply EpochPlan.after_all hwindow
    · intro index hstop
      rw [← heq]
      exact h.stopAt index hstop
    · intro most hmost
      rw [← heq]
      exact ⟨h.bound most hmost, hbelow most hmost⟩
  · obtain ⟨feed, hphase, -⟩ := hat.feed
    have hunseen : r.allBatchesSeen = false := by
      rw [EpochRun.allBatchesSeen, h.trainer.trainingBatches, BatchCount.reachedBy, hat.seen,
        Bool.or_eq_false_iff, decide_eq_false_iff_not]
      exact ⟨hall, Bool.eq_false_iff.2 fun hlast => hall (h.isLastBatch hlast)⟩
    simp only [EpochRun.isDone, hphase, EpochPhase.isDone, h.skipRemaining, h.trainer.shouldStop,
      hunseen, Bool.or_false, Bool.false_or, Bool.and_eq_true] at hdone
    obtain ⟨hreached, hclosed⟩ := hdone
    cases hmost : maxSteps with
    | none => simp [EpochCounters.maxStepsReached, h.stepBound, hmost] at hreached
    | some most =>
        rw [EpochCounters.maxStepsReached, h.stepBound, hmost, h.progress] at hreached
        dsimp only at hreached
        rw [decide_eq_true_iff] at hreached
        have hlt := hbelow most hmost
        have hpos : 0 < b := by
          apply Nat.pos_of_ne_zero
          rintro rfl
          rw [EpochPlan.stepsAfter_of_lt (Nat.not_le.1 hall), Nat.zero_div] at hreached
          omega
        exact EpochPlan.after_reached hwindow hlt h.stopAt h.le
          ((SyntheticWorker.closedWindow_iff h.worker hpos).1 hclosed) hreached
          (h.bound most hmost)

theorem ends_counted {B : Batches β} (hplan : m.Plans setup p)
    (hlength : ∀ n, B.length = some n → p.batches ≤ n)
    (hbelow : ∀ most, maxSteps = some most → start.globalStep < most) (hat : r.AtBatch B b)
    (h : r.Counted p maxSteps start b) (hends : Ends setup (m.batchLoop β) r r₁) :
    r₁.progress = p.after maxSteps start ∧ r₁.trainer.Unattended p.batches ∧
      r₁.worker.window = p.window := by
  have hprogress := h.progress
  cases hends with
  | done hdone =>
      refine ⟨?_, h.trainer, h.worker.window⟩
      rw [hprogress]
      exact (done_counted hplan.window hbelow hat h hdone).symm
  | skipped hgoes hskipped =>
      obtain ⟨hlt, hbound⟩ := counted_of_not_done hplan.window hbelow hat.seen h hgoes
      cases advance_ok hskipped with
      | @skipped feed feed' handed output worker trainer hphase hnext hrun hstops htrainer =>
          obtain ⟨hindex, -⟩ := pull_at hat hphase hnext
          rw [hindex] at hrun
          obtain ⟨hstop, hgoes'⟩ := SyntheticWorker.run_ok h.worker hrun
          have hstopAt : m.stopEpochAt = some b := by
            by_contra hnot
            rw [(hgoes' hnot).1] at hstops
            cases hstops
          obtain ⟨-, rfl⟩ := hstop hstopAt
          have hunattended : trainer.Unattended p.batches :=
            (pull_unattended handed feed' h.trainer).follows htrainer
          refine ⟨?_, hunattended.of_eq rfl rfl, h.worker.window⟩
          rw [EpochPlan.after_skipped hplan.window (hplan.stopAt.trans hstopAt) hlt hbound]
          have hglobal : r.progress.globalStep = start.globalStep + p.stepsAfter b := by
            rw [hprogress]
          have htotal : r.progress.totalBatches = start.totalBatches + b := by
            rw [hprogress]
          rw [← hglobal, ← Nat.add_assoc, ← htotal]
          rfl
  | exhausted hgoes hexhausted =>
      obtain ⟨hlt, -⟩ := counted_of_not_done hplan.window hbelow hat.seen h hgoes
      cases advance_ok hexhausted with
      | exhausted hphase hnext =>
          exfalso
          obtain ⟨feed, hfeed, hat'⟩ := hat.feed
          rw [hphase] at hfeed
          cases hfeed
          obtain ⟨n, hn, hle⟩ := Batches.get?_eq_none_iff.1 (Feed.eq_none_of_next hat' hnext)
          have := hlength n hn
          omega

theorem start_counted {data : Batches β} (hplan : m.Plans setup p)
    (htrainer : r.trainer.Unattended p.batches) (hworker : r.worker.window = p.window) :
    (r.start setup data).Counted p r.counters.maxSteps r.progress 0 := by
  have hnone : p.stepsAfter 0 = 0 := by
    rw [EpochPlan.stepsAfter_of_lt hplan.batches, Nat.zero_div]
  exact
    { le := Nat.zero_le _
      progress := by rw [hnone]; rfl
      worker := ⟨hworker, fun hpos => absurd hpos (Nat.lt_irrefl 0)⟩
      trainer := htrainer.of_eq rfl rfl
      stepBound := rfl
      skipRemaining := rfl
      isLastBatch := nofun
      stopAt := fun _ _ => Nat.zero_le _
      bound := fun _ _ => Nat.zero_le _ }

/-- The batches of a synthetic epoch keep its counters those of the plan, so it ends with those
after the plan, and it passes no horizon beyond its batches. -/
theorem batches_counted {data : Batches β} {horizon : Nat} {result : Option KeptOutputs}
    (hplan : m.Plans setup p)
    (hlength : ∀ n, (setup.accelerator.prepare data r.trainer.world).1.length = some n →
      p.batches ≤ n)
    (hbelow : ∀ most, r.counters.maxSteps = some most → r.progress.globalStep < most)
    (htrainer : r.trainer.Unattended p.batches) (hworker : r.worker.window = p.window)
    (h : (batches setup (m.batchLoop β) horizon .empty).runOn (r.start setup data) =
      (.ok result, r₁)) :
    (result.isSome → r₁.progress = p.after r.counters.maxSteps r.progress ∧
      r₁.trainer.Unattended p.batches ∧ r₁.worker.window = p.window) ∧
    (result = none → horizon ≤ p.batches) := by
  have hrule := batches_ok
    (I := fun b r₀ _ => r₀.AtBatch (setup.accelerator.prepare data r.trainer.world).1 b ∧
      r₀.Counted p r.counters.maxSteps r.progress b)
    (fun b r₀ kept more r₂ r₃ hI hgoes hadvance hend =>
      ⟨step_at hI.1 hadvance hend,
        step_counted hplan hlength hbelow hI.1 hI.2 hgoes hadvance hend⟩)
    ⟨start_at setup data r, start_counted hplan htrainer hworker⟩ h
  obtain ⟨kept, b, r₀, rfl, ⟨hat, hcounted⟩, hends⟩ | ⟨kept, rfl, -, hcounted⟩ := hrule
  · exact ⟨fun _ => ends_counted hplan hlength hbelow hat hcounted hends, nofun⟩
  · refine ⟨nofun, fun _ => ?_⟩
    have hle := hcounted.le
    omega

theorem run_counted {data : Batches β} {horizon : Nat} {result : Option Processed}
    (hplan : m.Plans setup p)
    (hlength : ∀ n, (setup.accelerator.prepare data r.trainer.world).1.length = some n →
      p.batches ≤ n)
    (hbelow : ∀ most, r.counters.maxSteps = some most → r.progress.globalStep < most)
    (htrainer : r.trainer.Unattended p.batches) (hworker : r.worker.window = p.window)
    (h : (run setup (m.batchLoop β) horizon data).runOn r = (.ok result, r₁)) :
    (result.isSome → r₁.progress = p.after r.counters.maxSteps r.progress ∧
      r₁.trainer.Unattended p.batches ∧ r₁.worker.window = p.window) ∧
    (result = none → horizon ≤ p.batches) := by
  cases result with
  | none =>
      have hcounted := batches_counted hplan hlength hbelow htrainer hworker (run_none h)
      exact ⟨nofun, fun _ => hcounted.2 rfl⟩
  | some outputs =>
      obtain ⟨kept, r₂, hbatches, hfinish⟩ := run_ok h
      have hcounted := batches_counted hplan hlength hbelow htrainer hworker hbatches
      obtain ⟨hprogress, hunattended, hwindow⟩ := hcounted.1 rfl
      obtain ⟨-, trainer, hhooks, -, rfl⟩ := finish_ok hfinish
      exact ⟨fun _ => ⟨hprogress, hunattended.follows hhooks, hwindow⟩, nofun⟩

end

end EpochStep

/-! ## All epochs -/

structure FitRun.Planned (p : EpochPlan) (config : Config) (epochs : Nat)
    (r : FitRun SyntheticWorker W β) : Prop where
  currentEpoch : r.currentEpoch = epochs
  progress : r.progress = p.afterEpochs config.maxSteps epochs
  callbacks : r.trainer.callbacks = []
  shouldStop : r.trainer.state.shouldStop = false
  worker : r.worker.window = p.window
  le : epochs ≤ config.maxEpochs
  entered : ∀ most k, config.maxSteps = some most → k < epochs →
    (p.afterEpochs config.maxSteps k).globalStep < most

namespace FitStep

open FitRun Trainer

section

variable {setup : Setup W β} {m : SyntheticModel} {p : EpochPlan} {data : Nat → Batches β}
  {horizon epochs : Nat} {r r' : FitRun SyntheticWorker W β}

theorem stopReason?_eq {config : Config} (h : r.Planned p config epochs) :
    r.stopReason? config =
      if config.maxEpochs ≤ epochs then some .maxEpochs
      else
        match config.maxSteps with
        | none => none
        | some most =>
            if most ≤ (p.afterEpochs config.maxSteps epochs).globalStep then some .maxSteps
            else none := by
  rw [FitRun.stopReason?, FitRun.limitReached?, h.shouldStop, h.currentEpoch, h.progress,
    Bool.false_and]
  cases config.maxSteps <;> exact Option.or_none

theorem bounds_of_goes {config : Config} (h : r.Planned p config epochs)
    (hgoes : r.stopReason? config = none) :
    epochs < config.maxEpochs ∧ ∀ most, config.maxSteps = some most →
      (p.afterEpochs config.maxSteps epochs).globalStep < most := by
  rw [stopReason?_eq h] at hgoes
  have hlt : epochs < config.maxEpochs := by
    by_contra hle
    rw [if_pos (by omega)] at hgoes
    cases hgoes
  refine ⟨hlt, ?_⟩
  intro most hmost
  by_contra hle
  rw [if_neg (by omega), hmost] at hgoes
  rw [hmost] at hle
  simp [Nat.not_lt.1 hle] at hgoes

theorem nextEpoch_counted {result : Option Processed} (hplan : m.Plans setup p)
    (hresolve : ∀ epoch, setup.config.limitTrainBatches.resolveBatches (data epoch).knownLength =
      .ok (.finite p.batches))
    (hlength : ∀ epoch world n, (setup.accelerator.prepare (data epoch) world).1.length = some n →
      p.batches ≤ n)
    (hr : r.Planned p setup.config epochs) (hgoes : r.stopReason? setup.config = none)
    (h : (nextEpoch setup (m.batchLoop β) horizon data).runOn (r.declineStop setup.config) =
      (.ok result, r')) :
    (result.isSome → r'.Planned p setup.config (epochs + 1)) ∧
      (result = none → horizon ≤ p.batches) := by
  obtain ⟨hlt, hbelow⟩ := bounds_of_goes hr hgoes
  have hdecline : r.declineStop setup.config = r := by
    rw [FitRun.declineStop, hr.shouldStop]
    rfl
  rw [hdecline] at h
  obtain ⟨t₁, t₂, e, hcounts, hcall, hepoch, hclose⟩ := nextEpoch_begins h
  have hbegin : t₂.Unattended p.batches := by
    obtain ⟨N, K, hN, -, hcounted⟩ := TrainerStep.resolveCounts_ok hcounts
    rw [hresolve] at hN
    cases hN
    have hresolved : t₁.Unattended p.batches := by
      rw [hcounted]
      exact ⟨hr.callbacks, hr.shouldStop, rfl⟩
    exact hresolved.follows ((TrainerStep.call_keeps _ _ _).of_ok hcall)
  have hrun := EpochStep.run_counted hplan (hlength _ _) (by
    intro most hmost
    have hlt := hbelow most hmost
    rw [← hr.progress] at hlt
    exact hlt) hbegin hr.worker hepoch
  refine ⟨?_, hrun.2⟩
  intro hsome
  obtain ⟨hprogress, hunattended, hwindow⟩ := hrun.1 hsome
  obtain ⟨t₃, t₄, hevaluate, htick, rfl⟩ := closeEpoch_ok (hclose hsome)
  obtain ⟨t, heq, hvalidation, -⟩ := evaluateEpoch_ok hevaluate
  cases heq
  have hlast : t₄.Unattended p.batches := (hunattended.follows hvalidation).follows
    ((TrainerStep.tickRates_keeps .epoch (P := fun _ => True) trivial fun _ => trivial).of_ok htick)
  refine ⟨?_, ?_, hlast.callbacks, hlast.shouldStop, hwindow, hlt, ?_⟩
  · rw [← hr.currentEpoch]
  · rw [EpochPlan.afterEpochs, ← hr.progress]
    exact hprogress
  · intro most k hmost hk
    rcases Nat.lt_succ_iff_lt_or_eq.1 hk with hearlier | rfl
    · exact hr.entered most k hmost hearlier
    · exact hbelow most hmost

theorem ended_of_stops {config : Config} {reason : StopReason} (h : r.Planned p config epochs)
    (hstops : r.stopReason? config = some reason) :
    p.Ended config.maxEpochs config.maxSteps epochs reason := by
  rw [stopReason?_eq h] at hstops
  by_cases hall : config.maxEpochs ≤ epochs
  · rw [if_pos hall] at hstops
    cases hstops
    exact ⟨h.le, h.entered, by rw [if_pos hall], fun hlt => by omega⟩
  · rw [if_neg hall] at hstops
    cases hmost : config.maxSteps with
    | none => simp [hmost] at hstops
    | some most =>
        rw [hmost] at hstops
        dsimp only at hstops
        split at hstops
        · cases hstops
          exact ⟨h.le, hmost ▸ h.entered, by rw [if_neg hall], fun _ => ⟨most, rfl, ‹_›⟩⟩
        · cases hstops

/-- A run from fresh counters without callbacks follows its plan to the end. -/
theorem run_planned {result : Option FitResult} (hplan : m.Plans setup p)
    (hwindow : p.window = setup.config.accumulateGradBatches)
    (hresolve : ∀ epoch, setup.config.limitTrainBatches.resolveBatches (data epoch).knownLength =
      .ok (.finite p.batches))
    (hlength : ∀ epoch world n, (setup.accelerator.prepare (data epoch) world).1.length = some n →
      p.batches ≤ n)
    (hhorizon : p.batches < horizon) (hepochs : 1 ≤ setup.config.maxEpochs)
    (hcallbacks : r.trainer.callbacks = []) (hshouldStop : r.trainer.state.shouldStop = false)
    (hprogress : r.progress = {}) (hepoch : r.currentEpoch = 0)
    (h : (run setup (m.batchLoop β) horizon data).runOn r = (.ok result, r')) :
    ∃ fit, result = some fit ∧
      p.ClosedForm setup.config.maxEpochs setup.config.maxSteps fit.epochsCompleted fit.progress
        fit.stopReason := by
  obtain ⟨worker, ended, r₁, -, hset, hrun, -, hsome⟩ := run_begins h
  have hworker : worker.window = p.window := by
    cases hset
    rw [hwindow]
    exact Nat.max_eq_left (hwindow ▸ hplan.window)
  have hstart : FitRun.Planned p setup.config 0 (FitRun.tellStart setup { r with
      trainer := r.trainer.record (.accumulation setup.config.accumulateGradBatches)
      worker }) := by
    have hfollows := tellCallbacks_follows .trainStart .trainStart
      ((r.trainer.record (.accumulation setup.config.accumulateGradBatches)).context setup
        r.progress 0 none)
      (r.trainer.record (.accumulation setup.config.accumulateGradBatches))
    obtain ⟨hnone, hstop⟩ := hfollows.uncalled hcallbacks
    exact ⟨hepoch, hprogress, hnone, hstop.trans hshouldStop, hworker, Nat.zero_le _,
      fun _ _ _ hk => absurd hk (Nat.not_lt_zero _)⟩
  obtain ⟨r₂, c, hran, hends⟩ := epochs_ok hrun
  have hplanned : FitRun.Planned p setup.config c.epochs r₂ :=
    hran.preserves (J := fun r₀ c => FitRun.Planned p setup.config c.epochs r₀)
      (fun r₀ c outputs r₃ hr hgoes hnext =>
        (nextEpoch_counted hplan hresolve hlength hr hgoes hnext).1 rfl) hstart
  rcases hends with ⟨reason, hreason, hended, rfl⟩ | ⟨hreason, hended, hused | hpassed⟩
  · obtain ⟨-, hresult⟩ := hsome reason c hended
    refine ⟨_, hresult, ?_⟩
    have hclosed := (ended_of_stops hplanned hreason).closedForm hepochs
    rw [← hplanned.progress] at hclosed
    exact hclosed
  · -- Epochs are used up only where their number ends the run.
    exfalso
    have hlt := (bounds_of_goes hplanned hreason).1
    rw [hepoch] at hused
    dsimp only at hused
    omega
  · exfalso
    have := (nextEpoch_counted hplan hresolve hlength hplanned hreason hpassed).2 rfl
    omega

end

theorem window_pos_of_check {config : Config} (h : config.check = .ok ()) :
    0 < config.accumulateGradBatches := by
  apply Nat.pos_of_ne_zero
  intro hzero
  rw [Config.check, if_pos hzero] at h
  cases h

/-- The counters of a run of the synthetic batch loop from fresh counters, without callbacks,
schedules and an evaluator: what it returns is the closed form of its plan, and it does return if
neither the model nor the logger fails and the settings fit. -/
theorem run_counts {setup : Setup W β} {m : SyntheticModel} {data : Nat → Batches β}
    {r : FitRun SyntheticWorker W β} {D L horizon : Nat}
    (haccelerator : setup.accelerator = {}) (hevaluator : setup.evaluator = none)
    (hlimit : setup.config.limitTrainBatches = .batches L)
    (hdata : ∀ epoch, (data epoch).length = some D ∧ (data epoch).knownLength = some D)
    (hbatches : 1 ≤ min L D) (hepochs : 1 ≤ setup.config.maxEpochs)
    (hcallbacks : r.trainer.callbacks = []) (hboard : r.trainer.board = .empty)
    (hshouldStop : r.trainer.state.shouldStop = false) (hprogress : r.progress = {})
    (hepoch : r.currentEpoch = 0) (hhorizon : min L D < horizon) :
    (∀ result r', (run setup (m.batchLoop β) horizon data).runOn r = (.ok result, r') →
      ∃ fit, result = some fit ∧
        EpochPlan.ClosedForm ⟨min L D, setup.config.accumulateGradBatches, m.stopEpochAt⟩
          setup.config.maxEpochs setup.config.maxSteps fit.epochsCompleted fit.progress
          fit.stopReason) ∧
    (setup.config.check = .ok () →
      (∃ K, setup.config.valCheckInterval.resolveInterval (.finite (min L D)) = .ok K) →
      setup.model.Reliable → r.trainer.log.HasReliableSink →
      ∃ fit r', (run setup (m.batchLoop β) horizon data).runOn r = (.ok (some fit), r')) := by
  have hresolve : ∀ epoch,
      setup.config.limitTrainBatches.resolveBatches (data epoch).knownLength =
        .ok (.finite (min L D)) := by
    intro epoch
    rw [hlimit, (hdata epoch).2]
    rfl
  have hreturns : ∀ result r', (run setup (m.batchLoop β) horizon data).runOn r =
      (.ok result, r') → ∃ fit, result = some fit ∧
        EpochPlan.ClosedForm ⟨min L D, setup.config.accumulateGradBatches, m.stopEpochAt⟩
          setup.config.maxEpochs setup.config.maxSteps fit.epochsCompleted fit.progress
          fit.stopReason := by
    intro result r' h
    obtain ⟨worker, ended, r₁, hcheck, -⟩ := run_begins h
    have hplan : m.Plans setup
        ⟨min L D, setup.config.accumulateGradBatches, m.stopEpochAt⟩ :=
      ⟨by rw [haccelerator]; exact Accelerator.countsSteps_default, hbatches,
        window_pos_of_check hcheck, rfl⟩
    refine run_planned hplan rfl hresolve ?_ hhorizon hepochs hcallbacks hshouldStop hprogress
      hepoch h
    intro epoch world n hn
    rw [haccelerator] at hn
    have hlength : (data epoch).length = some n := hn
    rw [(hdata epoch).1] at hlength
    cases hlength
    exact Nat.min_le_right L D
  refine ⟨hreturns, ?_⟩
  intro hcheck hinterval hmodel hsink
  obtain ⟨K, hK⟩ := hinterval
  have hsetup : setup.Reliable :=
    { model := hmodel
      respond := by
        rw [haccelerator]
        exact fun _ world => ⟨(), world, rfl⟩
      evaluator := by
        rw [hevaluator]
        exact nofun }
  have htrainer : r.trainer.Reliable := ⟨by rw [hboard]; exact nofun, hsink⟩
  obtain ⟨result, r', hrun, -⟩ := run_succeeds hsetup (reliable_batchLoop m)
    (fun epoch => ⟨_, K, hresolve epoch, hK⟩) hcheck horizon r htrainer
  obtain ⟨fit, rfl, -⟩ := hreturns result r' hrun
  exact ⟨fit, r', hrun⟩

def fourSteps : Setup Unit Unit :=
  { config :=
      { maxEpochs := 3, maxSteps := some 4, limitTrainBatches := .batches 5
        valCheckInterval := .batches 5, accumulateGradBatches := 2 } }

/-- The first epoch takes three steps, the last of them for a single batch, so the fourth step comes
with the second batch of the second epoch. -/
theorem run_counts_fourSteps :
    ∃ fit r',
      (run fourSteps (SyntheticModel.batchLoop {} Unit) 6 fun _ => .exact 5 fun _ => ()).runOn
        { trainer := .ofSetup fourSteps (), worker := .ofModel {} } = (.ok (some fit), r') ∧
      fit.epochsCompleted = 2 ∧ fit.stopReason = .maxSteps ∧ fit.progress.globalStep = 4 ∧
      fit.progress.totalBatches = 7 := by
  obtain ⟨hclosed, hreturns⟩ := @run_counts Unit Unit fourSteps {} (fun _ => .exact 5 fun _ => ())
    { trainer := .ofSetup fourSteps (), worker := .ofModel {} } 5 5 6
    rfl rfl rfl (fun _ => ⟨rfl, rfl⟩) (by decide) (by decide) rfl rfl rfl rfl rfl (by decide)
  obtain ⟨fit, r', hrun⟩ := hreturns rfl ⟨_, rfl⟩ ModelHooks.reliable_default nofun
  obtain ⟨_, heq, hform⟩ := hclosed _ _ hrun
  cases heq
  obtain ⟨hepochs, hreason, hsteps, hbatches⟩ :=
    hform.reached 4 2 rfl (by decide) (by decide) (by decide)
  exact ⟨fit, r', hrun, hepochs, hreason, hsteps, hbatches⟩

end FitStep

end TrainingLoop
