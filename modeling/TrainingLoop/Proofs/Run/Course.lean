import TrainingLoop.Proofs.Run.Reliable
import TrainingLoop.Proofs.Run.Synthetic
/-!
# The course of a synthetic epoch

Where nothing fails and nobody asks for a stop, the counters of a synthetic epoch depend on its data,
its settings and the counters with which it starts, and on nothing else: not on the losses, on the
trainer, or on what the batch loop did before. `EpochCourse.ends` is that dependence as a function,
and `EpochStep.run_course` is the theorem.
-/

namespace TrainingLoop

variable {W β : Type}

/-- What decides how the counters of an epoch go on. -/
structure EpochCourse (β : Type) where
  data : Batches β
  trainingBatches : BatchCount
  /-- Batches to one optimizer step. -/
  window : Nat
  /-- The index of the batch at which the batch loop ends the epoch. -/
  stopAt : Option Nat
  maxSteps : Option Nat

namespace EpochCourse

variable (c : EpochCourse β)

def covered (b : Nat) : Bool :=
  c.trainingBatches.reachedBy b || decide (0 < b) && (c.data.get? b).isNone

def filled (b : Nat) : Bool := decide (0 < b ∧ c.window ∣ b)

def bounded (globalStep : Nat) : Bool :=
  match c.maxSteps with
  | none => false
  | some most => most ≤ globalStep

def complete (b : Nat) (p : Progress) : Bool := c.bounded p.globalStep && c.filled b || c.covered b

def next (b : Nat) (p : Progress) : Progress :=
  ⟨p.globalStep + if c.filled b || c.covered b then 1 else 0, p.totalBatches + 1⟩

/-- The counters at the end of an epoch that has completed so many batches, unless it passes the
horizon. -/
def ends : (horizon : Nat) → (b : Nat) → Progress → Option Progress
  | 0, _, _ => none
  | horizon + 1, b, p =>
    if c.complete b p || (c.data.get? b).isNone then some p
    else if c.stopAt = some b then some { p with totalBatches := p.totalBatches + 1 }
    else ends horizon (b + 1) (c.next (b + 1) p)

theorem ends_isSome {c : EpochCourse β} {horizon b limit : Nat} {p : Progress}
    (hlimit : c.trainingBatches = .finite limit) (hb : b ≤ limit) (hhorizon : limit < b + horizon) :
    (c.ends horizon b p).isSome := by
  induction horizon generalizing b p with
  | zero => omega
  | succ horizon ih =>
      unfold ends
      split
      · rfl
      · rename_i hgoes
        split
        · rfl
        · have hlt : b < limit := by
            by_contra hreached
            have hcovered : c.covered b = true := by
              rw [covered, hlimit, BatchCount.reachedBy, decide_eq_true (by omega), Bool.true_or]
            simp [complete, hcovered] at hgoes
          exact ih (by omega) (by omega)

end EpochCourse

/-! ## One epoch -/

/-- A trainer without callbacks that nobody asked to stop, and in which nothing can fail. -/
structure Trainer.Alone (t : Trainer W β) : Prop where
  callbacks : t.callbacks = []
  shouldStop : t.state.shouldStop = false
  reliable : t.Reliable

theorem Trainer.Alone.follows {P : RunEvent β → Prop} {t t' : Trainer W β} (h : t.Alone)
    (hfollows : Follows P t t') (hreliable : t'.Reliable) : t'.Alone := by
  obtain ⟨hcallbacks, hstop⟩ := hfollows.uncalled h.callbacks
  exact ⟨hcallbacks, hstop.trans h.shouldStop, hreliable⟩

structure EpochRun.On (c : EpochCourse β) (b : Nat) (p : Progress)
    (r : EpochRun SyntheticWorker W β) : Prop where
  batch : r.AtBatch c.data b
  progress : r.progress = p
  worker : r.worker.At c.window b
  trainer : r.trainer.Alone
  trainingBatches : r.trainer.state.trainingBatches = c.trainingBatches
  maxSteps : r.counters.maxSteps = c.maxSteps
  skipRemaining : r.counters.skipRemaining = false
  /-- What the batch loop did before the epoch must not end it. -/
  first : b = 0 → r.counters.isLastBatch = false ∧ c.bounded p.globalStep = false

structure EpochRun.Over (c : EpochCourse β) (p : Progress) (r : EpochRun SyntheticWorker W β) :
    Prop where
  progress : r.progress = p
  window : r.worker.window = c.window
  trainer : r.trainer.Alone

namespace EpochStep

open EpochRun Trainer

section

variable {setup : Setup W β} {m : SyntheticModel} {c : EpochCourse β} {b : Nat} {p : Progress}
  {r r₁ r₂ : EpochRun SyntheticWorker W β}

theorem allBatchesSeen_course (h : r.On c b p) : r.allBatchesSeen = c.covered b := by
  have hlast : r.counters.isLastBatch = (decide (0 < b) && (c.data.get? b).isNone) := by
    by_cases hpos : 0 < b
    · rw [(h.batch.last hpos).2, decide_eq_true hpos, Bool.true_and]
    · rw [(h.first (by omega)).1, decide_eq_false hpos, Bool.false_and]
  rw [allBatchesSeen, EpochCourse.covered, h.trainingBatches, h.batch.seen, hlast]

theorem closedWindow_course (hpos : 0 < b) (h : r.worker.At c.window b) :
    r.worker.closedWindow = c.filled b := by
  rw [Bool.eq_iff_iff, SyntheticWorker.closedWindow_iff h hpos, EpochCourse.filled,
    decide_eq_true_iff]
  exact ⟨fun hdvd => ⟨hpos, hdvd⟩, And.right⟩

theorem isDone_course (h : r.On c b p) : r.isDone (m.batchLoop β) = c.complete b p := by
  obtain ⟨feed, hphase, -⟩ := h.batch.feed
  have hbounded : r.counters.maxStepsReached r.progress.globalStep = c.bounded p.globalStep := by
    unfold EpochCounters.maxStepsReached EpochCourse.bounded
    rw [h.maxSteps]
    cases c.maxSteps with
    | none => rfl
    | some most => exact congrArg (fun p => decide (most ≤ Progress.globalStep p)) h.progress
  -- Before its first batch the window that the batch loop has closed is one of an earlier epoch.
  have hwindow : (c.bounded p.globalStep && r.worker.closedWindow) =
      (c.bounded p.globalStep && c.filled b) := by
    by_cases hpos : 0 < b
    · rw [closedWindow_course hpos h.worker]
    · rw [(h.first (by omega)).2, Bool.false_and, Bool.false_and]
  rw [isDone, hphase, h.skipRemaining, hbounded, h.trainer.shouldStop, allBatchesSeen_course h,
    EpochCourse.complete, ← hwindow]
  simp [EpochPhase.isDone, SyntheticModel.batchLoop]

theorem pull_course (h : r.On c b p) {feed feed' : Feed β} {handed : Handed β}
    (hphase : r.phase = .running feed) (hnext : feed.next = (some handed, feed')) :
    handed.index = b ∧ (c.data.get? b).isSome ∧ (r.pull handed feed').AtBatch c.data (b + 1) := by
  obtain ⟨hindex, hpulled⟩ := pull_at h.batch hphase hnext
  obtain ⟨feed₀, hfeed₀, hat⟩ := h.batch.feed
  rw [hphase] at hfeed₀
  cases hfeed₀
  obtain ⟨-, hget, -⟩ := Feed.of_next hat hnext
  exact ⟨hindex, by rw [hget]; rfl, hpulled⟩

theorem advance_course (hsetup : setup.Reliable) (h : r.On c b p)
    (hstop : c.stopAt = m.stopEpochAt) :
    ∃ outcome r₁, (advance setup (m.batchLoop β)).runOn r = (.ok outcome, r₁) ∧
      match outcome with
      | .exhausted => (c.data.get? b).isNone ∧ r₁.Over c p
      | .skipped => (c.data.get? b).isSome ∧ c.stopAt = some b ∧
          r₁.Over c { p with totalBatches := p.totalBatches + 1 }
      | .completed _ => (c.data.get? b).isSome ∧ c.stopAt ≠ some b ∧
          r₁.On c (b + 1) { p with totalBatches := p.totalBatches + 1 } := by
  obtain ⟨feed, hfeed, hat⟩ := h.batch.feed
  obtain ⟨outcome, r₁, hadvance, hsound⟩ := advance_succeeds hsetup (reliable_batchLoop m)
    h.trainer.reliable hfeed
  refine ⟨outcome, r₁, hadvance, ?_⟩
  have hadvanced := advance_ok hadvance
  have halone : r₁.trainer.Alone := h.trainer.follows (advance_follows hadvanced) hsound
  cases hadvanced with
  | exhausted hphase hnext =>
      rw [hfeed] at hphase
      cases hphase
      rw [Feed.eq_none_of_next hat hnext]
      exact ⟨rfl, h.progress, h.worker.window, halone⟩
  | @skipped feed feed' handed output worker trainer hphase hnext hrun hstops htrainer =>
      obtain ⟨hindex, hsome, -⟩ := pull_course h hphase hnext
      rw [hindex] at hrun
      obtain ⟨hends, hgoes⟩ := SyntheticWorker.run_ok h.worker hrun
      have hstopAt : m.stopEpochAt = some b := by
        by_contra hnot
        rw [(hgoes hnot).1] at hstops
        cases hstops
      obtain ⟨-, rfl⟩ := hends hstopAt
      refine ⟨hsome, hstop.trans hstopAt, ?_, h.worker.window, halone⟩
      rw [← h.progress]
      rfl
  | @completed feed feed' handed output worker trainer hphase hnext hrun hproceeds htrainer =>
      obtain ⟨hindex, hsome, hpulled⟩ := pull_course h hphase hnext
      rw [hindex] at hrun
      obtain ⟨hends, hgoes⟩ := SyntheticWorker.run_ok h.worker hrun
      have hnostop : m.stopEpochAt ≠ some b := by
        intro hstopAt
        rw [(hends hstopAt).1] at hproceeds
        cases hproceeds
      refine ⟨hsome, hstop ▸ hnostop, ?_⟩
      exact
        { batch := ⟨⟨hpulled.seen, hpulled.last, hpulled.within⟩, hpulled.feed⟩
          progress := by
            rw [← h.progress]
            rfl
          worker := (hgoes hnostop).2
          trainer := halone
          trainingBatches := htrainer.trainingBatches.trans h.trainingBatches
          maxSteps := h.maxSteps
          skipRemaining := h.skipRemaining
          first := fun hzero => absurd hzero (Nat.succ_ne_zero b) }

/-- What follows a completed batch takes the optimizer step of the course, if there is one. -/
theorem advanceEnd_course (hsetup : setup.Reliable) (hcounts : setup.accelerator.CountsSteps)
    (h : r.On c (b + 1) { p with totalBatches := p.totalBatches + 1 }) :
    ∃ r₁, (advanceEnd setup (m.batchLoop β)).runOn r = (.ok (), r₁) ∧
      r₁.On c (b + 1) (c.next (b + 1) p) := by
  obtain ⟨_, r₁, hend, hsound⟩ := advanceEnd_succeeds hsetup (m.batchLoop β) r h.trainer.reliable
  refine ⟨r₁, hend, ?_⟩
  have hfollows := advanceEnd_follows hend
  have hglobal := advanceEnd_globalStep hcounts hend
  obtain ⟨t₁, t₂, globalStep, -, -, -, -, rfl⟩ := advanceEnd_parts hend
  have hboundary : r.atStepBoundary (m.batchLoop β) = (c.filled (b + 1) || c.covered (b + 1)) := by
    rw [atStepBoundary, allBatchesSeen_course h]
    congr 1
    exact closedWindow_course (Nat.succ_pos b) h.worker
  exact
    { batch := ⟨⟨h.batch.seen, h.batch.last, h.batch.within⟩, h.batch.feed⟩
      progress := by
        rw [hboundary, h.progress] at hglobal
        rw [h.progress, EpochCourse.next]
        exact congrArg (Progress.mk · _) hglobal
      worker := h.worker
      trainer := h.trainer.follows hfollows hsound
      trainingBatches := hfollows.trainingBatches.trans h.trainingBatches
      maxSteps := h.maxSteps
      skipRemaining := h.skipRemaining
      first := fun hzero => absurd hzero (Nat.succ_ne_zero b) }

theorem batches_course (horizon : Nat) (hsetup : setup.Reliable)
    (hcounts : setup.accelerator.CountsSteps) (hstop : c.stopAt = m.stopEpochAt)
    (kept : KeptOutputs) (h : r.On c b p) :
    ∃ result r₁, (batches setup (m.batchLoop β) horizon kept).runOn r = (.ok result, r₁) ∧
      match c.ends horizon b p with
      | none => result = none
      | some ended => result.isSome ∧ r₁.Over c ended := by
  induction horizon generalizing b p r kept with
  | zero => exact ⟨none, r, rfl, rfl⟩
  | succ horizon ih =>
      have hover : r.Over c p := ⟨h.progress, h.worker.window, h.trainer⟩
      simp only [batches, Stateful.runOn_get_bind, isDone_course h]
      by_cases hdone : c.complete b p = true
      · rw [if_pos hdone, EpochCourse.ends, hdone, Bool.true_or, if_pos rfl]
        exact ⟨some kept, r, rfl, rfl, hover⟩
      obtain ⟨outcome, r₁, hadvance, houtcome⟩ := advance_course hsetup h hstop
      rw [if_neg hdone, EpochCourse.ends, Stateful.runOn_bind, hadvance]
      rw [Bool.not_eq_true] at hdone
      rw [hdone, Bool.false_or]
      cases outcome with
      | exhausted =>
          obtain ⟨hnone, hover₁⟩ := houtcome
          rw [if_pos hnone]
          exact ⟨some kept, r₁, rfl, rfl, hover₁⟩
      | skipped =>
          obtain ⟨hsome, hstopAt, hover₁⟩ := houtcome
          rw [if_neg (by simp [Option.isSome_iff_ne_none.1 hsome]), if_pos hstopAt]
          exact ⟨some kept, r₁, rfl, rfl, hover₁⟩
      | completed more =>
          obtain ⟨hsome, hnostop, hon⟩ := houtcome
          obtain ⟨r₂, hend, hon₂⟩ := advanceEnd_course (m := m) hsetup hcounts hon
          rw [if_neg (by simp [Option.isSome_iff_ne_none.1 hsome]), if_neg hnostop]
          dsimp only
          rw [Stateful.runOn_bind, hend]
          exact ih _ hon₂

/-- A synthetic epoch follows its course: it ends with the counters of the course, whatever the
trainer and the batch loop were before, or passes the horizon with it. -/
theorem run_course (m : SyntheticModel) (horizon : Nat) (data : Batches β)
    (hsetup : setup.Reliable) (haccelerator : setup.accelerator = {}) (htrainer : r.trainer.Alone)
    (hbelow : ∀ most, r.counters.maxSteps = some most → r.progress.globalStep < most) :
    ∃ result r₁, (run setup (m.batchLoop β) horizon data).runOn r = (.ok result, r₁) ∧
      match EpochCourse.ends ⟨data, r.trainer.state.trainingBatches, r.worker.window, m.stopEpochAt,
        r.counters.maxSteps⟩ horizon 0 r.progress with
      | none => result = none
      | some ended => result.isSome ∧ r₁.progress = ended ∧
          r₁.worker.window = r.worker.window ∧ r₁.trainer.Alone := by
  have hcounts : setup.accelerator.CountsSteps := by
    rw [haccelerator]
    exact Accelerator.countsSteps_default
  have hprepared : (setup.accelerator.prepare data r.trainer.world).1 = data := by
    rw [haccelerator]
  have hstart : (r.start setup data).On
      ⟨data, r.trainer.state.trainingBatches, r.worker.window, m.stopEpochAt, r.counters.maxSteps⟩ 0
      r.progress :=
    { batch := by
        have hat := start_at setup data r
        rwa [hprepared] at hat
      progress := rfl
      worker := ⟨rfl, fun hpos => absurd hpos (Nat.lt_irrefl 0)⟩
      trainer := ⟨htrainer.callbacks, htrainer.shouldStop, htrainer.reliable.of_eq rfl rfl⟩
      trainingBatches := rfl
      maxSteps := rfl
      skipRemaining := rfl
      first := fun _ => by
        refine ⟨rfl, ?_⟩
        unfold EpochCourse.bounded
        split
        · rfl
        · exact decide_eq_false (Nat.not_le.2 (hbelow _ ‹_›)) }
  obtain ⟨result, r₁, hbatches, hends⟩ :=
    batches_course horizon hsetup hcounts rfl .empty hstart
  simp only [run, Stateful.runOn_modify_bind]
  rw [Stateful.runOn_bind, hbatches]
  split at hends
  · subst hends
    exact ⟨none, r₁, rfl, rfl⟩
  · obtain ⟨hsome, hover⟩ := hends
    obtain ⟨kept, rfl⟩ := Option.isSome_iff_exists.1 hsome
    obtain ⟨outputs, r₂, hfinish, hsound⟩ := finish_succeeds hsetup kept r₁ hover.trainer.reliable
    obtain ⟨-, trainer, hhooks, -, rfl⟩ := finish_ok hfinish
    have halone : trainer.Alone := hover.trainer.follows hhooks hsound
    refine ⟨some outputs, { r₁ with trainer, phase := .done }, ?_, rfl, hover.progress,
      hover.window, halone⟩
    dsimp only
    rw [map_eq_pure_bind, Stateful.runOn_bind, hfinish]
    rfl

end

end EpochStep

end TrainingLoop
