import TrainingLoop.Proofs.Run.Fit
/-!
# Where a failed run may be taken up again

A run is taken up again from the counters that it is left with. They are written back in two places:
those of the batches once the training of an epoch is over, and the index of the epoch once its
validation and the tick of the epoch schedules are over too. A failure between the two leaves the
counters of an epoch that counts as not run (`run_resumePoint`).
-/

namespace TrainingLoop

variable {σ W β : Type}

def FitRun.resumePoint (r : FitRun σ W β) : Progress × Nat := (r.progress, r.currentEpoch)

/-- The counters of a run that has pulled batches of one epoch since they were those given. -/
structure EpochRun.CountsFrom (start : Progress) (r : EpochRun σ W β) : Prop where
  total : r.progress.totalBatches = start.totalBatches + r.counters.batchesSeen
  untouched : r.counters.batchesSeen = 0 → r.progress = start

namespace EpochStep

variable {setup : Setup W β} {loop : BatchLoop σ β} {start : Progress} {r r' : EpochRun σ W β}

theorem advance_countsFrom {outcome : Advance} (h : Advanced loop r outcome r')
    (hcounts : r.CountsFrom start) : r'.CountsFrom start := by
  have hpulled (handed : Handed β) (feed : Feed β) :
      (r.pull handed feed).progress.totalBatches =
        start.totalBatches + (r.pull handed feed).counters.batchesSeen := by
    change r.progress.totalBatches + 1 = start.totalBatches + (r.counters.batchesSeen + 1)
    rw [hcounts.total, Nat.add_assoc]
  cases h with
  | exhausted hphase hnext => exact ⟨hcounts.total, hcounts.untouched⟩
  | @skipped feed feed' handed output worker trainer hphase hnext hrun hstops htrainer =>
      exact ⟨hpulled handed feed', fun hzero => absurd hzero (Nat.succ_ne_zero _)⟩
  | @completed feed feed' handed output worker trainer hphase hnext hrun hproceeds htrainer =>
      exact ⟨hpulled handed feed', fun hzero => absurd hzero (Nat.succ_ne_zero _)⟩

/-- An optimizer step changes the counters too, but only after a batch. -/
theorem batch_countsFrom {more : KeptOutputs} {r₁ : EpochRun σ W β}
    (hadvance : (advance setup loop).runOn r = (.ok (.completed more), r₁))
    (hend : (advanceEnd setup loop).runOn r₁ = (.ok (), r')) (hcounts : r.CountsFrom start) :
    r'.CountsFrom start := by
  have hadvanced := advance_ok hadvance
  have htotal := (advance_countsFrom hadvanced hcounts).total
  obtain ⟨t₁, t₂, globalStep, -, -, -, -, rfl⟩ := advanceEnd_parts hend
  refine ⟨htotal, fun hzero => ?_⟩
  cases hadvanced with
  | completed => exact absurd hzero (Nat.succ_ne_zero _)

theorem run_countsFrom {horizon : Nat} {data : Batches β} {outputs : Processed}
    (h : (run setup loop horizon data).runOn r = (.ok (some outputs), r')) :
    r'.CountsFrom r.progress := by
  obtain ⟨kept, r₁, hbatches, hfinish⟩ := run_ok h
  have hstart : (r.start setup data).CountsFrom r.progress := ⟨rfl, fun _ => rfl⟩
  have hrule := batches_ok (n := 0) (I := fun _ r₀ _ => r₀.CountsFrom r.progress)
    (fun _ _ _ _ _ _ hcounts _ hadvance hend => batch_countsFrom hadvance hend hcounts)
    hstart hbatches
  have hended : r₁.CountsFrom r.progress := by
    obtain ⟨-, -, r₀, -, hcounts, hends⟩ | ⟨-, hnone, -⟩ := hrule
    · cases hends with
      | done hdone => exact hcounts
      | skipped hgoes hskipped => exact advance_countsFrom (advance_ok hskipped) hcounts
      | exhausted hgoes hexhausted => exact advance_countsFrom (advance_ok hexhausted) hcounts
    · cases hnone
  obtain ⟨-, trainer, -, -, rfl⟩ := finish_ok hfinish
  exact ⟨hended.total, hended.untouched⟩

end EpochStep

namespace FitStep

open Stateful

variable {setup : Setup W β} {loop : BatchLoop σ β} {horizon : Nat} {data : Nat → Batches β}
  {r r' : FitRun σ W β}

/-! ## The two parts of an epoch -/

def trainEpoch (setup : Setup W β) (loop : BatchLoop σ β) (horizon : Nat) (data : Nat → Batches β) :
    FitStep σ W β (Option (Processed × EpochCounters)) := do
  modify FitRun.enterEpoch
  let batches := data (← get).currentEpoch
  onTrainer <| TrainerStep.resolveCounts setup batches.knownLength
  let r ← get
  onTrainer <| TrainerStep.call setup .trainEpochStart (r.trainer.context setup r.progress 0 none)
  epoch setup loop horizon batches

theorem nextEpoch_eq (setup : Setup W β) (loop : BatchLoop σ β) (horizon : Nat)
    (data : Nat → Batches β) :
    nextEpoch setup loop horizon data = (do
      match ← trainEpoch setup loop horizon data with
      | none => pure none
      | some (outputs, counters) =>
        closeEpoch setup counters
        pure (some outputs)) := by
  conv => rhs; simp only [trainEpoch, bind_assoc]
  rfl

theorem trainEpoch_error {e : Error}
    (h : (trainEpoch setup loop horizon data).runOn r = (.error e, r')) :
    r'.resumePoint = r.resumePoint := by
  simp only [trainEpoch, runOn_modify_bind, runOn_get_bind] at h
  rcases bind_runs h with ⟨_, h₁, -⟩ | ⟨_, r₁, h₁, hrest₁⟩
  · obtain ⟨t₁, -, rfl⟩ := onPart_runs h₁
    rfl
  obtain ⟨t₁, -, rfl⟩ := onPart_runs h₁
  rw [runOn_get_bind] at hrest₁
  rcases bind_runs hrest₁ with ⟨_, h₂, -⟩ | ⟨_, r₂, h₂, hepoch⟩
  · obtain ⟨t₂, -, rfl⟩ := onPart_runs h₂
    rfl
  obtain ⟨t₂, -, rfl⟩ := onPart_runs h₂
  obtain ⟨e', -, rfl⟩ := epoch_error hepoch
  rfl

theorem trainEpoch_ok {outputs : Processed} {counters : EpochCounters}
    (h : (trainEpoch setup loop horizon data).runOn r = (.ok (some (outputs, counters)), r')) :
    r'.currentEpoch = r.currentEpoch ∧
      r'.progress.totalBatches = r.progress.totalBatches + counters.batchesSeen ∧
      (counters.batchesSeen = 0 → r'.progress = r.progress) := by
  simp only [trainEpoch, runOn_modify_bind, runOn_get_bind] at h
  obtain ⟨_, r₁, h₁, hrest₁⟩ := bind_ok h
  obtain ⟨t₁, -, rfl⟩ := onPart_ok h₁
  rw [runOn_get_bind] at hrest₁
  obtain ⟨_, r₂, h₂, hepoch⟩ := bind_ok hrest₁
  obtain ⟨t₂, -, rfl⟩ := onPart_ok h₂
  obtain ⟨result, e, hrun, hran, -, hsome⟩ := epoch_ok hepoch
  cases result with
  | none => cases hran
  | some _ =>
      cases hran
      obtain rfl := hsome rfl
      have hcounts := EpochStep.run_countsFrom hrun
      exact ⟨rfl, hcounts.total, hcounts.untouched⟩

theorem closeEpoch_error {counters : EpochCounters} {e : Error}
    (h : (closeEpoch setup counters).runOn r = (.error e, r')) :
    r'.resumePoint = r.resumePoint := by
  refine Prod.ext (closeEpoch_progress h) ?_
  rw [closeEpoch] at h
  rcases bind_runs h with ⟨_, h₁, -⟩ | ⟨_, r₁, h₁, hrest⟩
  · simp only [evaluateEpoch, runOn_get_bind] at h₁
    split at h₁
    · obtain ⟨t₁, -, rfl⟩ := onPart_runs h₁
      rfl
    · cases h₁
  obtain ⟨t₁, rfl, -⟩ := evaluateEpoch_ok h₁
  rcases bind_runs hrest with ⟨_, h₂, -⟩ | ⟨_, r₂, h₂, hlast⟩
  · obtain ⟨t₂, -, rfl⟩ := onPart_runs h₂
    rfl
  · cases hlast

theorem nextEpoch_error {e : Error}
    (h : (nextEpoch setup loop horizon data).runOn r = (.error e, r')) :
    (trainEpoch setup loop horizon data).runOn r = (.error e, r') ∨
      ∃ outputs counters trained,
        (trainEpoch setup loop horizon data).runOn r = (.ok (some (outputs, counters)), trained) ∧
        (closeEpoch setup counters).runOn trained = (.error e, r') := by
  rw [nextEpoch_eq] at h
  rcases bind_runs h with ⟨_, htrain, hsame⟩ | ⟨ran, trained, htrain, hrest⟩
  · cases hsame
    exact .inl htrain
  match ran with
  | none => cases hrest
  | some (outputs, counters) =>
      rcases bind_runs hrest with ⟨_, hclose, hsame⟩ | ⟨_, r₁, -, hlast⟩
      · cases hsame
        exact .inr ⟨outputs, counters, trained, htrain, hclose⟩
      · cases hlast

/-! ## A run that fails -/

/-- What a failing epoch leaves of the counters: where its training was over, those after its
training; otherwise those before the epoch. The index of the epoch stays. -/
theorem nextEpoch_resumePoint {e : Error}
    (h : (nextEpoch setup loop horizon data).runOn r = (.error e, r')) :
    r'.currentEpoch = r.currentEpoch ∧
      (r'.resumePoint = r.resumePoint ↔ ∀ outputs counters trained,
        (trainEpoch setup loop horizon data).runOn r = (.ok (some (outputs, counters)), trained) →
        counters.batchesSeen = 0) ∧
      ∀ outputs counters trained,
        (trainEpoch setup loop horizon data).runOn r = (.ok (some (outputs, counters)), trained) →
        r'.progress = trained.progress ∧
          r'.progress.totalBatches = r.progress.totalBatches + counters.batchesSeen := by
  rcases nextEpoch_error h with htrain | ⟨outputs, counters, trained, htrain, hclose⟩
  · have hsame := trainEpoch_error htrain
    have hnever (ran : Processed × EpochCounters) (trained : FitRun σ W β) :
        (trainEpoch setup loop horizon data).runOn r ≠ (.ok (some ran), trained) := by
      simp [htrain]
    exact ⟨congrArg Prod.snd hsame,
      ⟨fun _ outputs counters trained hok => absurd hok (hnever _ _), fun _ => hsame⟩,
      fun outputs counters trained hok => absurd hok (hnever _ _)⟩
  · obtain ⟨hepoch, htotal, huntouched⟩ := trainEpoch_ok htrain
    have hclosed := closeEpoch_error hclose
    have hprogress : r'.progress = trained.progress := congrArg Prod.fst hclosed
    have hcurrent : r'.currentEpoch = r.currentEpoch := (congrArg Prod.snd hclosed).trans hepoch
    -- There is one way only for the training to end.
    have hunique {outputs' : Processed} {counters' : EpochCounters} {trained' : FitRun σ W β}
        (h' : (trainEpoch setup loop horizon data).runOn r =
          (.ok (some (outputs', counters')), trained')) :
        counters' = counters ∧ trained' = trained := by
      rw [htrain] at h'
      cases h'
      exact ⟨rfl, rfl⟩
    refine ⟨hcurrent, ⟨?_, ?_⟩, ?_⟩
    · intro hsame outputs' counters' trained' htrain'
      obtain ⟨rfl, rfl⟩ := hunique htrain'
      have hnothing : r'.progress = r.progress := congrArg Prod.fst hsame
      rw [← hprogress, hnothing] at htotal
      omega
    · intro hempty
      have hnothing := huntouched (hempty outputs counters trained htrain)
      exact Prod.ext (hprogress.trans hnothing) hcurrent
    · intro outputs' counters' trained' htrain'
      obtain ⟨rfl, rfl⟩ := hunique htrain'
      exact ⟨hprogress, by rw [hprogress, htotal]⟩

/-- The point from which a failed run may be taken up again. Before its first epoch it is where the
run began. Otherwise its epoch is the one that failed, after the completed ones, and its progress is
that at the end of the last completed one, unless the failing epoch had pulled batches and got
through its training: then the progress counts all batches of that epoch as well. -/
theorem run_resumePoint {e : Error} (h : (run setup loop horizon data).runOn r = (.error e, r')) :
    r'.resumePoint = r.resumePoint ∧
        (setup.config.check = .error e ∨
          ((loop.setAccumulation setup.config.accumulateGradBatches).runOn r.worker).1 =
            .error e) ∨
      ∃ worker r₁ completed,
        (loop.setAccumulation setup.config.accumulateGradBatches).runOn r.worker =
          (.ok (), worker) ∧
        Ran setup loop horizon data (begun setup worker r) {} r₁ completed ∧
        (nextEpoch setup loop horizon data).runOn (r₁.declineStop setup.config) = (.error e, r') ∧
        r₁.currentEpoch = r.currentEpoch + completed.epochs ∧
        r'.currentEpoch = r₁.currentEpoch ∧
        (r'.resumePoint = r₁.resumePoint ↔ ∀ outputs counters trained,
          (trainEpoch setup loop horizon data).runOn (r₁.declineStop setup.config) =
            (.ok (some (outputs, counters)), trained) → counters.batchesSeen = 0) ∧
        ∀ outputs counters trained,
          (trainEpoch setup loop horizon data).runOn (r₁.declineStop setup.config) =
            (.ok (some (outputs, counters)), trained) →
          r'.progress = trained.progress ∧
            r'.progress.totalBatches = r₁.progress.totalBatches + counters.batchesSeen := by
  cases run_ended h with
  | refused hcheck => exact .inl ⟨rfl, .inl hcheck⟩
  | unset hcheck hset => exact .inl ⟨rfl, .inr (by rw [hset])⟩
  | @halted worker r₁ r₂ _ completed ended _ hcheck hset hran hhalts hreports =>
      match ended with
      | .ok none => cases hreports.1
      | .ok (some _) => cases hreports.2
      | .error _ =>
          obtain ⟨hsame, rfl⟩ := hreports
          cases hsame
          cases hhalts with
          | failed hgoes hepoch =>
              have hindex : r₁.currentEpoch + 0 = r.currentEpoch + completed.epochs :=
                hran.currentEpoch
              obtain ⟨hcurrent, hpoint, hahead⟩ := nextEpoch_resumePoint hepoch
              rw [FitRun.resumePoint, FitRun.resumePoint, declineStop_progress,
                declineStop_currentEpoch] at hpoint
              rw [declineStop_progress] at hahead
              exact .inr ⟨worker, r₁, completed, hset, hran, hepoch, hindex,
                hcurrent.trans (declineStop_currentEpoch _ _), hpoint, hahead⟩

def stumbling : BatchLoop Nat Unit :=
  { run := fun _ _ _ => do
      if (← get) = 2 then throw (.misconfiguration (.stated "out of memory"))
      modify Nat.succ
      pure (.ofResults [])
    closedWindow := fun _ => true }

/-- A failure in the second epoch leaves the counters of the first. -/
theorem run_resumePoint_stumbling :
    ∃ (e : Error) (r' r₁ : FitRun Nat Unit Unit) (worker : Nat) (completed : Completed),
      (run { config := {} } stumbling 3 fun _ => .exact 2 fun _ => ()).runOn
        { trainer := .ofSetup { config := {} } (), worker := 0 } = (.error e, r') ∧
      Ran { config := {} } stumbling 3 (fun _ => .exact 2 fun _ => ())
        (begun { config := {} } worker { trainer := .ofSetup { config := {} } (), worker := 0 }) {}
        r₁ completed ∧
      completed.epochs = 1 ∧ r'.resumePoint = (⟨2, 2⟩, 1) := by
  let start : FitRun Nat Unit Unit := { trainer := .ofSetup { config := {} } (), worker := 0 }
  have hfails : ((run { config := {} } stumbling 3 fun _ => .exact 2 fun _ => ()).runOn
      start).1.toOption.isNone = true := by
    decide +kernel
  have hpoint : ((run { config := {} } stumbling 3 fun _ => .exact 2 fun _ => ()).runOn
      start).2.resumePoint = (⟨2, 2⟩, 1) := by
    decide +kernel
  obtain ⟨e, hrun⟩ := error_of_isNone hfails
  rcases run_resumePoint hrun with
    ⟨hunmoved, -⟩ | ⟨worker, r₁, completed, -, hran, -, hindex, hcurrent, -⟩
  · rw [hpoint] at hunmoved
    cases hunmoved
  · have hone := congrArg Prod.snd hpoint
    rw [FitRun.resumePoint, hcurrent, hindex] at hone
    exact ⟨e, _, r₁, worker, completed, hrun, hran, (Nat.zero_add _).symm.trans hone, hpoint⟩

def unvalidated : Setup Unit Unit :=
  { config := {}
    evaluator := some fun _ _ => throw (.misconfiguration (.stated "out of memory")) }

/-- A failing validation leaves the run in its first epoch, with all batches of that epoch counted
already. -/
theorem run_unvalidated_ahead :
    ∃ (e : Error) (r' : FitRun Unit Unit Unit),
      (run unvalidated idle 3 fun _ => .exact 2 fun _ => ()).runOn
        { trainer := .ofSetup unvalidated (), worker := () } = (.error e, r') ∧
      r'.currentEpoch = 0 ∧ r'.progress = ⟨2, 2⟩ := by
  let start : FitRun Unit Unit Unit := { trainer := .ofSetup unvalidated (), worker := () }
  have hfails : ((run unvalidated idle 3 fun _ => .exact 2 fun _ => ()).runOn
      start).1.toOption.isNone = true := by
    decide +kernel
  have hpoint : ((run unvalidated idle 3 fun _ => .exact 2 fun _ => ()).runOn
      start).2.resumePoint = (⟨2, 2⟩, 0) := by
    decide +kernel
  obtain ⟨e, hrun⟩ := error_of_isNone hfails
  exact ⟨e, _, hrun, congrArg Prod.snd hpoint, congrArg Prod.fst hpoint⟩

end FitStep

end TrainingLoop
