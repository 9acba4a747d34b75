import TrainingLoop.Proofs.Run.Epoch
import TrainingLoop.Run.Fit
/-!
# What the steps of a run do

The parts of an epoch within a run (`nextEpoch_begins`, `closeEpoch_ok`), the rule by which a
property of all epochs follows from one of a single epoch (`Ran.preserves`), and the parts of a run
(`run_begins`).
-/

namespace TrainingLoop

variable {σ W β : Type}

/-! ## Why a run ends -/

namespace FitRun

variable {config : Config} {r : FitRun σ W β}

theorem limitReached?_eq_none : r.limitReached? config = none ↔
    r.currentEpoch < config.maxEpochs ∧
      ∀ most, config.maxSteps = some most → r.progress.globalStep < most := by
  unfold limitReached?
  by_cases hall : config.maxEpochs ≤ r.currentEpoch
  · rw [if_pos hall]
    exact ⟨nofun, fun h => absurd h.1 (Nat.not_lt.2 hall)⟩
  · rw [if_neg hall]
    cases config.maxSteps with
    | none => simp [Nat.not_le.1 hall]
    | some most => simp [Nat.not_le.1 hall]

theorem of_limitReached? {reason : StopReason} (h : r.limitReached? config = some reason) :
    (config.maxEpochs ≤ r.currentEpoch ∧ reason = .maxEpochs) ∨
      ∃ most, config.maxSteps = some most ∧ most ≤ r.progress.globalStep ∧ reason = .maxSteps := by
  unfold limitReached? at h
  split at h
  · cases h
    exact .inl ⟨‹_›, rfl⟩
  · split at h
    · cases h
    · rename_i most hmost
      split at h
      · cases h
        exact .inr ⟨most, hmost, ‹_›, rfl⟩
      · cases h

theorem mayStop_iff : r.mayStop config = true ↔ config.minEpochs ≤ r.currentEpoch ∧
    ∀ least, config.minSteps = some least → least ≤ r.progress.globalStep := by
  unfold mayStop
  cases config.minSteps <;> simp

/-- A run goes on as long as no bound is reached and no stop request is due. -/
theorem stopReason?_eq_none : r.stopReason? config = none ↔
    r.limitReached? config = none ∧
      ¬ (r.trainer.state.shouldStop = true ∧ r.mayStop config = true) := by
  rw [stopReason?, Option.or_eq_none_iff, ← Bool.and_eq_true_iff, ite_eq_right_iff]
  simp

theorem of_stopReason? {reason : StopReason} (h : r.stopReason? config = some reason) :
    r.limitReached? config = some reason ∨
      (reason = .requested ∧ r.trainer.state.shouldStop = true ∧ r.mayStop config = true) := by
  unfold stopReason? at h
  cases hlimit : r.limitReached? config with
  | some bound =>
      rw [hlimit, Option.some_or] at h
      exact .inl h
  | none =>
      rw [hlimit, Option.none_or] at h
      split at h
      · cases h
        exact .inr ⟨rfl, Bool.and_eq_true_iff.1 ‹_›⟩
      · cases h

theorem of_requested (h : r.stopReason? config = some .requested) :
    r.trainer.state.shouldStop = true ∧ r.mayStop config = true := by
  rcases of_stopReason? h with hlimit | ⟨-, hends⟩
  · rcases of_limitReached? hlimit with ⟨-, hother⟩ | ⟨_, _, _, hother⟩
    · cases hother
    · cases hother
  · exact hends

theorem of_maxSteps (h : r.stopReason? config = some .maxSteps) :
    ∃ most, config.maxSteps = some most ∧ most ≤ r.progress.globalStep := by
  rcases of_stopReason? h with hlimit | ⟨hother, -⟩
  · rcases of_limitReached? hlimit with ⟨-, hother⟩ | ⟨most, hmost, hreached, -⟩
    · cases hother
    · exact ⟨most, hmost, hreached⟩
  · cases hother

end FitRun

namespace FitStep

open Trainer Stateful

/-! ## One epoch -/

theorem epoch_ok {setup : Setup W β} {loop : BatchLoop σ β} {horizon : Nat} {data : Batches β}
    {r r' : FitRun σ W β} {ran : Option (Processed × EpochCounters)}
    (h : (epoch setup loop horizon data).runOn r = (.ok ran, r')) :
    ∃ result e, (EpochStep.run setup loop horizon data).runOn (r.epochRun setup.config) =
        (.ok result, e) ∧
      ran = result.map (fun outputs => (outputs, e.counters)) ∧
      (result = none → r' = { r with trainer := e.trainer, worker := e.worker }) ∧
      (result.isSome →
        r' = { r with trainer := e.trainer, worker := e.worker, progress := e.progress }) := by
  rw [epoch, runOn_of] at h
  cases hrun : (EpochStep.run setup loop horizon data).runOn (r.epochRun setup.config) with
  | mk result e =>
      rw [hrun] at h
      cases result with
      | error e => cases h
      | ok outputs? =>
          cases outputs? with
          | none =>
              cases h
              exact ⟨none, e, rfl, rfl, fun _ => rfl, nofun⟩
          | some outputs =>
              cases h
              exact ⟨some outputs, e, rfl, rfl, nofun, fun _ => rfl⟩

theorem epoch_error {setup : Setup W β} {loop : BatchLoop σ β} {horizon : Nat} {data : Batches β}
    {r r' : FitRun σ W β} {error : Error}
    (h : (epoch setup loop horizon data).runOn r = (.error error, r')) :
    ∃ e, (EpochStep.run setup loop horizon data).runOn (r.epochRun setup.config) =
        (.error error, e) ∧ r' = { r with trainer := e.trainer, worker := e.worker } := by
  rw [epoch, runOn_of] at h
  cases hrun : (EpochStep.run setup loop horizon data).runOn (r.epochRun setup.config) with
  | mk result e =>
      rw [hrun] at h
      match result with
      | .error _ =>
          cases h
          exact ⟨e, rfl, rfl⟩
      | .ok none => cases h
      | .ok (some _) => cases h

theorem evaluateEpoch_ok {setup : Setup W β} {counters : EpochCounters} {r r' : FitRun σ W β}
    (h : (evaluateEpoch setup counters).runOn r = (.ok (), r')) :
    ∃ trainer, r' = { r with trainer } ∧ Follows RunEvent.IsValidation r.trainer trainer ∧
      (r.dueForValidation setup counters = true →
        (TrainerStep.evaluate setup r.progress).runOn r.trainer = (.ok (), trainer)) ∧
      (r.dueForValidation setup counters = false → trainer = r.trainer) := by
  simp only [evaluateEpoch, runOn_get_bind] at h
  obtain ⟨trainer, rfl, hdue, hnot⟩ := onPart_due_ok rfl h
  exact ⟨trainer, rfl, TrainerStep.evaluate_follows hdue hnot, hdue, hnot⟩

theorem closeEpoch_ok {setup : Setup W β} {counters : EpochCounters} {r r' : FitRun σ W β}
    (h : (closeEpoch setup counters).runOn r = (.ok (), r')) :
    ∃ t₁ t₂ : Trainer W β,
      (evaluateEpoch setup counters).runOn r = (.ok (), { r with trainer := t₁ }) ∧
      (TrainerStep.tickRates .epoch).runOn t₁ = (.ok (), t₂) ∧
      r' = { r with trainer := t₂, currentEpoch := r.currentEpoch + 1 } := by
  rw [closeEpoch] at h
  obtain ⟨_, r₁, h₁, hrest⟩ := bind_ok h
  obtain ⟨t₁, rfl, -⟩ := evaluateEpoch_ok h₁
  obtain ⟨_, r₂, h₂, hlast⟩ := bind_ok hrest
  obtain ⟨t₂, htick, rfl⟩ := onPart_ok h₂
  cases hlast
  exact ⟨t₁, t₂, h₁, htick, rfl⟩

theorem closeEpoch_follows {setup : Setup W β} {counters : EpochCounters} {r r' : FitRun σ W β}
    (h : (closeEpoch setup counters).runOn r = (.ok (), r')) :
    Follows (fun _ => True) r.trainer r'.trainer := by
  obtain ⟨t₁, t₂, hevaluate, htick, rfl⟩ := closeEpoch_ok h
  obtain ⟨trainer, hr, hvalidated, -⟩ := evaluateEpoch_ok hevaluate
  obtain rfl : t₁ = trainer := congrArg FitRun.trainer hr
  have hticked : Follows (fun _ => True) t₁ t₂ :=
    (TrainerStep.tickRates_keeps _ trivial fun _ => trivial).of_ok htick
  exact hvalidated.weaken.trans hticked

theorem closeEpoch_progress {setup : Setup W β} {counters : EpochCounters} {r r' : FitRun σ W β}
    {result : Except Error Unit} (h : (closeEpoch setup counters).runOn r = (result, r')) :
    r'.progress = r.progress := by
  have hevaluate {evaluated : Except Error Unit} {r₁ : FitRun σ W β}
      (h : (evaluateEpoch setup counters).runOn r = (evaluated, r₁)) : r₁.progress = r.progress := by
    simp only [evaluateEpoch, runOn_get_bind] at h
    split at h
    · obtain ⟨trainer, -, rfl⟩ := onPart_runs h
      rfl
    · cases h
      rfl
  rw [closeEpoch] at h
  rcases bind_runs h with ⟨e, h₁, -⟩ | ⟨_, r₁, h₁, hrest⟩
  · exact hevaluate h₁
  rw [← hevaluate h₁]
  rcases bind_runs hrest with ⟨e, h₂, -⟩ | ⟨_, r₂, h₂, hlast⟩
  · obtain ⟨trainer, -, rfl⟩ := onPart_runs h₂
    rfl
  · obtain ⟨trainer, -, rfl⟩ := onPart_runs h₂
    cases hlast
    rfl

/-- What an epoch within a run does, and how it ends: its batch counts cannot be resolved, the hook
for its start fails, its training fails or passes the horizon, or it is closed. -/
inductive EpochRan (setup : Setup W β) (loop : BatchLoop σ β) (horizon : Nat)
    (data : Nat → Batches β) (r : FitRun σ W β) :
    Except Error (Option Processed) → FitRun σ W β → Prop
  | uncounted {e : Error}
      (hcounts : (TrainerStep.resolveCounts setup (data r.currentEpoch).knownLength).runOn
        r.enterEpoch.trainer = (.error e, r.enterEpoch.trainer)) :
      EpochRan setup loop horizon data r (.error e) r.enterEpoch
  | unstarted {e : Error} {t₁ t₂ : Trainer W β}
      (hcounts : (TrainerStep.resolveCounts setup (data r.currentEpoch).knownLength).runOn
        r.enterEpoch.trainer = (.ok (), t₁))
      (hcall : (TrainerStep.call setup .trainEpochStart
        (t₁.context setup r.progress 0 none)).runOn t₁ = (.error e, t₂)) :
      EpochRan setup loop horizon data r (.error e) { r with trainer := t₂ }
  | failed {error : Error} {t₁ t₂ : Trainer W β} {e : EpochRun σ W β}
      (hcounts : (TrainerStep.resolveCounts setup (data r.currentEpoch).knownLength).runOn
        r.enterEpoch.trainer = (.ok (), t₁))
      (hcall : (TrainerStep.call setup .trainEpochStart
        (t₁.context setup r.progress 0 none)).runOn t₁ = (.ok (), t₂))
      (hepoch : (EpochStep.run setup loop horizon (data r.currentEpoch)).runOn
        (FitRun.epochRun setup.config { r with trainer := t₂ }) = (.error error, e)) :
      EpochRan setup loop horizon data r (.error error)
        { r with trainer := e.trainer, worker := e.worker }
  | passed {t₁ t₂ : Trainer W β} {e : EpochRun σ W β}
      (hcounts : (TrainerStep.resolveCounts setup (data r.currentEpoch).knownLength).runOn
        r.enterEpoch.trainer = (.ok (), t₁))
      (hcall : (TrainerStep.call setup .trainEpochStart
        (t₁.context setup r.progress 0 none)).runOn t₁ = (.ok (), t₂))
      (hepoch : (EpochStep.run setup loop horizon (data r.currentEpoch)).runOn
        (FitRun.epochRun setup.config { r with trainer := t₂ }) = (.ok none, e)) :
      EpochRan setup loop horizon data r (.ok none)
        { r with trainer := e.trainer, worker := e.worker }
  | closed {t₁ t₂ : Trainer W β} {e : EpochRun σ W β} {outputs : Processed}
      {closed : Except Error Unit} {result : Except Error (Option Processed)} {r' : FitRun σ W β}
      (hcounts : (TrainerStep.resolveCounts setup (data r.currentEpoch).knownLength).runOn
        r.enterEpoch.trainer = (.ok (), t₁))
      (hcall : (TrainerStep.call setup .trainEpochStart
        (t₁.context setup r.progress 0 none)).runOn t₁ = (.ok (), t₂))
      (hepoch : (EpochStep.run setup loop horizon (data r.currentEpoch)).runOn
        (FitRun.epochRun setup.config { r with trainer := t₂ }) = (.ok (some outputs), e))
      (hclose : (closeEpoch setup e.counters).runOn
        { r with trainer := e.trainer, worker := e.worker, progress := e.progress } =
          (closed, r'))
      (hresult : result = closed.map fun _ => some outputs) :
      EpochRan setup loop horizon data r result r'

theorem nextEpoch_ran {setup : Setup W β} {loop : BatchLoop σ β} {horizon : Nat}
    {data : Nat → Batches β} {r r' : FitRun σ W β} {result : Except Error (Option Processed)}
    (h : (nextEpoch setup loop horizon data).runOn r = (result, r')) :
    EpochRan setup loop horizon data r result r' := by
  simp only [nextEpoch, runOn_get_bind, runOn_modify_bind] at h
  rcases bind_runs h with ⟨e, h₁, rfl⟩ | ⟨_, r₁, h₁, hrest₁⟩
  · obtain ⟨t₁, hcounts, rfl⟩ := onPart_runs h₁
    obtain rfl := TrainerStep.resolveCounts_error hcounts
    exact .uncounted hcounts
  obtain ⟨t₁, hcounts, rfl⟩ := onPart_runs h₁
  rw [runOn_get_bind] at hrest₁
  rcases bind_runs hrest₁ with ⟨e, h₂, rfl⟩ | ⟨_, r₂, h₂, hrest₂⟩
  · obtain ⟨t₂, hcall, rfl⟩ := onPart_runs h₂
    exact .unstarted hcounts hcall
  obtain ⟨t₂, hcall, rfl⟩ := onPart_runs h₂
  rcases bind_runs hrest₂ with ⟨e, h₃, rfl⟩ | ⟨ran, r₃, h₃, hrest₃⟩
  · obtain ⟨e', hepoch, rfl⟩ := epoch_error h₃
    exact .failed hcounts hcall hepoch
  obtain ⟨outputs?, e, hepoch, rfl, hnone, hsome⟩ := epoch_ok h₃
  cases outputs? with
  | none =>
      obtain rfl := hnone rfl
      cases hrest₃
      exact .passed hcounts hcall hepoch
  | some outputs =>
      obtain rfl := hsome rfl
      rcases bind_runs hrest₃ with ⟨error, hclose, rfl⟩ | ⟨_, r₄, hclose, hlast⟩
      · exact .closed hcounts hcall hepoch hclose rfl
      · cases hlast
        exact .closed hcounts hcall hepoch hclose rfl

/-- An epoch resolves its batch counts, calls the hook for its start and trains. -/
theorem nextEpoch_begins {setup : Setup W β} {loop : BatchLoop σ β} {horizon : Nat}
    {data : Nat → Batches β} {r r' : FitRun σ W β} {result : Option Processed}
    (h : (nextEpoch setup loop horizon data).runOn r = (.ok result, r')) :
    ∃ (t₁ t₂ : Trainer W β) (e : EpochRun σ W β),
      (TrainerStep.resolveCounts setup (data r.currentEpoch).knownLength).runOn
        r.enterEpoch.trainer = (.ok (), t₁) ∧
      (TrainerStep.call setup .trainEpochStart (t₁.context setup r.progress 0 none)).runOn t₁ =
        (.ok (), t₂) ∧
      (EpochStep.run setup loop horizon (data r.currentEpoch)).runOn
        (FitRun.epochRun setup.config { r with trainer := t₂ }) = (.ok result, e) ∧
      (result.isSome → (closeEpoch setup e.counters).runOn
        { r with trainer := e.trainer, worker := e.worker, progress := e.progress } =
          (.ok (), r')) := by
  cases nextEpoch_ran h with
  | passed hcounts hcall hepoch => exact ⟨_, _, _, hcounts, hcall, hepoch, nofun⟩
  | @closed t₁ t₂ e outputs closed _ _ hcounts hcall hepoch hclose hresult =>
      cases closed with
      | error e => cases hresult
      | ok _ =>
          cases hresult
          exact ⟨t₁, t₂, e, hcounts, hcall, hepoch, fun _ => hclose⟩

/-! ## All epochs -/

/-- A run with the epochs that it completes one after another. -/
inductive Ran (setup : Setup W β) (loop : BatchLoop σ β) (horizon : Nat) (data : Nat → Batches β) :
    FitRun σ W β → Completed → FitRun σ W β → Completed → Prop
  | nothing (r : FitRun σ W β) (c : Completed) : Ran setup loop horizon data r c r c
  | epoch {r r₁ r' : FitRun σ W β} {c c' : Completed} {outputs : Processed}
      (hgoes : r.stopReason? setup.config = none)
      (hepoch : (nextEpoch setup loop horizon data).runOn (r.declineStop setup.config) =
        (.ok (some outputs), r₁))
      (hrest : Ran setup loop horizon data r₁ ⟨c.epochs + 1, outputs⟩ r' c') :
      Ran setup loop horizon data r c r' c'

/-- What one epoch preserves, all epochs preserve. -/
theorem Ran.preserves {setup : Setup W β} {loop : BatchLoop σ β} {horizon : Nat}
    {data : Nat → Batches β} {J : FitRun σ W β → Completed → Prop}
    (hstep : ∀ r c outputs r', J r c → r.stopReason? setup.config = none →
      (nextEpoch setup loop horizon data).runOn (r.declineStop setup.config) =
        (.ok (some outputs), r') → J r' ⟨c.epochs + 1, outputs⟩)
    {r r' : FitRun σ W β} {c c' : Completed} (h : Ran setup loop horizon data r c r' c')
    (hJ : J r c) : J r' c' := by
  induction h with
  | nothing r c => exact hJ
  | epoch hgoes hepoch hrest ih => exact ih (hstep _ _ _ _ hJ hgoes hepoch)

inductive Halts (setup : Setup W β) (loop : BatchLoop σ β) (horizon : Nat)
    (data : Nat → Batches β) (r : FitRun σ W β) (c : Completed) :
    Except Error (Option (StopReason × Completed)) → FitRun σ W β → Prop
  | stopped {reason : StopReason} (hreason : r.stopReason? setup.config = some reason) :
      Halts setup loop horizon data r c (.ok (some (reason, c))) r
  | passed {r' : FitRun σ W β} (hgoes : r.stopReason? setup.config = none)
      (hepoch : (nextEpoch setup loop horizon data).runOn (r.declineStop setup.config) =
        (.ok none, r')) :
      Halts setup loop horizon data r c (.ok none) r'
  | failed {e : Error} {r' : FitRun σ W β} (hgoes : r.stopReason? setup.config = none)
      (hepoch : (nextEpoch setup loop horizon data).runOn (r.declineStop setup.config) =
        (.error e, r')) :
      Halts setup loop horizon data r c (.error e) r'

theorem Ran.snoc {setup : Setup W β} {loop : BatchLoop σ β} {horizon : Nat}
    {data : Nat → Batches β} {r r₁ r₂ : FitRun σ W β} {c c₁ : Completed} {outputs : Processed}
    (h : Ran setup loop horizon data r c r₁ c₁) (hgoes : r₁.stopReason? setup.config = none)
    (hepoch : (nextEpoch setup loop horizon data).runOn (r₁.declineStop setup.config) =
      (.ok (some outputs), r₂)) :
    Ran setup loop horizon data r c r₂ ⟨c₁.epochs + 1, outputs⟩ := by
  induction h with
  | nothing r c => exact .epoch hgoes hepoch (.nothing _ _)
  | epoch hgoes' hepoch' hrest ih => exact .epoch hgoes' hepoch' (ih hgoes hepoch)

/-- There is one way only from the start of a run to its end. -/
theorem Ran.resume {setup : Setup W β} {loop : BatchLoop σ β} {horizon : Nat}
    {data : Nat → Batches β} {r r₁ r₂ : FitRun σ W β} {c c₁ c₂ : Completed}
    (hran : Ran setup loop horizon data r c r₁ c₁) (h : Ran setup loop horizon data r c r₂ c₂)
    (hfinal : ∀ outputs r₃, r₂.stopReason? setup.config = none →
      (nextEpoch setup loop horizon data).runOn (r₂.declineStop setup.config) ≠
        (.ok (some outputs), r₃)) :
    Ran setup loop horizon data r₁ c₁ r₂ c₂ := by
  induction hran with
  | nothing r c => exact h
  | epoch hgoes hepoch hrest ih =>
      cases h with
      | nothing => exact absurd hepoch (hfinal _ _ hgoes)
      | epoch hgoes' hepoch' hrest' =>
          rw [hepoch] at hepoch'
          cases hepoch'
          exact ih hrest'

theorem Halts.final {setup : Setup W β} {loop : BatchLoop σ β} {horizon : Nat}
    {data : Nat → Batches β} {r r' : FitRun σ W β} {c : Completed}
    {ended : Except Error (Option (StopReason × Completed))}
    (h : Halts setup loop horizon data r c ended r') (outputs : Processed) (r₃ : FitRun σ W β)
    (hgoes : r.stopReason? setup.config = none) :
    (nextEpoch setup loop horizon data).runOn (r.declineStop setup.config) ≠
      (.ok (some outputs), r₃) := by
  intro hepoch
  cases h with
  | stopped hreason => simp [hgoes] at hreason
  | passed hgoes' hpassed => simp [hepoch] at hpassed
  | failed hgoes' hfailed => simp [hepoch] at hfailed

theorem epochs_halt {setup : Setup W β} {loop : BatchLoop σ β} {horizon : Nat}
    {data : Nat → Batches β} {remaining : Nat} {c : Completed} {r r' : FitRun σ W β}
    {ended : Except Error (Option (StopReason × Completed))}
    (h : (epochs setup loop horizon data remaining c).runOn r = (ended, r')) :
    ∃ r₁ c', Ran setup loop horizon data r c r₁ c' ∧
      (Halts setup loop horizon data r₁ c' ended r' ∨
        (r₁.stopReason? setup.config = none ∧ ended = .ok none ∧ r' = r₁ ∧
          c'.epochs = c.epochs + remaining)) := by
  induction remaining generalizing c r with
  | zero =>
      simp only [epochs, runOn_get_bind] at h
      cases hreason : r.stopReason? setup.config with
      | some reason =>
          simp only [hreason] at h
          cases h
          exact ⟨_, c, .nothing _ c, .inl (.stopped hreason)⟩
      | none =>
          simp only [hreason] at h
          cases h
          exact ⟨_, c, .nothing _ c, .inr ⟨hreason, rfl, rfl, rfl⟩⟩
  | succ remaining ih =>
      simp only [epochs, runOn_get_bind] at h
      cases hreason : r.stopReason? setup.config with
      | some reason =>
          simp only [hreason] at h
          cases h
          exact ⟨_, c, .nothing _ c, .inl (.stopped hreason)⟩
      | none =>
          simp only [hreason, runOn_modify_bind] at h
          rcases bind_runs h with ⟨e, hepoch, rfl⟩ | ⟨outputs?, r₁, hepoch, hrest⟩
          · exact ⟨r, c, .nothing r c, .inl (.failed hreason hepoch)⟩
          cases outputs? with
          | none =>
              cases hrest
              exact ⟨r, c, .nothing r c, .inl (.passed hreason hepoch)⟩
          | some outputs =>
              obtain ⟨r₂, c', hran, hends⟩ := ih hrest
              refine ⟨r₂, c', .epoch hreason hepoch hran, ?_⟩
              rwa [show c.epochs + (remaining + 1) = c.epochs + 1 + remaining by omega]

/-- The epochs of a run end for a reason, or are used up without one, or one of them passes the
horizon. -/
theorem epochs_ok {setup : Setup W β} {loop : BatchLoop σ β} {horizon : Nat}
    {data : Nat → Batches β} {remaining : Nat} {c : Completed} {r r' : FitRun σ W β}
    {ended : Option (StopReason × Completed)}
    (h : (epochs setup loop horizon data remaining c).runOn r = (.ok ended, r')) :
    ∃ r₁ c', Ran setup loop horizon data r c r₁ c' ∧
      ((∃ reason, r₁.stopReason? setup.config = some reason ∧ ended = some (reason, c') ∧
          r' = r₁) ∨
        (r₁.stopReason? setup.config = none ∧ ended = none ∧
          (c'.epochs = c.epochs + remaining ∨
            (nextEpoch setup loop horizon data).runOn (r₁.declineStop setup.config) =
              (.ok none, r')))) := by
  obtain ⟨r₁, c', hran, hhalts | ⟨hgoes, hnone, -, hused⟩⟩ := epochs_halt h
  · refine ⟨r₁, c', hran, ?_⟩
    cases hhalts with
    | stopped hreason => exact .inl ⟨_, hreason, rfl, rfl⟩
    | passed hgoes hepoch => exact .inr ⟨hgoes, rfl, .inr hepoch⟩
  · cases hnone
    exact ⟨r₁, c', hran, .inr ⟨hgoes, rfl, .inl hused⟩⟩

/-! ## The whole run -/

def begun (setup : Setup W β) (worker : σ) (r : FitRun σ W β) : FitRun σ W β :=
  FitRun.tellStart setup { r with
    trainer := r.trainer.record (.accumulation setup.config.accumulateGradBatches)
    worker }

theorem recordFailure_onWorker {α : Type} (action : Stateful σ α) (r : FitRun σ W β) :
    (recordFailure (onWorker action)).runOn r =
      match action.runOn r.worker with
      | (.ok a, worker) => (.ok a, { r with worker })
      | (.error e, worker) =>
        (.error e, { r with trainer := r.trainer.record (.failed e), worker }) := by
  rw [recordFailure, noteFailure, runOn_of, onWorker, runOn_onPart]
  rcases action.runOn r.worker with ⟨_ | _, worker⟩ <;> rfl

theorem run_refused {setup : Setup W β} {loop : BatchLoop σ β} {horizon : Nat}
    {data : Nat → Batches β} {r : FitRun σ W β} {e : Error}
    (hcheck : setup.config.check = .error e) :
    (run setup loop horizon data).runOn r = (.error e, r) := by
  rw [run, hcheck]
  rfl

theorem run_unset {setup : Setup W β} {loop : BatchLoop σ β} {horizon : Nat}
    {data : Nat → Batches β} {r : FitRun σ W β} {e : Error} {worker : σ}
    (hcheck : setup.config.check = .ok ())
    (hset : (loop.setAccumulation setup.config.accumulateGradBatches).runOn r.worker =
      (.error e, worker)) :
    (run setup loop horizon data).runOn r = (.error e, { r with
      trainer := (r.trainer.record
        (.accumulation setup.config.accumulateGradBatches)).record (.failed e)
      worker }) := by
  rw [run, hcheck, runOn_lift_bind, runOn_modify_bind, runOn_bind, recordFailure_onWorker]
  dsimp only [FitRun.mapTrainer]
  rw [hset]

/-- A run whose settings pass their check comes to what its epochs come to. -/
theorem run_eq {setup : Setup W β} {loop : BatchLoop σ β} {horizon : Nat} {data : Nat → Batches β}
    {r : FitRun σ W β} {worker : σ} (hcheck : setup.config.check = .ok ())
    (hset : (loop.setAccumulation setup.config.accumulateGradBatches).runOn r.worker =
      (.ok (), worker)) :
    (run setup loop horizon data).runOn r =
      match (epochs setup loop horizon data (setup.config.maxEpochs - r.currentEpoch) {}).runOn
        (begun setup worker r) with
      | (.error e, r₁) => (.error e, r₁)
      | (.ok none, r₁) => (.ok none, r₁)
      | (.ok (some (reason, completed)), r₁) =>
        (.ok (some
          { epochsCompleted := completed.epochs
            progress := r₁.progress
            stopReason := reason
            lastEpochOutputs := completed.lastOutputs
            bestLoss := (r₁.tellEnd setup reason completed).trainer.log.best? lossAverageKey }),
          r₁.tellEnd setup reason completed) := by
  rw [run, hcheck, runOn_lift_bind, runOn_modify_bind, runOn_bind, recordFailure_onWorker]
  dsimp only [FitRun.mapTrainer]
  rw [hset]
  simp only [runOn_modify_bind, runOn_get_bind]
  rw [runOn_bind]
  unfold begun
  generalize hbegun : FitRun.tellStart setup { r with
    trainer := r.trainer.record (.accumulation setup.config.accumulateGradBatches)
    worker } = r₀
  have hcurrent : r₀.currentEpoch = r.currentEpoch := by
    rw [← hbegun]
    rfl
  rw [hcurrent]
  rcases (epochs setup loop horizon data (setup.config.maxEpochs - r.currentEpoch) {}).runOn r₀ with
    ⟨_ | _ | _, r₁⟩ <;> rfl

/-- The parts of a run that does not fail: its settings pass their check, the batch loop takes the
width of the windows, and the epochs run between the two hooks of the callbacks. -/
theorem run_begins {setup : Setup W β} {loop : BatchLoop σ β} {horizon : Nat}
    {data : Nat → Batches β} {r r' : FitRun σ W β} {result : Option FitResult}
    (h : (run setup loop horizon data).runOn r = (.ok result, r')) :
    ∃ worker ended r₁,
      setup.config.check = .ok () ∧
      (loop.setAccumulation setup.config.accumulateGradBatches).runOn r.worker = (.ok (), worker) ∧
      (epochs setup loop horizon data (setup.config.maxEpochs - r.currentEpoch) {}).runOn
        (FitRun.tellStart setup { r with
          trainer := r.trainer.record (.accumulation setup.config.accumulateGradBatches)
          worker }) = (.ok ended, r₁) ∧
      (ended = none → result = none ∧ r' = r₁) ∧
      (∀ reason completed, ended = some (reason, completed) →
        r' = r₁.tellEnd setup reason completed ∧
        result = some
          { epochsCompleted := completed.epochs
            progress := r₁.progress
            stopReason := reason
            lastEpochOutputs := completed.lastOutputs
            bestLoss := r'.trainer.log.best? lossAverageKey }) := by
  cases hcheck : setup.config.check with
  | error e =>
      rw [run_refused hcheck] at h
      cases h
  | ok _ =>
      rcases hset : (loop.setAccumulation setup.config.accumulateGradBatches).runOn r.worker with
        ⟨_ | _, worker⟩
      · rw [run_unset hcheck hset] at h
        cases h
      rw [run_eq hcheck hset] at h
      rcases hepochs : (epochs setup loop horizon data (setup.config.maxEpochs - r.currentEpoch)
        {}).runOn (begun setup worker r) with ⟨_ | ended, r₁⟩
      · rw [hepochs] at h
        cases h
      rw [hepochs] at h
      refine ⟨worker, ended, r₁, rfl, rfl, hepochs, ?_, ?_⟩
      · rintro rfl
        cases h
        exact ⟨rfl, rfl⟩
      · rintro reason completed rfl
        cases h
        exact ⟨rfl, rfl⟩

/-- What a run makes of the end of its epochs: a result, told to the callbacks, where there is a
reason for it. -/
def Reports (setup : Setup W β) (ended : Except Error (Option (StopReason × Completed)))
    (r : FitRun σ W β) (result : Except Error (Option FitResult)) (r' : FitRun σ W β) : Prop :=
  match ended with
  | .error e => result = .error e ∧ r' = r
  | .ok none => result = .ok none ∧ r' = r
  | .ok (some (reason, completed)) =>
    r' = r.tellEnd setup reason completed ∧
      result = .ok (some
        { epochsCompleted := completed.epochs
          progress := r.progress
          stopReason := reason
          lastEpochOutputs := completed.lastOutputs
          bestLoss := r'.trainer.log.best? lossAverageKey })

/-- What a run does, and how it ends: its settings do not pass their check, the batch loop does not
take the width of the windows, or its epochs come to an end. -/
inductive Ended (setup : Setup W β) (loop : BatchLoop σ β) (horizon : Nat)
    (data : Nat → Batches β) (r : FitRun σ W β) :
    Except Error (Option FitResult) → FitRun σ W β → Prop
  | refused {e : Error} (hcheck : setup.config.check = .error e) :
      Ended setup loop horizon data r (.error e) r
  | unset {e : Error} {worker : σ} (hcheck : setup.config.check = .ok ())
      (hset : (loop.setAccumulation setup.config.accumulateGradBatches).runOn r.worker =
        (.error e, worker)) :
      Ended setup loop horizon data r (.error e) { r with
        trainer := (r.trainer.record
          (.accumulation setup.config.accumulateGradBatches)).record (.failed e)
        worker }
  | halted {worker : σ} {r₁ r₂ r' : FitRun σ W β} {c : Completed}
      {ended : Except Error (Option (StopReason × Completed))}
      {result : Except Error (Option FitResult)} (hcheck : setup.config.check = .ok ())
      (hset : (loop.setAccumulation setup.config.accumulateGradBatches).runOn r.worker =
        (.ok (), worker))
      (hran : Ran setup loop horizon data (begun setup worker r) {} r₁ c)
      (hhalts : Halts setup loop horizon data r₁ c ended r₂)
      (hreports : Reports setup ended r₂ result r') :
      Ended setup loop horizon data r result r'

theorem declineStop_currentEpoch (config : Config) (r : FitRun σ W β) :
    (r.declineStop config).currentEpoch = r.currentEpoch := by
  unfold FitRun.declineStop
  split <;> rfl

theorem declineStop_progress (config : Config) (r : FitRun σ W β) :
    (r.declineStop config).progress = r.progress := by
  unfold FitRun.declineStop
  split <;> rfl

theorem declineStop_worker (config : Config) (r : FitRun σ W β) :
    (r.declineStop config).worker = r.worker := by
  unfold FitRun.declineStop
  split <;> rfl

theorem declineStop_shouldStop (config : Config) (r : FitRun σ W β) :
    (r.declineStop config).trainer.state.shouldStop = false := by
  unfold FitRun.declineStop
  split
  · rfl
  · rename_i hunasked
    rwa [Bool.not_eq_true] at hunasked

theorem nextEpoch_currentEpoch {setup : Setup W β} {loop : BatchLoop σ β} {horizon : Nat}
    {data : Nat → Batches β} {r r' : FitRun σ W β} {outputs : Processed}
    (h : (nextEpoch setup loop horizon data).runOn r = (.ok (some outputs), r')) :
    r'.currentEpoch = r.currentEpoch + 1 := by
  obtain ⟨t₁, t₂, e, -, -, -, hclose⟩ := nextEpoch_begins h
  obtain ⟨t₃, t₄, -, -, rfl⟩ := closeEpoch_ok (hclose rfl)
  rfl

theorem Ran.currentEpoch {setup : Setup W β} {loop : BatchLoop σ β} {horizon : Nat}
    {data : Nat → Batches β} {r r' : FitRun σ W β} {c c' : Completed}
    (h : Ran setup loop horizon data r c r' c') :
    r'.currentEpoch + c.epochs = r.currentEpoch + c'.epochs := by
  induction h with
  | nothing r c => rfl
  | epoch hgoes hepoch hrest ih =>
      have hnext := nextEpoch_currentEpoch hepoch
      rw [declineStop_currentEpoch] at hnext
      dsimp only at ih
      omega

theorem begun_halts {setup : Setup W β} {loop : BatchLoop σ β} {horizon : Nat}
    {data : Nat → Batches β} {worker : σ} {r r' : FitRun σ W β}
    {ended : Except Error (Option (StopReason × Completed))}
    (h : (epochs setup loop horizon data (setup.config.maxEpochs - r.currentEpoch) {}).runOn
      (begun setup worker r) = (ended, r')) :
    ∃ r₁ c, Ran setup loop horizon data (begun setup worker r) {} r₁ c ∧
      Halts setup loop horizon data r₁ c ended r' := by
  obtain ⟨r₁, c, hran, hends | ⟨hgoes, -, -, hused⟩⟩ := epochs_halt h
  · exact ⟨r₁, c, hran, hends⟩
  · -- Epochs that are used up have reached the most epochs, which is a reason to stop.
    have hcurrent : r₁.currentEpoch + 0 = r.currentEpoch + c.epochs := hran.currentEpoch
    have hall : c.epochs = 0 + (setup.config.maxEpochs - r.currentEpoch) := hused
    have hmost : setup.config.maxEpochs ≤ r₁.currentEpoch := by omega
    rw [FitRun.stopReason?, FitRun.limitReached?, if_pos hmost] at hgoes
    cases hgoes

theorem run_ended {setup : Setup W β} {loop : BatchLoop σ β} {horizon : Nat}
    {data : Nat → Batches β} {r r' : FitRun σ W β} {result : Except Error (Option FitResult)}
    (h : (run setup loop horizon data).runOn r = (result, r')) :
    Ended setup loop horizon data r result r' := by
  cases hcheck : setup.config.check with
  | error e =>
      rw [run_refused hcheck] at h
      cases h
      exact .refused hcheck
  | ok _ =>
      rcases hset : (loop.setAccumulation setup.config.accumulateGradBatches).runOn r.worker with
        ⟨_ | _, worker⟩
      · rw [run_unset hcheck hset] at h
        cases h
        exact .unset hcheck hset
      rw [run_eq hcheck hset] at h
      rcases hepochs : (epochs setup loop horizon data (setup.config.maxEpochs - r.currentEpoch)
        {}).runOn (begun setup worker r) with ⟨ended, r₁⟩
      obtain ⟨r₂, c, hran, hhalts⟩ := begun_halts hepochs
      refine .halted hcheck hset hran hhalts ?_
      rw [hepochs] at h
      match ended with
      | .error e =>
          cases h
          exact ⟨rfl, rfl⟩
      | .ok none =>
          cases h
          exact ⟨rfl, rfl⟩
      | .ok (some (reason, completed)) =>
          cases h
          exact ⟨rfl, rfl⟩

/-- A run that returns has come to the end of an epoch, for a reason to stop there. -/
theorem run_returns {setup : Setup W β} {loop : BatchLoop σ β} {horizon : Nat}
    {data : Nat → Batches β} {r r' : FitRun σ W β} {fit : FitResult}
    (h : (run setup loop horizon data).runOn r = (.ok (some fit), r')) :
    ∃ worker r₁ reason completed,
      (loop.setAccumulation setup.config.accumulateGradBatches).runOn r.worker = (.ok (), worker) ∧
      Ran setup loop horizon data (begun setup worker r) {} r₁ completed ∧
      r' = r₁.tellEnd setup reason completed ∧ fit.epochsCompleted = completed.epochs ∧
      fit.progress = r₁.progress := by
  cases run_ended h with
  | @halted worker r₁ r₂ _ completed ended _ hcheck hset hran hhalts hreports =>
      match ended with
      | .error e => cases hreports.1
      | .ok none => cases hreports.1
      | .ok (some (reason, _)) =>
          obtain ⟨rfl, hfit⟩ := hreports
          cases hfit
          cases hhalts with
          | stopped hreason => exact ⟨worker, r₁, reason, completed, hset, hran, rfl, rfl, rfl⟩

/-- A run comes to a result or fails, where the horizon lies beyond the data of all epochs. -/
theorem run_settles {setup : Setup W β} {loop : BatchLoop σ β} {horizon : Nat}
    {data : Nat → Batches β}
    (hdata : ∀ epoch world, ∃ n < horizon,
      (setup.accelerator.prepare (data epoch) world).1.length = some n)
    (r r' : FitRun σ W β) : (run setup loop horizon data).runOn r ≠ (.ok none, r') := by
  intro h
  cases run_ended h with
  | @halted worker r₁ r₂ _ c ended _ hcheck hset hran hhalts hreports =>
      cases hhalts with
      | stopped hreason => cases hreports.2
      | failed hgoes hepoch => cases hreports.1
      | passed hgoes hepoch =>
          obtain ⟨t₁, t₂, e, -, -, hrun, -⟩ := nextEpoch_begins hepoch
          obtain ⟨n, hbeyond, hlength⟩ := hdata (r₁.declineStop setup.config).currentEpoch t₂.world
          exact EpochStep.run_settles hlength hbeyond e hrun

def idle : BatchLoop Unit Unit :=
  { run := fun _ _ _ => pure (.ofResults []), closedWindow := fun _ => true }

end FitStep

end TrainingLoop
