import TrainingLoop.Proofs.Spec.Completion
/-!
# Overrides of accepted specifications

What a command line changes of a specification that validation accepts. A number of epochs takes the
least number of epochs with it, so that it fits whatever the file says; a bound of the steps does
not, and is refused where the file asks for more steps at least (`override_accepts`).
-/

namespace TrainingLoop.LoopSpec

variable {s : LoopSpec} {o : Overrides}

/-! ## What an override changes -/

theorem override_trainer : (s.override o).trainer =
    { s.trainer with
      maxEpochs := o.epochs.getD s.trainer.maxEpochs
      minEpochs := (o.epochs.map (min s.trainer.minEpochs)).getD s.trainer.minEpochs
      maxSteps := o.maxSteps.or s.trainer.maxSteps } := by
  obtain ⟨epochs, maxSteps, seed, path⟩ := o
  cases epochs <;> cases maxSteps <;> cases seed <;> cases path <;> rfl

theorem override_schedules : (s.override o).schedules = s.schedules := by
  obtain ⟨epochs, maxSteps, seed, path⟩ := o
  cases epochs <;> cases maxSteps <;> cases seed <;> cases path <;> rfl

theorem override_model : (s.override o).simulation.model =
    { s.simulation.model with seed := o.seed.getD s.simulation.model.seed } := by
  obtain ⟨epochs, maxSteps, seed, path⟩ := o
  cases epochs <;> cases maxSteps <;> cases seed <;> cases path <;> rfl

/-! ## The trainer's settings -/

/-- No number of steps is asked for at least that is above the given bound of the steps. -/
def Overrides.StepsFit (o : Overrides) (s : LoopSpec) : Prop :=
  ∀ least most, s.trainer.minSteps = some least → o.maxSteps = some most → least ≤ most

/-- The epochs of an override are in order whatever the specification had before. -/
theorem override_epochs (h : s.trainer.Acceptable) (hepochs : o.epochs ≠ some 0) :
    0 < (s.override o).trainer.maxEpochs ∧
      (s.override o).trainer.minEpochs ≤ (s.override o).trainer.maxEpochs := by
  rw [override_trainer]
  cases hgiven : o.epochs with
  | none => exact ⟨h.epochs, h.epochRange⟩
  | some epochs =>
      refine ⟨Nat.pos_of_ne_zero fun hzero => hepochs ?_, Nat.min_le_right _ _⟩
      rw [hgiven, show epochs = 0 from hzero]

theorem override_trainer_acceptable_iff (h : s.trainer.Acceptable) (hepochs : o.epochs ≠ some 0) :
    (s.override o).trainer.Acceptable ↔ o.StepsFit s := by
  constructor
  · intro hoverridden least most hleast hmost
    refine hoverridden.stepRange least most ?_ ?_
    · rw [override_trainer]
      exact hleast
    · rw [override_trainer, hmost]
      rfl
  · intro hfit
    obtain ⟨hpositive, hrange⟩ := override_epochs h hepochs
    have hsteps : ∀ least most, (s.override o).trainer.minSteps = some least →
        (s.override o).trainer.maxSteps = some most → least ≤ most := by
      rw [override_trainer]
      intro least most hleast hmost
      cases hgiven : o.maxSteps with
      | none =>
          rw [hgiven] at hmost
          exact h.stepRange least most hleast hmost
      | some steps =>
          rw [hgiven] at hmost
          exact hfit least most hleast (hgiven.trans hmost)
    rw [override_trainer] at hpositive hrange hsteps ⊢
    exact ⟨hpositive, hrange, hsteps, h.limit, h.interval, h.intervalCount, h.accumulation,
      h.logging, h.flushing⟩

/-- The bounds of the steps are compared right after those of the epochs. -/
theorem checkTrainer_eq_stepRange {c : Config} {least most : Nat} (hepochs : 0 < c.maxEpochs)
    (hrange : c.minEpochs ≤ c.maxEpochs) (hleast : c.minSteps = some least)
    (hmost : c.maxSteps = some most) (hbelow : most < least) :
    checkTrainer c = .error (.stepRange least most) := by
  rw [checkTrainer, if_neg (Nat.ne_of_gt hepochs), if_neg (Nat.not_lt_of_le hrange), hleast, hmost]
  dsimp only
  rw [if_pos hbelow]
  rfl

/-! ## Acceptance -/

theorem override_check_eq_ok_iff (hcheck : s.check = .ok ()) (hepochs : o.epochs ≠ some 0) :
    (s.override o).check = .ok () ↔ o.StepsFit s := by
  obtain ⟨htrainer, hschedules, hmodel⟩ := check_eq_ok_iff.1 hcheck
  have hmodel' : (s.override o).simulation.model.Acceptable := by
    rw [override_model]
    exact ⟨hmodel.optimizers, hmodel.splits, hmodel.decay⟩
  rw [check_eq_ok_iff, override_schedules, override_trainer_acceptable_iff htrainer hepochs]
  exact ⟨fun h => h.1, fun h => ⟨h, hschedules, hmodel'⟩⟩

/-- An accepted specification is accepted with any overrides of which the epochs are not zero, and a
run of it is set up, as long as a given bound of the steps is not below the least number of steps
of the specification. Where it is, that is the reason to refuse it. -/
theorem override_accepts (hcheck : s.check = .ok ()) (hepochs : o.epochs ≠ some 0) :
    ((s.override o).check = .ok () ↔ o.StepsFit s) ∧
    (o.StepsFit s → ∃ board, (s.override o).accept = .ok board) ∧
    (∀ least most, s.trainer.minSteps = some least → o.maxSteps = some most → most < least →
      (s.override o).check = .error (.stepRange least most)) := by
  have haccepts := override_check_eq_ok_iff hcheck hepochs
  refine ⟨haccepts, fun hfit => ?_, fun least most hleast hmost hbelow => ?_⟩
  · obtain ⟨board, haccept, -⟩ := accept_of_check (haccepts.2 hfit)
    exact ⟨board, haccept⟩
  · obtain ⟨hpositive, hrange⟩ := override_epochs (check_eq_ok_iff.1 hcheck).1 hepochs
    have hleast' : (s.override o).trainer.minSteps = some least := by
      rw [override_trainer]
      exact hleast
    have hmost' : (s.override o).trainer.maxSteps = some most := by
      rw [override_trainer, hmost]
      rfl
    rw [check, checkTrainer_eq_stepRange hpositive hrange hleast' hmost' hbelow]
    rfl

def fiveEpochsAtLeast : LoopSpec :=
  { trainer := { maxEpochs := 8, minEpochs := 5, minSteps := some 20 } }

/-- Two epochs are fewer than the five that are asked for, and twenty steps just enough. -/
theorem override_accepts_twoEpochs :
    (fiveEpochsAtLeast.override { epochs := some 2, maxSteps := some 20, seed := some 7 }).check =
      .ok () := by
  have hcheck : fiveEpochsAtLeast.check = .ok () := by rfl
  refine (override_accepts hcheck ?_).1.2 ?_
  · decide
  · rintro _ _ ⟨⟩ ⟨⟩
    exact Nat.le_refl 20

/-- Ten steps at most are refused, although twenty steps at least were no reason to refuse the
specification and epochs below its least number of them are none either. -/
theorem override_tenSteps_refused :
    fiveEpochsAtLeast.check = .ok () ∧
    (fiveEpochsAtLeast.override { epochs := some 2 }).check = .ok () ∧
    (fiveEpochsAtLeast.override { maxSteps := some 10 }).check = .error (.stepRange 20 10) :=
  ⟨by rfl, by rfl, by rfl⟩

end TrainingLoop.LoopSpec
