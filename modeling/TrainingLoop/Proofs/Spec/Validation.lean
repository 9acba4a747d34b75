import TrainingLoop.Spec.Build
/-!
# The specifications that are accepted

`LoopSpec.check` is a row of checks, each of which may refuse. `LoopSpec.Acceptable` says as a
record of conditions what they let through together, and which learning rates fit is a parameter of
it: the check of a rate is written with `≤`, which is false of a NaN, so a NaN is let through with
the positive rates.
-/

namespace TrainingLoop

/-! ## Checks in a row -/

section Checks

variable {ε : Type}

theorem bind_eq_ok_iff {x : Except ε Unit} {f : Unit → Except ε Unit} :
    (x >>= f) = .ok () ↔ x = .ok () ∧ f () = .ok () := by
  cases x with
  | error e =>
      constructor
      · intro h
        cases h
      · rintro ⟨h, -⟩
        cases h
  | ok a => exact ⟨fun h => ⟨rfl, h⟩, fun h => h.2⟩

theorem refuse_eq_ok_iff {refused : Prop} [Decidable refused] {e : ε}
    {rest : Unit → Except ε Unit} :
    (if refused then .error e >>= rest else rest ()) = .ok () ↔ ¬ refused ∧ rest () = .ok () := by
  split
  · rename_i hrefused
    constructor
    · intro h
      cases h
    · intro h
      exact absurd hrefused h.1
  · rename_i hnot
    exact ⟨fun h => ⟨hnot, h⟩, fun h => h.2⟩

theorem refuseLast_eq_ok_iff {refused : Prop} [Decidable refused] {e : ε} :
    (if refused then .error e else .ok () : Except ε Unit) = .ok () ↔ ¬ refused := by
  split
  · rename_i hrefused
    exact ⟨nofun, fun h => absurd hrefused h⟩
  · rename_i hnot
    exact ⟨fun _ => hnot, fun _ => rfl⟩

theorem mapError_eq_ok_iff {ε' α : Type} {x : Except ε α} {f : ε → ε'} {a : α} :
    x.mapError f = .ok a ↔ x = .ok a := by
  cases x with
  | error e => exact ⟨nofun, nofun⟩
  | ok b =>
      constructor <;>
        · intro h
          cases h
          rfl

end Checks

/-! ## Numbers -/

namespace Single

/-- What a rate that is refused where it is `≤ 0.0` can still be. -/
def PositiveOrNaN (x : Float32) : Prop := 0.0 < x ∨ x.isNaN = true

/-- A NaN is neither above zero nor at most zero. -/
theorem not_le_zero_iff (x : Float32) : ¬ x ≤ 0.0 ↔ PositiveOrNaN x := by
  -- `≤` and `<` are those of the unpacked numbers, of which zero is one
  have hzero : (0.0 : Float32).toModel.unpack = .zero .positive := by rfl
  have hle : x ≤ 0.0 ↔ x.toModel.unpack.le (.zero .positive) = true := by
    rw [← hzero]
    exact decide_eq_true_iff
  have hlt : 0.0 < x ↔ (Float.Model.UnpackedFloat.zero .positive).lt x.toModel.unpack = true := by
    rw [← hzero]
    exact decide_eq_true_iff
  have hnan : x.isNaN = x.toModel.unpack.isNaN := rfl
  rw [PositiveOrNaN, hle, hlt, hnan]
  cases x.toModel.unpack with
  | notANumber => exact ⟨fun _ => .inr rfl, fun _ => nofun⟩
  | infinity s => cases s <;> decide
  | zero s => cases s <;> decide
  | finite s m e h =>
      cases s with
      | positive => exact ⟨fun _ => .inl rfl, fun _ => nofun⟩
      | negative => exact ⟨fun hle => absurd rfl hle, fun h => h.elim nofun nofun⟩

theorem isFraction_iff {x : Float32} : isFraction x = true ↔ 0.0 ≤ x ∧ x ≤ 1.0 := by
  rw [isFraction, Bool.and_eq_true, decide_eq_true_iff, decide_eq_true_iff]

end Single

/-! ## Kinds of schedules -/

namespace ScheduleKind

def name : ScheduleKind → String
  | cosine => "cosine"
  | warmup => "warmup"
  | stepDecay => "step_decay"
  | plateau => "plateau"

theorem ofName?_eq_some_iff {text : String} {kind : ScheduleKind} :
    ofName? text = some kind ↔ lowercase text = kind.name := by
  unfold ofName?
  constructor
  · intro h
    split at h
    · cases h
      assumption
    · cases h
      assumption
    · cases h
      assumption
    · cases h
      assumption
    · cases h
  · intro h
    rw [h]
    cases kind <;> rfl

/-- The parameter of that key makes a difference to the schedules of this kind. -/
def Reads (kind : ScheduleKind) (key : String) : Prop :=
  ∃ s s' : ScheduleSpec, s.rate = s'.rate ∧
    (∀ other, other ≠ key → s.parameter? other = s'.parameter? other) ∧
    s.schedule kind ≠ s'.schedule kind

theorem schedule_congr {s s' : ScheduleSpec} {kind : ScheduleKind} (hrate : s.rate = s'.rate)
    (hsame : ∀ key ∈ kind.parameters, s.parameter? key = s'.parameter? key) :
    s.schedule kind = s'.schedule kind := by
  cases kind with
  | cosine =>
      have hlowest := hsame "lr_min" (by decide)
      have hlength := hsame "t_max" (by decide)
      simp only [ScheduleSpec.schedule, ScheduleSpec.single, ScheduleSpec.natural, hrate, hlowest,
        hlength]
  | warmup =>
      have hlength := hsame "warmup_steps" (by decide)
      simp only [ScheduleSpec.schedule, ScheduleSpec.natural, hrate, hlength]
  | stepDecay =>
      have hgamma := hsame "gamma" (by decide)
      have hsize := hsame "step_size" (by decide)
      simp only [ScheduleSpec.schedule, ScheduleSpec.single, ScheduleSpec.natural, hrate, hgamma,
        hsize]
  | plateau =>
      have hlowest := hsame "lr_min" (by decide)
      have hfactor := hsame "factor" (by decide)
      have hpatience := hsame "patience" (by decide)
      have hdelta := hsame "min_delta" (by decide)
      simp only [ScheduleSpec.schedule, ScheduleSpec.single, ScheduleSpec.natural, hrate, hlowest,
        hfactor, hpatience, hdelta]

/-- It is enough that a one makes a difference, which is the default of no parameter. -/
theorem reads_of_one {kind : ScheduleKind} {key : String}
    (h : ({ name := "", rate := 1.0, parameters := [(key, .natural 1)] } : ScheduleSpec).schedule
        kind ≠ ({ name := "", rate := 1.0 } : ScheduleSpec).schedule kind) :
    kind.Reads key := by
  refine ⟨{ name := "", rate := 1.0, parameters := [(key, .natural 1)] },
    { name := "", rate := 1.0 }, rfl, fun other hother => ?_, h⟩
  rw [ScheduleSpec.parameter?, ScheduleSpec.parameter?, List.lookup_cons,
    beq_false_of_ne hother]

theorem mem_parameters_iff {kind : ScheduleKind} {key : String} :
    key ∈ kind.parameters ↔ kind.Reads key := by
  constructor
  · intro h
    refine reads_of_one ?_
    cases kind <;> simp only [parameters, List.mem_cons, List.not_mem_nil, or_false] at h
    · rcases h with rfl | rfl <;> exact mt Schedule.cosine.inj (by decide +kernel)
    · subst h
      exact mt Schedule.warmup.inj (by decide +kernel)
    · rcases h with rfl | rfl <;> exact mt Schedule.stepDecay.inj (by decide +kernel)
    · rcases h with rfl | rfl | rfl | rfl <;> exact mt Schedule.plateau.inj (by decide +kernel)
  · rintro ⟨s, s', hrate, hsame, hdiffers⟩
    refine Decidable.byContradiction fun hnot => ?_
    refine hdiffers (schedule_congr hrate fun other hother => hsame other ?_)
    rintro rfl
    exact hnot hother

end ScheduleKind

/-! ## The parts of a specification -/

theorem leastText?_eq_none_iff {texts : List String} : leastText? texts = none ↔ texts = [] := by
  cases texts with
  | nil => exact ⟨fun _ => rfl, fun _ => rfl⟩
  | cons first rest => exact ⟨nofun, nofun⟩

namespace ScheduleSpec

structure Acceptable (rateFits : Float32 → Prop) (kind : ScheduleKind) (s : ScheduleSpec) :
    Prop where
  name : lowercase s.name = kind.name
  parameters : ∀ key ∈ s.parameters.map Prod.fst, kind.Reads key
  rate : rateFits s.rate
  frequency : 0 < s.frequency
  monitored : kind = .plateau → s.monitor.isSome
  /-- An average over an epoch is none of the metrics of a step. -/
  monitor : s.interval = .step → ∀ metric, s.monitor = some metric → ¬ metric.endsWith "_epoch"

theorem unknownParameter?_eq_none_iff {s : ScheduleSpec} {kind : ScheduleKind} :
    s.unknownParameter? kind = none ↔ ∀ key ∈ s.parameters.map Prod.fst, kind.Reads key := by
  rw [unknownParameter?, leastText?_eq_none_iff, List.filter_eq_nil_iff]
  refine forall₂_congr fun key _ => ?_
  rw [← ScheduleKind.mem_parameters_iff, Bool.not_eq_true, Bool.not_eq_false',
    List.contains_iff_mem]

theorem earlyMonitor?_eq_none_iff {s : ScheduleSpec} :
    s.earlyMonitor? = none ↔
      (s.interval = .step → ∀ metric, s.monitor = some metric → ¬ metric.endsWith "_epoch") := by
  unfold earlyMonitor?
  cases s.interval with
  | step =>
      simp only [Option.filter_eq_none_iff, true_implies]
      exact Iff.rfl
  | epoch => simp

theorem check_eq_ok_iff {s : ScheduleSpec} :
    s.check = .ok () ↔ ∃ kind, s.Acceptable Single.PositiveOrNaN kind := by
  cases hkind : s.kind? with
  | none =>
      rw [check, hkind]
      refine ⟨nofun, ?_⟩
      rintro ⟨kind, hs⟩
      rw [kind?, ScheduleKind.ofName?_eq_some_iff.2 hs.name] at hkind
      cases hkind
  | some kind =>
      have hname : lowercase s.name = kind.name := ScheduleKind.ofName?_eq_some_iff.1 hkind
      have hchecks : s.check = .ok () ↔ s.unknownParameter? kind = none ∧ ¬ s.rate ≤ 0.0 ∧
          ¬ s.frequency = 0 ∧ ¬ (kind = .plateau ∧ s.monitor = none) ∧ s.earlyMonitor? = none := by
        rw [check, hkind]
        dsimp only
        cases s.unknownParameter? kind with
        | some key => exact ⟨nofun, nofun⟩
        | none =>
            simp only [refuse_eq_ok_iff, true_and]
            cases s.earlyMonitor? with
            | some metric => simp
            | none => simp [pure, Except.pure]
      rw [hchecks, unknownParameter?_eq_none_iff, Single.not_le_zero_iff,
        earlyMonitor?_eq_none_iff]
      constructor
      · rintro ⟨hparameters, hrate, hfrequency, hmonitored, hmonitor⟩
        exact ⟨kind, hname, hparameters, hrate, Nat.pos_of_ne_zero hfrequency,
          fun hplateau => Option.isSome_iff_ne_none.2 fun hnone => hmonitored ⟨hplateau, hnone⟩,
          hmonitor⟩
      · rintro ⟨kind', hs⟩
        obtain rfl : kind' = kind :=
          Option.some.inj ((ScheduleKind.ofName?_eq_some_iff.2 hs.name).symm.trans hkind)
        exact ⟨hs.parameters, hs.rate, Nat.ne_of_gt hs.frequency,
          fun hbare => Option.isSome_iff_ne_none.1 (hs.monitored hbare.1) hbare.2, hs.monitor⟩

end ScheduleSpec

structure Config.Acceptable (c : Config) : Prop where
  epochs : 0 < c.maxEpochs
  epochRange : c.minEpochs ≤ c.maxEpochs
  stepRange : ∀ least most, c.minSteps = some least → c.maxSteps = some most → least ≤ most
  limit : ∀ f, c.limitTrainBatches = .fraction f → 0.0 ≤ f ∧ f ≤ 1.0
  interval : ∀ f, c.valCheckInterval = .fraction f → 0.0 ≤ f ∧ f ≤ 1.0
  intervalCount : c.valCheckInterval ≠ .batches 0
  accumulation : 0 < c.accumulateGradBatches
  logging : 0 < c.logEveryNSteps
  flushing : 0 < c.flushLogsEveryNSteps

structure SyntheticModel.Acceptable (m : SyntheticModel) : Prop where
  optimizers : 0 < m.optimizers
  splits : 0 < m.splits
  decay : 0.0 ≤ m.decay ∧ m.decay ≤ 1.0

theorem SyntheticModel.check_eq_ok_iff {m : SyntheticModel} :
    m.check = .ok () ↔ m.Acceptable := by
  rw [check]
  simp only [refuse_eq_ok_iff]
  change _ ∧ (if (!Single.isFraction m.decay) = true then Except.error _ else .ok ()) = _ ↔ _
  rw [refuseLast_eq_ok_iff, Bool.not_eq_true', Bool.not_eq_false, Single.isFraction_iff, not_or]
  constructor
  · rintro ⟨⟨hoptimizers, hsplits⟩, hdecay⟩
    exact ⟨Nat.pos_of_ne_zero hoptimizers, Nat.pos_of_ne_zero hsplits, hdecay⟩
  · rintro ⟨hoptimizers, hsplits, hdecay⟩
    exact ⟨⟨Nat.ne_of_gt hoptimizers, Nat.ne_of_gt hsplits⟩, hdecay⟩

namespace LoopSpec

theorem checkPositive_eq_ok_iff {setting : String} {n : Nat} :
    checkPositive setting n = .ok () ↔ 0 < n := by
  rw [checkPositive, refuseLast_eq_ok_iff, Nat.pos_iff_ne_zero]

theorem checkFraction_eq_ok_iff {setting : String} {limit : BatchLimit} :
    checkFraction setting limit = .ok () ↔
      ∀ f, limit = .fraction f → 0.0 ≤ f ∧ f ≤ 1.0 := by
  cases limit with
  | batches n => exact ⟨fun _ => nofun, fun _ => rfl⟩
  | fraction f =>
      simp only [checkFraction]
      split
      · rename_i hfraction
        refine ⟨fun _ f' hsame => ?_, fun _ => rfl⟩
        cases hsame
        exact Single.isFraction_iff.1 hfraction
      · rename_i hfraction
        exact ⟨nofun, fun h => absurd (Single.isFraction_iff.2 (h f rfl)) hfraction⟩

theorem checkInterval_eq_ok_iff {setting : String} {limit : BatchLimit} :
    checkInterval setting limit = .ok () ↔
      (∀ f, limit = .fraction f → 0.0 ≤ f ∧ f ≤ 1.0) ∧ limit ≠ .batches 0 := by
  by_cases hzero : limit = .batches 0
  · rw [hzero]
    exact ⟨nofun, fun h => absurd rfl h.2⟩
  · have hsame : checkInterval setting limit = checkFraction setting limit := by
      unfold checkInterval
      split
      · exact absurd rfl hzero
      · rfl
    rw [hsame, checkFraction_eq_ok_iff]
    exact ⟨fun h => ⟨h, hzero⟩, fun h => h.1⟩

theorem checkTrainer_eq_ok_iff {c : Config} : checkTrainer c = .ok () ↔ c.Acceptable := by
  have hchecks : checkTrainer c = .ok () ↔ ¬ c.maxEpochs = 0 ∧ ¬ c.maxEpochs < c.minEpochs ∧
      (∀ least most, c.minSteps = some least → c.maxSteps = some most → least ≤ most) ∧
      (∀ f, c.limitTrainBatches = .fraction f → 0.0 ≤ f ∧ f ≤ 1.0) ∧
      ((∀ f, c.valCheckInterval = .fraction f → 0.0 ≤ f ∧ f ≤ 1.0) ∧
        c.valCheckInterval ≠ .batches 0) ∧
      0 < c.accumulateGradBatches ∧ 0 < c.logEveryNSteps ∧ 0 < c.flushLogsEveryNSteps := by
    rw [checkTrainer]
    simp only [refuse_eq_ok_iff]
    -- the bounds of the steps are compared where both are set
    rcases c.minSteps with _ | least <;> rcases c.maxSteps with _ | most <;>
      simp [refuse_eq_ok_iff, bind_eq_ok_iff, checkFraction_eq_ok_iff, checkInterval_eq_ok_iff,
        checkPositive_eq_ok_iff]
  rw [hchecks]
  constructor
  · rintro ⟨hepochs, hrange, hsteps, hlimit, ⟨hinterval, hcount⟩, haccumulation, hlogging,
      hflushing⟩
    exact ⟨Nat.pos_of_ne_zero hepochs, Nat.le_of_not_lt hrange, hsteps, hlimit, hinterval, hcount,
      haccumulation, hlogging, hflushing⟩
  · intro h
    exact ⟨Nat.ne_of_gt h.epochs, Nat.not_lt_of_le h.epochRange, h.stepRange, h.limit,
      ⟨h.interval, h.intervalCount⟩, h.accumulation, h.logging, h.flushing⟩

theorem checkSchedules_eq_ok_iff {schedules : List ScheduleSpec} :
    checkSchedules schedules = .ok () ↔ ∀ s ∈ schedules, s.check = .ok () := by
  induction schedules with
  | nil => exact ⟨fun _ => nofun, fun _ => rfl⟩
  | cons s rest ih => rw [checkSchedules, bind_eq_ok_iff, ih, List.forall_mem_cons]

theorem check_eq_ok_iff {s : LoopSpec} :
    s.check = .ok () ↔ s.trainer.Acceptable ∧ (∀ schedule ∈ s.schedules, schedule.check = .ok ()) ∧
      s.simulation.model.Acceptable := by
  rw [check, bind_eq_ok_iff, bind_eq_ok_iff, checkTrainer_eq_ok_iff, checkSchedules_eq_ok_iff,
    mapError_eq_ok_iff, SyntheticModel.check_eq_ok_iff]

/-- A specification that says what its settings ask for, where `rateFits` is asked of the learning
rates. -/
structure Acceptable (rateFits : Float32 → Prop) (s : LoopSpec) : Prop where
  trainer : s.trainer.Acceptable
  schedules : ∀ schedule ∈ s.schedules, ∃ kind, schedule.Acceptable rateFits kind
  model : s.simulation.model.Acceptable

/-- Validation accepts just the specifications that can be followed, but for learning rates that
are NaN, which pass for positive ones. -/
theorem check_accepts_iff {s : LoopSpec} : s.check = .ok () ↔ s.Acceptable Single.PositiveOrNaN := by
  rw [check_eq_ok_iff]
  simp only [ScheduleSpec.check_eq_ok_iff]
  exact ⟨fun ⟨htrainer, hschedules, hmodel⟩ => ⟨htrainer, hschedules, hmodel⟩,
    fun ⟨htrainer, hschedules, hmodel⟩ => ⟨htrainer, hschedules, hmodel⟩⟩

def nanRate : LoopSpec := { schedules := [{ name := "cosine", rate := 0.0 / 0.0 }] }

/-- A rate has to be above zero, and that of `nanRate` is not. -/
theorem check_accepts_nanRate : nanRate.check = .ok () ∧ ¬ nanRate.Acceptable (0.0 < ·) := by
  have hrate : ¬ (0.0 : Float32) < 0.0 / 0.0 := by decide +kernel
  refine ⟨by rfl, fun h => ?_⟩
  obtain ⟨kind, hs⟩ := h.schedules _ List.mem_cons_self
  exact hrate hs.rate

end LoopSpec

end TrainingLoop
