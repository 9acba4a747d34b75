import TrainingLoop.Proofs.Run.Unlogged
import TrainingLoop.Proofs.Run.Synthetic
import TrainingLoop.Proofs.Spec.Validation
/-!
# Accepted specifications run to completion

What validation accepts can be built, and a simulation of it returns where no metric can be missing,
no file can fail and validation is not asked for beyond the end of an epoch
(`simulate_completes`). How far such a run gets is bounded by the data of its epochs.
-/

namespace TrainingLoop

open Stateful

variable {σ W β : Type}

/-! ## How far a run gets -/

namespace EpochStep

variable {setup : Setup W β} {loop : BatchLoop σ β} {horizon n : Nat} {r r' : EpochRun σ W β}

theorem batches_pulls {B : Batches β} {kept result : KeptOutputs} (hat : r.AtBatch B 0)
    (hlength : B.length = some n)
    (h : (batches setup loop horizon kept).runOn r = (.ok (some result), r')) :
    r'.progress.totalBatches ≤ r.progress.totalBatches + n := by
  have hstep : ∀ b r₀ (kept more : KeptOutputs) r₁ r₂,
      (r₀.AtBatch B b ∧ r₀.progress.totalBatches = r.progress.totalBatches + b) →
      r₀.isDone loop = false → (advance setup loop).runOn r₀ = (.ok (.completed more), r₁) →
      (advanceEnd setup loop).runOn r₁ = (.ok (), r₂) →
      (r₂.AtBatch B (b + 1) ∧ r₂.progress.totalBatches = r.progress.totalBatches + (b + 1)) := by
    rintro b r₀ kept more r₁ r₂ ⟨hat₀, htotal⟩ - hadvance hend
    refine ⟨step_at hat₀ hadvance hend, ?_⟩
    obtain ⟨t₁, t₂, globalStep, -, -, -, -, rfl⟩ := advanceEnd_parts hend
    cases advance_ok hadvance with
    | completed hphase hnext hrun hproceeds htrainer =>
        change r₀.progress.totalBatches + 1 = _
        omega
  obtain ⟨kept', b, r₀, -, ⟨hat₀, htotal⟩, hends⟩ | ⟨kept', hnone, -⟩ :=
    batches_ok hstep (n := 0) ⟨hat, rfl⟩ h
  · have hwithin := hat₀.within n hlength
    cases hends with
    | done hdone => omega
    | skipped hgoes hskipped =>
        cases advance_ok hskipped with
        | skipped hphase hnext hrun hstops htrainer =>
            have hpulled := (pull_at hat₀ hphase hnext).2.within n hlength
            change r₀.progress.totalBatches + 1 ≤ _
            omega
    | exhausted hgoes hexhausted =>
        cases advance_ok hexhausted with
        | exhausted hphase hnext =>
            change r₀.progress.totalBatches ≤ _
            omega
  · cases hnone

theorem run_pulls {data : Batches β} {outputs : Processed}
    (hlength : (setup.accelerator.prepare data r.trainer.world).1.length = some n)
    (h : (run setup loop horizon data).runOn r = (.ok (some outputs), r')) :
    r'.progress.totalBatches ≤ r.progress.totalBatches + n := by
  obtain ⟨kept, r₁, hbatches, hfinish⟩ := run_ok h
  obtain ⟨-, trainer, -, -, rfl⟩ := finish_ok hfinish
  have hpulled := batches_pulls (start_at setup data r) hlength hbatches
  exact hpulled

end EpochStep

namespace FitStep

variable {setup : Setup W β} {loop : BatchLoop σ β} {horizon n : Nat} {data : Nat → Batches β}
  {r r' : FitRun σ W β}

def LengthWithin (setup : Setup W β) (data : Nat → Batches β) (n : Nat) : Prop :=
  ∀ epoch world, ∃ m ≤ n, (setup.accelerator.prepare (data epoch) world).1.length = some m

theorem nextEpoch_pulls {outputs : Processed} (hlength : LengthWithin setup data n)
    (h : (nextEpoch setup loop horizon data).runOn r = (.ok (some outputs), r')) :
    r'.progress.totalBatches ≤ r.progress.totalBatches + n := by
  obtain ⟨t₁, t₂, e, -, -, hepoch, hclose⟩ := nextEpoch_begins h
  obtain ⟨m, hm, hprepared⟩ := hlength r.currentEpoch t₂.world
  have hpulled := EpochStep.run_pulls hprepared hepoch
  rw [closeEpoch_progress (hclose rfl)]
  change e.progress.totalBatches ≤ _
  change e.progress.totalBatches ≤ r.progress.totalBatches + m at hpulled
  omega

/-- A run that returns has no more epochs than it may have, and no more batches than they have. -/
theorem run_extent {fit : FitResult} (hlength : LengthWithin setup data n)
    (hstart : r.currentEpoch ≤ setup.config.maxEpochs)
    (h : (run setup loop horizon data).runOn r = (.ok (some fit), r')) :
    r.currentEpoch + fit.epochsCompleted ≤ setup.config.maxEpochs ∧
      fit.progress.totalBatches ≤ r.progress.totalBatches + fit.epochsCompleted * n := by
  obtain ⟨worker, r₁, reason, completed, -, hran, -, hepochs, hprogress⟩ := run_returns h
  have hextent := hran.preserves (J := fun r₀ c => r₀.currentEpoch ≤ setup.config.maxEpochs ∧
    r₀.progress.totalBatches ≤ r.progress.totalBatches + c.epochs * n) ?_ ⟨hstart, ?_⟩
  · have hcurrent : r₁.currentEpoch + 0 = r.currentEpoch + completed.epochs := hran.currentEpoch
    rw [hepochs, hprogress]
    exact ⟨by omega, hextent.2⟩
  · rintro r₀ c outputs r₂ ⟨-, htotal⟩ hgoes hepoch
    obtain ⟨hbelow, -⟩ := FitRun.limitReached?_eq_none.1 (FitRun.stopReason?_eq_none.1 hgoes).1
    have hnext := nextEpoch_currentEpoch hepoch
    have hpulled := nextEpoch_pulls hlength hepoch
    rw [declineStop_currentEpoch] at hnext
    rw [declineStop_progress] at hpulled
    refine ⟨by omega, ?_⟩
    rw [Nat.add_mul, Nat.one_mul]
    omega
  · change r.progress.totalBatches ≤ _
    omega

end FitStep

/-! ## What is accepted can be built -/

theorem Config.checkLimit_eq_ok {name : String} {limit : BatchLimit}
    (h : ∀ f, limit = .fraction f → 0.0 ≤ f ∧ f ≤ 1.0) : checkLimit name limit = .ok () := by
  cases limit with
  | batches n => rfl
  | fraction f =>
      simp only [checkLimit]
      rw [if_pos (Single.isFraction_iff.2 (h f rfl))]

theorem Config.Acceptable.check {c : Config} (h : c.Acceptable) : c.check = .ok () := by
  have hsteps : c.checkSteps = .ok () := by
    unfold checkSteps
    split
    · rename_i least most hleast hmost
      exact if_neg (Nat.not_lt_of_le (h.stepRange least most hleast hmost))
    · rfl
  rw [Config.check, if_neg (Nat.ne_of_gt h.accumulation),
    if_neg (Nat.not_lt_of_le h.epochRange), hsteps, checkLimit_eq_ok h.limit]
  exact checkLimit_eq_ok h.interval

namespace ScheduleSpec

theorem build_of_check {s : ScheduleSpec} (h : s.check = .ok ()) :
    ∃ rate, s.build = .ok rate ∧ rate.monitor = s.monitor := by
  obtain ⟨kind, hs⟩ := check_eq_ok_iff.1 h
  have hkind : s.kind? = some kind := ScheduleKind.ofName?_eq_some_iff.2 hs.name
  rw [build, hkind]
  cases s.monitor with
  | none => exact ⟨_, rfl, rfl⟩
  | some key => exact ⟨_, rfl, rfl⟩

end ScheduleSpec

namespace LoopSpec

variable {s : LoopSpec} {file : String → LogFile}

theorem config_of_check (h : s.check = .ok ()) : s.config = .ok s.trainer := by
  rw [config, (check_eq_ok_iff.1 h).1.check]
  rfl

theorem buildBoard_of_check {schedules : List ScheduleSpec}
    (h : ∀ schedule ∈ schedules, schedule.check = .ok ()) (b : RateBoard) :
    ∃ board, buildBoard schedules b = .ok board ∧ ∀ rate ∈ board.rates,
      rate ∈ b.rates ∨ ∃ schedule ∈ schedules, rate.monitor = schedule.monitor := by
  induction schedules generalizing b with
  | nil => exact ⟨b, rfl, fun rate hrate => .inl hrate⟩
  | cons s rest ih =>
      rw [List.forall_mem_cons] at h
      obtain ⟨rate, hbuild, hmonitor⟩ := ScheduleSpec.build_of_check h.1
      obtain ⟨board, hboard, hrates⟩ := ih h.2 (b.add rate)
      refine ⟨board, by rw [buildBoard, hbuild]; exact hboard, fun other hother => ?_⟩
      rcases hrates other hother with hadded | ⟨schedule, hschedule, hsame⟩
      · rcases List.mem_append.1 hadded with hbefore | hlast
        · exact .inl hbefore
        · obtain rfl : other = rate := List.mem_singleton.1 hlast
          exact .inr ⟨s, List.mem_cons_self, hmonitor⟩
      · exact .inr ⟨schedule, List.mem_cons_of_mem _ hschedule, hsame⟩

theorem accept_of_check (h : s.check = .ok ()) :
    ∃ board, s.accept = .ok board ∧ ∀ rate ∈ board.rates,
      ∃ schedule ∈ s.schedules, rate.monitor = schedule.monitor := by
  obtain ⟨board, hboard, hrates⟩ := buildBoard_of_check (check_eq_ok_iff.1 h).2.1 .empty
  refine ⟨board, ?_, fun rate hrate => (hrates rate hrate).resolve_left nofun⟩
  rw [accept, h, config_of_check h]
  exact hboard

theorem accept_unmonitored (h : s.check = .ok ())
    (hmonitors : ∀ schedule ∈ s.schedules, schedule.monitor = none) :
    ∃ board, s.accept = .ok board ∧ ∀ rate ∈ board.rates, rate.monitor = none := by
  obtain ⟨board, haccept, hrates⟩ := accept_of_check h
  refine ⟨board, haccept, fun rate hrate => ?_⟩
  obtain ⟨schedule, hschedule, hsame⟩ := hrates rate hrate
  rw [hsame, hmonitors schedule hschedule]

/-! ## A simulation returns -/

theorem reliable_setup (s : LoopSpec) : s.setup.Reliable where
  model := by
    change (modelHooks s).Reliable
    unfold modelHooks
    split
    · refine ⟨fun call action h => ?_, ?_⟩
      · cases call <;> cases h
      · rintro _ ⟨⟩ outputs world
        exact ⟨_, rfl⟩
    · exact ModelHooks.reliable_default
  respond _ world := ⟨(), world, rfl⟩
  evaluator evaluator h := by
    change (if s.simulation.evaluate then some s.evaluator else none) = _ at h
    split at h
    · cases h
      exact fun epoch globalStep world => ⟨_, _, rfl⟩
    · cases h

/-- Validation is asked for at the end of an epoch at the latest. -/
def IntervalFits (s : LoopSpec) : Prop :=
  ∀ k, s.trainer.valCheckInterval = .batches k →
    ∃ N, s.trainer.limitTrainBatches.resolveBatches (some s.simulation.model.batchesPerEpoch) =
      .ok (.finite N) ∧ k ≤ N

theorem resolves_of_intervalFits (h : s.IntervalFits) : FitStep.Resolves s.trainer s.data := by
  intro epoch
  have hlength : (s.data epoch).knownLength = some s.simulation.model.batchesPerEpoch := by
    simp [data, Batches.exact, Batches.knownLength]
  rw [hlength]
  have hresolves : ∃ N, s.trainer.limitTrainBatches.resolveBatches
      (some s.simulation.model.batchesPerEpoch) = .ok (.finite N) := by
    cases s.trainer.limitTrainBatches <;> exact ⟨_, rfl⟩
  cases hinterval : s.trainer.valCheckInterval with
  | fraction f =>
      obtain ⟨N, hN⟩ := hresolves
      exact ⟨.finite N, _, hN, rfl⟩
  | batches k =>
      obtain ⟨N, hN, hk⟩ := h k hinterval
      exact ⟨.finite N, .finite k, hN, if_neg (Nat.not_lt_of_le hk)⟩

theorem start_reliable {board : RateBoard} (hmonitors : ∀ rate ∈ board.rates, rate.monitor = none)
    (hpath : s.logging.metricsPath = none) : (s.start board file).trainer.Reliable where
  monitor := hmonitors
  sink := by
    intro sink hsink
    change s.logging.metricsPath.map _ = some sink at hsink
    rw [hpath] at hsink
    cases hsink

/-- An accepted specification can be built. Its simulation returns if no schedule monitors a metric,
no metrics file is written and validation is not asked for beyond the end of an epoch, and it has no
more epochs and no more batches than it may have. -/
theorem simulate_completes (hcheck : s.check = .ok ()) :
    s.config = .ok s.trainer ∧
    (∀ schedule ∈ s.schedules, ∃ rate, schedule.build = .ok rate) ∧
    ((∀ schedule ∈ s.schedules, schedule.monitor = none) → s.logging.metricsPath = none →
      s.IntervalFits →
      ∃ report, (s.simulate file).result = .ok (some report) ∧
        report.fit.epochsCompleted ≤ s.trainer.maxEpochs ∧
        report.fit.progress.totalBatches ≤
          s.trainer.maxEpochs * s.simulation.model.batchesPerEpoch) := by
  refine ⟨config_of_check hcheck, fun schedule hschedule => ?_, fun hmonitors hpath hfits => ?_⟩
  · obtain ⟨rate, hbuild, -⟩ :=
      ScheduleSpec.build_of_check ((check_eq_ok_iff.1 hcheck).2.1 schedule hschedule)
    exact ⟨rate, hbuild⟩
  obtain ⟨board, haccept, hunmonitored⟩ := accept_unmonitored hcheck hmonitors
  obtain ⟨fit?, r', hrun, -⟩ := FitStep.run_succeeds (reliable_setup s)
    (reliable_batchLoop s.simulation.model) (resolves_of_intervalFits hfits)
    (check_eq_ok_iff.1 hcheck).1.check s.horizon (s.start board file)
    (start_reliable hunmonitored hpath)
  have hresult : (s.simulate file).result =
      .ok (fit?.map fun fit => report fit r'.trainer) := by
    rw [simulate, haccept]
    dsimp only
    rw [hrun]
    rfl
  cases fit? with
  | none => exact absurd hresult (simulate_settles s file)
  | some fit =>
      have hlength : FitStep.LengthWithin s.setup s.data s.simulation.model.batchesPerEpoch :=
        fun _ _ => ⟨_, Nat.le_refl _, rfl⟩
      obtain ⟨hepochs, hbatches⟩ := FitStep.run_extent hlength (Nat.zero_le _) hrun
      change 0 + fit.epochsCompleted ≤ s.trainer.maxEpochs at hepochs
      change fit.progress.totalBatches ≤ 0 + fit.epochsCompleted * _ at hbatches
      rw [Nat.zero_add] at hepochs hbatches
      refine ⟨_, hresult, hepochs, ?_⟩
      calc fit.progress.totalBatches
        _ ≤ fit.epochsCompleted * s.simulation.model.batchesPerEpoch := hbatches
        _ ≤ s.trainer.maxEpochs * s.simulation.model.batchesPerEpoch :=
          Nat.mul_le_mul_right _ hepochs

def everyThird : LoopSpec :=
  { trainer := { maxEpochs := 3, limitTrainBatches := .batches 4, valCheckInterval := .batches 3 }
    schedules := [{ name := "Cosine", rate := 0.5, parameters := [("t_max", .natural 3)] }]
    simulation := { model := { batchesPerEpoch := 6 } } }

/-- The limits of an epoch are settled against its data, so a simulation of six batches returns. -/
theorem simulate_completes_everyThird :
    ∃ report, (everyThird.simulate fun _ => {}).result = .ok (some report) ∧
      report.fit.epochsCompleted ≤ 3 ∧ report.fit.progress.totalBatches ≤ 3 * 6 := by
  have hcheck : everyThird.check = .ok () := by rfl
  have hmonitors : ∀ schedule ∈ everyThird.schedules, schedule.monitor = none := by
    simp [everyThird]
  have hfits : everyThird.IntervalFits := by
    rintro _ ⟨⟩
    exact ⟨4, rfl, by decide⟩
  exact (simulate_completes hcheck).2.2 hmonitors rfl hfits

end LoopSpec

end TrainingLoop
