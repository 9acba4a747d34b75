import TrainingLoop.Proofs.Rate.Ticks
import TrainingLoop.Proofs.Run.Fit
/-!
# Schedules and counters in lockstep

The ticks of a run are told apart by interval: those of the step schedules come one to an optimizer
step, those of the epoch schedules one to a completed epoch. With what `Rate.Ticks` says about a
sequence of ticks this fixes how often every schedule of a run advances.
-/

namespace TrainingLoop

variable {σ W β : Type}

def RunEvent.ticked? : RunEvent β → Option Interval
  | .ratesTicked interval => some interval
  | _ => none

/-! ## Ticks of a trainer -/

namespace Trainer

/-- The second trainer comes from the first by the given ticks, none of which fails. -/
structure Ticked (ticks : List RateTick) (t t' : Trainer W β) : Prop where
  rates : t'.board.rates = t.board.rates.map (·.afterAll ticks)
  takes : ∀ s ∈ t.board.rates, s.TakesAll ticks
  events : ∃ new, t'.events.toList = t.events.toList ++ new ∧
    new.filterMap RunEvent.ticked? = ticks.map RateTick.interval

namespace Ticked

variable {ticks more : List RateTick} {t t' t'' : Trainer W β}

theorem of_events (hboard : t'.board = t.board)
    (hevents : ∃ new, t'.events.toList = t.events.toList ++ new ∧
      ∀ event ∈ new, event.ticked? = none) :
    Ticked [] t t' := by
  obtain ⟨new, hnew, hnone⟩ := hevents
  refine ⟨by simp [hboard, ScheduledRate.afterAll], fun _ _ => trivial, new, hnew, ?_⟩
  simpa [List.filterMap_eq_nil_iff] using hnone

theorem of_eq (hboard : t'.board = t.board) (hevents : t'.events = t.events) : Ticked [] t t' :=
  of_events hboard ⟨[], by simp [hevents], by simp⟩

theorem record {event : RunEvent β} (h : event.ticked? = none) (t : Trainer W β) :
    Ticked [] t (t.record event) :=
  of_events rfl ⟨[event], Journal.toList_push _ _, by simpa using h⟩

theorem of_follows {P : RunEvent β → Prop} (hP : ∀ event, P event → event.ticked? = none)
    (h : Follows P t t') : Ticked [] t t' := by
  obtain ⟨new, hnew, hall⟩ := h.events
  have hboard : t'.board = t.board :=
    h.board fun interval hp => by simpa [RunEvent.ticked?] using hP _ hp
  exact of_events hboard ⟨new, hnew, fun event hevent => hP event (hall event hevent)⟩

theorem of_hooks (h : Follows RunEvent.IsHook t t') : Ticked [] t t' :=
  of_follows (fun event hevent => by cases event <;> first | rfl | cases hevent) h

theorem of_validation (h : Follows RunEvent.IsValidation t t') : Ticked [] t t' :=
  of_follows (fun event hevent => by cases event <;> first | rfl | cases hevent) h

theorem trans (h : Ticked ticks t t') (h' : Ticked more t' t'') :
    Ticked (ticks ++ more) t t'' := by
  obtain ⟨new, hnew, hticks⟩ := h.events
  obtain ⟨new', hnew', hmore⟩ := h'.events
  refine ⟨?_, ?_, new ++ new', ?_, ?_⟩
  · rw [h'.rates, h.rates, List.map_map]
    exact List.map_congr_left fun s _ => (s.afterAll_append ticks more).symm
  · intro s hs
    have hlater : s.afterAll ticks ∈ t'.board.rates := by
      rw [h.rates]
      exact List.mem_map_of_mem hs
    exact ScheduledRate.takesAll_append.2 ⟨h.takes s hs, h'.takes _ hlater⟩
  · rw [hnew', hnew, List.append_assoc]
  · rw [List.filterMap_append, hticks, hmore, List.map_append]

theorem tick {interval : Interval} (h : (TrainerStep.tickRates interval).runOn t = (.ok (), t')) :
    Ticked [⟨interval, t.log.latest⟩] t t' := by
  obtain ⟨⟨advanced, hadvanced⟩, hboard, hevents⟩ := TrainerStep.tickRates_ok h
  obtain ⟨hrates, htakes⟩ := RateBoard.tickAll_ok hadvanced
  refine ⟨?_, fun s hs => ⟨htakes s hs, trivial⟩, [.ratesTicked interval], hevents, rfl⟩
  rw [hboard]
  exact hrates

end Ticked

end Trainer

/-! ## Step ticks of an epoch -/

namespace EpochRun

structure InStep (ticks : List RateTick) (r r' : EpochRun σ W β) : Prop where
  trainer : Trainer.Ticked ticks r.trainer r'.trainer
  interval : ∀ t ∈ ticks, t.interval = .step
  globalStep : r'.progress.globalStep = r.progress.globalStep + ticks.length

theorem InStep.trans {ticks more : List RateTick} {r r' r'' : EpochRun σ W β}
    (h : InStep ticks r r') (h' : InStep more r' r'') : InStep (ticks ++ more) r r'' := by
  refine ⟨h.trainer.trans h'.trainer, ?_, ?_⟩
  · intro t ht
    exact (List.mem_append.1 ht).elim (h.interval t) (h'.interval t)
  · rw [h'.globalStep, h.globalStep, List.length_append, Nat.add_assoc]

theorem InStep.of_trainer {r r' : EpochRun σ W β} (h : Trainer.Ticked [] r.trainer r'.trainer)
    (hstep : r'.progress.globalStep = r.progress.globalStep) : InStep [] r r' :=
  ⟨h, by simp, by simp [hstep]⟩

structure StepTicked (counts : Prop) (ticks : List RateTick) (r r' : EpochRun σ W β) : Prop where
  trainer : Trainer.Ticked ticks r.trainer r'.trainer
  interval : ∀ t ∈ ticks, t.interval = .step
  inStep : counts → InStep ticks r r'

namespace StepTicked

variable {counts : Prop} {ticks more : List RateTick} {r r' r'' : EpochRun σ W β}

theorem of_inStep (h : InStep ticks r r') : StepTicked counts ticks r r' :=
  ⟨h.trainer, h.interval, fun _ => h⟩

theorem trans (h : StepTicked counts ticks r r') (h' : StepTicked counts more r' r'') :
    StepTicked counts (ticks ++ more) r r'' :=
  ⟨h.trainer.trans h'.trainer, List.forall_mem_append.2 ⟨h.interval, h'.interval⟩,
    fun hcounts => (h.inStep hcounts).trans (h'.inStep hcounts)⟩

end StepTicked

end EpochRun

namespace EpochStep

open Trainer EpochRun

theorem start_inStep (setup : Setup W β) (data : Batches β) (r : EpochRun σ W β) :
    InStep [] r (r.start setup data) :=
  .of_trainer (.of_eq rfl rfl) rfl

theorem pull_inStep (handed : Handed β) (feed : Feed β) (r : EpochRun σ W β) :
    InStep [] r (r.pull handed feed) :=
  .of_trainer (.record rfl r.trainer) rfl

theorem isTraining_ticked? {event : RunEvent β} (h : event.IsTraining) : event.ticked? = none := by
  cases event <;> first | rfl | cases h

theorem advance_inStep {loop : BatchLoop σ β} {r r' : EpochRun σ W β} {outcome : Advance}
    (h : Advanced loop r outcome r') : InStep [] r r' := by
  cases h with
  | exhausted hphase hnext => exact .of_trainer (.of_eq rfl rfl) rfl
  | @skipped feed feed' handed output worker trainer hphase hnext hrun hstops htrainer =>
      have htrained : Ticked [] (r.pull handed feed').trainer trainer :=
        .of_follows (fun _ => isTraining_ticked?) htrainer
      have hskip : Ticked [] trainer
          (({ r.pull handed feed' with trainer, worker }.skip handed.index).trainer) :=
        (Ticked.record rfl trainer).trans (.of_eq rfl rfl)
      exact .of_trainer ((pull_inStep handed feed' r).trainer.trans (htrained.trans hskip)) rfl
  | @completed feed feed' handed output worker trainer hphase hnext hrun hproceeds htrainer =>
      have htrained : Ticked [] (r.pull handed feed').trainer trainer :=
        .of_follows (fun _ => isTraining_ticked?) htrainer
      exact .of_trainer ((pull_inStep handed feed' r).trainer.trans htrained) rfl

/-- An optimizer step is one tick and, as far as it is counted, one step of the counter. -/
theorem takeStep_ticked {setup : Setup W β} {r r' : EpochRun σ W β}
    (h : (takeStep setup).runOn r = (.ok (), r')) :
    StepTicked setup.accelerator.CountsSteps [⟨.step, r.trainer.log.latest⟩] r r' := by
  obtain ⟨t₁, t₂, globalStep, htick, hnext, rfl⟩ := takeStep_ok h
  have hticked : Ticked [⟨.step, r.trainer.log.latest⟩] r.trainer t₁ := .tick htick
  have hfollows : Follows (fun event => event.ticked? = none) t₁.markTrained t₂ :=
    (TrainerStep.nextStep_keeps _ _ fun _ _ => rfl).of_ok hnext
  have hmarked : Ticked [] t₁ t₂ :=
    .of_follows (fun _ => id) ((Follows.markTrained t₁).trans hfollows)
  refine ⟨hticked.trans hmarked, by simp, fun hcounts => ⟨hticked.trans hmarked, by simp, ?_⟩⟩
  obtain ⟨hstep, -⟩ := TrainerStep.nextStep_ok hnext
  rw [hcounts] at hstep
  simpa using hstep

/-- What follows a completed batch ticks the step schedules just if it counts a step. -/
theorem advanceEnd_ticked {setup : Setup W β} {loop : BatchLoop σ β} {r r' : EpochRun σ W β}
    (h : (advanceEnd setup loop).runOn r = (.ok (), r')) :
    ∃ ticks, StepTicked setup.accelerator.CountsSteps ticks r r' := by
  obtain ⟨r₁, r₂, hevaluate, hflush, hlast⟩ := advanceEnd_ok h
  have hbefore : InStep [] r r₂ := by
    obtain ⟨t₁, rfl, hvalidated, -⟩ := evaluateBatch_ok hevaluate
    obtain ⟨t₂, hf₂, rfl⟩ := onTrainer_ok (P := fun event => event.ticked? = none)
      (TrainerStep.flush_keeps _ rfl fun _ => rfl) hflush
    exact .of_trainer ((Ticked.of_validation hvalidated).trans (.of_follows (fun _ => id) hf₂)) rfl
  split at hlast
  · exact ⟨_, (StepTicked.of_inStep hbefore).trans (takeStep_ticked hlast)⟩
  · subst hlast
    refine ⟨[], .of_inStep (hbefore.trans (.of_trainer ?_ rfl))⟩
    exact .of_follows (P := fun event => event.ticked? = none) (fun _ => id) (.markTrained _)

theorem ends_inStep {setup : Setup W β} {loop : BatchLoop σ β} {r r' : EpochRun σ W β}
    (h : Ends setup loop r r') : InStep [] r r' := by
  cases h with
  | done hdone => exact .of_trainer (.of_eq rfl rfl) rfl
  | skipped hdone hskipped => exact advance_inStep (advance_ok hskipped)
  | exhausted hdone hexhausted => exact advance_inStep (advance_ok hexhausted)

theorem run_ticked {setup : Setup W β} {loop : BatchLoop σ β} {horizon : Nat} {data : Batches β}
    {r r' : EpochRun σ W β} {outputs : Processed}
    (h : (run setup loop horizon data).runOn r = (.ok (some outputs), r')) :
    ∃ ticks, StepTicked setup.accelerator.CountsSteps ticks r r' := by
  obtain ⟨kept, r₁, hbatches, hfinish⟩ := run_ok h
  have hloop : ∃ ticks, StepTicked setup.accelerator.CountsSteps ticks r r₁ := by
    have hrule := batches_ok (I := fun _ r₀ _ =>
        ∃ ticks, StepTicked setup.accelerator.CountsSteps ticks r r₀)
      (fun n r₀ kept more r₂ r₃ hI hdone hadvance hend => by
        obtain ⟨ticks, hticks⟩ := hI
        obtain ⟨more, hmore⟩ := advanceEnd_ticked hend
        have hadvanced := advance_inStep (advance_ok hadvance)
        exact ⟨_, hticks.trans (.trans (.of_inStep hadvanced) hmore)⟩)
      (n := 0) ⟨[], .of_inStep (start_inStep setup data r)⟩ hbatches
    rcases hrule with ⟨kept', m, r₀, -, ⟨ticks, hticks⟩, hends⟩ | ⟨kept', hnone, -⟩
    · exact ⟨_, hticks.trans (.of_inStep (ends_inStep hends))⟩
    · cases hnone
  obtain ⟨ticks, hticks⟩ := hloop
  obtain ⟨-, trainer, hfollows, -, rfl⟩ := finish_ok hfinish
  have hlast : InStep [] r₁ { r₁ with trainer, phase := .done } :=
    .of_trainer (.of_hooks hfollows) rfl
  exact ⟨_, hticks.trans (.of_inStep hlast)⟩

end EpochStep

/-! ## All ticks of a run -/

namespace FitRun

/-- The second run comes from the first by the given ticks: one of the step schedules for each
optimizer step, and one of the epoch schedules for each of so many epochs. -/
structure Lockstep (ticks : List RateTick) (epochs : Nat) (r r' : FitRun σ W β) : Prop where
  trainer : Trainer.Ticked ticks r.trainer r'.trainer
  steps : r'.progress.globalStep =
    r.progress.globalStep + ticks.countP fun t => t.interval = .step
  epochs : (ticks.countP fun t => t.interval = .epoch) = epochs

theorem Lockstep.trans {ticks more : List RateTick} {n m : Nat} {r r' r'' : FitRun σ W β}
    (h : Lockstep ticks n r r') (h' : Lockstep more m r' r'') :
    Lockstep (ticks ++ more) (n + m) r r'' := by
  refine ⟨h.trainer.trans h'.trainer, ?_, ?_⟩
  · rw [h'.steps, h.steps, List.countP_append, Nat.add_assoc]
  · rw [List.countP_append, h.epochs, h'.epochs]

theorem Lockstep.of_trainer {r r' : FitRun σ W β} (h : Trainer.Ticked [] r.trainer r'.trainer)
    (hstep : r'.progress.globalStep = r.progress.globalStep) : Lockstep [] 0 r r' :=
  ⟨h, by simp [hstep], rfl⟩

theorem declineStop_lockstep (config : Config) (r : FitRun σ W β) :
    Lockstep [] 0 r (r.declineStop config) := by
  unfold declineStop
  split
  · exact .of_trainer (.of_eq rfl rfl) rfl
  · exact .of_trainer (.of_eq rfl rfl) rfl

end FitRun

namespace FitStep

open Trainer FitRun

theorem begins_ticked {setup : Setup W β} {data : Batches β} {context : Context}
    {r : FitRun σ W β} {t₁ t₂ : Trainer W β}
    (hresolve : (TrainerStep.resolveCounts setup data.knownLength).runOn r.enterEpoch.trainer =
      (.ok (), t₁))
    (hcall : (TrainerStep.call setup .trainEpochStart context).runOn t₁ = (.ok (), t₂)) :
    Ticked [] r.trainer t₂ := by
  obtain ⟨N, K, -, -, hcounted⟩ := TrainerStep.resolveCounts_ok hresolve
  have hasked : Ticked [] r.trainer (r.trainer.record (.dataRequested r.currentEpoch)) :=
    .record rfl r.trainer
  have hentered : Ticked [] r.trainer r.enterEpoch.trainer := hasked.trans (.of_eq rfl rfl)
  have hresolved : Ticked [] r.enterEpoch.trainer t₁ := by
    rw [hcounted]
    exact .of_eq rfl rfl
  have hcalled : Ticked [] t₁ t₂ := .of_hooks ((TrainerStep.call_keeps _ _ _).of_ok hcall)
  exact hentered.trans (hresolved.trans hcalled)

theorem evaluateEpoch_ticked {setup : Setup W β} {counters : EpochCounters} {r : FitRun σ W β}
    {t : Trainer W β}
    (h : (evaluateEpoch setup counters).runOn r = (.ok (), { r with trainer := t })) :
    Ticked [] r.trainer t := by
  obtain ⟨trainer, heq, hvalidation, -⟩ := evaluateEpoch_ok h
  cases heq
  exact .of_validation hvalidation

theorem begun_ticked (setup : Setup W β) (worker : σ) (r : FitRun σ W β) :
    Ticked [] r.trainer (begun setup worker r).trainer := by
  have hnoted : Ticked [] r.trainer
      (r.trainer.record (.accumulation setup.config.accumulateGradBatches)) :=
    .record rfl r.trainer
  exact hnoted.trans (.of_hooks (tellCallbacks_follows _ _ _ _))

theorem tellEnd_ticked (setup : Setup W β) (reason : StopReason) (c : Completed)
    (r : FitRun σ W β) : Ticked [] r.trainer (r.tellEnd setup reason c).trainer := by
  have htold := tellCallbacks_follows .trainEnd .trainEnd
    (r.trainer.context setup r.progress 0 none) r.trainer
  exact .of_hooks (htold.trans (.report _ _))

theorem nextEpoch_lockstep {setup : Setup W β} {loop : BatchLoop σ β} {horizon : Nat}
    {data : Nat → Batches β} (hcounts : setup.accelerator.CountsSteps) {r r' : FitRun σ W β}
    {outputs : Processed}
    (h : (nextEpoch setup loop horizon data).runOn r = (.ok (some outputs), r')) :
    ∃ ticks, Lockstep ticks 1 r r' := by
  obtain ⟨t₁, t₂, e, hresolve, hcall, hepoch, hclose⟩ := nextEpoch_begins h
  obtain ⟨t₃, t₄, hevaluate, htick, rfl⟩ := closeEpoch_ok (hclose rfl)
  have hbegin := begins_ticked hresolve hcall
  obtain ⟨ticks, hticked⟩ := EpochStep.run_ticked hepoch
  have hticks := hticked.inStep hcounts
  have hvalidated : Ticked [] e.trainer t₃ := evaluateEpoch_ticked hevaluate
  have hglobal : e.progress.globalStep = r.progress.globalStep + ticks.length :=
    hticks.globalStep
  have hsteps : ticks.countP (fun t => t.interval = .step) = ticks.length :=
    List.countP_eq_length.2 fun t ht => by simpa using hticks.interval t ht
  have hepochs : ticks.countP (fun t => t.interval = .epoch) = 0 :=
    List.countP_eq_zero.2 fun t ht => by simp [hticks.interval t ht]
  refine ⟨_, hbegin.trans (hticks.trainer.trans (hvalidated.trans (.tick htick))), ?_, ?_⟩
  · simpa [hsteps] using hglobal
  · simp [hepochs]

/-- The step schedules tick once for every optimizer step of a run, the epoch schedules once for
every completed epoch. -/
theorem run_ticks {setup : Setup W β} {loop : BatchLoop σ β} {horizon : Nat}
    {data : Nat → Batches β} (hcounts : setup.accelerator.CountsSteps) {r r' : FitRun σ W β}
    {fit : FitResult} (h : (run setup loop horizon data).runOn r = (.ok (some fit), r')) :
    fit.progress = r'.progress ∧ ∃ ticks, Lockstep ticks fit.epochsCompleted r r' := by
  obtain ⟨worker, ended, r₁, -, -, hepochs, hnone, hsome⟩ := run_begins h
  obtain ⟨r₂, completed, hran, hends⟩ := epochs_ok hepochs
  rcases hends with ⟨reason, -, rfl, rfl⟩ | ⟨-, hended, -⟩
  · obtain ⟨rfl, hresult⟩ := hsome reason completed rfl
    cases hresult
    have hstart : Lockstep [] 0 r (begun setup worker r) :=
      .of_trainer (begun_ticked setup worker r) rfl
    have hall : ∃ ticks, Lockstep ticks completed.epochs r r₁ := by
      refine hran.preserves (J := fun r₀ c => ∃ ticks, Lockstep ticks c.epochs r r₀) ?_
        ⟨[], hstart⟩
      rintro r₀ c outputs r₃ ⟨ticks, hticks⟩ hgoes hepoch
      obtain ⟨more, hmore⟩ := nextEpoch_lockstep hcounts hepoch
      exact ⟨_, (hticks.trans (declineStop_lockstep _ _)).trans hmore⟩
    obtain ⟨ticks, hticks⟩ := hall
    have hlast : Lockstep [] 0 r₁ (r₁.tellEnd setup reason completed) :=
      .of_trainer (tellEnd_ticked setup reason completed r₁) rfl
    exact ⟨rfl, _, hticks.trans hlast⟩
  · cases (hnone hended).1

/-- A schedule that is fresh when a run starts goes on by one input for every `frequency` optimizer
steps, if it is a step schedule, and for every `frequency` completed epochs otherwise. -/
theorem run_schedules {setup : Setup W β} {loop : BatchLoop σ β} {horizon : Nat}
    {data : Nat → Batches β} (hcounts : setup.accelerator.CountsSteps) {r r' : FitRun σ W β}
    {fit : FitResult} (h : (run setup loop horizon data).runOn r = (.ok (some fit), r')) :
    ∃ (new : List (RunEvent β)) (ticks : List RateTick),
      r'.trainer.events.toList = r.trainer.events.toList ++ new ∧
      ticks.map RateTick.interval = new.filterMap RunEvent.ticked? ∧
      r'.trainer.board.rates = r.trainer.board.rates.map (·.afterAll ticks) ∧
      r.progress.globalStep ≤ fit.progress.globalStep ∧
      ∀ s ∈ r.trainer.board.rates, s.ticks = 0 →
        (s.afterAll ticks).schedule = (s.inputs ticks).foldl Schedule.advance s.schedule ∧
        (s.interval = .step → (s.inputs ticks).length =
          (fit.progress.globalStep - r.progress.globalStep) / s.frequency) ∧
        (s.interval = .epoch → (s.inputs ticks).length = fit.epochsCompleted / s.frequency) := by
  obtain ⟨hprogress, ticks, hticks⟩ := run_ticks hcounts h
  obtain ⟨new, hnew, hevents⟩ := hticks.trainer.events
  have hsteps := hticks.steps
  rw [← hprogress] at hsteps
  refine ⟨new, ticks, hnew, hevents.symm, hticks.trainer.rates, by omega, ?_⟩
  intro s hs hfresh
  have hlength := ScheduledRate.length_inputs (hticks.trainer.takes s hs)
  rw [hfresh, Nat.zero_div, Nat.zero_add, Nat.zero_add] at hlength
  refine ⟨s.afterAll_schedule ticks, ?_, ?_⟩
  · intro hinterval
    rw [hlength, hinterval, hsteps, Nat.add_sub_cancel_left]
  · intro hinterval
    rw [hlength, hinterval, hticks.epochs]

def threeBatches : Setup Unit Unit :=
  { config := { maxEpochs := 1, limitTrainBatches := .batches 3, valCheckInterval := .batches 1 } }

def alternating : ScheduledRate :=
  { schedule := .warmup ⟨1, 10, 0⟩
    interval := .step
    frequency := 2
    frequency_pos := Nat.two_pos }

/-- Three optimizer steps are one input to a schedule of frequency two. -/
theorem run_schedules_alternating :
    ∃ (fit : FitResult) (r' : FitRun Unit Unit Unit) (ticks : List RateTick),
      (run threeBatches idle 4 fun _ => .exact 3 fun _ => ()).runOn
        { trainer := { Trainer.ofSetup threeBatches () with board := ⟨[alternating]⟩ }
          worker := () } = (.ok (some fit), r') ∧
      fit.progress.globalStep = 3 ∧
      r'.trainer.board.rates = [alternating.afterAll ticks] ∧
      (alternating.inputs ticks).length = 1 := by
  have hsteps : (Stateful.returned? (run threeBatches idle 4 fun _ => .exact 3 fun _ => ())
      { trainer := { Trainer.ofSetup threeBatches () with board := ⟨[alternating]⟩ }
        worker := () }).map (fun fit => fit.progress.globalStep) = some 3 := by
    decide +kernel
  obtain ⟨fit, hfit, hthree⟩ := Option.map_eq_some_iff.1 hsteps
  obtain ⟨r', hrun⟩ := Stateful.returned?_eq_some hfit
  obtain ⟨new, ticks, -, -, hrates, -, hall⟩ :=
    run_schedules Accelerator.countsSteps_default hrun
  refine ⟨fit, r', ticks, hrun, hthree, hrates, ?_⟩
  obtain ⟨-, hlength, -⟩ := hall alternating (List.mem_singleton.2 rfl) rfl
  rw [hlength rfl, hthree]
  rfl

end FitStep

end TrainingLoop
