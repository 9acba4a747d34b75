import TrainingLoop.Proofs.Metric.Log
import TrainingLoop.Proofs.Rate.Ticks
import TrainingLoop.Proofs.Run.Fit
/-!
# Runs that cannot fail

A run fails only where one of its collaborators does, where a schedule lacks the metric that it
monitors, or where its settings do not fit its data. Without any of these it returns
(`run_succeeds`).
-/

namespace TrainingLoop

variable {σ W β : Type}

def Stateful.Total {S α : Type} (action : Stateful S α) : Prop :=
  ∀ s, ∃ a s', action.runOn s = (.ok a, s')

def Sink.Reliable (s : Sink W) : Prop :=
  ∃ I : Sink W → Prop, I s ∧ ∀ s, I s →
    (∀ record world, ∃ s' world', s.log record world = (.ok (), s', world') ∧ I s') ∧
    ∀ world, ∃ s' world', s.save world = (.ok (), s', world') ∧ I s'

/-! ## Loggers -/

namespace Sink.Reliable

variable {s : Sink W}

theorem meet (h : s.Reliable) (world : W) (call : JsonLines.Call) :
    ∃ s' world', s.meet world call = (.ok (), s', world') ∧ s'.Reliable := by
  obtain ⟨I, hs, hI⟩ := h
  cases call with
  | log record =>
      obtain ⟨s', world', hlog, hs'⟩ := (hI s hs).1 record world
      exact ⟨s', world', hlog, I, hs', hI⟩
  | save =>
      obtain ⟨s', world', hsave, hs'⟩ := (hI s hs).2 world
      exact ⟨s', world', hsave, I, hs', hI⟩

theorem memory (m : MemoryLog) : (Sink.memory m : Sink W).Reliable :=
  ⟨fun s => ∃ m, s = .memory m, ⟨m, rfl⟩, by
    rintro _ ⟨m, rfl⟩
    exact ⟨fun record world => ⟨_, world, rfl, _, rfl⟩, fun world => ⟨_, world, rfl, _, rfl⟩⟩⟩

end Sink.Reliable

namespace MetricsLog

def HasReliableSink (l : MetricsLog W) : Prop := ∀ sink, l.sink = some sink → sink.Reliable

theorem called_succeeds {l : MetricsLog W} (h : l.HasReliableSink) (world : W)
    (call : JsonLines.Call) :
    ∃ l' world', l.called world call = (.ok (), l', world') ∧ l'.HasReliableSink := by
  cases hsink : l.sink with
  | none => exact ⟨l, world, called_of_none hsink world call, h⟩
  | some sink =>
      obtain ⟨sink', world', hmeet, hsink'⟩ := (h sink hsink).meet world call
      refine ⟨{ l with sink := some sink' }, world', by rw [called_of_some hsink, hmeet], ?_⟩
      rintro _ heq
      cases heq
      exact hsink'

theorem logStep_succeeds {l : MetricsLog W} (h : l.HasReliableSink) (outputs : Processed)
    (step : Nat) (stopRequested : Bool) (world : W) :
    ∃ l' world', l.logStep outputs step stopRequested world = (.ok (), l', world') ∧
      l'.HasReliableSink := by
  have htaken : (l.takeIn outputs).HasReliableSink := by
    rw [HasReliableSink, takeIn_sink]
    exact h
  rw [logStep_eq]
  cases l.due? outputs step stopRequested with
  | none => exact ⟨l.takeIn outputs, world, rfl, htaken⟩
  | some record => exact called_succeeds htaken world (.log record)

end MetricsLog

/-! ## Setups and trainers -/

/-- No hook of the model fails, and it returns no value at the end of an epoch. -/
structure ModelHooks.Reliable (m : ModelHooks W β) : Prop where
  override : ∀ call action, m.override? call = some action → action.Total
  reduces : ∀ action, m.trainingEpochEnd = some action →
    ∀ outputs world, ∃ world', (action outputs).runOn world = (.ok false, world')

theorem ModelHooks.reliable_default : ({} : ModelHooks W β).Reliable := by
  refine ⟨?_, nofun⟩
  intro call action h
  cases call <;> cases h

structure Setup.Reliable (setup : Setup W β) : Prop where
  model : setup.model.Reliable
  respond : ∀ call, (setup.accelerator.respond call).Total
  evaluator : ∀ evaluator, setup.evaluator = some evaluator →
    ∀ epoch globalStep, (evaluator epoch globalStep).Total

/-- The trainer holds nothing that can fail: no schedule monitors a metric, and the logger is
reliable. -/
structure Trainer.Reliable (t : Trainer W β) : Prop where
  monitor : ∀ s ∈ t.board.rates, s.monitor = none
  sink : t.log.HasReliableSink

namespace Trainer.Reliable

variable {t t' : Trainer W β}

theorem of_eq (h : t.Reliable) (hboard : t'.board = t.board) (hsink : t'.log.sink = t.log.sink) :
    t'.Reliable :=
  ⟨by rw [hboard]; exact h.monitor, by rw [MetricsLog.HasReliableSink, hsink]; exact h.sink⟩

end Trainer.Reliable

/-! ## Schedules -/

namespace RateBoard

theorem tickAll_succeeds (interval : Interval) (metrics : Metrics) {rates : List ScheduledRate}
    (h : ∀ s ∈ rates, s.monitor = none) :
    ∃ advanced, (tickAll interval metrics rates).result = .ok advanced := by
  induction rates with
  | nil => exact ⟨0, rfl⟩
  | cons s rest ih =>
      obtain ⟨hs, hrest⟩ := List.forall_mem_cons.1 h
      obtain ⟨advanced, hadvanced⟩ := ih hrest
      unfold tickAll
      by_cases hinterval : s.interval = interval
      · have htick : ∃ own, (s.tick metrics).result = .ok own := by
          unfold ScheduledRate.tick
          rw [hs]
          split <;> exact ⟨_, rfl⟩
        obtain ⟨own, hown⟩ := htick
        rw [if_pos hinterval]
        simp only [hown, hadvanced]
        exact ⟨_, rfl⟩
      · rw [if_neg hinterval]
        exact ⟨advanced, hadvanced⟩

theorem tickAll_unmonitored {interval : Interval} {metrics : Metrics} {rates : List ScheduledRate}
    (h : ∀ s ∈ rates, s.monitor = none) :
    ∀ s ∈ (tickAll interval metrics rates).rates, s.monitor = none := by
  intro s hs
  obtain ⟨advanced, hadvanced⟩ := tickAll_succeeds interval metrics h
  rw [(tickAll_ok hadvanced).1] at hs
  obtain ⟨s₀, hs₀, rfl⟩ := List.mem_map.1 hs
  rw [ScheduledRate.after_monitor]
  exact h s₀ hs₀

theorem tickAll_congr {interval : Interval} {metrics metrics' : Metrics}
    {rates : List ScheduledRate} (h : ∀ s ∈ rates, s.monitor = none) :
    tickAll interval metrics rates = tickAll interval metrics' rates := by
  induction rates with
  | nil => rfl
  | cons s rest ih =>
      obtain ⟨hs, hrest⟩ := List.forall_mem_cons.1 h
      have htick : s.tick metrics = s.tick metrics' := by
        simp only [ScheduledRate.tick, hs]
      rw [tickAll, tickAll, ih hrest, htick]

end RateBoard

/-! ## Steps of the trainer -/

namespace Trainer

theorem tellCallbacks_log (hook : Hook) (event : CallbackEvent) (context : Context)
    (t : Trainer W β) : (t.tellCallbacks hook event context).log = t.log := by
  obtain ⟨callbacks, world, events, notices, -, -, htold⟩ :=
    tellCallbacks_told hook event context t
  rw [htold]

theorem Reliable.tellCallbacks {t : Trainer W β} (h : t.Reliable) (hook : Hook)
    (event : CallbackEvent) (context : Context) : (t.tellCallbacks hook event context).Reliable :=
  h.of_eq ((tellCallbacks_follows hook event context t).board fun _ => id)
    (congrArg MetricsLog.sink (tellCallbacks_log hook event context t))

end Trainer

namespace TrainerStep

open Trainer Stateful

theorem outside_succeeds {α : Type} {action : Stateful W α} (h : action.Total) :
    SucceedsOn Trainer.Reliable (outside action : TrainerStep W β α) := by
  refine .noteFailure (.onPart (Q := fun _ => True) ?_ (fun _ _ => trivial) fun t world ht _ =>
    ht.of_eq rfl rfl)
  intro world _
  obtain ⟨a, world', hrun⟩ := h world
  exact ⟨a, world', hrun, trivial⟩

theorem inRegion_succeeds {α : Type} {action : String} {body : TrainerStep W β α}
    (h : SucceedsOn Trainer.Reliable body) :
    SucceedsOn Trainer.Reliable (inRegion action body) := by
  intro t ht
  obtain ⟨a, t', hrun, ht'⟩ := h (t.openRegion action) (ht.of_eq rfl rfl)
  exact ⟨a, t'.closeRegion action, by simp [inRegion, hrun], ht'.of_eq rfl rfl⟩

theorem record_succeeds (event : RunEvent β) :
    SucceedsOn Trainer.Reliable (modify fun t => t.record event : TrainerStep W β Unit) :=
  .modify fun _ ht => ht.of_eq rfl rfl

theorem call_succeeds {setup : Setup W β} (hsetup : setup.Reliable) (hookCall : HookCall β)
    (context : Context) : SucceedsOn Trainer.Reliable (call setup hookCall context) := by
  refine inRegion_succeeds (.bind (.modify fun t ht => ht.tellCallbacks _ _ _) fun _ => ?_)
  unfold answer
  cases hoverride : setup.model.override? hookCall with
  | none =>
      exact .bind (record_succeeds _) fun _ => outside_succeeds (hsetup.respond hookCall)
  | some action =>
      have hcall : SucceedsOn Trainer.Reliable
          (do modify fun t => t.record (.model hookCall); outside action : TrainerStep W β Unit) :=
        .bind (record_succeeds _) fun _ => outside_succeeds (hsetup.model.override _ _ hoverride)
      dsimp only
      split
      · exact .bind (.modify fun t ht => ht.of_eq rfl rfl) fun _ => hcall
      · exact hcall

theorem reduce_succeeds {setup : Setup W β} (hsetup : setup.Reliable) (outputs : Processed) :
    SucceedsOn Trainer.Reliable (reduce setup outputs) := by
  refine inRegion_succeeds (.bind (record_succeeds _) fun _ => ?_)
  cases haction : setup.model.trainingEpochEnd with
  | none => exact .pure ()
  | some action =>
      refine .bind (record_succeeds _) fun _ => ?_
      intro t ht
      obtain ⟨world', hrun⟩ := hsetup.model.reduces action haction outputs t.world
      have houtside : (outside (action outputs)).runOn t =
          (.ok false, { t with world := world' }) :=
        noteFailure_ok.2 (by rw [runOn_onPart, hrun])
      refine ⟨(), { t with world := world' }, ?_, ht.of_eq rfl rfl⟩
      rw [runOn_bind, houtside]
      rfl

theorem onLog_succeeds {action : MetricsLog W → W → Except Error Unit × MetricsLog W × W}
    (h : ∀ l : MetricsLog W, l.HasReliableSink → ∀ world, ∃ l' world',
      action l world = (.ok (), l', world') ∧ l'.HasReliableSink) :
    SucceedsOn Trainer.Reliable (onLog action : TrainerStep W β Unit) := by
  intro t ht
  obtain ⟨log, world, haction, hlog⟩ := h t.log ht.sink t.world
  exact ⟨(), { t with log, world }, noteFailure_ok.2 (by simp [haction]), ht.monitor, hlog⟩

theorem logStep_succeeds (outputs : Processed) (globalStep : Nat) :
    SucceedsOn Trainer.Reliable (logStep outputs globalStep : TrainerStep W β Unit) := by
  refine .get_bind fun t => ?_
  have hlog : SucceedsOn Trainer.Reliable
      (onLog (MetricsLog.logStep outputs globalStep t.state.shouldStop) : TrainerStep W β Unit) :=
    onLog_succeeds fun l hl world => MetricsLog.logStep_succeeds hl _ _ _ world
  dsimp only
  split
  · split
    · exact .bind (record_succeeds _) fun _ => hlog
    · exact hlog
  · exact hlog

theorem flush_succeeds (globalStep : Nat) :
    SucceedsOn Trainer.Reliable (flush globalStep : TrainerStep W β Unit) := by
  refine .get_bind fun t => ?_
  split
  · exact .bind (record_succeeds _) fun _ => onLog_succeeds fun l hl world =>
      MetricsLog.called_succeeds hl world .save
  · exact .pure ()

theorem tickRates_succeeds (interval : Interval) :
    SucceedsOn Trainer.Reliable (tickRates interval : TrainerStep W β Unit) := by
  refine .noteFailure fun t ht => ?_
  obtain ⟨advanced, hadvanced⟩ := RateBoard.tickAll_succeeds interval t.log.latest ht.monitor
  refine ⟨(), _, Prod.ext ?_ rfl, RateBoard.tickAll_unmonitored ht.monitor, ht.sink⟩
  exact congrArg (Except.map fun _ => ()) hadvanced

theorem nextStep_succeeds (setup : Setup W β) (progress : Progress) :
    SucceedsOn Trainer.Reliable (nextStep setup progress) :=
  fun _ ht => ⟨_, _, rfl, ht.of_eq rfl rfl⟩

theorem runEvaluator_succeeds {evaluator : Evaluator W} {globalStep : Nat}
    (h : ∀ epoch, (evaluator epoch globalStep).Total) {t : Trainer W β} (ht : t.Reliable) :
    ∃ metrics t', (runEvaluator evaluator globalStep).runOn t = (.ok (.ok metrics), t') ∧
      t'.Reliable := by
  have hbody : SucceedsOn Trainer.Reliable (inRegion "run_evaluation" do
      modify fun t' => t'.record (.evaluated t.state.currentEpoch globalStep)
      outside (evaluator t.state.currentEpoch globalStep) : TrainerStep W β Metrics) :=
    inRegion_succeeds (.bind (record_succeeds _) fun _ => outside_succeeds (h _))
  obtain ⟨metrics, t₁, hrun, ht₁⟩ :=
    hbody { t with state := { t.state with stage := .validating } } (ht.of_eq rfl rfl)
  refine ⟨metrics, { t₁ with state := { t₁.state with stage := .training } }, ?_,
    ht₁.of_eq rfl rfl⟩
  simp only [runEvaluator, runOn_modify_bind, runOn_get_bind]
  rw [runOn_bind, attempt, runOn_of, hrun]
  rfl

theorem evaluate_succeeds {setup : Setup W β} (hsetup : setup.Reliable) (progress : Progress) :
    SucceedsOn Trainer.Reliable (evaluate setup progress) := by
  unfold evaluate
  cases hevaluator : setup.evaluator with
  | none => exact .pure ()
  | some evaluator =>
      intro t ht
      obtain ⟨metrics, t₁, hrun, ht₁⟩ := runEvaluator_succeeds
        (fun epoch => hsetup.evaluator evaluator hevaluator epoch progress.globalStep) ht
      have hpublish : SucceedsOn Trainer.Reliable
          (publishEvaluation setup progress (.ok metrics)) :=
        .bind (.modify fun _ ht => ht.of_eq rfl rfl) fun _ =>
          .modify fun _ ht => ht.tellCallbacks _ _ _
      obtain ⟨a, t₂, hlast, ht₂⟩ := hpublish t₁ ht₁
      refine ⟨a, t₂, ?_, ht₂⟩
      dsimp only
      rw [runOn_bind, hrun]
      exact hlast

end TrainerStep

/-! ## One epoch -/

structure BatchLoop.Reliable (loop : BatchLoop σ β) : Prop where
  run : ∀ batch index dataloader, (loop.run batch index dataloader).Total
  setAccumulation : ∀ batches, (loop.setAccumulation batches).Total

namespace EpochStep

open Trainer Stateful

def Sound (r : EpochRun σ W β) : Prop := r.trainer.Reliable

theorem onTrainer_succeeds {α : Type} {action : TrainerStep W β α}
    (h : SucceedsOn Trainer.Reliable action) :
    SucceedsOn Sound (onTrainer action : EpochStep σ W β α) :=
  .onPart h (fun _ hr => hr) fun _ _ _ ht => ht

theorem inRegion_succeeds {α : Type} {action : String} {body : EpochStep σ W β α}
    (h : SucceedsOn Sound body) : SucceedsOn Sound (inRegion action body) := by
  intro r hr
  obtain ⟨a, r', hrun, hr'⟩ := h (r.mapTrainer fun t => t.openRegion action)
    (Trainer.Reliable.of_eq hr rfl rfl)
  exact ⟨a, r'.mapTrainer fun t => t.closeRegion action, by simp [inRegion, hrun],
    Trainer.Reliable.of_eq hr' rfl rfl⟩

theorem runBatch_succeeds {loop : BatchLoop σ β} (hloop : loop.Reliable) (handed : Handed β) :
    SucceedsOn Sound (runBatch loop handed : EpochStep σ W β BatchOutput) := by
  refine inRegion_succeeds (.get_bind fun r => .bind (.modify fun r hr => ?_) fun _ => ?_)
  · exact Trainer.Reliable.of_eq hr rfl rfl
  · refine .mapError (.noteFailure (.onPart (Q := fun _ => True) ?_ (fun _ _ => trivial)
      fun _ _ hr _ => hr))
    intro worker _
    obtain ⟨output, worker', hrun⟩ := hloop.run handed.batch handed.index
      r.counters.dataloaderIndex worker
    exact ⟨output, worker', hrun, trivial⟩

theorem completeBatch_succeeds {setup : Setup W β} (hsetup : setup.Reliable) (handed : Handed β)
    (results : BatchResults) :
    SucceedsOn Sound (completeBatch setup handed results : EpochStep σ W β KeptOutputs) := by
  refine .get_bind fun r => .bind (onTrainer_succeeds (TrainerStep.call_succeeds hsetup _ _))
    fun _ => ?_
  refine .bind (onTrainer_succeeds (TrainerStep.call_succeeds hsetup _ _)) fun _ => ?_
  exact .bind (onTrainer_succeeds (TrainerStep.logStep_succeeds _ _)) fun _ => .pure _

theorem advance_succeeds {setup : Setup W β} {loop : BatchLoop σ β} (hsetup : setup.Reliable)
    (hloop : loop.Reliable) {r : EpochRun σ W β} (hr : Sound r) {feed : Feed β}
    (hphase : r.phase = .running feed) :
    ∃ outcome r', (advance setup loop).runOn r = (.ok outcome, r') ∧ Sound r' := by
  simp only [advance, runOn_get_bind, hphase]
  rcases hnext : feed.next with ⟨_ | handed, feed'⟩
  · exact ⟨.exhausted, _, rfl, hr⟩
  · simp only [runOn_modify_bind]
    have hrest : SucceedsOn Sound (do
        let output ← runBatch loop handed
        if output.stopsEpoch then
          modify fun r => r.skip handed.index
          pure .skipped
        else
          .completed <$> completeBatch setup handed output.results : EpochStep σ W β Advance) := by
      refine .bind (runBatch_succeeds hloop handed) fun output => ?_
      split
      · exact .bind (.modify fun r hr => Trainer.Reliable.of_eq hr rfl rfl) fun _ => .pure _
      · rw [map_eq_pure_bind]
        exact .bind (completeBatch_succeeds hsetup handed _) fun _ => .pure _
    exact hrest (r.pull handed feed') (Trainer.Reliable.of_eq hr rfl rfl)

theorem advanceEnd_succeeds {setup : Setup W β} (hsetup : setup.Reliable) (loop : BatchLoop σ β) :
    SucceedsOn Sound (advanceEnd setup loop) := by
  have hevaluate : SucceedsOn Sound (evaluateBatch setup : EpochStep σ W β Unit) := by
    refine .get_bind fun r => ?_
    split
    · exact onTrainer_succeeds (TrainerStep.evaluate_succeeds hsetup _)
    · exact .pure ()
  have hmark : SucceedsOn Sound
      (modify fun r => r.mapTrainer Trainer.markTrained : EpochStep σ W β Unit) :=
    .modify fun _ hr => Trainer.Reliable.of_eq hr rfl rfl
  refine .bind hevaluate fun _ => .get_bind fun r => ?_
  refine .bind (onTrainer_succeeds (TrainerStep.flush_succeeds _)) fun _ => ?_
  split
  · refine .bind (onTrainer_succeeds (TrainerStep.tickRates_succeeds .step)) fun _ => ?_
    refine .bind hmark fun _ => .get_bind fun r => ?_
    exact .bind (onTrainer_succeeds (TrainerStep.nextStep_succeeds setup _)) fun _ =>
      .modify fun _ hr => hr
  · exact hmark

theorem finish_succeeds {setup : Setup W β} (hsetup : setup.Reliable) (kept : KeptOutputs) :
    SucceedsOn Sound (finish setup kept : EpochStep σ W β Processed) := by
  refine .bind (.modify fun _ hr => hr) fun _ => .bind (.modify fun r hr => ?_) fun _ => ?_
  · refine Trainer.Reliable.of_eq hr rfl ?_
    change r.trainer.log.closeEpoch.sink = r.trainer.log.sink
    rw [MetricsLog.closeEpoch_eq]
  · refine .bind (onTrainer_succeeds (TrainerStep.reduce_succeeds hsetup _)) fun _ => ?_
    refine .get_bind fun r => ?_
    refine .bind (onTrainer_succeeds (TrainerStep.call_succeeds hsetup _ _)) fun _ => ?_
    exact .bind (onTrainer_succeeds (TrainerStep.call_succeeds hsetup _ _)) fun _ => .pure _

theorem batches_succeeds {setup : Setup W β} {loop : BatchLoop σ β} (hsetup : setup.Reliable)
    (hloop : loop.Reliable) (horizon : Nat) (kept : KeptOutputs) {r : EpochRun σ W β}
    (hr : Sound r) {feed : Feed β} (hphase : r.phase = .running feed) :
    ∃ result r', (batches setup loop horizon kept).runOn r = (.ok result, r') ∧ Sound r' := by
  induction horizon generalizing kept r feed with
  | zero => exact ⟨none, r, rfl, hr⟩
  | succ horizon ih =>
      simp only [batches, runOn_get_bind]
      split
      · exact ⟨some kept, r, rfl, hr⟩
      · obtain ⟨outcome, r₁, hadvance, hr₁⟩ := advance_succeeds hsetup hloop hr hphase
        rw [runOn_bind, hadvance]
        cases outcome with
        | skipped => exact ⟨some kept, r₁, rfl, hr₁⟩
        | exhausted => exact ⟨some kept, r₁, rfl, hr₁⟩
        | completed more =>
            obtain ⟨_, r₂, hend, hr₂⟩ := advanceEnd_succeeds hsetup loop r₁ hr₁
            -- A completed batch leaves the epoch running.
            have hphase₂ : ∃ feed, r₂.phase = .running feed := by
              obtain ⟨t₁, t₂, globalStep, -, -, -, -, rfl⟩ := advanceEnd_parts hend
              cases advance_ok hadvance with
              | completed hphase hnext hrun hproceeds htrainer => exact ⟨_, rfl⟩
            obtain ⟨feed₂, hfeed₂⟩ := hphase₂
            obtain ⟨result, r₃, hrest, hr₃⟩ := ih _ hr₂ hfeed₂
            refine ⟨result, r₃, ?_, hr₃⟩
            dsimp only
            rw [runOn_bind, hend]
            exact hrest

theorem run_succeeds {setup : Setup W β} {loop : BatchLoop σ β} (hsetup : setup.Reliable)
    (hloop : loop.Reliable) (horizon : Nat) (data : Batches β) :
    SucceedsOn Sound (run setup loop horizon data) := by
  intro r hr
  obtain ⟨result, r₁, hbatches, hr₁⟩ := batches_succeeds hsetup hloop horizon .empty
    (r := r.start setup data) (Trainer.Reliable.of_eq hr rfl rfl) rfl
  simp only [run, runOn_modify_bind]
  rw [runOn_bind, hbatches]
  cases result with
  | none => exact ⟨none, r₁, rfl, hr₁⟩
  | some kept =>
      obtain ⟨outputs, r₂, hfinish, hr₂⟩ := finish_succeeds hsetup kept r₁ hr₁
      refine ⟨some outputs, r₂, ?_, hr₂⟩
      dsimp only
      rw [map_eq_pure_bind, runOn_bind, hfinish]
      rfl

end EpochStep

/-! ## The whole run -/

namespace FitStep

open Trainer Stateful

def Sound (r : FitRun σ W β) : Prop := r.trainer.Reliable

theorem onTrainer_succeeds {α : Type} {action : TrainerStep W β α}
    (h : SucceedsOn Trainer.Reliable action) :
    SucceedsOn Sound (onTrainer action : FitStep σ W β α) :=
  .onPart h (fun _ hr => hr) fun _ _ _ ht => ht

theorem epoch_succeeds {setup : Setup W β} {loop : BatchLoop σ β} (hsetup : setup.Reliable)
    (hloop : loop.Reliable) (horizon : Nat) (data : Batches β) :
    SucceedsOn Sound (epoch setup loop horizon data) := by
  intro r hr
  obtain ⟨result, e, hrun, he⟩ := EpochStep.run_succeeds hsetup hloop horizon data
    (r.epochRun setup.config) hr
  rw [epoch, runOn_of, hrun]
  cases result with
  | none => exact ⟨none, _, rfl, he⟩
  | some outputs => exact ⟨some (outputs, e.counters), _, rfl, he⟩

theorem closeEpoch_succeeds {setup : Setup W β} (hsetup : setup.Reliable)
    (counters : EpochCounters) :
    SucceedsOn Sound (closeEpoch setup counters : FitStep σ W β Unit) := by
  have hevaluate : SucceedsOn Sound (evaluateEpoch setup counters : FitStep σ W β Unit) := by
    refine .get_bind fun r => ?_
    split
    · exact onTrainer_succeeds (TrainerStep.evaluate_succeeds hsetup _)
    · exact .pure ()
  refine .bind hevaluate fun _ => ?_
  exact .bind (onTrainer_succeeds (TrainerStep.tickRates_succeeds .epoch)) fun _ =>
    .modify fun _ hr => hr

def Resolves (config : Config) (data : Nat → Batches β) : Prop :=
  ∀ epoch, ∃ N K, config.limitTrainBatches.resolveBatches (data epoch).knownLength = .ok N ∧
    config.valCheckInterval.resolveInterval N = .ok K

theorem nextEpoch_succeeds {setup : Setup W β} {loop : BatchLoop σ β} (hsetup : setup.Reliable)
    (hloop : loop.Reliable) {data : Nat → Batches β} (hresolves : Resolves setup.config data)
    (horizon : Nat) : SucceedsOn Sound (nextEpoch setup loop horizon data) := by
  have hcounts : ∀ epoch, SucceedsOn Trainer.Reliable
      (TrainerStep.resolveCounts setup (data epoch).knownLength : TrainerStep W β Unit) := by
    intro epoch t ht
    obtain ⟨N, K, hN, hK⟩ := hresolves epoch
    refine ⟨(), { t with state := { t.state with trainingBatches := N, valCheckBatch := K } }, ?_,
      ht.of_eq rfl rfl⟩
    rw [TrainerStep.resolveCounts, hN, runOn_lift_bind, hK, runOn_lift_bind, runOn_modify]
  refine .bind (.modify fun r hr => Trainer.Reliable.of_eq hr rfl rfl) fun _ => ?_
  refine .get_bind fun r => .bind (onTrainer_succeeds (hcounts _)) fun _ => ?_
  refine .get_bind fun r => .bind (onTrainer_succeeds (TrainerStep.call_succeeds hsetup _ _))
    fun _ => ?_
  refine .bind (epoch_succeeds hsetup hloop horizon _) fun ran => ?_
  cases ran with
  | none => exact .pure none
  | some ran => exact .bind (closeEpoch_succeeds hsetup _) fun _ => .pure _

theorem epochs_succeeds {setup : Setup W β} {loop : BatchLoop σ β} (hsetup : setup.Reliable)
    (hloop : loop.Reliable) {data : Nat → Batches β} (hresolves : Resolves setup.config data)
    (horizon remaining : Nat) (completed : Completed) :
    SucceedsOn Sound (epochs setup loop horizon data remaining completed) := by
  induction remaining generalizing completed with
  | zero =>
      unfold epochs
      refine .get_bind fun r => ?_
      split <;> exact .pure _
  | succ remaining ih =>
      unfold epochs
      refine .get_bind fun r => ?_
      split
      · exact .pure _
      · refine .bind (.modify fun r hr => ?_) fun _ => ?_
        · unfold FitRun.declineStop
          split
          · exact Trainer.Reliable.of_eq hr rfl rfl
          · exact hr
        · refine .bind (nextEpoch_succeeds hsetup hloop hresolves horizon) fun outputs => ?_
          cases outputs with
          | none => exact .pure none
          | some outputs => exact ih _

/-- A run over reliable collaborators returns: its settings pass their check and fit the data, so
there is nothing left that could fail. -/
theorem run_succeeds {setup : Setup W β} {loop : BatchLoop σ β} (hsetup : setup.Reliable)
    (hloop : loop.Reliable) {data : Nat → Batches β} (hresolves : Resolves setup.config data)
    (hcheck : setup.config.check = .ok ()) (horizon : Nat) :
    SucceedsOn Sound (run setup loop horizon data) := by
  intro r hr
  have hset : SucceedsOn Sound (recordFailure
      (onWorker (loop.setAccumulation setup.config.accumulateGradBatches)) :
        FitStep σ W β Unit) := by
    refine .noteFailure (.onPart (Q := fun _ => True) ?_ (fun _ _ => trivial) fun _ _ hr _ => hr)
    intro worker _
    obtain ⟨a, worker', hrun⟩ := hloop.setAccumulation setup.config.accumulateGradBatches worker
    exact ⟨a, worker', hrun, trivial⟩
  rw [run, hcheck, runOn_lift_bind]
  refine SucceedsOn.bind (P := Sound) (.modify fun r hr => ?_) (fun _ => ?_) r hr
  · exact Trainer.Reliable.of_eq hr rfl rfl
  refine .bind hset fun _ => .bind (.modify fun r hr => ?_) fun _ => .get_bind fun r => ?_
  · exact Trainer.Reliable.tellCallbacks hr _ _ _
  · refine .bind (epochs_succeeds hsetup hloop hresolves _ _ _) fun ended => ?_
    cases ended with
    | none => exact .pure none
    | some ended =>
        refine .bind (.modify fun r hr => ?_) fun _ => .get_bind fun r => .pure _
        exact (Trainer.Reliable.tellCallbacks hr _ _ _).of_eq rfl rfl

end FitStep

end TrainingLoop
