import TrainingLoop.Proofs.KeyMap
import TrainingLoop.Proofs.Run.Reliable
import TrainingLoop.Proofs.Run.Silent
/-!
# What a run does not learn from its validation

Two trainers train alike if they differ only in what a validation touches: the metrics that it
reports, the stage, when it is due, and the part of the world that only the evaluator reads. If no
callback decides anything and no schedule monitors a metric, then nothing in a run tells such
trainers apart. So of two runs that are validated in different ways, and that both return, the
results are the same (`FitStep.run_trainsLike`).
-/

namespace TrainingLoop

variable {σ V W β : Type}

open Stateful

/-! ## How a run is validated -/

structure Validation (W : Type) where
  interval : BatchLimit
  everyNEpochs : Nat
  enabled : Bool
  evaluator : Option (Evaluator W)

def Setup.withValidation (v : Validation W) (setup : Setup W β) : Setup W β :=
  { setup with
    config := { setup.config with
      valCheckInterval := v.interval
      checkValEveryNEpochs := v.everyNEpochs
      enableValidation := v.enabled }
    evaluator := v.evaluator }

def SameView (view : W → V) (world world' : W) : Prop := view world = view world'

/-- The evaluator leaves alone what training sees of the world, and it reports no other metrics than
those named. -/
def Validation.Apart (view : W → V) (reported : String → Prop) (v : Validation W) : Prop :=
  ∀ evaluator, v.evaluator = some evaluator → ∀ epoch globalStep world metrics world',
    (evaluator epoch globalStep).runOn world = (.ok metrics, world') →
      view world' = view world ∧ ∀ key, ¬ reported key → metrics.get? key = none

/-- The model and the accelerator act on what training sees of the world, and on nothing else. -/
structure Setup.Sees (view : W → V) (setup : Setup W β) : Prop where
  override : ∀ call action, setup.model.override? call = some action →
    Agree (SameView view) action action
  consume : ∀ action, setup.model.trainingEpochEnd = some action →
    ∀ outputs, Agree (SameView view) (action outputs) (action outputs)
  respond : ∀ call, Agree (SameView view) (setup.accelerator.respond call)
    (setup.accelerator.respond call)
  prepare : ∀ batches world world', view world = view world' →
    (setup.accelerator.prepare batches world).1 = (setup.accelerator.prepare batches world').1 ∧
      view (setup.accelerator.prepare batches world).2 =
        view (setup.accelerator.prepare batches world').2
  nextStep : ∀ totalBatches current world world', view world = view world' →
    (setup.accelerator.nextStep totalBatches current world).1 =
        (setup.accelerator.nextStep totalBatches current world').1 ∧
      view (setup.accelerator.nextStep totalBatches current world).2 =
        view (setup.accelerator.nextStep totalBatches current world').2

/-! ## Logs -/

def Sink.Spares (view : W → V) : Sink W → Prop
  | .outside o => (∀ record world, view ((o.log record).runOn world).2 = view world) ∧
      ∀ world, view (o.save.runOn world).2 = view world
  | _ => True

namespace Sink.Spares

variable {view : W → V} {s : Sink W}

theorem log (h : s.Spares view) (record : LogRecord) (world : W) :
    (s.log record world).2.1.Spares view ∧ view (s.log record world).2.2 = view world := by
  cases s with
  | memory m => exact ⟨trivial, rfl⟩
  | jsonLines l => exact ⟨trivial, rfl⟩
  | outside o => exact ⟨h, h.1 record world⟩

theorem save (h : s.Spares view) (world : W) :
    (s.save world).2.1.Spares view ∧ view (s.save world).2.2 = view world := by
  cases s with
  | memory m => exact ⟨trivial, rfl⟩
  | jsonLines l => exact ⟨trivial, rfl⟩
  | outside o => exact ⟨h, h.2 world⟩

theorem meet (h : s.Spares view) (world : W) (call : JsonLines.Call) :
    (s.meet world call).2.1.Spares view ∧ view (s.meet world call).2.2 = view world := by
  cases call with
  | log record => exact h.log record world
  | save => exact h.save world

end Sink.Spares

namespace MetricsLog

variable {view : W → V} {reported : String → Prop} {l l' l'' : MetricsLog W}

def Spares (view : W → V) (l : MetricsLog W) : Prop :=
  ∀ sink, l.sink = some sink → sink.Spares view

structure Logged (view : W → V) (l : MetricsLog W) (world : W)
    (after : MetricsLog W × W) : Prop where
  log : after.1 = { l with sink := after.1.sink }
  spares : after.1.Spares view
  world : view after.2 = view world

theorem spares_of_sink {sink : Sink W} (h : sink.Spares view) :
    ({ l with sink := some sink } : MetricsLog W).Spares view := by
  rintro _ heq
  cases heq
  exact h

theorem called_logged (h : l.Spares view) (world : W) (call : JsonLines.Call) :
    Logged view l world (l.called world call).2 := by
  cases hsink : l.sink with
  | none =>
      rw [called_of_none hsink]
      exact ⟨rfl, h, rfl⟩
  | some sink =>
      obtain ⟨hspares, hworld⟩ := (h sink hsink).meet world call
      rw [called_of_some hsink]
      exact ⟨rfl, spares_of_sink hspares, hworld⟩

theorem logStep_logged (h : l.Spares view) (outputs : Processed) (step : Nat)
    (stopRequested : Bool) (world : W) :
    Logged view (l.takeIn outputs) world (l.logStep outputs step stopRequested world).2 := by
  have hspares : (l.takeIn outputs).Spares view := by
    rw [Spares, takeIn_sink]
    exact h
  rw [logStep_eq]
  cases l.due? outputs step stopRequested with
  | none => exact ⟨rfl, hspares, rfl⟩
  | some record => exact called_logged hspares world (.log record)

/-- The logs agree on the averages, and on the latest value of every metric that no validation
reports. -/
structure AgreesOff (reported : String → Prop) (l l' : MetricsLog W) : Prop
    extends Agrees l l' where
  latest : ∀ key, ¬ reported key → l'.latest.get? key = l.latest.get? key

namespace AgreesOff

theorem symm (h : l.AgreesOff reported l') : l'.AgreesOff reported l :=
  ⟨⟨h.epochValues.symm, h.finished.symm, h.nanArises.symm⟩,
    fun key hkey => (h.latest key hkey).symm⟩

theorem trans (h : l.AgreesOff reported l') (h' : l'.AgreesOff reported l'') :
    l.AgreesOff reported l'' :=
  ⟨h.toAgrees.trans h'.toAgrees, fun key hkey => (h'.latest key hkey).trans (h.latest key hkey)⟩

theorem publish (h : l.AgreesOff reported l') (metrics : Metrics) :
    (l.publish metrics).AgreesOff reported (l'.publish metrics) := by
  refine ⟨⟨h.epochValues, h.finished, h.nanArises⟩, fun key hkey => ?_⟩
  rw [MetricsLog.publish, MetricsLog.publish, KeyMap.get?_merge, KeyMap.get?_merge,
    h.latest key hkey]

/-- What a validation reports may be published in one of the logs alone. -/
theorem publish_right (h : l.AgreesOff reported l') {metrics : Metrics}
    (hmetrics : ∀ key, ¬ reported key → metrics.get? key = none) :
    l.AgreesOff reported (l'.publish metrics) := by
  refine ⟨⟨h.epochValues, h.finished, h.nanArises⟩, fun key hkey => ?_⟩
  rw [MetricsLog.publish, KeyMap.get?_merge, hmetrics key hkey, Option.none_or, h.latest key hkey]

theorem takeIn (h : l.AgreesOff reported l') (outputs : Processed) :
    (l.takeIn outputs).AgreesOff reported (l'.takeIn outputs) := by
  refine ⟨h.toAgrees.takeIn outputs, ?_⟩
  unfold MetricsLog.takeIn
  split
  · exact h.latest
  · rw [h.nanArises]
    exact (h.publish _).latest

theorem closeEpoch (h : l.AgreesOff reported l') :
    l.closeEpoch.AgreesOff reported l'.closeEpoch := by
  refine ⟨h.toAgrees.closeEpoch, ?_⟩
  have haverages : l'.epochAverages = l.epochAverages := by
    rw [epochAverages, epochAverages, h.epochValues]
  unfold MetricsLog.closeEpoch
  rw [haverages]
  split
  · exact h.latest
  · exact (h.publish _).latest

theorem logged (h : l.AgreesOff reported l') {world world' : W} {after after' : MetricsLog W × W}
    (hlogged : Logged view l world after) (hlogged' : Logged view l' world' after') :
    after.1.AgreesOff reported after'.1 := by
  rw [hlogged.log, hlogged'.log]
  exact ⟨⟨h.epochValues, h.finished, h.nanArises⟩, h.latest⟩

end AgreesOff

theorem closeEpoch_spares (h : l.Spares view) : l.closeEpoch.Spares view := by
  rw [closeEpoch_eq]
  exact h

end MetricsLog

/-! ## Trainers that train alike -/

/-- The state as training sees it: without the stage, and without when validation is due. -/
def RunState.training (s : RunState) : RunState :=
  { s with valCheckBatch := .infinite, stage := .training }

namespace Trainer

/-- The trainers differ only in what validation touches, and in what nothing in a run reads. Their
callbacks only report, and no schedule of theirs monitors a metric. -/
structure TrainsLike (view : W → V) (reported : String → Prop) (t t' : Trainer W β) : Prop where
  state : t.state.training = t'.state.training
  board : t.board = t'.board
  log : t.log.AgreesOff reported t'.log
  world : SameView view t.world t'.world
  unmonitored : ∀ rate ∈ t.board.rates, rate.monitor = none
  callbacks : ∀ c ∈ t.callbacks, c.isProgress = true
  callbacks' : ∀ c ∈ t'.callbacks, c.isProgress = true
  spares : t.log.Spares view
  spares' : t'.log.Spares view

namespace TrainsLike

variable {view : W → V} {reported : String → Prop} {t t' t'' : Trainer W β}

theorem symm (h : t.TrainsLike view reported t') : t'.TrainsLike view reported t where
  state := h.state.symm
  board := h.board.symm
  log := h.log.symm
  world := Eq.symm h.world
  unmonitored := h.board ▸ h.unmonitored
  callbacks := h.callbacks'
  callbacks' := h.callbacks
  spares := h.spares'
  spares' := h.spares

theorem trans (h : t.TrainsLike view reported t') (h' : t'.TrainsLike view reported t'') :
    t.TrainsLike view reported t'' where
  state := h.state.trans h'.state
  board := h.board.trans h'.board
  log := h.log.trans h'.log
  world := Eq.trans h.world h'.world
  unmonitored := h.unmonitored
  callbacks := h.callbacks
  callbacks' := h'.callbacks'
  spares := h.spares
  spares' := h'.spares'

theorem shouldStop (h : t.TrainsLike view reported t') :
    t.state.shouldStop = t'.state.shouldStop := (congrArg RunState.shouldStop h.state :)

theorem trainingBatches (h : t.TrainsLike view reported t') :
    t.state.trainingBatches = t'.state.trainingBatches :=
  (congrArg RunState.trainingBatches h.state :)

theorem record (h : t.TrainsLike view reported t') (event event' : RunEvent β) :
    TrainsLike view reported (t.record event) (t'.record event') := { h with }

theorem report (h : t.TrainsLike view reported t') (notices notices' : List Notice) :
    TrainsLike view reported (t.report notices) (t'.report notices') := { h with }

end TrainsLike

/-! ### Callbacks -/

theorem notifyFrom_progress (event : CallbackEvent) (context : Context) (position : Nat)
    {callbacks : List (Callback W)} (h : ∀ c ∈ callbacks, c.isProgress = true)
    (t : Trainer W β) :
    ∃ events notices, notifyFrom event context position callbacks t =
      (.proceed, callbacks, { t with events, notices }) := by
  induction callbacks generalizing position t with
  | nil => exact ⟨t.events, t.notices, rfl⟩
  | cons c rest ih =>
      obtain ⟨hc, hrest⟩ := List.forall_mem_cons.1 h
      obtain ⟨haction, hcallback, hworld⟩ := Callback.notify_progress event context t.world hc
      obtain ⟨events, notices, hnotified⟩ := ih (position + 1) hrest
        (t.hear event context position (c.notify event context t.world))
      refine ⟨events, notices, ?_⟩
      rw [notifyFrom_cons, hnotified, preceded, haction, hcallback, hear, hworld, haction]
      rfl

theorem tellCallbacks_progress (hook : Hook) (event : CallbackEvent) (context : Context)
    {t : Trainer W β} (h : ∀ c ∈ t.callbacks, c.isProgress = true) :
    ∃ events notices, t.tellCallbacks hook event context = { t with events, notices } := by
  obtain ⟨events, notices, hnotified⟩ :=
    notifyFrom_progress event context 0 h (t.record (.dispatched hook))
  refine ⟨events, notices, ?_⟩
  rw [tellCallbacks, notify]
  dsimp only
  rw [show (t.record (.dispatched hook)).callbacks = t.callbacks from rfl, hnotified]
  rfl

namespace TrainsLike

variable {view : W → V} {reported : String → Prop} {t t' : Trainer W β}

theorem tellCallbacks_right (h : t.TrainsLike view reported t') (hook : Hook)
    (event : CallbackEvent) (context : Context) :
    t.TrainsLike view reported (t'.tellCallbacks hook event context) := by
  obtain ⟨events, notices, htold⟩ := tellCallbacks_progress hook event context h.callbacks'
  rw [htold]
  exact { h with }

theorem tellCallbacks (h : t.TrainsLike view reported t') (hook hook' : Hook)
    (event event' : CallbackEvent) (context context' : Context) :
    TrainsLike view reported (t.tellCallbacks hook event context)
      (t'.tellCallbacks hook' event' context') :=
  (h.symm.tellCallbacks_right hook event context).symm.tellCallbacks_right hook' event' context'

end TrainsLike

end Trainer

/-! ## Steps of the trainer -/

namespace TrainerStep

open Trainer

variable {view : W → V} {reported : String → Prop} {setup : Setup W β} {v v' : Validation W}

theorem record_trainsLike (event event' : RunEvent β) :
    Agree (TrainsLike view reported) (modify fun t => t.record event : TrainerStep W β Unit)
      (modify fun t => t.record event') :=
  .modify fun _ _ h => h.record _ _

theorem outside_trainsLike {α : Type} {action : Stateful W α}
    (h : Agree (SameView view) action action) :
    Agree (TrainsLike view reported) (outside action : TrainerStep W β α) (outside action) :=
  .noteFailure <| .onPart h (fun _ _ ht => ht.world) fun _ _ _ _ ht hworld =>
    { ht with world := hworld }

theorem inRegion_trainsLike {α : Type} {action : String} {body body' : TrainerStep W β α}
    (h : Agree (TrainsLike view reported) body body') :
    Agree (TrainsLike view reported) (inRegion action body) (inRegion action body') := by
  intro t t' t₂ t₂' a a' ht hrun hrun'
  obtain ⟨t₁, hbody, rfl⟩ := inRegion_ok hrun
  obtain ⟨t₁', hbody', rfl⟩ := inRegion_ok hrun'
  have hopened : TrainsLike view reported (t.openRegion action) (t'.openRegion action) :=
    { ht with }
  obtain ⟨hresult, hafter⟩ := h hopened hbody hbody'
  exact ⟨hresult, { hafter with }⟩

theorem answer_trainsLike (hsees : setup.Sees view) (hookCall : HookCall β) :
    Agree (TrainsLike view reported) (answer setup hookCall) (answer setup hookCall) := by
  unfold answer
  cases hoverride : setup.model.override? hookCall with
  | none =>
      exact .bind (record_trainsLike _ _) fun _ => outside_trainsLike (hsees.respond hookCall)
  | some action =>
      have hcall : Agree (TrainsLike view reported)
          (do modify fun t => t.record (.model hookCall); outside action : TrainerStep W β Unit)
          (do modify fun t => t.record (.model hookCall); outside action) :=
        .bind (record_trainsLike _ _) fun _ =>
          outside_trainsLike (hsees.override hookCall action hoverride)
      dsimp only
      split
      · exact .bind (.modify fun _ _ h => { h with }) fun _ => hcall
      · exact hcall

/-- The context of a call goes to the callbacks only. -/
theorem call_trainsLike (hsees : setup.Sees view) (hookCall : HookCall β)
    (context context' : Context) :
    Agree (TrainsLike view reported) (call setup hookCall context) (call setup hookCall context') :=
  inRegion_trainsLike <| .bind (.modify fun _ _ h => h.tellCallbacks _ _ _ _ _ _) fun _ =>
    answer_trainsLike hsees hookCall

theorem reduce_trainsLike (hsees : setup.Sees view) (outputs : Processed) :
    Agree (TrainsLike view reported) (reduce setup outputs) (reduce setup outputs) := by
  refine inRegion_trainsLike (.bind (record_trainsLike _ _) fun _ => ?_)
  cases hconsume : setup.model.trainingEpochEnd with
  | none => exact .pure ()
  | some action =>
      refine .bind (record_trainsLike _ _) fun _ =>
        .bind (outside_trainsLike (hsees.consume action hconsume outputs)) fun returned => ?_
      cases returned with
      | false => exact .pure ()
      | true => exact .throw _ _

/-! ### Validation -/

theorem evaluate_trainsLike (hapart : v.Apart view reported) {progress : Progress}
    {t t' : Trainer W β} (ht : t.TrainsLike view reported t)
    (h : (evaluate (setup.withValidation v) progress).runOn t = (.ok (), t')) :
    t.TrainsLike view reported t' := by
  unfold evaluate at h
  cases hevaluator : v.evaluator with
  | none =>
      rw [show (setup.withValidation v).evaluator = none from hevaluator] at h
      cases h
      exact ht
  | some evaluator =>
      rw [show (setup.withValidation v).evaluator = some evaluator from hevaluator] at h
      obtain ⟨result, t₁, hran, hpublished⟩ := bind_ok h
      cases result with
      | error e => cases hpublished
      | ok metrics =>
          obtain ⟨world, profiler, events, hevaluated, rfl⟩ := runEvaluator_ok hran
          obtain ⟨hview, hmetrics⟩ := hapart evaluator hevaluator _ _ _ _ _ hevaluated
          have hpublish : t.TrainsLike view reported
              { t with
                world, profiler, events
                state := { t.state with stage := .training }
                log := t.log.publish metrics } :=
            { ht with
              world := Eq.symm hview
              log := ht.log.publish_right hmetrics }
          cases hpublished
          exact hpublish.tellCallbacks_right _ _ _

/-- Validation may run on one side alone. -/
theorem evaluateIf_trainsLike (hapart : v.Apart view reported) (hapart' : v'.Apart view reported)
    (due due' : Bool) (progress progress' : Progress) :
    Agree (TrainsLike view reported)
      (if due then evaluate (setup.withValidation v) progress else pure ())
      (if due' then evaluate (setup.withValidation v') progress' else pure ()) := by
  have hevaluated {v : Validation W} (hapart : v.Apart view reported) (due : Bool)
      (progress : Progress) (t t' : Trainer W β) (ht : t.TrainsLike view reported t)
      (hrun : (if due then evaluate (setup.withValidation v) progress else pure ()).runOn t =
        (.ok (), t')) : t.TrainsLike view reported t' := by
    cases due with
    | true => exact evaluate_trainsLike hapart ht hrun
    | false =>
        cases hrun
        exact ht
  exact .of_apart (fun _ _ => .symm) (fun _ _ _ => .trans) (hevaluated hapart due progress)
    (hevaluated hapart' due' progress')

/-! ### The metrics log -/

theorem logStep_trainsLike (outputs : Processed) (globalStep : Nat) :
    Agree (TrainsLike view reported) (logStep outputs globalStep : TrainerStep W β Unit)
      (logStep outputs globalStep) := by
  intro t t' t₁ t₁' _ _ ht hrun hrun'
  obtain ⟨_, rfl⟩ := logStep_ok hrun
  obtain ⟨_, rfl⟩ := logStep_ok hrun'
  have hlogged :=
    MetricsLog.logStep_logged ht.spares outputs globalStep t.state.shouldStop t.world
  have hlogged' :=
    MetricsLog.logStep_logged ht.spares' outputs globalStep t'.state.shouldStop t'.world
  exact ⟨rfl, { ht with
    log := (ht.log.takeIn outputs).logged hlogged hlogged'
    world := hlogged.world.trans (Eq.trans ht.world hlogged'.world.symm)
    spares := hlogged.spares
    spares' := hlogged'.spares }⟩

theorem flush_trainsLike (globalStep globalStep' : Nat) :
    Agree (TrainsLike view reported) (flush globalStep : TrainerStep W β Unit)
      (flush globalStep') := by
  have hsaved (step : Nat) (t t' : Trainer W β) (ht : t.TrainsLike view reported t)
      (hrun : (flush step).runOn t = (.ok (), t')) : t.TrainsLike view reported t' := by
    rw [flush, runOn_get_bind] at hrun
    split at hrun
    · rw [runOn_modify_bind] at hrun
      rw [onLog_ok hrun]
      have hunlogged : MetricsLog.Logged view t.log t.world (t.log, t.world) :=
        ⟨rfl, ht.spares, rfl⟩
      have hlogged := MetricsLog.called_logged ht.spares t.world .save
      exact { ht with
        log := ht.log.logged hunlogged hlogged
        world := Eq.symm hlogged.world
        spares' := hlogged.spares }
    · cases hrun
      exact ht
  exact .of_apart (fun _ _ => .symm) (fun _ _ _ => .trans) (hsaved _) (hsaved _)

/-! ### Counters and schedules -/

theorem tickRates_trainsLike (interval : Interval) :
    Agree (TrainsLike view reported) (tickRates interval : TrainerStep W β Unit)
      (tickRates interval) := by
  refine .noteFailure fun t t' t₁ t₁' _ _ ht hrun hrun' => ⟨rfl, ?_⟩
  have hsame : t.board.update interval t.log.latest = t'.board.update interval t'.log.latest := by
    rw [← ht.board]
    exact RateBoard.tickAll_congr ht.unmonitored
  rw [runOn_of, Prod.mk.injEq] at hrun hrun'
  rw [← hrun.2, ← hrun'.2, hsame]
  have hunmonitored : ∀ rate ∈ (t'.board.update interval t'.log.latest).rates,
      rate.monitor = none :=
    RateBoard.tickAll_unmonitored (ht.board ▸ ht.unmonitored)
  exact { ht with
    board := rfl
    unmonitored := hunmonitored }

theorem nextStep_trainsLike (hsees : setup.Sees view) (progress : Progress) :
    Agree (TrainsLike view reported) (nextStep setup progress) (nextStep setup progress) := by
  intro t t' t₁ t₁' _ _ ht hrun hrun'
  obtain ⟨hstep, hview⟩ :=
    hsees.nextStep progress.totalBatches progress.globalStep t.world t'.world ht.world
  simp only [nextStep, runOn_of, Prod.mk.injEq, Except.ok.injEq] at hrun hrun'
  obtain ⟨rfl, rfl⟩ := hrun
  obtain ⟨rfl, rfl⟩ := hrun'
  exact ⟨hstep, { ht with world := hview }⟩

/-- How often validation is due may differ; the batches of an epoch are the same. -/
theorem resolveCounts_trainsLike (length : Option Nat) :
    Agree (TrainsLike view reported)
      (resolveCounts (setup.withValidation v) length : TrainerStep W β Unit)
      (resolveCounts (setup.withValidation v') length) := by
  intro t t' t₁ t₁' _ _ ht hrun hrun'
  obtain ⟨trainingBatches, _, hbatches, -, rfl⟩ := resolveCounts_ok hrun
  obtain ⟨trainingBatches', _, hbatches', -, rfl⟩ := resolveCounts_ok hrun'
  have hsame : trainingBatches = trainingBatches' :=
    Except.ok.inj (hbatches.symm.trans hbatches')
  subst hsame
  exact ⟨rfl, { ht with
    state := congrArg (fun s : RunState => { s with trainingBatches }) ht.state }⟩

end TrainerStep

/-! ## Epochs -/

def EpochRun.TrainsLike (view : W → V) (reported : String → Prop) (r r' : EpochRun σ W β) : Prop :=
  ∃ t', r.trainer.TrainsLike view reported t' ∧ r' = { r with trainer := t' }

namespace EpochRun.TrainsLike

variable {view : W → V} {reported : String → Prop} {r r' r'' : EpochRun σ W β}

theorem symm (h : r.TrainsLike view reported r') : r'.TrainsLike view reported r := by
  obtain ⟨t', ht, rfl⟩ := h
  exact ⟨r.trainer, ht.symm, rfl⟩

theorem trans (h : r.TrainsLike view reported r') (h' : r'.TrainsLike view reported r'') :
    r.TrainsLike view reported r'' := by
  obtain ⟨t', ht, rfl⟩ := h
  obtain ⟨t'', ht', rfl⟩ := h'
  exact ⟨t'', ht.trans ht', rfl⟩

theorem isDone (h : r.TrainsLike view reported r') (loop : BatchLoop σ β) :
    r.isDone loop = r'.isDone loop := by
  obtain ⟨t', ht, rfl⟩ := h
  simp only [EpochRun.isDone, allBatchesSeen, ht.shouldStop, ht.trainingBatches]

theorem atStepBoundary (h : r.TrainsLike view reported r') (loop : BatchLoop σ β) :
    r.atStepBoundary loop = r'.atStepBoundary loop := by
  obtain ⟨t', ht, rfl⟩ := h
  simp only [EpochRun.atStepBoundary, allBatchesSeen, ht.trainingBatches]

end EpochRun.TrainsLike

namespace EpochStep

open EpochRun

variable {view : W → V} {reported : String → Prop} {setup : Setup W β} {v v' : Validation W}
  {loop : BatchLoop σ β}

theorem onTrainer_trainsLike {α : Type} {action action' : TrainerStep W β α}
    (h : Agree (Trainer.TrainsLike view reported) action action') :
    Agree (TrainsLike view reported) (onTrainer action : EpochStep σ W β α)
      (onTrainer action') := by
  refine .onPart h ?_ ?_
  · rintro r _ ⟨t', ht, rfl⟩
    exact ht
  · rintro r _ t t' ⟨t₀, -, rfl⟩ ht
    exact ⟨t', ht, rfl⟩

theorem onWorker_trainsLike {α : Type} (action : Stateful σ α) :
    Agree (TrainsLike view reported) (onWorker action : EpochStep σ W β α) (onWorker action) := by
  refine .onPart (.eq action) ?_ ?_
  · rintro r _ ⟨t', -, rfl⟩
    rfl
  · rintro r _ worker _ ⟨t', ht, rfl⟩ rfl
    exact ⟨t', ht, rfl⟩

theorem mapTrainer_trainsLike {f f' : Trainer W β → Trainer W β}
    (h : ∀ t t', t.TrainsLike view reported t' → (f t).TrainsLike view reported (f' t')) :
    Agree (TrainsLike view reported) (modify fun r => r.mapTrainer f : EpochStep σ W β Unit)
      (modify fun r => r.mapTrainer f') := by
  refine .modify ?_
  rintro r _ ⟨t', ht, rfl⟩
  exact ⟨f' t', h _ _ ht, rfl⟩

theorem inRegion_trainsLike {α : Type} {action : String} {body body' : EpochStep σ W β α}
    (h : Agree (TrainsLike view reported) body body') :
    Agree (TrainsLike view reported) (inRegion action body) (inRegion action body') := by
  rintro r _ r₂ r₂' a a' ⟨t', ht, rfl⟩ hrun hrun'
  obtain ⟨r₁, hbody, rfl⟩ := inRegion_ok hrun
  obtain ⟨r₁', hbody', rfl⟩ := inRegion_ok hrun'
  have hopened : TrainsLike view reported (r.mapTrainer fun t => t.openRegion action)
      (EpochRun.mapTrainer (fun t => t.openRegion action) { r with trainer := t' }) :=
    ⟨t'.openRegion action, { ht with }, rfl⟩
  obtain ⟨hresult, t₁, ht₁, rfl⟩ := h hopened hbody hbody'
  exact ⟨hresult, t₁.closeRegion action, { ht₁ with }, rfl⟩

theorem runBatch_trainsLike (handed : Handed β) :
    Agree (TrainsLike view reported) (runBatch loop handed : EpochStep σ W β BatchOutput)
      (runBatch loop handed) := by
  refine inRegion_trainsLike (.get_bind ?_)
  rintro r _ ⟨t', -, rfl⟩
  exact .bind (mapTrainer_trainsLike fun _ _ h => h.record _ _) fun _ =>
    .mapError (.noteFailure (onWorker_trainsLike _))

theorem completeBatch_trainsLike (hsees : setup.Sees view) (handed : Handed β)
    (results : BatchResults) :
    Agree (TrainsLike view reported)
      (completeBatch (setup.withValidation v) handed results : EpochStep σ W β KeptOutputs)
      (completeBatch (setup.withValidation v') handed results) := by
  refine .get_bind ?_
  rintro r _ ⟨t', -, rfl⟩
  exact .bind (onTrainer_trainsLike (TrainerStep.call_trainsLike hsees _ _ _)) fun _ =>
    .bind (onTrainer_trainsLike (TrainerStep.call_trainsLike hsees _ _ _)) fun _ =>
      .bind (onTrainer_trainsLike (TrainerStep.logStep_trainsLike _ _)) fun _ => .pure _

theorem advance_trainsLike (hsees : setup.Sees view) :
    Agree (TrainsLike view reported) (advance (setup.withValidation v) loop)
      (advance (setup.withValidation v') loop) := by
  refine .get_bind ?_
  rintro r _ ⟨t', -, rfl⟩
  dsimp only
  split
  · split
    · refine .bind (.modify ?_) fun _ => .pure _
      rintro r _ ⟨t', ht, rfl⟩
      exact ⟨t', ht, rfl⟩
    · refine .bind (.modify ?_) fun _ => .bind (runBatch_trainsLike _) fun output => ?_
      · rintro r _ ⟨t', ht, rfl⟩
        exact ⟨_, ht.record _ _, rfl⟩
      split
      · refine .bind (.modify ?_) fun _ => .pure _
        rintro r _ ⟨t', ht, rfl⟩
        exact ⟨_, (ht.record _ _).report _ _, rfl⟩
      · exact .map (completeBatch_trainsLike hsees _ _)
  · exact .throw _ _

theorem evaluateBatch_trainsLike (hapart : v.Apart view reported)
    (hapart' : v'.Apart view reported) :
    Agree (TrainsLike view reported)
      (evaluateBatch (setup.withValidation v) : EpochStep σ W β Unit)
      (evaluateBatch (setup.withValidation v')) := by
  refine .get_bind fun r r' _ => ?_
  rw [onTrainer, onTrainer, onPart_due fun _ => rfl, onPart_due fun _ => rfl]
  exact onTrainer_trainsLike (TrainerStep.evaluateIf_trainsLike hapart hapart' _ _ _ _)

theorem markTrained_trainsLike :
    Agree (TrainsLike view reported)
      (modify fun r => r.mapTrainer Trainer.markTrained : EpochStep σ W β Unit)
      (modify fun r => r.mapTrainer Trainer.markTrained) :=
  mapTrainer_trainsLike fun _ _ h =>
    { h with state := congrArg (fun s : RunState => { s with hasTrained := true }) h.state }

theorem takeStep_trainsLike (hsees : setup.Sees view) :
    Agree (TrainsLike view reported)
      (takeStep (setup.withValidation v) : EpochStep σ W β Unit)
      (takeStep (setup.withValidation v')) := by
  refine .bind (onTrainer_trainsLike (TrainerStep.tickRates_trainsLike _)) fun _ =>
    .bind markTrained_trainsLike fun _ => .get_bind ?_
  rintro r _ ⟨t', -, rfl⟩
  refine .bind (onTrainer_trainsLike (TrainerStep.nextStep_trainsLike hsees _)) fun globalStep =>
    .modify ?_
  rintro r _ ⟨t', ht, rfl⟩
  exact ⟨t', ht, rfl⟩

theorem advanceEnd_trainsLike (hsees : setup.Sees view) (hapart : v.Apart view reported)
    (hapart' : v'.Apart view reported) :
    Agree (TrainsLike view reported) (advanceEnd (setup.withValidation v) loop)
      (advanceEnd (setup.withValidation v') loop) := by
  refine .bind (evaluateBatch_trainsLike hapart hapart') fun _ => .get_bind fun r r' hr =>
    .bind (onTrainer_trainsLike (TrainerStep.flush_trainsLike _ _)) fun _ => ?_
  rw [hr.atStepBoundary loop]
  split
  · exact takeStep_trainsLike hsees
  · exact markTrained_trainsLike

theorem finish_trainsLike (hsees : setup.Sees view) (kept : KeptOutputs) :
    Agree (TrainsLike view reported)
      (finish (setup.withValidation v) kept : EpochStep σ W β Processed)
      (finish (setup.withValidation v') kept) := by
  refine .bind (.modify ?_) fun _ => .bind (mapTrainer_trainsLike fun t t' h => ?_) fun _ =>
    .bind (onTrainer_trainsLike (TrainerStep.reduce_trainsLike hsees _)) fun _ =>
      .get_bind fun r r' _ =>
        .bind (onTrainer_trainsLike (TrainerStep.call_trainsLike hsees _ _ _)) fun _ =>
          .bind (onTrainer_trainsLike (TrainerStep.call_trainsLike hsees _ _ _)) fun _ => .pure _
  · rintro r _ ⟨t', ht, rfl⟩
    exact ⟨t', ht, rfl⟩
  · exact { h with
      log := h.log.closeEpoch
      spares := MetricsLog.closeEpoch_spares h.spares
      spares' := MetricsLog.closeEpoch_spares h.spares' }

theorem batches_trainsLike (hsees : setup.Sees view) (hapart : v.Apart view reported)
    (hapart' : v'.Apart view reported) (horizon : Nat) (kept : KeptOutputs) :
    Agree (TrainsLike view reported) (batches (setup.withValidation v) loop horizon kept)
      (batches (setup.withValidation v') loop horizon kept) := by
  induction horizon generalizing kept with
  | zero => exact .pure none
  | succ horizon ih =>
      refine .get_bind fun r r' hr => ?_
      rw [hr.isDone loop]
      split
      · exact .pure _
      · refine .bind (advance_trainsLike hsees) fun outcome => ?_
        cases outcome with
        | completed more =>
            exact .bind (advanceEnd_trainsLike hsees hapart hapart') fun _ => ih _
        | skipped => exact .pure _
        | exhausted => exact .pure _

theorem run_trainsLike (hsees : setup.Sees view) (hapart : v.Apart view reported)
    (hapart' : v'.Apart view reported) (horizon : Nat) (data : Batches β) :
    Agree (TrainsLike view reported) (run (setup.withValidation v) loop horizon data)
      (run (setup.withValidation v') loop horizon data) := by
  refine .bind (.modify ?_) fun _ =>
    .bind (batches_trainsLike hsees hapart hapart' _ _) fun kept => ?_
  · rintro r _ ⟨t', ht, rfl⟩
    obtain ⟨hdata, hview⟩ := hsees.prepare data r.trainer.world t'.world ht.world
    refine ⟨{ t' with world := (setup.accelerator.prepare data t'.world).2 },
      { ht with world := hview }, ?_⟩
    simp only [start, Setup.withValidation, hdata]
  · cases kept with
    | none => exact .pure none
    | some kept => exact .map (finish_trainsLike hsees kept)

end EpochStep

/-! ## Runs -/

def FitRun.TrainsLike (view : W → V) (reported : String → Prop) (r r' : FitRun σ W β) : Prop :=
  ∃ t', r.trainer.TrainsLike view reported t' ∧ r' = { r with trainer := t' }

theorem FitRun.TrainsLike.stopReason? {view : W → V} {reported : String → Prop}
    {r r' : FitRun σ W β} (h : r.TrainsLike view reported r') (config : Config) :
    r.stopReason? config = r'.stopReason? config := by
  obtain ⟨t', ht, rfl⟩ := h
  simp only [FitRun.stopReason?, ht.shouldStop]
  rfl

namespace FitStep

open FitRun

variable {view : W → V} {reported : String → Prop} {setup : Setup W β} {v v' : Validation W}
  {loop : BatchLoop σ β}

theorem onTrainer_trainsLike {α : Type} {action action' : TrainerStep W β α}
    (h : Agree (Trainer.TrainsLike view reported) action action') :
    Agree (TrainsLike view reported) (onTrainer action : FitStep σ W β α) (onTrainer action') := by
  refine .onPart h ?_ ?_
  · rintro r _ ⟨t', ht, rfl⟩
    exact ht
  · rintro r _ t t' ⟨t₀, -, rfl⟩ ht
    exact ⟨t', ht, rfl⟩

theorem onWorker_trainsLike {α : Type} (action : Stateful σ α) :
    Agree (TrainsLike view reported) (onWorker action : FitStep σ W β α) (onWorker action) := by
  refine .onPart (.eq action) ?_ ?_
  · rintro r _ ⟨t', -, rfl⟩
    rfl
  · rintro r _ worker _ ⟨t', ht, rfl⟩ rfl
    exact ⟨t', ht, rfl⟩

theorem mapTrainer_trainsLike {f f' : Trainer W β → Trainer W β}
    (h : ∀ t t', t.TrainsLike view reported t' → (f t).TrainsLike view reported (f' t')) :
    Agree (TrainsLike view reported) (modify fun r => r.mapTrainer f : FitStep σ W β Unit)
      (modify fun r => r.mapTrainer f') := by
  refine .modify ?_
  rintro r _ ⟨t', ht, rfl⟩
  exact ⟨f' t', h _ _ ht, rfl⟩

theorem epoch_trainsLike (hsees : setup.Sees view) (hapart : v.Apart view reported)
    (hapart' : v'.Apart view reported) (horizon : Nat) (data : Batches β) :
    Agree (TrainsLike view reported) (epoch (setup.withValidation v) loop horizon data)
      (epoch (setup.withValidation v') loop horizon data) := by
  rintro r _ r₁ r₁' a a' ⟨t', ht, rfl⟩ hrun hrun'
  have hstart : (r.epochRun (setup.withValidation v).config).TrainsLike view reported
      (FitRun.epochRun (setup.withValidation v').config { r with trainer := t' }) :=
    ⟨t', ht, rfl⟩
  obtain ⟨result, e, hepoch, rfl, hnone, hsome⟩ := epoch_ok hrun
  obtain ⟨result', e', hepoch', rfl, hnone', hsome'⟩ := epoch_ok hrun'
  obtain ⟨rfl, t₁, ht₁, rfl⟩ :=
    EpochStep.run_trainsLike hsees hapart hapart' horizon data hstart hepoch hepoch'
  cases result with
  | none =>
      rw [hnone rfl, hnone' rfl]
      exact ⟨rfl, t₁, ht₁, rfl⟩
  | some outputs =>
      rw [hsome rfl, hsome' rfl]
      exact ⟨rfl, t₁, ht₁, rfl⟩

theorem evaluateEpoch_trainsLike (hapart : v.Apart view reported)
    (hapart' : v'.Apart view reported) (counters : EpochCounters) :
    Agree (TrainsLike view reported)
      (evaluateEpoch (setup.withValidation v) counters : FitStep σ W β Unit)
      (evaluateEpoch (setup.withValidation v') counters) := by
  refine .get_bind fun r r' _ => ?_
  rw [onTrainer, onTrainer, onPart_due fun _ => rfl, onPart_due fun _ => rfl]
  exact onTrainer_trainsLike (TrainerStep.evaluateIf_trainsLike hapart hapart' _ _ _ _)

theorem closeEpoch_trainsLike (hapart : v.Apart view reported) (hapart' : v'.Apart view reported)
    (counters : EpochCounters) :
    Agree (TrainsLike view reported)
      (closeEpoch (setup.withValidation v) counters : FitStep σ W β Unit)
      (closeEpoch (setup.withValidation v') counters) := by
  refine .bind (evaluateEpoch_trainsLike hapart hapart' _) fun _ =>
    .bind (onTrainer_trainsLike (TrainerStep.tickRates_trainsLike _)) fun _ => .modify ?_
  rintro r _ ⟨t', ht, rfl⟩
  exact ⟨t', ht, rfl⟩

theorem nextEpoch_trainsLike (hsees : setup.Sees view) (hapart : v.Apart view reported)
    (hapart' : v'.Apart view reported) (horizon : Nat) (data : Nat → Batches β) :
    Agree (TrainsLike view reported) (nextEpoch (setup.withValidation v) loop horizon data)
      (nextEpoch (setup.withValidation v') loop horizon data) := by
  refine .bind (.modify ?_) fun _ => .get_bind ?_
  · rintro r _ ⟨t', ht, rfl⟩
    refine ⟨_, ?_, rfl⟩
    exact { ht with
      state := congrArg (fun s : RunState => { s with currentEpoch := r.currentEpoch }) ht.state }
  rintro r _ ⟨t', -, rfl⟩
  refine .bind (onTrainer_trainsLike (TrainerStep.resolveCounts_trainsLike _)) fun _ =>
    .get_bind fun _ _ _ =>
      .bind (onTrainer_trainsLike (TrainerStep.call_trainsLike hsees _ _ _)) fun _ =>
        .bind (epoch_trainsLike hsees hapart hapart' _ _) fun ran => ?_
  cases ran with
  | none => exact .pure none
  | some ran => exact .bind (closeEpoch_trainsLike hapart hapart' _) fun _ => .pure _

theorem declineStop_trainsLike :
    Agree (TrainsLike view reported)
      (modify (declineStop (setup.withValidation v).config) : FitStep σ W β Unit)
      (modify (declineStop (setup.withValidation v').config)) := by
  refine .modify ?_
  rintro r _ ⟨t', ht, rfl⟩
  unfold declineStop
  dsimp only
  rw [ht.shouldStop]
  split
  · refine ⟨_, ?_, rfl⟩
    exact { ht with
      state := congrArg (fun s : RunState => { s with shouldStop := false }) ht.state }
  · exact ⟨t', ht, rfl⟩

theorem epochs_trainsLike (hsees : setup.Sees view) (hapart : v.Apart view reported)
    (hapart' : v'.Apart view reported) (horizon : Nat) (data : Nat → Batches β) (remaining : Nat)
    (c : Completed) :
    Agree (TrainsLike view reported) (epochs (setup.withValidation v) loop horizon data remaining c)
      (epochs (setup.withValidation v') loop horizon data remaining c) := by
  have hreason {r r' : FitRun σ W β} (hr : r.TrainsLike view reported r') :
      r.stopReason? (setup.withValidation v).config =
        r'.stopReason? (setup.withValidation v').config := hr.stopReason? setup.config
  induction remaining generalizing c with
  | zero =>
      unfold epochs
      refine .get_bind fun r r' hr => ?_
      rw [hreason hr]
      split <;> exact .pure _
  | succ remaining ih =>
      unfold epochs
      refine .get_bind fun r r' hr => ?_
      rw [hreason hr]
      split
      · exact .pure _
      · refine .bind declineStop_trainsLike fun _ =>
          .bind (nextEpoch_trainsLike hsees hapart hapart' _ _) fun outputs => ?_
        cases outputs with
        | none => exact .pure none
        | some outputs => exact ih _

/-- Two runs that are validated in different ways train alike, and where both return, they return
the same. -/
theorem run_trainsLike (hsees : setup.Sees view) (hapart : v.Apart view reported)
    (hapart' : v'.Apart view reported) (horizon : Nat) (data : Nat → Batches β) :
    Agree (TrainsLike view reported) (run (setup.withValidation v) loop horizon data)
      (run (setup.withValidation v') loop horizon data) := by
  refine .bind (.lift _ _) fun _ =>
    .bind (mapTrainer_trainsLike fun _ _ h => h.record _ _) fun _ =>
      .bind (.noteFailure (onWorker_trainsLike _)) fun _ => .bind (.modify ?_) fun _ =>
        .get_bind ?_
  · rintro r _ ⟨t', ht, rfl⟩
    exact ⟨_, ht.tellCallbacks _ _ _ _ _ _, rfl⟩
  rintro r _ ⟨t', -, rfl⟩
  refine .bind (epochs_trainsLike hsees hapart hapart' _ _ _ _) fun ended => ?_
  cases ended with
  | none => exact .pure none
  | some ended =>
      refine .bind (.modify ?_) fun _ => .get_bind ?_
      · rintro r _ ⟨t', ht, rfl⟩
        exact ⟨_, (ht.tellCallbacks _ _ _ _ _ _).report _ _, rfl⟩
      · rintro r _ ⟨t', ht, rfl⟩
        dsimp only
        rw [MetricsLog.best?, MetricsLog.best?, ht.log.finished]
        exact .pure _

end FitStep

end TrainingLoop
