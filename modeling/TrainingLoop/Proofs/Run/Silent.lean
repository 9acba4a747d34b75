import TrainingLoop.Proofs.Run.EpochMetrics
/-!
# What a run does not learn from its logging

Two trainers are alike if they differ only in how they log: in the logger and its cadences, in
progress reports, and in what was recorded and reported so far. No step of a run tells such trainers
apart, as long as their loggers do not fail (`FitStep.run_alike`): the results are the same, and the
trainers are alike again.
-/

namespace TrainingLoop

variable {σ W β : Type}

open Stateful

/-! ## Loggers that do their work -/

/-- The logger never fails, and it leaves the world of the run alone. -/
def Sink.Obliging : Sink W → Prop
  | .memory _ => True
  | .jsonLines l => ∀ attempt, l.file.faultAt attempt = none
  | .outside o => (∀ record world, (o.log record).runOn world = (.ok (), world)) ∧
      ∀ world, o.save.runOn world = (.ok (), world)

namespace Sink.Obliging

variable {s : Sink W}

theorem log (h : s.Obliging) (record : LogRecord) (world : W) :
    ∃ s', s.log record world = (.ok (), s', world) ∧ s'.Obliging := by
  cases s with
  | memory m => exact ⟨_, rfl, trivial⟩
  | jsonLines l => exact ⟨.jsonLines (l.log record), rfl, h⟩
  | outside o =>
      refine ⟨.outside o, ?_, h⟩
      simp only [Sink.log, h.1]

theorem save (h : s.Obliging) (world : W) :
    ∃ s', s.save world = (.ok (), s', world) ∧ s'.Obliging := by
  cases s with
  | memory m => exact ⟨_, rfl, trivial⟩
  | jsonLines l =>
      by_cases hpending : l.pending.isEmpty = true
      · refine ⟨.jsonLines l, ?_, h⟩
        simp only [Sink.save, JsonLines.save, if_pos hpending]
      · have happend : l.file.append (JsonLines.lines l.pending.toList) =
            (.ok (), { l.file with
              opens := l.file.opens + 1
              text := some (l.file.text.getD "" ++ JsonLines.lines l.pending.toList) }) := by
          simp only [LogFile.append, h l.file.opens]
        refine ⟨.jsonLines { l with pending := ∅, file := { l.file with
          opens := l.file.opens + 1
          text := some (l.file.text.getD "" ++ JsonLines.lines l.pending.toList) } }, ?_, h⟩
        simp only [Sink.save, JsonLines.save, if_neg hpending, happend]
  | outside o =>
      refine ⟨.outside o, ?_, h⟩
      simp only [Sink.save, h.2]

theorem meet (h : s.Obliging) (world : W) (call : JsonLines.Call) :
    ∃ s', s.meet world call = (.ok (), s', world) ∧ s'.Obliging := by
  cases call with
  | log record => exact h.log record world
  | save => exact h.save world

end Sink.Obliging

namespace MetricsLog

def Obliging (l : MetricsLog W) : Prop := ∀ sink, l.sink = some sink → sink.Obliging

/-- The log without its logger and the cadences. -/
def silent (l : MetricsLog W) : MetricsLog W :=
  { l with
    logEvery := 0
    flushEvery := 0
    sink := none }

theorem takeIn_silent (outputs : Processed) (l : MetricsLog W) :
    (l.takeIn outputs).silent = l.silent.takeIn outputs := by
  unfold takeIn
  split <;> rfl

theorem closeEpoch_silent (l : MetricsLog W) : l.closeEpoch.silent = l.silent.closeEpoch := by
  unfold closeEpoch
  have haverages : l.silent.epochAverages = l.epochAverages := rfl
  rw [haverages]
  split <;> rfl

theorem closeEpoch_obliging {l : MetricsLog W} (h : l.Obliging) : l.closeEpoch.Obliging := by
  rw [closeEpoch_eq]
  exact h

theorem obliging_of_sink (l : MetricsLog W) {sink : Sink W} (h : sink.Obliging) :
    ({ l with sink := some sink } : MetricsLog W).Obliging := by
  rintro _ heq
  cases heq
  exact h

theorem called_obliging {l : MetricsLog W} (h : l.Obliging) (world : W) (call : JsonLines.Call) :
    ∃ l', l.called world call = (.ok (), l', world) ∧ l'.silent = l.silent ∧ l'.Obliging := by
  cases hsink : l.sink with
  | none => exact ⟨l, called_of_none hsink world call, rfl, h⟩
  | some sink =>
      obtain ⟨sink', hmeet, hsink'⟩ := (h sink hsink).meet world call
      refine ⟨{ l with sink := some sink' }, ?_, rfl, l.obliging_of_sink hsink'⟩
      rw [called_of_some hsink, hmeet]

theorem takeIn_obliging {l : MetricsLog W} (h : l.Obliging) (outputs : Processed) :
    (l.takeIn outputs).Obliging := by
  rw [Obliging, takeIn_sink]
  exact h

theorem logStep_obliging {l : MetricsLog W} (h : l.Obliging) (outputs : Processed) (step : Nat)
    (stopRequested : Bool) (world : W) :
    ∃ l', l.logStep outputs step stopRequested world = (.ok (), l', world) ∧
      l'.silent = l.silent.takeIn outputs ∧ l'.Obliging := by
  rw [← takeIn_silent, logStep_eq]
  cases l.due? outputs step stopRequested with
  | none => exact ⟨l.takeIn outputs, rfl, rfl, takeIn_obliging h outputs⟩
  | some record => exact called_obliging (takeIn_obliging h outputs) world (.log record)

end MetricsLog

/-! ## Trainers that differ in their logging -/

namespace Callback

def isProgress : Callback W → Bool
  | progress _ => true
  | _ => false

def deciding (callbacks : List (Callback W)) : List (Callback W) :=
  callbacks.filter fun c => !c.isProgress

theorem deciding_cons (c : Callback W) (rest : List (Callback W)) :
    deciding (c :: rest) = if c.isProgress then deciding rest else c :: deciding rest := by
  cases h : c.isProgress <;> simp [deciding, h]

theorem notify_progress (event : CallbackEvent) (context : Context) (world : W)
    {c : Callback W} (h : c.isProgress = true) :
    (c.notify event context world).action = .proceed ∧
      (c.notify event context world).callback = c ∧
      (c.notify event context world).world = world := by
  cases c with
  | progress p =>
      unfold notify
      dsimp only
      split <;> exact ⟨rfl, rfl, rfl⟩
  | earlyStopping e => cases h
  | outside o => cases h

end Callback

namespace Trainer

/-- The trainer without what belongs to its logging, its profile and the events of its run. -/
def silent (t : Trainer W β) : Trainer W β :=
  { t with
    callbacks := Callback.deciding t.callbacks
    log := t.log.silent
    profiler := .passThrough
    events := ∅
    notices := ∅ }

/-- The trainers differ only in what `silent` leaves out, and their loggers do not fail. -/
structure Alike (t t' : Trainer W β) : Prop where
  silent : t.silent = t'.silent
  obliging : t.log.Obliging
  obliging' : t'.log.Obliging

namespace Alike

variable {t t' t'' : Trainer W β}

theorem symm (h : Alike t t') : Alike t' t := ⟨h.silent.symm, h.obliging', h.obliging⟩

theorem trans (h : Alike t t') (h' : Alike t' t'') : Alike t t'' :=
  ⟨h.silent.trans h'.silent, h.obliging, h'.obliging'⟩

theorem refl (h : t.log.Obliging) : Alike t t := ⟨rfl, h, h⟩

theorem state (h : Alike t t') : t.state = t'.state := (congrArg Trainer.state h.silent :)

theorem board (h : Alike t t') : t.board = t'.board := (congrArg Trainer.board h.silent :)

theorem warnings (h : Alike t t') : t.warnings = t'.warnings :=
  (congrArg Trainer.warnings h.silent :)

theorem world (h : Alike t t') : t.world = t'.world := (congrArg Trainer.world h.silent :)

theorem callbacks (h : Alike t t') :
    Callback.deciding t.callbacks = Callback.deciding t'.callbacks :=
  congrArg Trainer.callbacks h.silent

theorem latest (h : Alike t t') : t.log.latest = t'.log.latest :=
  congrArg (fun t => t.log.latest) h.silent

theorem finished (h : Alike t t') : t.log.finished = t'.log.finished :=
  congrArg (fun t => t.log.finished) h.silent

theorem record (h : Alike t t') (event event' : RunEvent β) :
    Alike (t.record event) (t'.record event') :=
  ⟨h.silent, h.obliging, h.obliging'⟩

theorem report (h : Alike t t') (notices notices' : List Notice) :
    Alike (t.report notices) (t'.report notices') :=
  ⟨h.silent, h.obliging, h.obliging'⟩

theorem withState (h : Alike t t') (f : RunState → RunState) :
    Alike { t with state := f t.state } { t' with state := f t'.state } :=
  ⟨congrArg (fun u => { u with state := f u.state }) h.silent, h.obliging, h.obliging'⟩

theorem withWorld (h : Alike t t') (world : W) :
    Alike { t with world } { t' with world } :=
  ⟨congrArg (fun u => { u with world }) h.silent, h.obliging, h.obliging'⟩

theorem closeEpoch (h : Alike t t') :
    Alike { t with log := t.log.closeEpoch } { t' with log := t'.log.closeEpoch } := by
  refine ⟨?_, MetricsLog.closeEpoch_obliging h.obliging,
    MetricsLog.closeEpoch_obliging h.obliging'⟩
  change { t.silent with log := t.log.closeEpoch.silent } =
    { t'.silent with log := t'.log.closeEpoch.silent }
  rw [MetricsLog.closeEpoch_silent, MetricsLog.closeEpoch_silent]
  exact congrArg (fun u => { u with log := u.log.closeEpoch }) h.silent

theorem context (h : Alike t t') (setup : Setup W β) (progress : Progress) (batchIndex : Nat)
    (loss : Option Float32) :
    t.context setup progress batchIndex loss = t'.context setup progress batchIndex loss := by
  simp only [Trainer.context, h.state, h.board, h.latest]

theorem validationSchedule (h : Alike t t') (setup : Setup W β) :
    t.validationSchedule setup = t'.validationSchedule setup := by
  simp only [Trainer.validationSchedule, h.state]

end Alike

/-! ### Callbacks -/

def hear (event : CallbackEvent) (context : Context) (position : Nat) (reply : Callback.Reply W)
    (t : Trainer W β) : Trainer W β :=
  ((({ t with world := reply.world } : Trainer W β).record
    (.callback position event context)).recordAnswer position reply.action).report reply.notices

theorem hear_silent (event : CallbackEvent) (context : Context) (position : Nat)
    (reply : Callback.Reply W) (t : Trainer W β) :
    (t.hear event context position reply).silent = { t.silent with world := reply.world } := by
  unfold hear recordAnswer
  split <;> rfl

theorem hear_log (event : CallbackEvent) (context : Context) (position : Nat)
    (reply : Callback.Reply W) (t : Trainer W β) :
    (t.hear event context position reply).log = t.log := by
  unfold hear recordAnswer
  split <;> rfl

/-- What an event told to callbacks comes to, where one more callback has replied before. -/
def preceded (reply : Callback.Reply W) (told : CallbackAction × List (Callback W) × Trainer W β) :
    CallbackAction × List (Callback W) × Trainer W β :=
  (reply.action.merge told.1, reply.callback :: told.2.1, told.2.2)

theorem notifyFrom_cons (event : CallbackEvent) (context : Context) (position : Nat)
    (c : Callback W) (rest : List (Callback W)) (t : Trainer W β) :
    notifyFrom event context position (c :: rest) t =
      preceded (c.notify event context t.world) (notifyFrom event context (position + 1) rest
        (t.hear event context position (c.notify event context t.world))) := rfl

/-- An event told to callbacks comes to the same, up to logging: in what they ask for, in those of
them that decide, and in the trainer. -/
structure SameTold (told told' : CallbackAction × List (Callback W) × Trainer W β) : Prop where
  action : told.1 = told'.1
  deciding : Callback.deciding told.2.1 = Callback.deciding told'.2.1
  trainer : Alike told.2.2 told'.2.2

namespace SameTold

variable {told told' told'' : CallbackAction × List (Callback W) × Trainer W β}

theorem symm (h : SameTold told told') : SameTold told' told :=
  ⟨h.action.symm, h.deciding.symm, h.trainer.symm⟩

theorem trans (h : SameTold told told') (h' : SameTold told' told'') : SameTold told told'' :=
  ⟨h.action.trans h'.action, h.deciding.trans h'.deciding, h.trainer.trans h'.trainer⟩

theorem preceded (h : SameTold told told') (reply : Callback.Reply W) :
    SameTold (preceded reply told) (preceded reply told') := by
  refine ⟨?_, ?_, h.trainer⟩
  · exact congrArg reply.action.merge h.action
  · rw [Trainer.preceded, Trainer.preceded, Callback.deciding_cons, Callback.deciding_cons,
      h.deciding]

theorem preceded_progress (h : SameTold told told') {reply : Callback.Reply W}
    (haction : reply.action = .proceed) (hprogress : reply.callback.isProgress = true) :
    SameTold (Trainer.preceded reply told) told' := by
  refine ⟨?_, ?_, h.trainer⟩
  · rw [← h.action, Trainer.preceded, haction]
    cases told.1 <;> rfl
  · rw [← h.deciding, Trainer.preceded, Callback.deciding_cons, if_pos hprogress]

end SameTold

/-- Progress reports may as well not be told. -/
theorem notifyFrom_deciding (event : CallbackEvent) (context : Context) (position position' : Nat)
    (callbacks : List (Callback W)) {t t' : Trainer W β} (h : Alike t t') :
    SameTold (notifyFrom event context position callbacks t)
      (notifyFrom event context position' (Callback.deciding callbacks) t') := by
  induction callbacks generalizing position position' t t' with
  | nil => exact ⟨rfl, rfl, h⟩
  | cons c rest ih =>
      rw [notifyFrom_cons, Callback.deciding_cons]
      by_cases hprogress : c.isProgress = true
      · obtain ⟨haction, hcallback, hworld⟩ :=
          Callback.notify_progress event context t.world hprogress
        have hheard :
            Alike (t.hear event context position (c.notify event context t.world)) t' := by
          refine ⟨?_, by rw [hear_log]; exact h.obliging, h.obliging'⟩
          rw [hear_silent, hworld]
          exact h.silent
        rw [if_pos hprogress]
        exact (ih _ _ hheard).preceded_progress haction (by rw [hcallback, hprogress])
      · rw [if_neg hprogress, notifyFrom_cons, ← h.world]
        refine (ih _ _ ⟨?_, ?_, ?_⟩).preceded _
        · rw [hear_silent, hear_silent, h.silent]
        · rw [hear_log]
          exact h.obliging
        · rw [hear_log]
          exact h.obliging'

theorem Alike.notify {t t' : Trainer W β} (h : Alike t t') (event : CallbackEvent)
    (context : Context) :
    (t.notify event context).1 = (t'.notify event context).1 ∧
      Alike (t.notify event context).2 (t'.notify event context).2 := by
  have hfirst := notifyFrom_deciding event context 0 0 t.callbacks h
  have hsecond := notifyFrom_deciding event context 0 0 t'.callbacks (Alike.refl h.obliging')
  rw [h.callbacks] at hfirst
  obtain ⟨haction, hdeciding, htrainer⟩ := hfirst.trans hsecond.symm
  refine ⟨haction, ?_, htrainer.obliging, htrainer.obliging'⟩
  change { (notifyFrom event context 0 t.callbacks t).2.2.silent with
      callbacks := Callback.deciding (notifyFrom event context 0 t.callbacks t).2.1 } =
    { (notifyFrom event context 0 t'.callbacks t').2.2.silent with
      callbacks := Callback.deciding (notifyFrom event context 0 t'.callbacks t').2.1 }
  rw [htrainer.silent, hdeciding]

theorem Alike.tellCallbacks {t t' : Trainer W β} (h : Alike t t') (hook : Hook)
    (event : CallbackEvent) (context : Context) :
    Alike (t.tellCallbacks hook event context) (t'.tellCallbacks hook event context) := by
  obtain ⟨haction, hnotified⟩ :=
    (h.record (.dispatched hook) (.dispatched hook)).notify event context
  unfold Trainer.tellCallbacks applyAction
  dsimp only
  rw [haction, hnotified.state]
  split
  · exact (hnotified.report _ _).withState fun state => { state with shouldStop := true }
  · exact hnotified

end Trainer

/-! ## Steps of the trainer -/

namespace TrainerStep

open Trainer

variable {setup : Setup W β}

theorem recordFailure_alike {α : Type} {step : TrainerStep W β α} (h : Respects Alike step) :
    Respects Alike (recordFailure step) :=
  .noteFailure h fun _ _ _ hs => hs.record _ _

theorem record_alike (event : RunEvent β) :
    Respects Alike (modify fun t => t.record event : TrainerStep W β Unit) :=
  .modify fun _ _ h => h.record _ _

theorem withState_alike (f : RunState → RunState) :
    Respects Alike (modify fun t => { t with state := f t.state } : TrainerStep W β Unit) :=
  .modify fun _ _ h => h.withState f

theorem outside_alike {α : Type} (action : Stateful W α) :
    Respects Alike (outside action : TrainerStep W β α) := by
  refine recordFailure_alike (.onPart (.eq action) (fun _ _ h => h.world) ?_)
  rintro t t' world _ h rfl
  exact h.withWorld world

theorem inRegion_alike {α : Type} {action : String} {body : TrainerStep W β α}
    (h : Respects Alike body) : Respects Alike (inRegion action body) := by
  intro t t' ht
  have hopened : Alike (t.openRegion action) (t'.openRegion action) :=
    ⟨ht.silent, ht.obliging, ht.obliging'⟩
  obtain ⟨hresult, hafter⟩ := h _ _ hopened
  exact ⟨hresult, hafter.silent, hafter.obliging, hafter.obliging'⟩

theorem answer_alike (hookCall : HookCall β) : Respects Alike (answer setup hookCall) := by
  unfold answer
  split
  · have hcall (action : Stateful W Unit) : Respects Alike
        (do modify fun t => t.record (.model hookCall); outside action : TrainerStep W β Unit) :=
      .bind (record_alike _) fun _ => outside_alike _
    split
    · refine .bind (.modify fun t t' h => ⟨?_, h.obliging, h.obliging'⟩) fun _ => hcall _
      change { t.silent with warnings := t.warnings.add ModelHooks.legacyWarning } =
        { t'.silent with warnings := t'.warnings.add ModelHooks.legacyWarning }
      rw [h.silent, h.warnings]
    · exact hcall _
  · exact .bind (record_alike _) fun _ => outside_alike _

theorem call_alike (hookCall : HookCall β) (context : Context) :
    Respects Alike (call setup hookCall context) :=
  inRegion_alike (.bind (.modify fun _ _ h => h.tellCallbacks _ _ _) fun _ => answer_alike _)

theorem reduce_alike (outputs : Processed) : Respects Alike (reduce setup outputs) := by
  refine inRegion_alike (.bind (record_alike _) fun _ => ?_)
  split
  · exact .pure ()
  · refine .bind (record_alike _) fun _ => .bind (outside_alike _) fun returned => ?_
    cases returned
    · exact .pure ()
    · exact .throw _

theorem runEvaluator_alike (evaluator : Evaluator W) (globalStep : Nat) :
    Respects Alike (runEvaluator evaluator globalStep : TrainerStep W β _) := by
  refine .bind (withState_alike fun state => { state with stage := .validating }) fun _ =>
    .get_bind (fun t t' h => by rw [h.state]) fun t => ?_
  refine .bind (.attempt (inRegion_alike ?_)) fun result =>
    .bind (withState_alike fun state => { state with stage := .training }) fun _ => .pure _
  exact .bind (record_alike _) fun _ => outside_alike _

theorem publishEvaluation_alike (progress : Progress) (result : Except Error Metrics) :
    Respects Alike (publishEvaluation setup progress result) := by
  cases result with
  | error e => exact .throw _
  | ok metrics =>
      refine .bind (.modify fun t t' h => ⟨?_, h.obliging, h.obliging'⟩) fun _ =>
        .modify fun t t' h => ?_
      · exact congrArg (fun u => { u with log := u.log.publish metrics }) h.silent
      · rw [h.context]
        exact h.tellCallbacks _ _ _

theorem evaluate_alike (progress : Progress) : Respects Alike (evaluate setup progress) := by
  unfold evaluate
  split
  · exact .pure ()
  · exact .bind (runEvaluator_alike _ _) fun result => publishEvaluation_alike progress result

theorem onLog_obliging {action : MetricsLog W → W → Except Error Unit × MetricsLog W × W}
    {t : Trainer W β} {log : MetricsLog W} (h : action t.log t.world = (.ok (), log, t.world)) :
    (onLog action).runOn t = (.ok (), { t with log }) := by
  rw [onLog, recordFailure, noteFailure_ok, runOn_of, h]

theorem logStep_obliging {t : Trainer W β} (h : t.log.Obliging) (outputs : Processed)
    (globalStep : Nat) :
    ∃ t', (logStep outputs globalStep).runOn t = (.ok (), t') ∧
      t'.silent = { t.silent with log := t.silent.log.takeIn outputs } ∧ t'.log.Obliging := by
  obtain ⟨log, hlog, hsilent, hobliging⟩ :=
    MetricsLog.logStep_obliging h outputs globalStep t.state.shouldStop t.world
  have hlogged (t₁ : Trainer W β) (ht₁ : t₁.silent = t.silent) (hsame : t₁.log = t.log)
      (hworld : t₁.world = t.world) :
      ∃ t', (onLog (MetricsLog.logStep outputs globalStep t.state.shouldStop)).runOn t₁ =
        (.ok (), t') ∧ t'.silent = { t.silent with log := t.silent.log.takeIn outputs } ∧
          t'.log.Obliging := by
    refine ⟨{ t₁ with log }, onLog_obliging (by rw [hsame, hworld, hlog]), ?_, hobliging⟩
    change { t₁.silent with log := log.silent } = _
    rw [ht₁, hsilent]
    rfl
  rw [logStep, runOn_get_bind]
  split
  · split
    · exact hlogged (t.record _) rfl rfl rfl
    · exact hlogged t rfl rfl rfl
  · exact hlogged t rfl rfl rfl

theorem flush_obliging {t : Trainer W β} (h : t.log.Obliging) (globalStep : Nat) :
    ∃ t', (flush globalStep).runOn t = (.ok (), t') ∧ t'.silent = t.silent ∧ t'.log.Obliging := by
  obtain ⟨log, hsave, hsilent, hobliging⟩ := MetricsLog.called_obliging h t.world .save
  rw [flush, runOn_get_bind]
  split
  · have hsaved : (onLog MetricsLog.save).runOn (t.record .saved) =
        (.ok (), { t.record .saved with log }) := onLog_obliging hsave
    refine ⟨{ t.record .saved with log }, hsaved, ?_, hobliging⟩
    change { t.silent with log := log.silent } = t.silent
    rw [hsilent]
    rfl
  · exact ⟨t, rfl, rfl, h⟩

theorem logStep_alike (outputs : Processed) (globalStep : Nat) :
    Respects Alike (logStep outputs globalStep : TrainerStep W β Unit) := by
  intro t t' h
  obtain ⟨u, hu, hsilent, hobliging⟩ := logStep_obliging h.obliging outputs globalStep
  obtain ⟨u', hu', hsilent', hobliging'⟩ := logStep_obliging h.obliging' outputs globalStep
  rw [hu, hu']
  exact ⟨rfl, by rw [hsilent, hsilent', h.silent], hobliging, hobliging'⟩

theorem flush_alike (globalStep : Nat) :
    Respects Alike (flush globalStep : TrainerStep W β Unit) := by
  intro t t' h
  obtain ⟨u, hu, hsilent, hobliging⟩ := flush_obliging h.obliging globalStep
  obtain ⟨u', hu', hsilent', hobliging'⟩ := flush_obliging h.obliging' globalStep
  rw [hu, hu']
  exact ⟨rfl, by rw [hsilent, hsilent', h.silent], hobliging, hobliging'⟩

theorem tickRates_alike (interval : Interval) :
    Respects Alike (tickRates interval : TrainerStep W β Unit) := by
  refine recordFailure_alike fun t t' h => ?_
  rw [runOn_of, runOn_of, h.board, h.latest]
  refine ⟨rfl, ?_, h.obliging, h.obliging'⟩
  exact congrArg (fun u => { u with board := ⟨(t'.board.update interval t'.log.latest).rates⟩ })
    h.silent

theorem nextStep_alike (progress : Progress) : Respects Alike (nextStep setup progress) := by
  intro t t' h
  have hrecorded := h.record (.stepRequested progress.totalBatches progress.globalStep)
    (.stepRequested progress.totalBatches progress.globalStep)
  rw [nextStep, runOn_of, runOn_of]
  dsimp only
  rw [hrecorded.world]
  exact ⟨rfl, hrecorded.withWorld _⟩

theorem resolveCounts_alike (length : Option Nat) :
    Respects Alike (resolveCounts setup length) :=
  .bind (.lift _) fun trainingBatches => .bind (.lift _) fun valCheckBatch =>
    withState_alike fun state => { state with trainingBatches, valCheckBatch }

end TrainerStep

/-! ## Epochs -/

def EpochRun.Alike (r r' : EpochRun σ W β) : Prop :=
  ∃ t', r.trainer.Alike t' ∧ r' = { r with trainer := t' }

namespace EpochRun.Alike

variable {r r' : EpochRun σ W β}

theorem isDone (h : Alike r r') (loop : BatchLoop σ β) : r.isDone loop = r'.isDone loop := by
  obtain ⟨t', ht, rfl⟩ := h
  simp only [EpochRun.isDone, allBatchesSeen, ht.state]

theorem atStepBoundary (h : Alike r r') (loop : BatchLoop σ β) :
    r.atStepBoundary loop = r'.atStepBoundary loop := by
  obtain ⟨t', ht, rfl⟩ := h
  simp only [EpochRun.atStepBoundary, allBatchesSeen, ht.state]

theorem dueForValidation (h : Alike r r') (setup : Setup W β) :
    r.dueForValidation setup = r'.dueForValidation setup := by
  obtain ⟨t', ht, rfl⟩ := h
  simp only [EpochRun.dueForValidation, ht.validationSchedule, ht.state]

theorem progress (h : Alike r r') : r.progress = r'.progress := by
  obtain ⟨t', -, rfl⟩ := h
  rfl

end EpochRun.Alike

namespace EpochStep

open EpochRun

variable {setup : Setup W β} {loop : BatchLoop σ β}

theorem onTrainer_alike {α : Type} {action : TrainerStep W β α}
    (h : Respects Trainer.Alike action) :
    Respects Alike (onTrainer action : EpochStep σ W β α) := by
  refine .onPart h ?_ ?_
  · rintro r _ ⟨t', ht, rfl⟩
    exact ht
  · rintro r _ t t' ⟨t₀, -, rfl⟩ ht
    exact ⟨t', ht, rfl⟩

theorem onWorker_alike {α : Type} (action : Stateful σ α) :
    Respects Alike (onWorker action : EpochStep σ W β α) := by
  refine .onPart (.eq action) ?_ ?_
  · rintro r _ ⟨t', ht, rfl⟩
    rfl
  · rintro r _ worker _ ⟨t', ht, rfl⟩ rfl
    exact ⟨t', ht, rfl⟩

theorem mapTrainer_alike {f : Trainer W β → Trainer W β}
    (h : ∀ t t', t.Alike t' → (f t).Alike (f t')) :
    Respects Alike (modify fun r => r.mapTrainer f : EpochStep σ W β Unit) := by
  refine .modify ?_
  rintro r _ ⟨t', ht, rfl⟩
  exact ⟨f t', h _ _ ht, rfl⟩

theorem inRegion_alike {α : Type} {action : String} {body : EpochStep σ W β α}
    (h : Respects Alike body) : Respects Alike (inRegion action body) := by
  rintro r _ ⟨t', ht, rfl⟩
  have hopened : Alike (r.mapTrainer fun t => t.openRegion action)
      (EpochRun.mapTrainer (fun t => t.openRegion action) { r with trainer := t' }) :=
    ⟨t'.openRegion action, ⟨ht.silent, ht.obliging, ht.obliging'⟩, rfl⟩
  obtain ⟨hresult, t₁, ht₁, hafter⟩ := h _ _ hopened
  refine ⟨hresult, t₁.closeRegion action, ⟨ht₁.silent, ht₁.obliging, ht₁.obliging'⟩, ?_⟩
  exact congrArg (fun r => r.mapTrainer fun t => t.closeRegion action) hafter

theorem runBatch_alike (handed : Handed β) :
    Respects Alike (runBatch loop handed : EpochStep σ W β BatchOutput) := by
  refine inRegion_alike (.get_bind ?_ fun r => ?_)
  · rintro r _ ⟨t', -, rfl⟩
    rfl
  · refine .bind (mapTrainer_alike fun _ _ h => h.record _ _) fun _ => .mapError ?_
    refine .noteFailure (onWorker_alike _) ?_
    rintro e r _ ⟨t', ht, rfl⟩
    exact ⟨_, ht.record _ _, rfl⟩

theorem completeBatch_alike (handed : Handed β) (results : BatchResults) :
    Respects Alike (completeBatch setup handed results : EpochStep σ W β KeptOutputs) := by
  refine .get_bind ?_ fun r => ?_
  · rintro r _ ⟨t', ht, rfl⟩
    dsimp only
    rw [ht.context]
  · exact .bind (onTrainer_alike (TrainerStep.call_alike _ _)) fun _ =>
      .bind (onTrainer_alike (TrainerStep.call_alike _ _)) fun _ =>
        .bind (onTrainer_alike (TrainerStep.logStep_alike _ _)) fun _ => .pure _

theorem advance_alike : Respects Alike (advance setup loop) := by
  refine .get_bind ?_ fun r => ?_
  · rintro r _ ⟨t', -, rfl⟩
    rfl
  split
  · split
    · refine .bind (.modify ?_) fun _ => .pure _
      rintro r _ ⟨t', ht, rfl⟩
      exact ⟨t', ht, rfl⟩
    · refine .bind (.modify ?_) fun _ => .bind (runBatch_alike _) fun output => ?_
      · rintro r _ ⟨t', ht, rfl⟩
        exact ⟨_, ht.record _ _, rfl⟩
      split
      · refine .bind (.modify ?_) fun _ => .pure _
        rintro r _ ⟨t', ht, rfl⟩
        exact ⟨_, (ht.record _ _).report _ _, rfl⟩
      · exact .map (completeBatch_alike _ _)
  · exact .throw _

theorem evaluateBatch_alike : Respects Alike (evaluateBatch setup : EpochStep σ W β Unit) := by
  refine .get_bind (fun r r' h => by rw [h.dueForValidation, h.progress]) fun r => ?_
  split
  · exact onTrainer_alike (TrainerStep.evaluate_alike _)
  · exact .pure ()

theorem takeStep_alike : Respects Alike (takeStep setup : EpochStep σ W β Unit) := by
  refine .bind (onTrainer_alike (TrainerStep.tickRates_alike .step)) fun _ =>
    .bind (mapTrainer_alike fun _ _ h => h.withState fun state => { state with hasTrained := true })
      fun _ => .get_bind ?_ fun r => .bind (onTrainer_alike (TrainerStep.nextStep_alike _))
        fun globalStep => .modify ?_
  · rintro r _ ⟨t', -, rfl⟩
    rfl
  · rintro r _ ⟨t', ht, rfl⟩
    exact ⟨t', ht, rfl⟩

theorem advanceEnd_alike : Respects Alike (advanceEnd setup loop) := by
  refine .bind evaluateBatch_alike fun _ =>
    .get_bind (fun r r' h => by rw [h.atStepBoundary, h.progress]) fun r =>
      .bind (onTrainer_alike (TrainerStep.flush_alike _)) fun _ => ?_
  split
  · exact takeStep_alike
  · exact mapTrainer_alike fun _ _ h => h.withState fun state => { state with hasTrained := true }

theorem finish_alike (kept : KeptOutputs) :
    Respects Alike (finish setup kept : EpochStep σ W β Processed) := by
  refine .bind (.modify ?_) fun _ => .bind (mapTrainer_alike fun _ _ h => h.closeEpoch) fun _ =>
    .bind (onTrainer_alike (TrainerStep.reduce_alike _)) fun _ => .get_bind ?_ fun r => ?_
  · rintro r _ ⟨t', ht, rfl⟩
    exact ⟨t', ht, rfl⟩
  · rintro r _ ⟨t', ht, rfl⟩
    dsimp only
    rw [ht.context]
  · exact .bind (onTrainer_alike (TrainerStep.call_alike _ _)) fun _ =>
      .bind (onTrainer_alike (TrainerStep.call_alike _ _)) fun _ => .pure _

theorem batches_alike (horizon : Nat) (kept : KeptOutputs) :
    Respects Alike (batches setup loop horizon kept) := by
  induction horizon generalizing kept with
  | zero => exact .pure none
  | succ horizon ih =>
      refine .get_bind (fun r r' h => by rw [h.isDone]) fun r => ?_
      split
      · exact .pure _
      · refine .bind advance_alike fun outcome => ?_
        cases outcome with
        | completed more => exact .bind advanceEnd_alike fun _ => ih _
        | skipped => exact .pure _
        | exhausted => exact .pure _

theorem run_alike (horizon : Nat) (data : Batches β) :
    Respects Alike (run setup loop horizon data) := by
  refine .bind (.modify ?_) fun _ => .bind (batches_alike _ _) fun kept => ?_
  · rintro r _ ⟨t', ht, rfl⟩
    unfold start
    dsimp only
    rw [ht.world]
    exact ⟨_, ht.withWorld _, rfl⟩
  · cases kept with
    | none => exact .pure none
    | some kept => exact .map (finish_alike kept)

end EpochStep

/-! ## Runs -/

def FitRun.Alike (r r' : FitRun σ W β) : Prop :=
  ∃ t', r.trainer.Alike t' ∧ r' = { r with trainer := t' }

namespace FitRun.Alike

variable {r r' : FitRun σ W β}

theorem dueForValidation (h : Alike r r') (setup : Setup W β) (counters : EpochCounters) :
    r.dueForValidation setup counters = r'.dueForValidation setup counters := by
  obtain ⟨t', ht, rfl⟩ := h
  simp only [FitRun.dueForValidation, ht.validationSchedule, ht.state]

theorem stopReason? (h : Alike r r') (config : Config) :
    r.stopReason? config = r'.stopReason? config := by
  obtain ⟨t', ht, rfl⟩ := h
  simp only [FitRun.stopReason?, ht.state]
  rfl

theorem progress (h : Alike r r') : r.progress = r'.progress := by
  obtain ⟨t', -, rfl⟩ := h
  rfl

end FitRun.Alike

namespace FitStep

open FitRun

variable {setup : Setup W β} {loop : BatchLoop σ β}

theorem onTrainer_alike {α : Type} {action : TrainerStep W β α}
    (h : Respects Trainer.Alike action) :
    Respects Alike (onTrainer action : FitStep σ W β α) := by
  refine .onPart h ?_ ?_
  · rintro r _ ⟨t', ht, rfl⟩
    exact ht
  · rintro r _ t t' ⟨t₀, -, rfl⟩ ht
    exact ⟨t', ht, rfl⟩

theorem onWorker_alike {α : Type} (action : Stateful σ α) :
    Respects Alike (onWorker action : FitStep σ W β α) := by
  refine .onPart (.eq action) ?_ ?_
  · rintro r _ ⟨t', ht, rfl⟩
    rfl
  · rintro r _ worker _ ⟨t', ht, rfl⟩ rfl
    exact ⟨t', ht, rfl⟩

theorem epoch_alike (horizon : Nat) (data : Batches β) :
    Respects Alike (epoch setup loop horizon data) := by
  rintro r _ ⟨t', ht, rfl⟩
  have hepoch : EpochRun.Alike (r.epochRun setup.config)
      (FitRun.epochRun setup.config { r with trainer := t' }) := ⟨t', ht, rfl⟩
  have hrun : Respects EpochRun.Alike (EpochStep.run setup loop horizon data) :=
    EpochStep.run_alike horizon data
  obtain ⟨hresult, t₁, ht₁, hafter⟩ := hrun _ _ hepoch
  rw [epoch, runOn_of, runOn_of]
  dsimp only
  rw [← hresult, hafter]
  split
  · exact ⟨rfl, t₁, ht₁, rfl⟩
  · exact ⟨rfl, t₁, ht₁, rfl⟩
  · exact ⟨rfl, t₁, ht₁, rfl⟩

theorem evaluateEpoch_alike (counters : EpochCounters) :
    Respects Alike (evaluateEpoch setup counters : FitStep σ W β Unit) := by
  refine .get_bind (fun r r' h => by rw [h.dueForValidation, h.progress]) fun r => ?_
  split
  · exact onTrainer_alike (TrainerStep.evaluate_alike _)
  · exact .pure ()

theorem closeEpoch_alike (counters : EpochCounters) :
    Respects Alike (closeEpoch setup counters : FitStep σ W β Unit) := by
  refine .bind (evaluateEpoch_alike _) fun _ =>
    .bind (onTrainer_alike (TrainerStep.tickRates_alike _)) fun _ => .modify ?_
  rintro r _ ⟨t', ht, rfl⟩
  exact ⟨t', ht, rfl⟩

theorem nextEpoch_alike (horizon : Nat) (data : Nat → Batches β) :
    Respects Alike (nextEpoch setup loop horizon data) := by
  refine .bind (.modify ?_) fun _ => .get_bind ?_ fun r =>
    .bind (onTrainer_alike (TrainerStep.resolveCounts_alike _)) fun _ => .get_bind ?_ fun r =>
      .bind (onTrainer_alike (TrainerStep.call_alike _ _)) fun _ =>
        .bind (epoch_alike _ _) fun ran => ?_
  · rintro r _ ⟨t', ht, rfl⟩
    have hcurrent := ht.withState fun state => { state with currentEpoch := r.currentEpoch }
    exact ⟨_, hcurrent.record _ (.dataRequested r.currentEpoch), rfl⟩
  · rintro r _ ⟨t', -, rfl⟩
    rfl
  · rintro r _ ⟨t', ht, rfl⟩
    dsimp only
    rw [ht.context]
  · cases ran with
    | none => exact .pure none
    | some ran => exact .bind (closeEpoch_alike _) fun _ => .pure _

theorem declineStop_alike (config : Config) :
    Respects Alike (modify (declineStop config) : FitStep σ W β Unit) := by
  refine .modify ?_
  rintro r _ ⟨t', ht, rfl⟩
  unfold declineStop
  dsimp only
  rw [ht.state]
  split
  · exact ⟨_, (ht.report _ _).withState fun state => { state with shouldStop := false }, rfl⟩
  · exact ⟨t', ht, rfl⟩

theorem epochs_alike (horizon : Nat) (data : Nat → Batches β) (remaining : Nat) (c : Completed) :
    Respects Alike (epochs setup loop horizon data remaining c) := by
  induction remaining generalizing c with
  | zero =>
      unfold epochs
      refine .get_bind (fun r r' h => by rw [h.stopReason?]) fun r => ?_
      split <;> exact .pure _
  | succ remaining ih =>
      unfold epochs
      refine .get_bind (fun r r' h => by rw [h.stopReason?]) fun r => ?_
      split
      · exact .pure _
      · refine .bind (declineStop_alike _) fun _ =>
          .bind (nextEpoch_alike _ _) fun outputs => ?_
        cases outputs with
        | none => exact .pure none
        | some outputs => exact ih _

/-- A run does not tell runs apart that differ only in their logging. -/
theorem run_alike (horizon : Nat) (data : Nat → Batches β) :
    Respects Alike (run setup loop horizon data) := by
  refine .bind (.lift _) fun _ => .bind (.modify ?_) fun _ =>
    .bind (.noteFailure (onWorker_alike _) ?_) fun _ => .bind (.modify ?_) fun _ =>
      .get_bind ?_ fun r => .bind (epochs_alike _ _ _ _) fun ended => ?_
  · rintro r _ ⟨t', ht, rfl⟩
    exact ⟨_, ht.record _ _, rfl⟩
  · rintro e r _ ⟨t', ht, rfl⟩
    exact ⟨_, ht.record _ _, rfl⟩
  · rintro r _ ⟨t', ht, rfl⟩
    unfold tellStart mapTrainer
    dsimp only
    rw [ht.context]
    exact ⟨_, ht.tellCallbacks _ _ _, rfl⟩
  · rintro r _ ⟨t', -, rfl⟩
    rfl
  cases ended with
  | none => exact .pure none
  | some ended =>
      refine .bind (.modify ?_) fun _ => .get_bind ?_ fun r => .pure _
      · rintro r _ ⟨t', ht, rfl⟩
        unfold tellEnd mapTrainer
        dsimp only
        rw [ht.context]
        exact ⟨_, (ht.tellCallbacks _ _ _).report _ _, rfl⟩
      · rintro r _ ⟨t', ht, rfl⟩
        dsimp only
        rw [MetricsLog.best?, MetricsLog.best?, ht.finished]

end FitStep

/-! ## Cadences -/

def Config.withCadences (logEvery flushEvery : Nat) (c : Config) : Config :=
  { c with logEveryNSteps := logEvery, flushLogsEveryNSteps := flushEvery }

def Setup.withCadences (logEvery flushEvery : Nat) (setup : Setup W β) : Setup W β :=
  { setup with config := setup.config.withCadences logEvery flushEvery }

section

variable (setup : Setup W β) (loop : BatchLoop σ β) (horizon logEvery flushEvery : Nat)

theorem EpochStep.batches_withCadences (kept : KeptOutputs) :
    batches (setup.withCadences logEvery flushEvery) loop horizon kept =
      batches setup loop horizon kept := by
  induction horizon generalizing kept with
  | zero => rfl
  | succ horizon ih =>
      simp only [batches, ih]
      rfl

theorem FitStep.nextEpoch_withCadences (data : Nat → Batches β) :
    nextEpoch (setup.withCadences logEvery flushEvery) loop horizon data =
      nextEpoch setup loop horizon data := by
  simp only [nextEpoch, epoch, EpochStep.run, EpochStep.batches_withCadences]
  rfl

theorem FitStep.epochs_withCadences (data : Nat → Batches β) (remaining : Nat) (c : Completed) :
    epochs (setup.withCadences logEvery flushEvery) loop horizon data remaining c =
      epochs setup loop horizon data remaining c := by
  induction remaining generalizing c with
  | zero =>
      simp only [epochs]
      rfl
  | succ remaining ih =>
      simp only [epochs, nextEpoch_withCadences, ih]
      rfl

/-- A run reads the cadences of its logger where it is made, and not from its configuration. -/
theorem FitStep.run_withCadences (data : Nat → Batches β) :
    run (setup.withCadences logEvery flushEvery) loop horizon data =
      run setup loop horizon data := by
  simp only [run, epochs_withCadences]
  rfl

end

end TrainingLoop
