import TrainingLoop.Proofs.Stateful
import TrainingLoop.Run.Trainer
/-!
# What the steps of the trainer leave alone

`Follows P` relates a trainer to one that it becomes while a run makes only events that satisfy
`P`. Every step but the one that resolves the batch counts is of that kind, whether it succeeds or
not, so a proof about a run looks at the events and never at the steps behind them.
-/

namespace TrainingLoop

variable {W β : Type}

def RunEvent.IsHook : RunEvent β → Prop
  | .dispatched _ | .callback _ _ _ | .stopAsked _ | .model _ | .accelerator _ | .reduced _
  | .failed _ => True
  | _ => False

def RunEvent.asksStop : RunEvent β → Bool
  | .stopAsked _ => true
  | _ => false

def RunEvent.isPulled : RunEvent β → Bool
  | .pulled _ _ => true
  | _ => false

def RunEvent.isEvaluated : RunEvent β → Bool
  | .evaluated _ _ => true
  | _ => false

def Accelerator.CountsSteps (a : Accelerator W β) : Prop :=
  ∀ totalBatches current world, (a.nextStep totalBatches current world).1 = current + 1

theorem Accelerator.countsSteps_default : ({} : Accelerator W β).CountsSteps :=
  fun _ _ _ => rfl

def RunEvent.IsValidation : RunEvent β → Prop
  | .evaluated _ _ => True
  | event => event.IsHook

theorem RunEvent.IsHook.isValidation {event : RunEvent β} (h : event.IsHook) :
    event.IsValidation := by
  cases event <;> trivial

namespace Callback

/-- The replies of callbacks to an event, each given in the world that the one before it left. -/
def replies (event : CallbackEvent) (context : Context) :
    List (Callback W) → W → List (Reply W)
  | [], _ => []
  | c :: rest, world =>
    c.notify event context world :: replies event context rest (c.notify event context world).world

@[simp] theorem length_replies (event : CallbackEvent) (context : Context)
    (callbacks : List (Callback W)) (world : W) :
    (replies event context callbacks world).length = callbacks.length := by
  induction callbacks generalizing world with
  | nil => rfl
  | cons c rest ih => simp [replies, ih]

end Callback

namespace Trainer

structure Follows (P : RunEvent β → Prop) (t t' : Trainer W β) : Prop where
  events : ∃ new, t'.events.toList = t.events.toList ++ new ∧ ∀ event ∈ new, P event
  currentEpoch : t'.state.currentEpoch = t.state.currentEpoch
  trainingBatches : t'.state.trainingBatches = t.state.trainingBatches
  valCheckBatch : t'.state.valCheckBatch = t.state.valCheckBatch
  /-- A stop request stays, and is made where a callback asks for one. -/
  asked : ∀ new, t'.events.toList = t.events.toList ++ new →
    t'.state.shouldStop = (t.state.shouldStop || new.any RunEvent.asksStop)
  callbacks : t'.callbacks.length = t.callbacks.length
  /-- Without callbacks nothing asks for a stop. -/
  uncalled : t.callbacks = [] →
    t'.callbacks = [] ∧ t'.state.shouldStop = t.state.shouldStop
  /-- Only a tick of the schedules changes them. -/
  board : (∀ interval, ¬ P (.ratesTicked interval)) → t'.board = t.board

theorem toList_record_record (first second : RunEvent β) (t : Trainer W β) :
    ((t.record first).record second).events.toList = t.events.toList ++ [first, second] := by
  simp only [record, Journal.toList_push, List.append_assoc, List.cons_append, List.nil_append]

theorem asked_of_events {t t' : Trainer W β} {new : List (RunEvent β)}
    (hevents : t'.events.toList = t.events.toList ++ new)
    (hstop : t'.state.shouldStop = (t.state.shouldStop || new.any RunEvent.asksStop)) :
    ∀ new, t'.events.toList = t.events.toList ++ new →
      t'.state.shouldStop = (t.state.shouldStop || new.any RunEvent.asksStop) := by
  intro new' hnew'
  rw [hevents, List.append_cancel_left_eq] at hnew'
  rw [← hnew', hstop]

theorem asked_of_quiet {t t' : Trainer W β} (hevents : t'.events = t.events)
    (hstop : t'.state.shouldStop = t.state.shouldStop) :
    ∀ new, t'.events.toList = t.events.toList ++ new →
      t'.state.shouldStop = (t.state.shouldStop || new.any RunEvent.asksStop) :=
  asked_of_events (by rw [hevents, List.append_nil]) (by simp [hstop])

namespace Follows

variable {P Q : RunEvent β → Prop} {t t' t'' : Trainer W β}

theorem shouldStop (h : Follows P t t') (hstop : t.state.shouldStop = true) :
    t'.state.shouldStop = true := by
  obtain ⟨new, hnew, -⟩ := h.events
  rw [h.asked new hnew, hstop, Bool.true_or]

theorem unasked (h : Follows P t t') (hstop : t'.state.shouldStop = false) :
    t.state.shouldStop = false := by
  cases hasked : t.state.shouldStop with
  | false => rfl
  | true =>
      rw [h.shouldStop hasked] at hstop
      cases hstop

theorem of_eq (hevents : t'.events = t.events) (hstate : t'.state = t.state)
    (hcallbacks : t'.callbacks = t.callbacks) (hboard : t'.board = t.board) : Follows P t t' :=
  { events := ⟨[], by simp [hevents]⟩
    currentEpoch := by rw [hstate]
    trainingBatches := by rw [hstate]
    valCheckBatch := by rw [hstate]
    asked := asked_of_quiet hevents (by rw [hstate])
    callbacks := by rw [hcallbacks]
    uncalled := fun hnone => ⟨hcallbacks.trans hnone, by rw [hstate]⟩
    board := fun _ => hboard }

theorem refl (t : Trainer W β) : Follows P t t := of_eq rfl rfl rfl rfl

theorem trans (h : Follows P t t') (h' : Follows P t' t'') : Follows P t t'' := by
  obtain ⟨new, hnew, hP⟩ := h.events
  obtain ⟨new', hnew', hP'⟩ := h'.events
  have hboth : t''.events.toList = t.events.toList ++ (new ++ new') := by
    rw [hnew', hnew, List.append_assoc]
  refine ⟨⟨new ++ new', hboth, ?_⟩,
    h'.currentEpoch.trans h.currentEpoch, h'.trainingBatches.trans h.trainingBatches,
    h'.valCheckBatch.trans h.valCheckBatch, asked_of_events hboth ?_,
    h'.callbacks.trans h.callbacks, ?_, fun hQ => (h'.board hQ).trans (h.board hQ)⟩
  · intro event hevent
    exact (List.mem_append.1 hevent).elim (hP event) (hP' event)
  · rw [h'.asked new' hnew', h.asked new hnew, List.any_append, Bool.or_assoc]
  · intro hnone
    obtain ⟨hnone', hstop⟩ := h.uncalled hnone
    obtain ⟨hnone'', hstop'⟩ := h'.uncalled hnone'
    exact ⟨hnone'', hstop'.trans hstop⟩

instance : IsPreorder (Trainer W β) (Follows P) where
  refl := refl
  trans _ _ _ := trans

theorem mono (hle : ∀ event, P event → Q event) (h : Follows P t t') : Follows Q t t' := by
  obtain ⟨new, hnew, hP⟩ := h.events
  exact ⟨⟨new, hnew, fun event hevent => hle event (hP event hevent)⟩, h.currentEpoch,
    h.trainingBatches, h.valCheckBatch, h.asked, h.callbacks, h.uncalled,
    fun hQ => h.board fun interval hp => hQ interval (hle _ hp)⟩

theorem weaken (h : Follows P t t') : Follows (fun _ => True) t t' := h.mono fun _ _ => trivial

theorem record {event : RunEvent β} (h : P event) (t : Trainer W β)
    (hasks : event.asksStop = false := by rfl) : Follows P t (t.record event) := by
  have hevents : (t.record event).events.toList = t.events.toList ++ [event] :=
    Journal.toList_push _ _
  exact ⟨⟨[event], hevents, by simpa using h⟩, rfl, rfl, rfl,
    asked_of_events hevents (by simp [hasks, Trainer.record]), rfl, fun h => ⟨h, rfl⟩, fun _ => rfl⟩

theorem report (notices : List Notice) (t : Trainer W β) : Follows P t (t.report notices) :=
  of_eq rfl rfl rfl rfl

theorem openRegion (action : String) (t : Trainer W β) : Follows P t (t.openRegion action) :=
  of_eq rfl rfl rfl rfl

theorem closeRegion (action : String) (t : Trainer W β) : Follows P t (t.closeRegion action) :=
  of_eq rfl rfl rfl rfl

theorem markTrained (t : Trainer W β) : Follows P t t.markTrained :=
  ⟨⟨[], by simp [Trainer.markTrained]⟩, rfl, rfl, rfl, asked_of_quiet rfl rfl, rfl,
    fun h => ⟨h, rfl⟩, fun _ => rfl⟩

theorem stage (s : Stage) (t : Trainer W β) :
    Follows P t { t with state := { t.state with stage := s } } :=
  ⟨⟨[], by simp⟩, rfl, rfl, rfl, asked_of_quiet rfl rfl, rfl, fun h => ⟨h, rfl⟩, fun _ => rfl⟩

end Follows

/-! ## Callbacks -/

/-- The events of callbacks that hear of an event, the first of which has the given position, and
of which those ask to stop that are marked. -/
def heard (event : CallbackEvent) (context : Context) : (position : Nat) → List Bool →
    List (RunEvent β)
  | _, [] => []
  | position, stops :: rest =>
    .callback position event context ::
      ((if stops then [.stopAsked position] else []) ++ heard event context (position + 1) rest)

theorem mem_heard {event : CallbackEvent} {context : Context} {stops : List Bool}
    {position : Nat} {e : RunEvent β} (h : e ∈ heard event context position stops) :
    (∃ p, e = .callback p event context) ∨ ∃ p, e = .stopAsked p := by
  induction stops generalizing position with
  | nil => cases h
  | cons stop rest ih =>
      simp only [heard, List.mem_cons, List.mem_append] at h
      rcases h with rfl | h | h
      · exact .inl ⟨_, rfl⟩
      · cases stop with
        | false => cases h
        | true => exact .inr ⟨position, by simpa using h⟩
      · exact ih h

theorem any_asksStop_heard (event : CallbackEvent) (context : Context) (position : Nat)
    (stops : List Bool) :
    (heard event context position stops : List (RunEvent β)).any RunEvent.asksStop =
      stops.any id := by
  induction stops generalizing position with
  | nil => rfl
  | cons stop rest ih =>
      rw [heard, List.any_cons, List.any_append, ih, List.any_cons]
      cases stop <;> rfl

theorem isStop_merge (a b : CallbackAction) : (a.merge b).isStop = (a.isStop || b.isStop) := by
  cases a <;> cases b <;> rfl

/-- Every callback replies to the event once, in order, whatever those before it answered. -/
theorem notifyFrom_told (event : CallbackEvent) (context : Context) (position : Nat)
    (callbacks : List (Callback W)) (t : Trainer W β) :
    ∃ (world : W) (events : Journal (RunEvent β)) (notices : Journal Notice),
      events.toList = t.events.toList ++ heard event context position
        ((Callback.replies event context callbacks t.world).map (·.action.isStop)) ∧
      (notifyFrom event context position callbacks t).1.isStop =
        ((Callback.replies event context callbacks t.world).map (·.action.isStop)).any id ∧
      (notifyFrom event context position callbacks t).2 =
        ((Callback.replies event context callbacks t.world).map (·.callback),
          { t with world, events, notices }) := by
  induction callbacks generalizing position t with
  | nil => exact ⟨t.world, t.events, t.notices, by simp [heard, Callback.replies], rfl, rfl⟩
  | cons c rest ih =>
      let reply := c.notify event context t.world
      let told : Trainer W β := { t with world := reply.world }
      let heardOf :=
        (told.record (.callback position event context)).recordAnswer position reply.action
      obtain ⟨world, events, notices, hevents, hstop, hrest⟩ :=
        ih (position + 1) (heardOf.report reply.notices)
      have hheard : heardOf.events.toList = t.events.toList ++ .callback position event context ::
          (if reply.action.isStop then [.stopAsked position] else []) := by
        simp only [heardOf, told, recordAnswer]
        split <;> simp [Trainer.record]
      have hframe : heardOf.report reply.notices =
          { t with world := reply.world, events := heardOf.events
                   notices := t.notices.append reply.notices } := by
        simp only [heardOf, told, recordAnswer]
        split <;> rfl
      have hworld : (heardOf.report reply.notices).world = reply.world := by rw [hframe]
      rw [hworld] at hevents hstop hrest
      refine ⟨world, events, notices, ?_, ?_, ?_⟩
      · rw [hevents]
        change heardOf.events.toList ++ _ = _
        rw [hheard, Callback.replies, List.map_cons, heard, List.append_assoc]
        rfl
      · rw [Callback.replies, List.map_cons, List.any_cons, id, ← hstop, ← isStop_merge]
        rfl
      · simp only [notifyFrom]
        rw [Callback.replies, List.map_cons]
        change ((reply.callback :: (notifyFrom event context (position + 1) rest
          (heardOf.report reply.notices)).2.1), (notifyFrom event context (position + 1) rest
            (heardOf.report reply.notices)).2.2) = _
        rw [hrest, hframe]

theorem applyAction_eq (action : CallbackAction) (hook : String) (t : Trainer W β) :
    ∃ notices, t.applyAction action hook =
      { t with
        notices
        state := { t.state with shouldStop := t.state.shouldStop || action.isStop } } := by
  unfold applyAction
  split
  · rename_i hasked
    obtain ⟨hstop, -⟩ := Bool.and_eq_true_iff.1 hasked
    refine ⟨(t.report [.info "callback requested stop" [("hook", .text hook)]]).notices, ?_⟩
    rw [hstop, Bool.or_true]
    rfl
  · rename_i hnot
    refine ⟨t.notices, ?_⟩
    have hsame : (t.state.shouldStop || action.isStop) = t.state.shouldStop := by
      revert hnot
      cases t.state.shouldStop <;> cases action.isStop <;> decide
    rw [hsame]

def stops (event : CallbackEvent) (context : Context) (t : Trainer W β) : List Bool :=
  (Callback.replies event context t.callbacks t.world).map (·.action.isStop)

@[simp] theorem length_stops (event : CallbackEvent) (context : Context) (t : Trainer W β) :
    (t.stops event context).length = t.callbacks.length := by
  simp [stops]

/-- A dispatch is recorded first and then told to all callbacks; a stop is requested just if one of
them asks for it. -/
theorem tellCallbacks_told (hook : Hook) (event : CallbackEvent) (context : Context)
    (t : Trainer W β) :
    ∃ (callbacks : List (Callback W)) (world : W) (events : Journal (RunEvent β))
      (notices : Journal Notice),
      callbacks.length = t.callbacks.length ∧
      events.toList =
        t.events.toList ++ .dispatched hook :: heard event context 0 (t.stops event context) ∧
      t.tellCallbacks hook event context =
        { t with
          callbacks, world, events, notices
          state := { t.state with
            shouldStop := t.state.shouldStop || (t.stops event context).any id } } := by
  obtain ⟨world, events, notices, hevents, hstop, hnotified⟩ :=
    notifyFrom_told event context 0 (t.record (.dispatched hook)).callbacks
      (t.record (.dispatched hook))
  obtain ⟨notices', happly⟩ := applyAction_eq
    ((t.record (.dispatched hook)).notify event context).1 hook.name
    ((t.record (.dispatched hook)).notify event context).2
  refine ⟨(Callback.replies event context t.callbacks t.world).map (·.callback), world, events,
    notices', by simp, ?_, happly.trans ?_⟩
  · rw [hevents]
    simp [Trainer.record, stops]
  · simp only [notify, hnotified, hstop]
    rfl

theorem tellCallbacks_dispatches (hook : Hook) (event : CallbackEvent) (context : Context)
    (t : Trainer W β) :
    Follows RunEvent.IsHook (t.record (.dispatched hook)) (t.tellCallbacks hook event context) := by
  obtain ⟨callbacks, world, events, notices, hcallbacks, hevents, htold⟩ :=
    tellCallbacks_told hook event context t
  have hnew : events.toList = (t.record (.dispatched hook)).events.toList ++
      heard event context 0 (t.stops event context) := by
    rw [hevents]
    simp [Trainer.record]
  rw [htold]
  refine ⟨⟨_, hnew, ?_⟩, rfl, rfl, rfl, asked_of_events hnew ?_, hcallbacks, ?_, fun _ => rfl⟩
  · intro e he
    rcases mem_heard he with ⟨p, rfl⟩ | ⟨p, rfl⟩ <;> trivial
  · rw [any_asksStop_heard]
    rfl
  · intro hnil
    have hnone : t.callbacks = [] := hnil
    rw [hnone, List.length_nil, List.length_eq_zero_iff] at hcallbacks
    exact ⟨hcallbacks, by simp [stops, hnone, Callback.replies, Trainer.record]⟩

theorem tellCallbacks_follows (hook : Hook) (event : CallbackEvent) (context : Context)
    (t : Trainer W β) : Follows RunEvent.IsHook t (t.tellCallbacks hook event context) :=
  (Follows.record trivial t).trans (tellCallbacks_dispatches hook event context t)

end Trainer

/-! ## Steps of the trainer -/

namespace TrainerStep

open Trainer Stateful

theorem recordFailure_keeps {α : Type} {P : RunEvent β → Prop} {step : TrainerStep W β α}
    (hP : ∀ e, P (.failed e)) (h : Keeps (Follows P) step) :
    Keeps (Follows P) (recordFailure step) :=
  .noteFailure h fun e t => .record (hP e) t

theorem outside_keeps {α : Type} {P : RunEvent β → Prop} (hP : ∀ e, P (.failed e))
    (action : Stateful W α) : Keeps (Follows P) (outside action : TrainerStep W β α) :=
  recordFailure_keeps hP fun _ => .of_eq rfl rfl rfl rfl

theorem inRegion_keeps {α : Type} {P : RunEvent β → Prop} {action : String}
    {body : TrainerStep W β α} (h : Keeps (Follows P) body) :
    Keeps (Follows P) (inRegion action body) :=
  fun t => (Follows.openRegion action t).trans ((h _).trans (.closeRegion action _))

theorem onLog_keeps {P : RunEvent β → Prop} (hP : ∀ e, P (.failed e))
    (action : MetricsLog W → W → Except Error Unit × MetricsLog W × W) :
    Keeps (Follows P) (onLog action : TrainerStep W β Unit) :=
  recordFailure_keeps hP fun _ => .of_eq rfl rfl rfl rfl

theorem record_keeps {P : RunEvent β → Prop} {event : RunEvent β} (h : P event)
    (hasks : event.asksStop = false := by rfl) :
    Keeps (Follows P) (modify fun t => t.record event : TrainerStep W β Unit) :=
  .modify fun t => .record h t hasks

theorem answer_keeps (setup : Setup W β) (hookCall : HookCall β) :
    Keeps (Follows RunEvent.IsHook) (answer setup hookCall) := by
  unfold answer
  cases setup.model.override? hookCall with
  | none => exact .bind (record_keeps trivial) fun _ => outside_keeps (fun _ => trivial) _
  | some action =>
      have hcall : Keeps (Follows RunEvent.IsHook)
          (do modify fun t => t.record (.model hookCall); outside action : TrainerStep W β Unit) :=
        .bind (record_keeps trivial) fun _ => outside_keeps (fun _ => trivial) _
      dsimp only
      split
      · exact .bind (.modify fun t => .of_eq rfl rfl rfl rfl) fun _ => hcall
      · exact hcall

theorem call_keeps (setup : Setup W β) (hookCall : HookCall β) (context : Context) :
    Keeps (Follows RunEvent.IsHook) (call setup hookCall context) :=
  inRegion_keeps (.bind (.modify (tellCallbacks_follows _ _ _)) fun _ => answer_keeps _ _)

theorem call_events {setup : Setup W β} {hookCall : HookCall β} {context : Context}
    {t t' : Trainer W β} {result : Except Error Unit}
    (hrun : (call setup hookCall context).runOn t = (result, t')) :
    ∃ hooks, t'.events.toList = t.events.toList ++ .dispatched hookCall.hook :: hooks ∧
      ∀ event ∈ hooks, event.IsHook := by
  have htold := tellCallbacks_dispatches hookCall.hook hookCall.event context
    (t.openRegion hookCall.name)
  obtain ⟨hooks, hevents, hP⟩ := (htold.trans (answer_keeps setup hookCall _)).events
  have hlast : t'.events.toList = _ :=
    (congrArg (fun ran => ran.2.events.toList) hrun).symm.trans hevents
  refine ⟨hooks, hlast.trans ?_, hP⟩
  simp [Trainer.record, Trainer.openRegion]

theorem reduce_keeps (setup : Setup W β) (outputs : Processed) :
    Keeps (Follows RunEvent.IsHook) (reduce setup outputs) := by
  refine inRegion_keeps (.bind (record_keeps trivial) fun _ => ?_)
  cases setup.model.trainingEpochEnd with
  | none => exact .pure ()
  | some action =>
      refine .bind (record_keeps trivial) fun _ =>
        .bind (outside_keeps (fun _ => trivial) _) fun returned => ?_
      cases returned
      · exact .pure ()
      · exact .throw _

theorem logStep_keeps (outputs : Processed) (globalStep : Nat) {P : RunEvent β → Prop}
    (hP : ∀ record, P (.logged record)) (hfailed : ∀ e, P (.failed e)) :
    Keeps (Follows P) (logStep outputs globalStep : TrainerStep W β Unit) := by
  refine .get_bind fun t => ?_
  dsimp only
  split
  · split
    · exact .bind (record_keeps (hP _)) fun _ => onLog_keeps hfailed _
    · exact onLog_keeps hfailed _
  · exact onLog_keeps hfailed _

theorem flush_keeps (globalStep : Nat) {P : RunEvent β → Prop} (hP : P .saved)
    (hfailed : ∀ e, P (.failed e)) :
    Keeps (Follows P) (flush globalStep : TrainerStep W β Unit) := by
  refine .get_bind fun t => ?_
  split
  · exact .bind (record_keeps hP) fun _ => onLog_keeps hfailed _
  · exact .pure ()

theorem tickRates_keeps (interval : Interval) {P : RunEvent β → Prop}
    (hP : P (.ratesTicked interval)) (hfailed : ∀ e, P (.failed e)) :
    Keeps (Follows P) (tickRates interval : TrainerStep W β Unit) := by
  refine recordFailure_keeps hfailed fun t => ?_
  have hrecorded : Follows P t (t.record (.ratesTicked interval)) := .record hP t
  exact ⟨hrecorded.events, rfl, rfl, rfl, hrecorded.asked, rfl, fun h => ⟨h, rfl⟩,
    fun hQ => absurd hP (hQ interval)⟩

theorem nextStep_keeps (setup : Setup W β) (progress : Progress) {P : RunEvent β → Prop}
    (hP : ∀ total current, P (.stepRequested total current)) :
    Keeps (Follows P) (nextStep setup progress) :=
  fun t => (Follows.record (hP _ _) t).trans (.of_eq rfl rfl rfl rfl)

theorem runEvaluator_keeps (evaluator : Evaluator W) (globalStep : Nat) {P : RunEvent β → Prop}
    (hP : ∀ epoch globalStep, P (.evaluated epoch globalStep)) (hfailed : ∀ e, P (.failed e)) :
    Keeps (Follows P)
      (runEvaluator evaluator globalStep : TrainerStep W β (Except Error Metrics)) := by
  refine .bind (.modify (Follows.stage _)) fun _ => .get_bind fun t => ?_
  refine .bind (.attempt (inRegion_keeps
    (.bind (record_keeps (hP _ _)) fun _ => outside_keeps hfailed _))) fun result => ?_
  exact .bind (.modify (Follows.stage _)) fun _ => .pure _

def failure {α : Type} : Except Error α → List (RunEvent β)
  | .ok _ => []
  | .error e => [.failed e]

theorem recordFailure_events {α : Type} (step : TrainerStep W β α) (t : Trainer W β) :
    ((recordFailure step).runOn t).1 = (step.runOn t).1 ∧
      ((recordFailure step).runOn t).2.callbacks = (step.runOn t).2.callbacks ∧
      ((recordFailure step).runOn t).2.events.toList =
        (step.runOn t).2.events.toList ++ failure (step.runOn t).1 := by
  rw [recordFailure, noteFailure, runOn_of]
  rcases step.runOn t with ⟨_ | _, t'⟩
  · exact ⟨rfl, rfl, Journal.toList_push _ _⟩
  · exact ⟨rfl, rfl, (List.append_nil _).symm⟩

theorem isHook_of_mem_failure {α : Type} {result : Except Error α} {event : RunEvent β}
    (h : event ∈ failure result) : event.IsHook := by
  cases result with
  | ok a => cases h
  | error e =>
      rw [List.mem_singleton.1 h]
      trivial

/-- Code from outside is called at an event, after which its failure is recorded. -/
theorem outside_events {α : Type} (event : RunEvent β) (action : Stateful W α) (t : Trainer W β) :
    ((do modify fun t => t.record event; outside action : TrainerStep W β α).runOn t).1 =
        (action.runOn t.world).1 ∧
      ((do modify fun t => t.record event; outside action : TrainerStep W β α).runOn t
        ).2.events.toList = t.events.toList ++ event :: failure (action.runOn t.world).1 := by
  rw [runOn_modify_bind]
  obtain ⟨hresult, -, hevents⟩ := recordFailure_events
    (Stateful.onPart Trainer.world (fun world t => { t with world }) action) (t.record event)
  refine ⟨hresult, hevents.trans ?_⟩
  change (t.record event).events.toList ++ _ = _
  rw [Trainer.record, Journal.toList_push, List.append_assoc]
  rfl

theorem runEvaluator_events (evaluator : Evaluator W) (globalStep : Nat) (t : Trainer W β) :
    ∃ result t', (runEvaluator evaluator globalStep).runOn t = (.ok result, t') ∧
      t'.events.toList = t.events.toList ++
        .evaluated t.state.currentEpoch globalStep :: failure result := by
  obtain ⟨hresult, hevents⟩ := outside_events (.evaluated t.state.currentEpoch globalStep)
    (evaluator t.state.currentEpoch globalStep)
    ({ t with state := { t.state with stage := .validating } }.openRegion "run_evaluation")
  refine ⟨_, _, rfl, hevents.trans ?_⟩
  rw [← hresult]
  rfl

theorem publishEvaluation_keeps (setup : Setup W β) (progress : Progress)
    (result : Except Error Metrics) :
    Keeps (Follows RunEvent.IsHook) (publishEvaluation setup progress result) := by
  cases result with
  | error e => exact .throw _
  | ok metrics =>
      exact .bind (.modify fun t => .of_eq rfl rfl rfl rfl) fun _ =>
        .modify fun t => tellCallbacks_follows _ _ _ t

theorem evaluate_keeps (setup : Setup W β) (progress : Progress) :
    Keeps (Follows RunEvent.IsValidation) (evaluate setup progress) := by
  unfold evaluate
  split
  · exact .pure ()
  · exact .bind (runEvaluator_keeps _ _ (fun _ _ => trivial) fun _ => trivial) fun result =>
      (publishEvaluation_keeps setup progress result).mono fun _ _ =>
        .mono fun _ => RunEvent.IsHook.isValidation

theorem evaluate_follows {setup : Setup W β} {progress : Progress} {t t' : Trainer W β}
    {due : Bool} (hdue : due = true → (evaluate setup progress).runOn t = (.ok (), t'))
    (hnot : due = false → t' = t) : Follows RunEvent.IsValidation t t' := by
  cases due with
  | true => exact (evaluate_keeps setup progress).of_ok (hdue rfl)
  | false =>
      rw [hnot rfl]
      exact .refl t

/-- An evaluation runs the evaluator first; all that comes after it is hooks. -/
theorem evaluate_events {setup : Setup W β} {progress : Progress} {t t' : Trainer W β}
    {result : Except Error Unit} (hevaluator : setup.evaluator.isSome)
    (hrun : (evaluate setup progress).runOn t = (result, t')) :
    ∃ hooks, t'.events.toList =
        t.events.toList ++ .evaluated t.state.currentEpoch progress.globalStep :: hooks ∧
      ∀ event ∈ hooks, event.IsHook := by
  obtain ⟨evaluator, hevaluator⟩ := Option.isSome_iff_exists.1 hevaluator
  obtain ⟨evaluated, t₁, hevaluate, hevents⟩ := runEvaluator_events evaluator progress.globalStep t
  obtain ⟨hooks, hhooks, hP⟩ := (publishEvaluation_keeps setup progress evaluated t₁).events
  refine ⟨failure evaluated ++ hooks, ?_, ?_⟩
  rotate_left
  · intro event hevent
    rcases List.mem_append.1 hevent with hfailed | hhook
    · exact isHook_of_mem_failure hfailed
    · exact hP event hhook
  rw [evaluate, hevaluator] at hrun
  dsimp only at hrun
  rw [runOn_bind, hevaluate] at hrun
  dsimp only at hrun
  rw [hrun] at hhooks
  rw [hhooks, hevents, List.append_assoc]
  rfl

/-! ## Steps whose effect is stated outright -/

theorem inRegion_ok {α : Type} {action : String} {body : TrainerStep W β α} {t t' : Trainer W β}
    {a : α} (h : (inRegion action body).runOn t = (.ok a, t')) :
    ∃ t₁, body.runOn (t.openRegion action) = (.ok a, t₁) ∧ t' = t₁.closeRegion action := by
  simp only [inRegion, runOn_of, Prod.mk.injEq] at h
  exact ⟨_, Prod.ext h.1 rfl, h.2.symm⟩

theorem runEvaluator_ok {evaluator : Evaluator W} {globalStep : Nat} {t t' : Trainer W β}
    {metrics : Metrics}
    (h : (runEvaluator evaluator globalStep).runOn t = (.ok (.ok metrics), t')) :
    ∃ world profiler events,
      (evaluator t.state.currentEpoch globalStep).runOn t.world = (.ok metrics, world) ∧
      t' = { t with
        world, profiler, events, state := { t.state with stage := .training } } := by
  simp only [runEvaluator, runOn_modify_bind, runOn_get_bind] at h
  obtain ⟨result, t₁, hattempt, hlast⟩ := bind_ok h
  simp only [runOn_modify_bind, runOn_pure, Prod.mk.injEq, Except.ok.injEq] at hlast
  obtain ⟨rfl, rfl⟩ := hlast
  simp only [attempt, runOn_of, Prod.mk.injEq, Except.ok.injEq] at hattempt
  obtain ⟨t₂, hbody, rfl⟩ := inRegion_ok (Prod.ext hattempt.1 hattempt.2)
  rw [runOn_modify_bind] at hbody
  obtain ⟨world, hevaluated, rfl⟩ := onPart_ok (noteFailure_ok.1 hbody)
  exact ⟨world, _, _, hevaluated, rfl⟩

theorem onLog_ok {action : MetricsLog W → W → Except Error Unit × MetricsLog W × W}
    {t t' : Trainer W β} (h : (onLog action).runOn t = (.ok (), t')) :
    t' = { t with log := (action t.log t.world).2.1, world := (action t.log t.world).2.2 } := by
  have hrun := noteFailure_ok.1 h
  rw [runOn_of, Prod.mk.injEq] at hrun
  exact hrun.2.symm

theorem logStep_ok {outputs : Processed} {globalStep : Nat} {t t' : Trainer W β}
    (h : (logStep outputs globalStep).runOn t = (.ok (), t')) :
    ∃ events, t' = { t with
      events
      log := (t.log.logStep outputs globalStep t.state.shouldStop t.world).2.1
      world := (t.log.logStep outputs globalStep t.state.shouldStop t.world).2.2 } := by
  rw [logStep, runOn_get_bind] at h
  dsimp only at h
  split at h
  · split at h
    · rename_i due _
      rw [runOn_modify_bind] at h
      exact ⟨(t.record (.logged due)).events, onLog_ok h⟩
    · exact ⟨t.events, onLog_ok h⟩
  · exact ⟨t.events, onLog_ok h⟩

theorem resolveCounts_ok {setup : Setup W β} {length : Option Nat} {t t' : Trainer W β}
    (h : (resolveCounts setup length).runOn t = (.ok (), t')) :
    ∃ trainingBatches valCheckBatch,
      setup.config.limitTrainBatches.resolveBatches length = .ok trainingBatches ∧
      setup.config.valCheckInterval.resolveInterval trainingBatches = .ok valCheckBatch ∧
      t' = { t with state := { t.state with trainingBatches, valCheckBatch } } := by
  unfold resolveCounts at h
  obtain ⟨trainingBatches, t₁, h₁, hrest⟩ := bind_ok h
  obtain ⟨valCheckBatch, t₂, h₂, h₃⟩ := bind_ok hrest
  obtain ⟨hbatches, rfl⟩ := lift_ok h₁
  obtain ⟨hinterval, rfl⟩ := lift_ok h₂
  cases h₃
  exact ⟨trainingBatches, valCheckBatch, hbatches, hinterval, rfl⟩

theorem resolveCounts_error {setup : Setup W β} {length : Option Nat} {t t' : Trainer W β}
    {e : Error} (h : (resolveCounts setup length).runOn t = (.error e, t')) : t' = t := by
  unfold resolveCounts at h
  rcases bind_runs h with ⟨_, hbatches, -⟩ | ⟨trainingBatches, t₁, hbatches, hrest⟩
  · rw [runOn_lift] at hbatches
    exact (congrArg Prod.snd hbatches).symm
  · obtain ⟨-, rfl⟩ := lift_ok hbatches
    rcases bind_runs hrest with ⟨_, hinterval, -⟩ | ⟨valCheckBatch, t₂, -, hlast⟩
    · rw [runOn_lift] at hinterval
      exact (congrArg Prod.snd hinterval).symm
    · cases hlast

theorem tickRates_ok {interval : Interval} {t t' : Trainer W β}
    (h : (tickRates interval).runOn t = (.ok (), t')) :
    (∃ advanced, (t.board.update interval t.log.latest).result = .ok advanced) ∧
      t'.board = ⟨(t.board.update interval t.log.latest).rates⟩ ∧
      t'.events.toList = t.events.toList ++ [.ratesTicked interval] := by
  have hticked := noteFailure_ok.1 h
  simp only [runOn_of, Prod.mk.injEq] at hticked
  obtain ⟨hresult, rfl⟩ := hticked
  refine ⟨?_, rfl, by simp [Trainer.record, Trainer.report]⟩
  cases hupdate : (t.board.update interval t.log.latest).result with
  | error e => rw [hupdate] at hresult; cases hresult
  | ok advanced => exact ⟨advanced, rfl⟩

theorem nextStep_ok {setup : Setup W β} {progress : Progress} {t t' : Trainer W β}
    {globalStep : Nat} (h : (nextStep setup progress).runOn t = (.ok globalStep, t')) :
    globalStep =
        (setup.accelerator.nextStep progress.totalBatches progress.globalStep t.world).1 ∧
      t'.events.toList = t.events.toList ++
        [.stepRequested progress.totalBatches progress.globalStep] := by
  simp only [nextStep, runOn_of, Prod.mk.injEq, Except.ok.injEq] at h
  obtain ⟨hstep, rfl⟩ := h
  exact ⟨hstep.symm, by simp [Trainer.record]⟩

end TrainerStep

end TrainingLoop
