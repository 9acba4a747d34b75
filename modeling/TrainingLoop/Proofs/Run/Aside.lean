import Mathlib.Order.RelIso.Basic
import TrainingLoop.Proofs.Run.Trainer
import TrainingLoop.Run.Fit
/-!
# Steps that do not log

Only two steps of the trainer call its logger, `logStep` and `flush`. All others leave the metrics
log alone but for the latest values, and none of their events tells of the logger (`Aside`).
-/

namespace TrainingLoop

variable {σ W β : Type}

def RunEvent.isBooking : RunEvent β → Bool
  | .logged _ | .saved => true
  | _ => false

theorem RunEvent.IsHook.not_booking {event : RunEvent β} (h : event.IsHook) :
    event.isBooking = false := by
  cases event <;> first | rfl | cases h

namespace Trainer

/-- The second trainer comes from the first without a call of the logger. -/
structure Aside (t t' : Trainer W β) : Prop where
  events : ∃ new, t'.events.toList = t.events.toList ++ new ∧
    ∀ event ∈ new, event.isBooking = false
  log : ∃ latest, t'.log = { t.log with latest }
  isGlobalZero : t'.state.isGlobalZero = t.state.isGlobalZero

namespace Aside

variable {t t' t'' : Trainer W β}

theorem of_eq (hevents : t'.events = t.events) (hlog : t'.log = t.log)
    (hzero : t'.state.isGlobalZero = t.state.isGlobalZero) : Aside t t' :=
  ⟨⟨[], by rw [hevents, List.append_nil], nofun⟩, ⟨t.log.latest, hlog⟩, hzero⟩

theorem refl (t : Trainer W β) : Aside t t := of_eq rfl rfl rfl

theorem trans (h : Aside t t') (h' : Aside t' t'') : Aside t t'' := by
  obtain ⟨new, hnew, hquiet⟩ := h.events
  obtain ⟨new', hnew', hquiet'⟩ := h'.events
  obtain ⟨latest, hlog⟩ := h.log
  obtain ⟨latest', hlog'⟩ := h'.log
  refine ⟨⟨new ++ new', ?_, List.forall_mem_append.2 ⟨hquiet, hquiet'⟩⟩, ⟨latest', ?_⟩,
    h'.isGlobalZero.trans h.isGlobalZero⟩
  · rw [hnew', hnew, List.append_assoc]
  · rw [hlog', hlog]

instance : IsPreorder (Trainer W β) Aside where
  refl := refl
  trans _ _ _ := trans

theorem record (event : RunEvent β) (t : Trainer W β)
    (hevent : event.isBooking = false := by rfl) : Aside t (t.record event) :=
  ⟨⟨[event], Journal.toList_push _ _, by simpa using hevent⟩, ⟨t.log.latest, rfl⟩, rfl⟩

end Aside

theorem tellCallbacks_aside (hook : Hook) (event : CallbackEvent) (context : Context)
    (t : Trainer W β) : Aside t (t.tellCallbacks hook event context) := by
  obtain ⟨new, hnew, hhooks⟩ := (tellCallbacks_follows hook event context t).events
  obtain ⟨callbacks, world, events, notices, -, -, htold⟩ :=
    tellCallbacks_told hook event context t
  refine ⟨⟨new, hnew, fun event hevent => (hhooks event hevent).not_booking⟩, ?_, ?_⟩
  · exact ⟨t.log.latest, by rw [htold]⟩
  · rw [htold]

end Trainer

namespace TrainerStep

open Trainer Stateful

variable {setup : Setup W β}

theorem recordFailure_aside {α : Type} {step : TrainerStep W β α} (h : Keeps Aside step) :
    Keeps Aside (recordFailure step) :=
  .noteFailure h fun e t => .record (.failed e) t

theorem outside_aside {α : Type} (action : Stateful W α) :
    Keeps Aside (outside action : TrainerStep W β α) :=
  recordFailure_aside fun _ => .of_eq rfl rfl rfl

theorem inRegion_aside {α : Type} {action : String} {body : TrainerStep W β α}
    (h : Keeps Aside body) : Keeps Aside (inRegion action body) := by
  intro t
  have hopened : Aside t (t.openRegion action) := .of_eq rfl rfl rfl
  exact (hopened.trans (h _)).trans (.of_eq rfl rfl rfl)

theorem record_aside (event : RunEvent β) (hevent : event.isBooking = false := by rfl) :
    Keeps Aside (modify fun t => t.record event : TrainerStep W β Unit) :=
  .modify fun t => .record event t hevent

theorem answer_aside (hookCall : HookCall β) : Keeps Aside (answer setup hookCall) := by
  unfold answer
  split
  · have hcall (action : Stateful W Unit) : Keeps Aside
        (do modify fun t => t.record (.model hookCall); outside action : TrainerStep W β Unit) :=
      .bind (record_aside _) fun _ => outside_aside _
    split
    · exact .bind (.modify fun t => .of_eq rfl rfl rfl) fun _ => hcall _
    · exact hcall _
  · exact .bind (record_aside _) fun _ => outside_aside _

theorem call_aside (hookCall : HookCall β) (context : Context) :
    Keeps Aside (call setup hookCall context) :=
  inRegion_aside (.bind (.modify (tellCallbacks_aside _ _ _)) fun _ => answer_aside _)

theorem reduce_aside (outputs : Processed) : Keeps Aside (reduce setup outputs) := by
  refine inRegion_aside (.bind (record_aside _) fun _ => ?_)
  split
  · exact .pure ()
  · refine .bind (record_aside _) fun _ => .bind (outside_aside _) fun returned => ?_
    cases returned
    · exact .pure ()
    · exact .throw _

theorem tickRates_aside (interval : Interval) :
    Keeps Aside (tickRates interval : TrainerStep W β Unit) := by
  refine recordFailure_aside fun t => ?_
  have hrecorded := Aside.record (.ratesTicked interval) t
  exact hrecorded.trans (.of_eq rfl rfl rfl)

theorem nextStep_aside (progress : Progress) : Keeps Aside (nextStep setup progress) := by
  intro t
  have hrecorded := Aside.record (.stepRequested progress.totalBatches progress.globalStep) t
  exact hrecorded.trans (.of_eq rfl rfl rfl)

theorem resolveCounts_aside (length : Option Nat) : Keeps Aside (resolveCounts setup length) := by
  intro t
  cases hrun : (resolveCounts setup length).runOn t with
  | mk result t' =>
      cases result with
      | error e =>
          rw [resolveCounts_error hrun]
          exact .refl t
      | ok _ =>
          obtain ⟨N, K, -, -, rfl⟩ := resolveCounts_ok hrun
          exact .of_eq rfl rfl rfl

theorem publishEvaluation_aside (progress : Progress) (result : Except Error Metrics) :
    Keeps Aside (publishEvaluation setup progress result) := by
  cases result with
  | error e => exact .throw _
  | ok metrics =>
      refine .bind (.modify fun t => ?_) fun _ => .modify fun t => tellCallbacks_aside _ _ _ t
      exact ⟨⟨[], (List.append_nil _).symm, nofun⟩, ⟨_, rfl⟩, rfl⟩

theorem evaluate_aside (progress : Progress) : Keeps Aside (evaluate setup progress) := by
  unfold evaluate
  split
  · exact .pure ()
  · refine .bind (.bind (.modify fun t => .of_eq rfl rfl rfl) fun _ => .get_bind fun t => ?_)
      fun result => publishEvaluation_aside progress result
    refine .bind (.attempt (inRegion_aside ?_)) fun result =>
      .bind (.modify fun t => .of_eq rfl rfl rfl) fun _ => .pure _
    exact .bind (record_aside _) fun _ => outside_aside _

end TrainerStep

/-! ## Steps of an epoch and of a run -/

namespace EpochStep

open EpochRun Stateful

theorem inRegion_aside {α : Type} {action : String} {body : EpochStep σ W β α}
    (h : Keeps (Order.Preimage trainer Trainer.Aside) body) :
    Keeps (Order.Preimage trainer Trainer.Aside) (inRegion action body) := by
  intro r
  have hopened : Trainer.Aside r.trainer (r.mapTrainer fun t => t.openRegion action).trainer :=
    .of_eq rfl rfl rfl
  have hbody : Trainer.Aside (r.mapTrainer fun t => t.openRegion action).trainer
      (body.runOn (r.mapTrainer fun t => t.openRegion action)).2.trainer := h _
  exact (hopened.trans hbody).trans (.of_eq rfl rfl rfl)

theorem runBatch_aside {loop : BatchLoop σ β} (handed : Handed β) :
    Keeps (Order.Preimage trainer Trainer.Aside)
      (runBatch loop handed : EpochStep σ W β BatchOutput) := by
  refine inRegion_aside (.get_bind fun r => .bind (.modify fun r => .record _ _) fun _ => ?_)
  exact .mapError (.noteFailure (fun r => .refl r.trainer) fun e r => .record (.failed e) r.trainer)

theorem onTrainer_aside {α : Type} {action : TrainerStep W β α} (h : Keeps Trainer.Aside action) :
    Keeps (Order.Preimage trainer Trainer.Aside) (onTrainer action : EpochStep σ W β α) :=
  fun r => h r.trainer

theorem evaluateBatch_aside {setup : Setup W β} : Keeps (Order.Preimage trainer Trainer.Aside)
    (evaluateBatch setup : EpochStep σ W β Unit) := by
  refine .get_bind fun r => ?_
  split
  · exact onTrainer_aside (TrainerStep.evaluate_aside _)
  · exact .pure ()

theorem markTrained_aside : Keeps (Order.Preimage trainer Trainer.Aside)
    (modify fun r => r.mapTrainer Trainer.markTrained : EpochStep σ W β Unit) :=
  .modify fun _ => .of_eq rfl rfl rfl

theorem takeStep_aside {setup : Setup W β} : Keeps (Order.Preimage trainer Trainer.Aside)
    (takeStep setup : EpochStep σ W β Unit) := by
  refine .bind (onTrainer_aside (TrainerStep.tickRates_aside .step)) fun _ =>
    .bind markTrained_aside fun _ => .get_bind fun r => ?_
  exact .bind (onTrainer_aside (TrainerStep.nextStep_aside r.progress)) fun _ =>
    .modify fun r => .refl r.trainer

end EpochStep

namespace FitStep

open FitRun Trainer Stateful

theorem onTrainer_aside {α : Type} {action : TrainerStep W β α} (h : Keeps Aside action) :
    Keeps (Order.Preimage trainer Aside) (onTrainer action : FitStep σ W β α) :=
  fun r => h r.trainer

theorem enterEpoch_aside (r : FitRun σ W β) : Aside r.trainer r.enterEpoch.trainer := by
  have hcurrent : Aside r.trainer
      { r.trainer with state := { r.trainer.state with currentEpoch := r.currentEpoch } } :=
    .of_eq rfl rfl rfl
  exact hcurrent.trans (.record (.dataRequested r.currentEpoch) _)

theorem begins_aside {setup : Setup W β} {data : Batches β} {r : FitRun σ W β}
    {hookCall : HookCall β} {context : Context} {t₁ t₂ : Trainer W β}
    (hresolve : (TrainerStep.resolveCounts setup data.knownLength).runOn r.enterEpoch.trainer =
      (.ok (), t₁))
    (hcall : (TrainerStep.call setup hookCall context).runOn t₁ = (.ok (), t₂)) :
    Aside r.trainer t₂ :=
  (enterEpoch_aside r).trans (((TrainerStep.resolveCounts_aside _).of_ok hresolve).trans
    ((TrainerStep.call_aside _ _).of_ok hcall))

theorem declineStop_aside (config : Config) (r : FitRun σ W β) :
    Aside r.trainer (r.declineStop config).trainer := by
  unfold FitRun.declineStop
  split <;> exact .of_eq rfl rfl rfl

theorem closeEpoch_aside {setup : Setup W β} (counters : EpochCounters) :
    Keeps (Order.Preimage trainer Aside) (closeEpoch setup counters : FitStep σ W β Unit) := by
  refine .bind (.get_bind fun r => ?_) fun _ => ?_
  · split
    · exact onTrainer_aside (TrainerStep.evaluate_aside _)
    · exact .pure ()
  · exact .bind (onTrainer_aside (TrainerStep.tickRates_aside _)) fun _ =>
      .modify fun r => .refl r.trainer

theorem tellEnd_aside (setup : Setup W β) (reason : StopReason) (c : Completed)
    (r : FitRun σ W β) : Aside r.trainer (r.tellEnd setup reason c).trainer :=
  (tellCallbacks_aside _ _ _ _).trans (.of_eq rfl rfl rfl)

end FitStep

end TrainingLoop
