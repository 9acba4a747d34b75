import TrainingLoop.Proofs.KeyMap
import TrainingLoop.Proofs.Run.BatchOutputs
/-!
# The end of an epoch

An epoch is closed in the log before its last hooks are called, and these leave the log alone. So
all that callbacks are shown in them is the log of the closed epoch (`EpochStep.finish_shows`), and
no callback hears of the end of an epoch elsewhere. A validation afterwards puts its own metrics
over those of the log (`TrainerStep.evaluate_log`).
-/

namespace TrainingLoop

variable {σ W β : Type}

def CallbackEvent.endsEpoch : CallbackEvent → Bool
  | .trainEpochEnd _ | .epochEnd => true
  | _ => false

def RunEvent.endsEpoch : RunEvent β → Bool
  | .callback _ event _ => event.endsEpoch
  | _ => false

/-- The evaluator reports no metric of the given name in the epoch. -/
def Setup.Unreported (setup : Setup W β) (epoch : Nat) (name : String) : Prop :=
  ∀ evaluator, setup.evaluator = some evaluator → ∀ globalStep world metrics,
    ((evaluator epoch globalStep).runOn world).1 = .ok metrics → metrics.get? name = none

def RunEvent.ShowsMetrics (metrics : Metrics) : RunEvent β → Prop
  | .callback _ _ context => context.metrics = metrics
  | _ => True

namespace Trainer

structure Shows (metrics : Metrics) (t t' : Trainer W β) : Prop where
  log : t'.log = t.log
  shown : ∃ new, t'.events.toList = t.events.toList ++ new ∧
    ∀ event ∈ new, event.ShowsMetrics metrics

namespace Shows

variable {metrics : Metrics} {t t' t'' : Trainer W β}

theorem of_eq (hlog : t'.log = t.log) (hevents : t'.events = t.events) : Shows metrics t t' :=
  ⟨hlog, [], by rw [hevents, List.append_nil], nofun⟩

theorem trans (h : Shows metrics t t') (h' : Shows metrics t' t'') : Shows metrics t t'' := by
  obtain ⟨new, hnew, hshown⟩ := h.shown
  obtain ⟨new', hnew', hshown'⟩ := h'.shown
  exact ⟨h'.log.trans h.log, new ++ new', events_trans hnew hnew',
    List.forall_mem_append.2 ⟨hshown, hshown'⟩⟩

instance : IsPreorder (Trainer W β) (Shows metrics) where
  refl _ := of_eq rfl rfl
  trans _ _ _ := trans

theorem record {event : RunEvent β} (h : event.ShowsMetrics metrics) (t : Trainer W β) :
    Shows metrics t (t.record event) :=
  ⟨rfl, [event], Journal.toList_push _ _, by simpa using h⟩

end Shows

theorem tellCallbacks_shows {metrics : Metrics} (hook : Hook) (event : CallbackEvent)
    {context : Context} (hcontext : context.metrics = metrics) (t : Trainer W β) :
    Shows metrics t (t.tellCallbacks hook event context) := by
  obtain ⟨callbacks, world, events, notices, -, hevents, htold⟩ :=
    tellCallbacks_told hook event context t
  rw [htold]
  refine ⟨rfl, _, hevents, ?_⟩
  intro e he
  rcases List.mem_cons.1 he with rfl | he
  · trivial
  · rcases mem_heard he with ⟨position, rfl⟩ | ⟨position, rfl⟩
    · exact hcontext
    · trivial

end Trainer

namespace TrainerStep

open Trainer Stateful

variable {setup : Setup W β} {metrics : Metrics}

theorem outside_shows {α : Type} (action : Stateful W α) :
    Keeps (Shows metrics) (outside action : TrainerStep W β α) :=
  .noteFailure (fun _ => .of_eq rfl rfl) fun e t =>
    .record (show RunEvent.ShowsMetrics metrics (.failed e) from trivial) t

theorem inRegion_shows {α : Type} {action : String} {body : TrainerStep W β α}
    (h : Keeps (Shows metrics) body) : Keeps (Shows metrics) (inRegion action body) := by
  intro t
  have hopened : Shows metrics t (t.openRegion action) := .of_eq rfl rfl
  exact (hopened.trans (h _)).trans (.of_eq rfl rfl)

theorem record_shows {event : RunEvent β} (h : event.ShowsMetrics metrics) :
    Keeps (Shows metrics) (modify fun t => t.record event : TrainerStep W β Unit) :=
  .modify fun t => .record h t

theorem answer_shows (hookCall : HookCall β) : Keeps (Shows metrics) (answer setup hookCall) := by
  unfold answer
  split
  · have hcall (action : Stateful W Unit) : Keeps (Shows metrics)
        (do modify fun t => t.record (.model hookCall); outside action : TrainerStep W β Unit) :=
      .bind (record_shows trivial) fun _ => outside_shows _
    split
    · exact .bind (.modify fun t => .of_eq rfl rfl) fun _ => hcall _
    · exact hcall _
  · exact .bind (record_shows trivial) fun _ => outside_shows _

theorem call_shows (hookCall : HookCall β) {context : Context}
    (hcontext : context.metrics = metrics) :
    Keeps (Shows metrics) (call setup hookCall context) :=
  inRegion_shows (.bind (.modify (tellCallbacks_shows _ _ hcontext)) fun _ => answer_shows _)

theorem reduce_shows (outputs : Processed) : Keeps (Shows metrics) (reduce setup outputs) := by
  refine inRegion_shows (.bind (record_shows trivial) fun _ => ?_)
  split
  · exact .pure ()
  · refine .bind (record_shows trivial) fun _ => .bind (outside_shows _) fun returned => ?_
    cases returned
    · exact .pure ()
    · exact .throw _

theorem runEvaluator_log {evaluator : Evaluator W} {globalStep : Nat} {t t' : Trainer W β}
    {result : Except Error Metrics}
    (h : (runEvaluator evaluator globalStep).runOn t = (.ok result, t')) :
    result = ((evaluator t.state.currentEpoch globalStep).runOn t.world).1 ∧ t'.log = t.log := by
  obtain ⟨hresult, -⟩ := outside_events (.evaluated t.state.currentEpoch globalStep)
    (evaluator t.state.currentEpoch globalStep)
    ({ t with state := { t.state with stage := .validating } }.openRegion "run_evaluation")
  have hkept : Keeps (Shows t.log.latest) (do
      modify fun t' => t'.record (.evaluated t.state.currentEpoch globalStep)
      outside (evaluator t.state.currentEpoch globalStep) : TrainerStep W β Metrics) :=
    .bind (record_shows trivial) fun _ => outside_shows _
  cases h
  exact ⟨hresult, (hkept _).log⟩

/-- A validation leaves the log alone or, if there is an evaluator, publishes what it reports. -/
theorem evaluate_log {progress : Progress} {t t' : Trainer W β}
    (h : (evaluate setup progress).runOn t = (.ok (), t')) :
    t'.log = t.log ∨ ∃ evaluator metrics, setup.evaluator = some evaluator ∧
      ((evaluator t.state.currentEpoch progress.globalStep).runOn t.world).1 = .ok metrics ∧
      t'.log = t.log.publish metrics := by
  unfold evaluate at h
  cases hevaluator : setup.evaluator with
  | none =>
      rw [hevaluator] at h
      cases h
      exact .inl rfl
  | some evaluator =>
      rw [hevaluator] at h
      obtain ⟨result, t₁, hran, hpublished⟩ := bind_ok h
      obtain ⟨hresult, hlog⟩ := runEvaluator_log hran
      cases result with
      | error e => cases hpublished
      | ok metrics =>
          cases hpublished
          let published : Trainer W β := { t₁ with log := t₁.log.publish metrics }
          have hcontext : (published.context setup progress 0 none).metrics =
              published.log.latest := rfl
          have htold := tellCallbacks_shows .validationEnd .validationEnd hcontext published
          exact .inr ⟨evaluator, metrics, rfl, hresult.symm, htold.log.trans (by rw [← hlog])⟩

end TrainerStep

/-! ## The last hooks of an epoch -/

namespace EpochStep

open Trainer Stateful

variable {setup : Setup W β} {r r' : EpochRun σ W β} {kept : KeptOutputs} {outputs : Processed}

/-- At its end an epoch is closed in the log, and then callbacks are shown the latest values. -/
theorem finish_shows (h : (finish setup kept).runOn r = (.ok outputs, r')) :
    r'.trainer.log = r.trainer.log.closeEpoch ∧
      ∃ new, r'.trainer.events.toList = r.trainer.events.toList ++ new ∧
        ∀ event ∈ new, event.ShowsMetrics r.trainer.log.closeEpoch.latest := by
  simp only [finish, runOn_modify_bind] at h
  obtain ⟨_, r₁, h₁, hrest⟩ := bind_ok h
  simp only [runOn_get_bind] at hrest
  obtain ⟨_, r₂, h₂, hrest'⟩ := bind_ok hrest
  obtain ⟨_, r₃, h₃, hlast⟩ := bind_ok hrest'
  cases hlast
  obtain ⟨t₁, hreduced, rfl⟩ := onPart_ok h₁
  obtain ⟨t₂, htold, rfl⟩ := onPart_ok h₂
  obtain ⟨t₃, hended, rfl⟩ := onPart_ok h₃
  have hclosed : Shows r.trainer.log.closeEpoch.latest
      { r.trainer with log := r.trainer.log.closeEpoch } t₁ :=
    (TrainerStep.reduce_shows _).of_ok hreduced
  have hcontext : t₁.log.latest = r.trainer.log.closeEpoch.latest := by rw [hclosed.log]
  have hcalled : Shows r.trainer.log.closeEpoch.latest t₁ t₃ :=
    ((TrainerStep.call_shows _ hcontext).of_ok htold).trans
      ((TrainerStep.call_shows _ hcontext).of_ok hended)
  have hall := hclosed.trans hcalled
  exact ⟨hall.log, hall.shown⟩

end EpochStep

namespace FitStep

open Trainer Stateful

theorem evaluateEpoch_latest {setup : Setup W β} {counters : EpochCounters} {r r' : FitRun σ W β}
    {name : String} (hunreported : setup.Unreported r.trainer.state.currentEpoch name)
    (h : (evaluateEpoch setup counters).runOn r = (.ok (), r')) :
    r'.trainer.log.latest.get? name = r.trainer.log.latest.get? name := by
  obtain ⟨t, rfl, -, hdue, hnot⟩ := evaluateEpoch_ok h
  cases hask : r.dueForValidation setup counters with
  | false => rw [hnot hask]
  | true =>
      rcases TrainerStep.evaluate_log (hdue hask) with
        hlog | ⟨evaluator, metrics, hevaluator, hreported, hlog⟩
      · rw [hlog]
      · rw [hlog, MetricsLog.publish, KeyMap.get?_merge,
          hunreported evaluator hevaluator _ _ metrics hreported, Option.none_or]

end FitStep

/-! ## Where no epoch ends -/

namespace Only

open Trace Computability

variable {Q : RunEvent β → Prop}

/-- What holds of all events but the calls of callbacks at the end of an epoch holds in all completed
batches. -/
theorem completed_of (hbare : ∀ event : RunEvent β, event.isBare = true → Q event)
    (hpulled : ∀ index isLast, Q (.pulled index isLast))
    (hrun : ∀ batch index dataloader, Q (.batchRun batch index dataloader))
    (hheard : ∀ position event context, event.endsEpoch = false →
      Q (.callback position event context))
    (hlogged : ∀ record, Q (.logged record)) {setup : Setup W β}
    (hanswered : ∀ call, Q (setup.answered call)) (n : Nat) : Only Q (Trace.completed setup n) := by
  refine iSup fun p => iSup fun handed => iSup fun dataloader => iSup fun outputs =>
    iSup fun steps => ?_
  have hcalled {call : HookCall β} (hcall : call.event.endsEpoch = false) :
      Only Q (Trace.called setup n p call) :=
    called_of hbare call (fun _ _ => hheard _ _ _ hcall) setup (hanswered call) n p
  have hlog : Only Q (Trace.logged p : Language (RunEvent β)) := by
    rintro word ⟨record, -, rfl⟩ event hevent
    rw [List.mem_singleton.1 hevent]
    exact hlogged record
  have hended : Only Q (Trace.batchEnded setup n p handed dataloader outputs) :=
    (hcalled rfl).mul ((hcalled rfl).mul hlog.optional)
  exact ((attempted_of hpulled hrun handed dataloader).mul hended).mul
    (upkeep_of hbare (fun _ _ => hheard _ _ _ rfl) n p steps)

theorem unended_bare (event : RunEvent β) (h : event.isBare = true) : event.endsEpoch = false := by
  cases event <;> first | rfl | cases h

theorem unended_answered (setup : Setup W β) (call : HookCall β) :
    (setup.answered call).endsEpoch = false := by
  unfold Setup.answered
  split <;> rfl

theorem unended_epochBegun (setup : Setup W β) (n epoch : Nat) (p : Progress) :
    Only (fun event => event.endsEpoch = false) (Trace.epochBegun setup n epoch p) :=
  mul (single (by rfl)) (called_of unended_bare .trainEpochStart (fun _ _ => by rfl) setup
    (unended_answered setup _) n p)

theorem unended_epochTrained (setup : Setup W β) (n : Nat) :
    Only (fun event => event.endsEpoch = false) (Trace.epochTrained setup n) := by
  have hcompleted : Only (fun event => event.endsEpoch = false) (Trace.completed setup n) :=
    completed_of unended_bare (fun _ _ => rfl) (fun _ _ _ => rfl) (fun _ _ _ h => h) (fun _ => rfl)
      (unended_answered setup) n
  have hsignalling : Only (fun event => event.endsEpoch = false)
      (signalling : Language (RunEvent β)) :=
    iSup fun handed => iSup fun dataloader =>
      skipped_of (fun _ _ => rfl) (fun _ _ _ => rfl) (fun _ => rfl) handed dataloader
  exact hcompleted.kstar.mul hsignalling.optional

theorem unended_epochClosed (n : Nat) (p : Progress) :
    Only (fun event => event.endsEpoch = false) (Trace.epochClosed n p : Language (RunEvent β)) :=
  epochClosed_of unended_bare (fun _ _ => rfl) n p

end Only

end TrainingLoop
