import TrainingLoop.Proofs.Run.Aside
import TrainingLoop.Proofs.Run.FitTrace
import TrainingLoop.Proofs.Run.Validation
/-!
# Epochs that nothing cuts short

An epoch is cut short by a request to stop or by the batch loop asking for its end, and its events
tell of both. `EpochStep.run_calm` is how the training of an epoch without such events ends, and
`FitStep.nextEpoch_calm` what the whole epoch does.
-/

namespace TrainingLoop

variable {σ W β : Type}

namespace RunEvent

/-- The event is neither a request to stop nor one to end the epoch. -/
def isCalm : RunEvent β → Bool
  | .stopAsked _ | .signalled _ => false
  | _ => true

theorem any_asksStop_of_calm {events : List (RunEvent β)}
    (h : ∀ event ∈ events, event.isCalm = true) : events.any asksStop = false := by
  rw [List.any_eq_false]
  intro event hevent hasks
  have hcalm := h event hevent
  cases event <;> simp_all [asksStop, isCalm]

theorem not_signalled_of_calm {events : List (RunEvent β)}
    (h : ∀ event ∈ events, event.isCalm = true) (index : Nat) : .signalled index ∉ events :=
  fun hmem => Bool.false_ne_true (h _ hmem)

end RunEvent

namespace EpochStep

open Trainer RunEvent

/-- What one completed batch preserves holds where the training of an epoch ends that nothing cuts
short: the epoch is done, or no batch is left. The hooks that follow change the trainer only. -/
theorem run_calm {setup : Setup W β} {loop : BatchLoop σ β} {horizon : Nat} {data : Batches β}
    {I : Nat → EpochRun σ W β → KeptOutputs → Prop}
    (hstep : ∀ n r kept more r₁ r₂, I n r kept → r.isDone loop = false →
      (advance setup loop).runOn r = (.ok (.completed more), r₁) →
      (advanceEnd setup loop).runOn r₁ = (.ok (), r₂) → I (n + 1) r₂ (kept.extend more))
    {r r' : EpochRun σ W β} {outputs : Processed} (hstart : I 0 (r.start setup data) .empty)
    (h : (run setup loop horizon data).runOn r = (.ok (some outputs), r'))
    (hunasked : r'.trainer.state.shouldStop = false)
    (hunsignalled : ∀ index new, r'.trainer.events.toList = r.trainer.events.toList ++ new →
      .signalled index ∉ new) :
    ∃ b r₀ kept trainer, I b r₀ kept ∧ r₀.trainer.state.shouldStop = false ∧
      (r₀.isDone loop = true ∨
        r₀.isDone loop = false ∧ ∃ feed, r₀.phase = .running feed ∧ feed.next.1 = none) ∧
      Follows RunEvent.IsHook r₀.trainer trainer ∧ r' = { r₀ with trainer, phase := .done } := by
  obtain ⟨kept, r₁, hbatches, hfinish⟩ := run_ok h
  obtain ⟨-, trainer, hhooks, -, rfl⟩ := finish_ok hfinish
  have hbegin : Follows (fun _ => True) r.trainer (r.start setup data).trainer :=
    .of_eq rfl rfl rfl rfl
  have hrule := batches_ok
    (I := fun b r₀ kept => I b r₀ kept ∧ Follows (fun _ => True) r.trainer r₀.trainer)
    (fun b r₀ kept more r₂ r₃ hI hgoes hadvance hend =>
      ⟨hstep b r₀ kept more r₂ r₃ hI.1 hgoes hadvance hend,
        hI.2.trans ((advance_follows (advance_ok hadvance)).trans (advanceEnd_follows hend))⟩)
    ⟨hstart, hbegin⟩ hbatches
  obtain ⟨kept', b, r₀, -, ⟨hI, hfollows⟩, hends⟩ | ⟨kept', hnone, -⟩ := hrule
  · have hunasked₀ : r₀.trainer.state.shouldStop = false :=
      (ends_follows hends).unasked (hhooks.unasked hunasked)
    cases hends with
    | done hdone => exact ⟨b, _, kept', trainer, hI, hunasked₀, .inl hdone, hhooks, rfl⟩
    | exhausted hgoes hexhausted =>
        cases advance_ok hexhausted with
        | exhausted hphase hnext =>
            exact ⟨b, r₀, kept', trainer, hI, hunasked₀, .inr ⟨hgoes, _, hphase, hnext⟩, hhooks,
              rfl⟩
    | skipped hgoes hskipped =>
        -- A skipped batch would have left its signal among the events.
        exfalso
        obtain ⟨before, hbefore, -⟩ := hfollows.events
        obtain ⟨index, new, hnew, hsignalled⟩ := skipped_signals (advance_ok hskipped)
        obtain ⟨after, hafter, -⟩ := hhooks.events
        apply hunsignalled index (before ++ (new ++ after))
        · exact events_trans hbefore (events_trans hnew hafter)
        · exact List.mem_append_right _ (List.mem_append_left _ hsignalled)
  · cases hnone

end EpochStep

namespace FitStep

open Trainer EpochStep RunEvent

variable {setup : Setup W β} {loop : BatchLoop σ β} {horizon : Nat} {data : Nat → Batches β}
  {r r' : FitRun σ W β} {t : Trainer W β} {e : EpochRun σ W β} {new : List (RunEvent β)}

/-- An epoch of a run that nothing cuts short, from the trainer `t` with which its training begins
to the end `e` of its training, with its events. -/
structure RanThrough (setup : Setup W β) (loop : BatchLoop σ β) (horizon : Nat)
    (data : Nat → Batches β) (r : FitRun σ W β) (t : Trainer W β) (e : EpochRun σ W β)
    (r' : FitRun σ W β) (new : List (RunEvent β)) : Prop where
  trained : ∃ outputs, (EpochStep.run setup loop horizon (data r.currentEpoch)).runOn
    (FitRun.epochRun setup.config { r with trainer := t }) = (.ok (some outputs), e)
  limit : setup.config.limitTrainBatches.resolveBatches (data r.currentEpoch).knownLength =
    .ok t.state.trainingBatches
  interval : setup.config.valCheckInterval.resolveInterval t.state.trainingBatches =
    .ok t.state.valCheckBatch
  unasked : e.trainer.state.shouldStop = false
  unsignalled : ∀ index trained, e.trainer.events.toList = t.events.toList ++ trained →
    .signalled index ∉ trained
  pulled : new.countP isPulled = e.counters.batchesSeen
  evaluated : evaluatedFrom 0 new =
    if (t.validationSchedule setup).coversEpoch r.currentEpoch = true then
      t.state.valCheckBatch.validated e.counters.batchesSeen (decide
        ((setup.accelerator.prepare (data r.currentEpoch) t.world).1.length =
          some e.counters.batchesSeen))
    else []
  begins : Aside r.trainer t
  ends : Aside e.trainer r'.trainer
  progress : r'.progress = e.progress
  worker : r'.worker = e.worker

theorem nextEpoch_calm {outputs : Processed}
    (h : (nextEpoch setup loop horizon data).runOn r = (.ok (some outputs), r'))
    (hunasked : r.trainer.state.shouldStop = false)
    (hnew : r'.trainer.events.toList = r.trainer.events.toList ++ new)
    (hcalm : ∀ event ∈ new, event.isCalm = true) :
    ∃ t e, RanThrough setup loop horizon data r t e r' new := by
  obtain ⟨t₁, t₂, e, hresolve, hcall, hepoch, hclose⟩ := nextEpoch_begins h
  obtain ⟨t₃, t₄, hevaluate, htick, rfl⟩ := closeEpoch_ok (hclose rfl)
  obtain ⟨N, K, hN, hK, hschedule, hcurrent, hbegun⟩ := epoch_starts hresolve hcall
  -- The events of the epoch are those of its start, its batches and its end.
  obtain ⟨-, told, htold, hstop, -⟩ := begins_told hresolve hcall rfl
  obtain ⟨trained, htrained, -⟩ := (run_follows hepoch).events
  obtain ⟨ended, hended, -⟩ := (closeEpoch_follows (hclose rfl)).events
  have hbefore : e.trainer.events.toList =
      r.trainer.events.toList ++ (.dataRequested r.currentEpoch :: told ++ trained) :=
    events_trans htold htrained
  obtain rfl : .dataRequested r.currentEpoch :: told ++ trained ++ ended = new :=
    List.append_cancel_left ((events_trans hbefore hended).symm.trans hnew)
  obtain ⟨hcalmBefore, -⟩ := List.forall_mem_append.1 hcalm
  obtain ⟨hcalmTold, hcalmTrained⟩ := List.forall_mem_append.1 hcalmBefore
  have hunasked₂ : t₂.state.shouldStop = false := by
    rw [hstop, hunasked, any_asksStop_of_calm (List.forall_mem_cons.1 hcalmTold).2]
    rfl
  have hunasked₃ : e.trainer.state.shouldStop = false := by
    rw [(run_follows hepoch).asked trained htrained, any_asksStop_of_calm hcalmTrained,
      Bool.or_false]
    exact hunasked₂
  have hunsignalled : ∀ index, .signalled index ∉ r.trainer.eventsSince e.trainer := by
    rw [eventsSince_eq hbefore]
    exact not_signalled_of_calm hcalmBefore
  -- The evaluator has run as the schedule asks for, in mid-epoch and at the end.
  obtain ⟨consumed, hconsumed, hinv, -⟩ := run_validating hbegun hepoch hunsignalled
  have hsame : (FitRun.epochRun setup.config { r with trainer := t₂ }).trainer = t₂ := rfl
  rw [hsame, hcurrent] at hinv
  rw [hsame] at hconsumed
  have hticked : Follows RunEvent.IsUpkeep t₃ t₄ :=
    (TrainerStep.tickRates_keeps .epoch trivial fun _ => trivial).of_ok htick
  have htraced := (evaluateEpoch_traced
    (r := { r with worker := e.worker, progress := e.progress }) hconsumed hinv.schedule
    hunasked₃ hinv.history hevaluate).follows (fun _ => IsUpkeep.isQuiet) hticked
  have hpulled := htraced.pulled
  have hevaluated := htraced.evaluated
  rw [eventsSince_eq hnew] at hpulled hevaluated
  rw [ValidationSchedule.midEpoch_append_atEnd hinv.bound] at hevaluated
  have hlimit : t₂.state.trainingBatches = N :=
    congrArg ValidationSchedule.trainingBatches hschedule
  have hinterval : t₂.state.valCheckBatch = K :=
    congrArg ValidationSchedule.interval hschedule
  exact ⟨t₂, e,
    { trained := ⟨outputs, hepoch⟩
      limit := by rw [hlimit, hN]
      interval := by rw [hlimit, hK, hinterval]
      unasked := hunasked₃
      unsignalled := by
        intro index trained' htrained'
        rw [List.append_cancel_left (htrained'.symm.trans htrained)]
        exact not_signalled_of_calm hcalmTrained index
      pulled := hpulled.trans hconsumed.seen.symm
      evaluated := by
        rw [hevaluated, hconsumed.seen]
        rfl
      begins := FitStep.begins_aside hresolve hcall
      ends := (closeEpoch_aside _).of_ok (hclose rfl)
      progress := rfl
      worker := rfl }⟩

/-! ## The whole run -/

theorem begun_quiet (setup : Setup W β) (worker : σ) (r : FitRun σ W β) :
    ∃ first, (begun setup worker r).trainer.events.toList = r.trainer.events.toList ++ first ∧
      ∀ event ∈ first, event.IsQuiet := by
  have hbegun : Follows (fun event => event.IsQuiet) r.trainer (begun setup worker r).trainer :=
    (Follows.record ⟨rfl, rfl⟩ _).trans
      ((tellCallbacks_follows _ _ _ _).mono fun _ => IsHook.isQuiet)
  obtain ⟨first, hfirst, hquiet⟩ := hbegun.events
  exact ⟨first, hfirst, hquiet⟩

theorem begun_aside (setup : Setup W β) (worker : σ) (r : FitRun σ W β) :
    Aside r.trainer (begun setup worker r).trainer :=
  (Aside.record (.accumulation setup.config.accumulateGradBatches) r.trainer).trans
    (tellCallbacks_aside _ _ _ _)

theorem calm_of_epochs {t t' : Trainer W β} {first rest : List (RunEvent β)}
    {epochs : List (List (RunEvent β))}
    (hevents : t'.events.toList = t.events.toList ++ (first ++ (epochs.flatten ++ rest)))
    (hcalm : ∀ event ∈ t.eventsSince t', event.isCalm = true) :
    ∀ events ∈ epochs, ∀ event ∈ events, event.isCalm = true := by
  intro events hin event hevent
  apply hcalm
  rw [eventsSince_eq hevents]
  apply List.mem_append_right
  apply List.mem_append_left
  exact List.mem_flatten_of_mem hin hevent

theorem tellEnd_quiet (setup : Setup W β) (reason : StopReason) (c : Completed)
    (r : FitRun σ W β) :
    ∃ last, (r.tellEnd setup reason c).trainer.events.toList = r.trainer.events.toList ++ last ∧
      ∀ event ∈ last, event.IsQuiet := by
  have hended : Follows (fun event => event.IsQuiet) r.trainer
      (r.tellEnd setup reason c).trainer :=
    ((tellCallbacks_follows _ _ _ _).mono fun _ => IsHook.isQuiet).trans (.report _ _)
  obtain ⟨last, hlast, hquiet⟩ := hended.events
  exact ⟨last, hlast, hquiet⟩

end FitStep

end TrainingLoop
