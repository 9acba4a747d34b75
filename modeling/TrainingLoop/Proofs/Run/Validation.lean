import TrainingLoop.Proofs.Run.Fit
import TrainingLoop.Proofs.ValidationSchedule
/-!
# When the evaluator runs

The events of an epoch tell after which of its batches the evaluator ran (`evaluatedFrom`). The
batches of an epoch keep them equal to the answers of the schedule in mid-epoch, the end of the
epoch adds its own answer, and together they are those of the interval (`nextEpoch_validated`).
-/

namespace TrainingLoop

variable {σ W β : Type}

namespace RunEvent

/-- The evaluations along some events before which `n` batches were pulled, each told by the number
of the batches pulled before it. -/
def evaluatedFrom (n : Nat) : List (RunEvent β) → List Nat
  | [] => []
  | event :: events =>
    (if event.isEvaluated then [n] else []) ++
      evaluatedFrom (if event.isPulled then n + 1 else n) events

theorem evaluatedFrom_append (n : Nat) (events more : List (RunEvent β)) :
    evaluatedFrom n (events ++ more) =
      evaluatedFrom n events ++ evaluatedFrom (n + events.countP isPulled) more := by
  induction events generalizing n with
  | nil => rfl
  | cons event events ih =>
      rw [List.cons_append, evaluatedFrom, evaluatedFrom, ih, List.append_assoc, List.countP_cons]
      congr 3
      split <;> omega

def IsQuiet (event : RunEvent β) : Prop := event.isPulled = false ∧ event.isEvaluated = false

theorem evaluatedFrom_quiet {events : List (RunEvent β)} (h : ∀ event ∈ events, event.IsQuiet)
    (n : Nat) : evaluatedFrom n events = [] := by
  induction events generalizing n with
  | nil => rfl
  | cons event events ih =>
      obtain ⟨⟨hpulled, hevaluated⟩, hrest⟩ := List.forall_mem_cons.1 h
      rw [evaluatedFrom, hpulled, hevaluated]
      exact ih hrest n

theorem countP_quiet {events : List (RunEvent β)} (h : ∀ event ∈ events, event.IsQuiet) :
    events.countP isPulled = 0 :=
  List.countP_eq_zero.2 fun event hevent => by simp [(h event hevent).1]

theorem IsHook.isQuiet {event : RunEvent β} (h : event.IsHook) : event.IsQuiet := by
  cases event <;> first | exact ⟨rfl, rfl⟩ | cases h

theorem IsTraining.isQuiet {event : RunEvent β} (h : event.IsTraining) : event.IsQuiet := by
  cases event <;> first | exact ⟨rfl, rfl⟩ | cases h

theorem IsUpkeep.isQuiet {event : RunEvent β} (h : event.IsUpkeep) : event.IsQuiet := by
  cases event <;> first | exact ⟨rfl, rfl⟩ | cases h

end RunEvent

open RunEvent

/-! ## The history of a trainer -/

namespace Trainer

def eventsSince (t₀ t : Trainer W β) : List (RunEvent β) :=
  t.events.toList.drop t₀.events.toList.length

structure Traced (t₀ : Trainer W β) (pulled : Nat) (evaluated : List Nat) (t : Trainer W β) :
    Prop where
  kept : t.events.toList = t₀.events.toList ++ t₀.eventsSince t
  pulled : (t₀.eventsSince t).countP isPulled = pulled
  evaluated : evaluatedFrom 0 (t₀.eventsSince t) = evaluated

theorem eventsSince_eq {t₀ t : Trainer W β} {new : List (RunEvent β)}
    (h : t.events.toList = t₀.events.toList ++ new) : t₀.eventsSince t = new := by
  rw [eventsSince, h, List.drop_left]

namespace Traced

variable {t₀ t t' : Trainer W β} {n : Nat} {evaluated : List Nat}

theorem self (t : Trainer W β) : Traced t 0 [] t := by
  have hnone : t.eventsSince t = [] := eventsSince_eq (by simp)
  refine ⟨?_, ?_, ?_⟩ <;> simp [hnone, evaluatedFrom]

theorem eventsSince_append (h : Traced t₀ n evaluated t) {new : List (RunEvent β)}
    (hnew : t'.events.toList = t.events.toList ++ new) :
    t₀.eventsSince t' = t₀.eventsSince t ++ new := by
  apply eventsSince_eq
  rw [hnew, ← List.append_assoc, ← h.kept]

theorem append (h : Traced t₀ n evaluated t) {new : List (RunEvent β)}
    (hnew : t'.events.toList = t.events.toList ++ new) :
    Traced t₀ (n + new.countP isPulled) (evaluated ++ evaluatedFrom n new) t' := by
  have hsince := h.eventsSince_append hnew
  refine ⟨?_, ?_, ?_⟩
  · rw [hsince, hnew, h.kept, List.append_assoc]
  · rw [hsince, List.countP_append, h.pulled]
  · rw [hsince, evaluatedFrom_append, h.evaluated, h.pulled, Nat.zero_add]

theorem quiet (h : Traced t₀ n evaluated t) {new : List (RunEvent β)}
    (hnew : t'.events.toList = t.events.toList ++ new) (hquiet : ∀ event ∈ new, event.IsQuiet) :
    Traced t₀ n evaluated t' := by
  have happend := h.append hnew
  rwa [countP_quiet hquiet, evaluatedFrom_quiet hquiet, Nat.add_zero, List.append_nil] at happend

theorem follows {P : RunEvent β → Prop} (h : Traced t₀ n evaluated t)
    (hP : ∀ event, P event → event.IsQuiet) (hfollows : Follows P t t') :
    Traced t₀ n evaluated t' := by
  obtain ⟨new, hnew, hall⟩ := hfollows.events
  exact h.quiet hnew fun event hevent => hP event (hall event hevent)

theorem pull (h : Traced t₀ n evaluated t) (index : Nat) (isLast : Bool) :
    Traced t₀ (n + 1) evaluated (t.record (.pulled index isLast)) := by
  have hnew : (t.record (.pulled index isLast)).events.toList =
      t.events.toList ++ [.pulled index isLast] := Journal.toList_push _ _
  simpa [evaluatedFrom, isEvaluated, isPulled] using h.append hnew

theorem evaluate {setup : Setup W β} {progress : Progress} {result : Except Error Unit}
    (h : Traced t₀ n evaluated t) (hevaluator : setup.evaluator.isSome)
    (hrun : (TrainerStep.evaluate setup progress).runOn t = (result, t')) :
    Traced t₀ n (evaluated ++ [n]) t' := by
  obtain ⟨hooks, hnew, hhooks⟩ := TrainerStep.evaluate_events hevaluator hrun
  have hquiet : ∀ event ∈ hooks, event.IsQuiet := fun event hevent => (hhooks event hevent).isQuiet
  have happend := h.append hnew
  rw [evaluatedFrom, List.countP_cons, countP_quiet hquiet, evaluatedFrom_quiet hquiet] at happend
  exact happend

end Traced

end Trainer

/-! ## The batches of an epoch -/

/-- In an epoch that follows a schedule the evaluator ran after those of the first `b` batches that
the schedule asks for in mid-epoch. -/
structure EpochRun.Validating (setup : Setup W β) (v : ValidationSchedule) (t₀ : Trainer W β)
    (epoch b : Nat) (r : EpochRun σ W β) : Prop where
  bound : ∀ n, v.trainingBatches = .finite n → b ≤ n
  schedule : r.trainer.validationSchedule setup = v
  currentEpoch : r.trainer.state.currentEpoch = epoch
  history : Trainer.Traced t₀ b (v.midEpoch epoch b) r.trainer

namespace EpochStep

open Trainer

theorem validationSchedule_follows {P : RunEvent β → Prop} {setup : Setup W β} {t t' : Trainer W β}
    (h : Follows P t t') : t'.validationSchedule setup = t.validationSchedule setup := by
  rw [Trainer.validationSchedule, Trainer.validationSchedule, h.valCheckBatch, h.trainingBatches]

theorem evaluator_of_due {setup : Setup W β} {r : EpochRun σ W β}
    (h : r.dueForValidation setup = true) : setup.evaluator.isSome := by
  simp only [EpochRun.dueForValidation, ValidationSchedule.dueAfterBatch,
    ValidationSchedule.coversEpoch, Trainer.validationSchedule, Bool.and_eq_true] at h
  exact h.2.1.1.2

/-- A completed batch, with the validation after it, keeps the evaluations those of the schedule. -/
theorem step_validating {setup : Setup W β} {loop : BatchLoop σ β} {v : ValidationSchedule}
    {t₀ : Trainer W β} {epoch b : Nat} {B : Batches β} {r r₁ r₂ : EpochRun σ W β}
    {more : KeptOutputs} (hat : r.AtBatch B b) (hinv : r.Validating setup v t₀ epoch b)
    (hgoes : r.isDone loop = false)
    (hadvance : (advance setup loop).runOn r = (.ok (.completed more), r₁))
    (hend : (advanceEnd setup loop).runOn r₁ = (.ok (), r₂)) :
    r₂.Validating setup v t₀ epoch (b + 1) := by
  have hbound : ∀ n, v.trainingBatches = .finite n → b + 1 ≤ n := by
    intro n hn
    rw [← hinv.schedule] at hn
    rw [← hat.seen]
    exact lt_of_not_done hgoes hn
  cases advance_ok hadvance with
  | @completed feed feed' handed output worker trainer hphase hnext hrun hproceeds htrainer =>
      obtain ⟨hindex, -⟩ := pull_at hat hphase hnext
      have hpull : Traced t₀ (b + 1) (v.midEpoch epoch b) (r.pull handed feed').trainer :=
        hinv.history.pull handed.index handed.isLast
      have htrained := hpull.follows (fun _ => IsTraining.isQuiet) htrainer
      have hschedule : trainer.validationSchedule setup = v :=
        (validationSchedule_follows htrainer).trans hinv.schedule
      have hcurrent : trainer.state.currentEpoch = epoch :=
        htrainer.currentEpoch.trans hinv.currentEpoch
      obtain ⟨t₁, t₂, globalStep, hfollows, hdue, hnot, hupkeep, rfl⟩ := advanceEnd_parts hend
      have hask : EpochRun.dueForValidation setup
          { r.pull handed feed' with trainer, worker } = v.dueAfterBatch epoch b := by
        rw [EpochRun.dueForValidation, hschedule, hcurrent, ← hindex]
        rfl
      have hhistory : Traced t₀ (b + 1) (v.midEpoch epoch (b + 1)) t₁ := by
        rw [ValidationSchedule.midEpoch_succ]
        cases hd : v.dueAfterBatch epoch b with
        | true =>
            exact htrained.evaluate (evaluator_of_due (hask.trans hd)) (hdue (hask.trans hd))
        | false =>
            rw [hnot (hask.trans hd)]
            simpa using htrained
      have hschedule₁ : t₁.validationSchedule setup = v :=
        (validationSchedule_follows hfollows).trans hschedule
      have hcurrent₁ : t₁.state.currentEpoch = epoch := hfollows.currentEpoch.trans hcurrent
      exact
        { bound := hbound
          schedule := (validationSchedule_follows hupkeep).trans hschedule₁
          currentEpoch := hupkeep.currentEpoch.trans hcurrent₁
          history := hhistory.follows (fun _ => IsUpkeep.isQuiet) hupkeep }

theorem skipped_signals {loop : BatchLoop σ β} {r r' : EpochRun σ W β}
    (h : Advanced loop r .skipped r') :
    ∃ index new, r'.trainer.events.toList = r.trainer.events.toList ++ new ∧
      .signalled index ∈ new := by
  cases h with
  | @skipped feed feed' handed output worker trainer hphase hnext hrun hstops htrainer =>
      obtain ⟨new, hnew, -⟩ := htrainer.events
      refine ⟨handed.index,
        [.pulled handed.index handed.isLast] ++ new ++ [.signalled handed.index], ?_, by simp⟩
      simp [EpochRun.skip, Trainer.record, Trainer.report, hnew, EpochRun.pull]

/-- An epoch to whose end no batch was skipped has asked for all evaluations of its mid-epoch. -/
theorem run_validating {setup : Setup W β} {loop : BatchLoop σ β} {horizon : Nat}
    {data : Batches β} {t₀ : Trainer W β} {r r' : EpochRun σ W β} {outputs : Processed}
    (hstart : Traced t₀ 0 [] r.trainer)
    (h : (run setup loop horizon data).runOn r = (.ok (some outputs), r'))
    (hunsignalled : ∀ index, .signalled index ∉ t₀.eventsSince r'.trainer) :
    ∃ consumed,
      r'.Consumed (setup.accelerator.prepare data r.trainer.world).1 consumed ∧
      r'.Validating setup (r.trainer.validationSchedule setup) t₀ r.trainer.state.currentEpoch
        consumed ∧
      .dispatched .epochEnd ∈ t₀.eventsSince r'.trainer := by
  obtain ⟨kept, r₁, hbatches, hfinish⟩ := run_ok h
  obtain ⟨-, trainer, hhooks, ⟨hooks, more, hended⟩, rfl⟩ := finish_ok hfinish
  have hinit : (r.start setup data).Validating setup (r.trainer.validationSchedule setup) t₀
      r.trainer.state.currentEpoch 0 :=
    ⟨fun _ _ => Nat.zero_le _, rfl, rfl, hstart.quiet (List.append_nil _).symm (by simp)⟩
  have hrule := batches_ok
    (I := fun b r₀ _ => r₀.AtBatch (setup.accelerator.prepare data r.trainer.world).1 b ∧
      r₀.Validating setup (r.trainer.validationSchedule setup) t₀ r.trainer.state.currentEpoch b)
    (fun b r₀ kept more r₂ r₃ hI hgoes hadvance hend =>
      ⟨step_at hI.1 hadvance hend, step_validating hI.1 hI.2 hgoes hadvance hend⟩)
    ⟨start_at setup data r, hinit⟩ hbatches
  obtain ⟨kept', b, r₀, -, ⟨hat, hinv⟩, hends⟩ | ⟨kept', hnone, -⟩ := hrule
  · have hlast : r₁.Consumed (setup.accelerator.prepare data r.trainer.world).1 b ∧
        r₁.trainer = r₀.trainer := by
      cases hends with
      | done hdone => exact ⟨hat.toConsumed, rfl⟩
      | exhausted hgoes hexhausted =>
          cases advance_ok hexhausted with
          | exhausted hphase hnext => exact ⟨⟨hat.seen, hat.last, hat.within⟩, rfl⟩
      | skipped hgoes hskipped =>
          -- A skipped batch would have left its signal among the events.
          exfalso
          obtain ⟨index, new, hnew, hsignalled⟩ := skipped_signals (advance_ok hskipped)
          obtain ⟨after, hafter, -⟩ := hhooks.events
          have hskips : trainer.events.toList = r₀.trainer.events.toList ++ (new ++ after) := by
            rw [hafter, hnew, List.append_assoc]
          apply hunsignalled index
          rw [hinv.history.eventsSince_append hskips]
          exact List.mem_append_right _ (List.mem_append_left _ hsignalled)
    obtain ⟨hconsumed, htrainer⟩ := hlast
    rw [htrainer] at hhooks hended
    have hdispatched : .dispatched .epochEnd ∈ t₀.eventsSince trainer := by
      rw [hinv.history.eventsSince_append (hended.trans (List.append_assoc _ _ _))]
      simp
    exact ⟨b, ⟨hconsumed.seen, hconsumed.last, hconsumed.within⟩,
      ⟨hinv.bound, (validationSchedule_follows hhooks).trans hinv.schedule,
        hhooks.currentEpoch.trans hinv.currentEpoch,
        hinv.history.follows (fun _ => IsHook.isQuiet) hhooks⟩, hdispatched⟩
  · cases hnone

end EpochStep

/-! ## The whole epoch -/

namespace FitStep

open Trainer EpochStep

/-- The last batch pulled is marked as the last one just if the data have run out. -/
theorem isLastBatch_eq {B : Batches β} {b : Nat} {r : EpochRun σ W β} (h : r.Consumed B b)
    (hpos : 0 < b) : r.counters.isLastBatch = decide (B.length = some b) := by
  rw [(h.last hpos).2, Bool.eq_iff_iff, Option.isNone_iff_eq_none, Batches.get?_eq_none_iff,
    decide_eq_true_iff]
  constructor
  · rintro ⟨n, hlength, hle⟩
    rw [hlength, Nat.le_antisymm hle (h.within n hlength)]
  · intro hlength
    exact ⟨b, hlength, Nat.le_refl b⟩

theorem evaluateEpoch_traced {setup : Setup W β} {v : ValidationSchedule} {t₀ t : Trainer W β}
    {B : Batches β} {consumed : Nat} {evaluated : List Nat} {e : EpochRun σ W β}
    {r : FitRun σ W β} (hconsumed : e.Consumed B consumed)
    (hschedule : e.trainer.validationSchedule setup = v)
    (hunstopped : e.trainer.state.shouldStop = false)
    (htraced : Traced t₀ consumed evaluated e.trainer)
    (h : (evaluateEpoch setup e.counters).runOn { r with trainer := e.trainer } =
      (.ok (), { r with trainer := t })) :
    Traced t₀ consumed
      (evaluated ++ v.atEnd r.currentEpoch consumed (decide (B.length = some consumed))) t := by
  obtain ⟨t', heq, -, hdue, hnot⟩ := evaluateEpoch_ok h
  cases heq
  have hask : FitRun.dueForValidation setup e.counters { r with trainer := e.trainer } = true ↔
      0 < consumed ∧ v.dueAfterEpoch r.currentEpoch false (consumed - 1)
        (decide (B.length = some consumed)) = true := by
    rw [FitRun.dueForValidation, hschedule, hunstopped, hconsumed.seen, Bool.and_eq_true,
      decide_eq_true_iff]
    apply and_congr_right
    intro hpos
    rw [isLastBatch_eq hconsumed hpos, ← (hconsumed.last hpos).1, Nat.add_sub_cancel]
  by_cases hasked : 0 < consumed ∧ v.dueAfterEpoch r.currentEpoch false (consumed - 1)
      (decide (B.length = some consumed)) = true
  · rw [ValidationSchedule.atEnd, if_pos hasked]
    have hevaluator : setup.evaluator.isSome := by
      have hcovers : v.enabled = true := by
        have hend := hasked.2
        rw [ValidationSchedule.dueAfterEpoch, Bool.and_eq_true,
          ValidationSchedule.coversEpoch_iff] at hend
        exact hend.2.1
      rw [← hschedule] at hcovers
      exact (Bool.and_eq_true_iff.1 hcovers).2
    exact htraced.evaluate hevaluator (hdue (hask.2 hasked))
  · rw [ValidationSchedule.atEnd, if_neg hasked, List.append_nil]
    have hfalse := hnot (Bool.eq_false_iff.2 fun htrue => hasked (hask.1 htrue))
    rw [hfalse]
    exact htraced

/-- The trainer with which an epoch starts: its counts are resolved, it is the current one, and so
far no batch was pulled. -/
theorem epoch_starts {setup : Setup W β} {r : FitRun σ W β} {data : Batches β}
    {context : Context} {t₁ t₂ : Trainer W β}
    (hresolve : (TrainerStep.resolveCounts setup data.knownLength).runOn r.enterEpoch.trainer =
      (.ok (), t₁))
    (hcall : (TrainerStep.call setup .trainEpochStart context).runOn t₁ = (.ok (), t₂)) :
    ∃ N K, setup.config.limitTrainBatches.resolveBatches data.knownLength = .ok N ∧
      setup.config.valCheckInterval.resolveInterval N = .ok K ∧
      t₂.validationSchedule setup = ⟨K, setup.config.checkValEveryNEpochs, N,
        setup.config.enableValidation && setup.evaluator.isSome⟩ ∧
      t₂.state.currentEpoch = r.currentEpoch ∧ Traced r.trainer 0 [] t₂ := by
  obtain ⟨N, K, hN, hK, hcounted⟩ := TrainerStep.resolveCounts_ok hresolve
  have hhooks : Follows RunEvent.IsHook t₁ t₂ := (TrainerStep.call_keeps _ _ _).of_ok hcall
  have hentered : Traced r.trainer 0 [] t₁ := by
    rw [hcounted]
    exact (Traced.self r.trainer).quiet (Journal.toList_push _ _)
      (by simp [IsQuiet, isPulled, isEvaluated])
  refine ⟨N, K, hN, hK, ?_, ?_, hentered.follows (fun _ => IsHook.isQuiet) hhooks⟩
  · rw [validationSchedule_follows hhooks, hcounted]
    rfl
  · rw [hhooks.currentEpoch, hcounted]
    rfl

/-- In an epoch without a stop request and without a signal of the batch loop, the evaluator runs
after the batches of the validation interval, after each of them once. Without an interval it runs
once the data have run out, at the end of the epoch. -/
theorem nextEpoch_validated {setup : Setup W β} {loop : BatchLoop σ β} {horizon : Nat}
    {data : Nat → Batches β} {r r' : FitRun σ W β} {outputs : Processed}
    (h : (nextEpoch setup loop horizon data).runOn r = (.ok (some outputs), r'))
    (hunstopped : r'.trainer.state.shouldStop = false)
    (hunsignalled : ∀ index, .signalled index ∉ r.trainer.eventsSince r'.trainer) :
    ∃ (N K : BatchCount) (world : W) (consumed : Nat) (during after : List (RunEvent β)),
      setup.config.limitTrainBatches.resolveBatches (data r.currentEpoch).knownLength = .ok N ∧
      setup.config.valCheckInterval.resolveInterval N = .ok K ∧
      r'.trainer.events.toList = r.trainer.events.toList ++ r.trainer.eventsSince r'.trainer ∧
      r.trainer.eventsSince r'.trainer = during ++ after ∧
      .dispatched .epochEnd ∈ during ∧
      (r.trainer.eventsSince r'.trainer).countP isPulled = consumed ∧
      evaluatedFrom 0 (r.trainer.eventsSince r'.trainer) =
        (if setup.config.enableValidation = true ∧ setup.evaluator.isSome = true ∧
            0 < setup.config.checkValEveryNEpochs ∧
            setup.config.checkValEveryNEpochs ∣ r.currentEpoch + 1 then
          K.validated consumed (decide
            ((setup.accelerator.prepare (data r.currentEpoch) world).1.length = some consumed))
        else []) ∧
      (K = .infinite → evaluatedFrom 0 during = []) := by
  obtain ⟨t₁, t₂, e, hresolve, hcall, hepoch, hclose⟩ := nextEpoch_begins h
  obtain ⟨t₃, t₄, hevaluate, htick, rfl⟩ := closeEpoch_ok (hclose rfl)
  obtain ⟨N, K, hN, hK, hschedule, hcurrent, hbegun⟩ := epoch_starts hresolve hcall
  -- Nothing takes a stop request back, so there was none before the end either.
  have hvalidation : Follows RunEvent.IsValidation e.trainer t₃ := by
    obtain ⟨t, heq, hfollows, -⟩ := evaluateEpoch_ok hevaluate
    cases heq
    exact hfollows
  have hticked : Follows RunEvent.IsUpkeep t₃ t₄ :=
    (TrainerStep.tickRates_keeps .epoch trivial fun _ => trivial).of_ok htick
  have hclosing : Follows (fun _ => True) e.trainer t₄ :=
    hvalidation.weaken.trans hticked.weaken
  have hcalm : e.trainer.state.shouldStop = false := by
    rw [Bool.eq_false_iff]
    intro hstop
    rw [hclosing.shouldStop hstop] at hunstopped
    cases hunstopped
  obtain ⟨new, hnew, -⟩ := (run_follows hepoch).events
  obtain ⟨after, hafter, -⟩ := hclosing.events
  have hsplit : r.trainer.eventsSince t₄ = r.trainer.eventsSince e.trainer ++ after := by
    have hepochs : r.trainer.eventsSince e.trainer = r.trainer.eventsSince t₂ ++ new :=
      hbegun.eventsSince_append hnew
    rw [hepochs, List.append_assoc]
    apply hbegun.eventsSince_append
    rw [hafter, ← List.append_assoc]
    exact congrArg (· ++ after) hnew
  obtain ⟨consumed, hconsumed, hinv, hended⟩ := run_validating hbegun hepoch fun index hmem =>
    hunsignalled index (by rw [hsplit]; exact List.mem_append_left _ hmem)
  have hsame : (FitRun.epochRun setup.config { r with trainer := t₂ }).trainer = t₂ := rfl
  rw [hsame, hschedule, hcurrent] at hinv
  rw [hsame] at hconsumed
  have hasked := evaluateEpoch_traced (r := { r with worker := e.worker, progress := e.progress })
    hconsumed hinv.schedule hcalm hinv.history hevaluate
  have htraced := hasked.follows (fun _ => IsUpkeep.isQuiet) hticked
  refine ⟨N, K, t₂.world, consumed, _, after, hN, hK, htraced.kept, hsplit, hended,
    htraced.pulled, ?_, ?_⟩
  · rw [htraced.evaluated, ValidationSchedule.midEpoch_append_atEnd hinv.bound]
    simp only [ValidationSchedule.coversEpoch_iff, Bool.and_eq_true, and_assoc]
  · intro hinfinite
    rw [hinv.history.evaluated]
    exact ValidationSchedule.midEpoch_infinite hinfinite

def everySecond : Setup Unit Unit :=
  { config := { limitTrainBatches := .batches 3, valCheckInterval := .batches 2 }
    evaluator := some fun _ _ => pure ∅ }

def firstEpoch : FitStep Unit Unit Unit (Option Processed) :=
  nextEpoch everySecond ⟨fun _ _ _ => pure (.ofResults []), fun _ => true, fun _ => pure ()⟩ 4
    fun _ => .exact 4 fun _ => ()

def isSignalled : RunEvent β → Bool
  | .signalled _ => true
  | _ => false

def freshRun : FitRun Unit Unit Unit := { trainer := .ofSetup everySecond (), worker := () }

/-- Of three batches the second one is validated after. -/
theorem nextEpoch_validated_everySecond :
    ∃ outputs r', firstEpoch.runOn freshRun = (.ok (some outputs), r') ∧
      evaluatedFrom 0 (freshRun.trainer.eventsSince r'.trainer) = [2] := by
  have hsome : (Stateful.returned? firstEpoch freshRun).isSome = true := by decide +kernel
  obtain ⟨outputs, houtputs⟩ := Option.isSome_iff_exists.1 hsome
  obtain ⟨r', hrun⟩ := Stateful.returned?_eq_some houtputs
  have hr' : r' = (firstEpoch.runOn freshRun).2 := by rw [hrun]
  have hunstopped : r'.trainer.state.shouldStop = false := by
    rw [hr']
    decide +kernel
  have hnone : (freshRun.trainer.eventsSince r'.trainer).any isSignalled = false := by
    rw [hr']
    decide +kernel
  have hpulled : (freshRun.trainer.eventsSince r'.trainer).countP isPulled = 3 := by
    rw [hr']
    decide +kernel
  have hunsignalled : ∀ index, .signalled index ∉ freshRun.trainer.eventsSince r'.trainer := by
    intro index hmem
    have hany := List.any_eq_false.1 hnone _ hmem
    exact hany rfl
  obtain ⟨N, K, world, consumed, during, after, hN, hK, -, -, -, hconsumed, hevaluated, -⟩ :=
    nextEpoch_validated hrun hunstopped hunsignalled
  cases hN
  cases hK
  cases world
  rw [hpulled] at hconsumed
  subst hconsumed
  refine ⟨outputs, r', hrun, hevaluated.trans ?_⟩
  decide

end FitStep

end TrainingLoop
