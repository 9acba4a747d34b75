import TrainingLoop.Proofs.Batches
import TrainingLoop.Proofs.Run.Trainer
import TrainingLoop.Run.Epoch
/-!
# What the steps of an epoch do

One statement for each step of an epoch that succeeds (`advance_ok`, `advanceEnd_ok`, `finish_ok`),
and the rule by which a property of all batches follows from one of a single batch (`batches_ok`).
-/

namespace TrainingLoop

variable {σ W β : Type}

def RunEvent.IsTraining : RunEvent β → Prop
  | .batchRun _ _ _ | .logged _ => True
  | event => event.IsHook

def RunEvent.IsUpkeep : RunEvent β → Prop
  | .saved | .ratesTicked _ | .stepRequested _ _ | .failed _ => True
  | _ => False

theorem RunEvent.IsHook.isTraining {event : RunEvent β} (h : event.IsHook) : event.IsTraining := by
  cases event <;> trivial

/-- The counters of an epoch that has pulled the first `b` batches of some data. -/
structure EpochRun.Consumed (B : Batches β) (b : Nat) (r : EpochRun σ W β) : Prop where
  seen : r.counters.batchesSeen = b
  last : 0 < b → r.counters.batchIndex + 1 = b ∧ r.counters.isLastBatch = (B.get? b).isNone
  /-- All of these batches were there. -/
  within : ∀ n, B.length = some n → b ≤ n

structure EpochRun.AtBatch (B : Batches β) (b : Nat) (r : EpochRun σ W β) : Prop
    extends EpochRun.Consumed B b r where
  feed : ∃ feed, r.phase = .running feed ∧ Feed.At B b feed

namespace EpochStep

open Trainer Stateful

/-! ## One more batch -/

/-- What an attempt to train on one more batch gives, and the epoch after it. -/
inductive Advanced (loop : BatchLoop σ β) (r : EpochRun σ W β) :
    Advance → EpochRun σ W β → Prop
  | exhausted {feed : Feed β} (hphase : r.phase = .running feed) (hnext : feed.next.1 = none) :
      Advanced loop r .exhausted { r with phase := .done }
  | skipped {feed feed' : Feed β} {handed : Handed β} {output : BatchOutput} {worker : σ}
      {trainer : Trainer W β} (hphase : r.phase = .running feed)
      (hnext : feed.next = (some handed, feed'))
      (hrun : (loop.run handed.batch handed.index r.counters.dataloaderIndex).runOn r.worker =
        (.ok output, worker))
      (hstops : output.stopsEpoch = true)
      (htrainer : Follows RunEvent.IsTraining (r.pull handed feed').trainer trainer) :
      Advanced loop r .skipped ({ r.pull handed feed' with trainer, worker }.skip handed.index)
  | completed {feed feed' : Feed β} {handed : Handed β} {output : BatchOutput} {worker : σ}
      {trainer : Trainer W β} (hphase : r.phase = .running feed)
      (hnext : feed.next = (some handed, feed'))
      (hrun : (loop.run handed.batch handed.index r.counters.dataloaderIndex).runOn r.worker =
        (.ok output, worker))
      (hproceeds : output.stopsEpoch = false)
      (htrainer : Follows RunEvent.IsTraining (r.pull handed feed').trainer trainer) :
      Advanced loop r
        (.completed (KeptOutputs.track r.modelReduces (.ofOptimizers output.results.length)
          output.results).1)
        { r.pull handed feed' with trainer, worker }

theorem inRegion_ok {α : Type} {action : String} {body : EpochStep σ W β α}
    {r r' : EpochRun σ W β} {a : α} (h : (inRegion action body).runOn r = (.ok a, r')) :
    ∃ r₁, body.runOn (r.mapTrainer fun t => t.openRegion action) = (.ok a, r₁) ∧
      r' = r₁.mapTrainer fun t => t.closeRegion action := by
  simp only [inRegion, runOn_of, Prod.mk.injEq] at h
  exact ⟨_, Prod.ext h.1 rfl, h.2.symm⟩

theorem runBatch_ok {loop : BatchLoop σ β} {handed : Handed β} {r r' : EpochRun σ W β}
    {output : BatchOutput} (h : (runBatch loop handed).runOn r = (.ok output, r')) :
    ∃ worker trainer,
      (loop.run handed.batch handed.index r.counters.dataloaderIndex).runOn r.worker =
        (.ok output, worker) ∧
      Follows RunEvent.IsTraining r.trainer trainer ∧ r' = { r with trainer, worker } := by
  obtain ⟨r₁, hbody, rfl⟩ := inRegion_ok h
  simp only [runOn_get_bind, runOn_modify_bind] at hbody
  obtain ⟨worker, hworker, rfl⟩ := onPart_ok (noteFailure_ok.1 (mapError_ok hbody))
  have htrainer : Follows RunEvent.IsTraining r.trainer
      (((r.trainer.openRegion "run_training_batch").record
        (.batchRun handed.batch handed.index r.counters.dataloaderIndex)).closeRegion
          "run_training_batch") :=
    (Follows.openRegion _ _).trans ((Follows.record trivial _).trans (.closeRegion _ _))
  exact ⟨worker, _, hworker, htrainer, rfl⟩

theorem onTrainer_ok {α : Type} {P : RunEvent β → Prop} {action : TrainerStep W β α}
    (hkeeps : Keeps (Follows P) action) {r r' : EpochRun σ W β} {a : α}
    (h : (onTrainer action).runOn r = (.ok a, r')) :
    ∃ trainer, Follows P r.trainer trainer ∧ r' = { r with trainer } := by
  obtain ⟨trainer, hrun, rfl⟩ := onPart_ok h
  exact ⟨trainer, hkeeps.of_ok hrun, rfl⟩

theorem completeBatch_ok {setup : Setup W β} {handed : Handed β} {results : BatchResults}
    {r r' : EpochRun σ W β} {kept : KeptOutputs}
    (h : (completeBatch setup handed results).runOn r = (.ok kept, r')) :
    kept = (KeptOutputs.track r.modelReduces (.ofOptimizers results.length) results).1 ∧
      ∃ trainer, Follows RunEvent.IsTraining r.trainer trainer ∧ r' = { r with trainer } := by
  simp only [completeBatch, runOn_get_bind] at h
  obtain ⟨_, r₁, h₁, hrest⟩ := bind_ok h
  obtain ⟨_, r₂, h₂, hrest'⟩ := bind_ok hrest
  obtain ⟨_, r₃, h₃, hkept⟩ := bind_ok hrest'
  cases hkept
  have hhook : ∀ t t' : Trainer W β,
      Follows RunEvent.IsHook t t' → Follows RunEvent.IsTraining t t' :=
    fun _ _ => .mono fun _ => RunEvent.IsHook.isTraining
  obtain ⟨t₁, hf₁, rfl⟩ := onTrainer_ok ((TrainerStep.call_keeps _ _ _).mono hhook) h₁
  obtain ⟨t₂, hf₂, rfl⟩ := onTrainer_ok ((TrainerStep.call_keeps _ _ _).mono hhook) h₂
  obtain ⟨t₃, hf₃, rfl⟩ := onTrainer_ok (P := RunEvent.IsTraining)
    (TrainerStep.logStep_keeps _ _ (fun _ => trivial) fun _ => trivial) h₃
  exact ⟨rfl, t₃, hf₁.trans (hf₂.trans hf₃), rfl⟩

theorem advance_ok {setup : Setup W β} {loop : BatchLoop σ β} {r r' : EpochRun σ W β}
    {outcome : Advance} (h : (advance setup loop).runOn r = (.ok outcome, r')) :
    Advanced loop r outcome r' := by
  simp only [advance, runOn_get_bind] at h
  split at h
  · rename_i feed hphase
    split at h
    · rename_i feed' hnext
      cases h
      exact .exhausted hphase (by rw [hnext])
    · rename_i handed feed' hnext
      simp only [runOn_modify_bind] at h
      obtain ⟨output, r₁, hbatch, hrest⟩ := bind_ok h
      obtain ⟨worker, trainer, hrun, htrainer, rfl⟩ := runBatch_ok hbatch
      split at hrest
      · rename_i hstops
        cases hrest
        exact .skipped hphase hnext hrun hstops htrainer
      · rename_i hproceeds
        obtain ⟨kept, hcomplete, rfl⟩ := map_ok hrest
        obtain ⟨rfl, trainer', hfollows, rfl⟩ := completeBatch_ok hcomplete
        exact .completed hphase hnext hrun (by simpa using hproceeds) (htrainer.trans hfollows)
  · cases h

theorem start_at (setup : Setup W β) (data : Batches β) (r : EpochRun σ W β) :
    (r.start setup data).AtBatch (setup.accelerator.prepare data r.trainer.world).1 0 :=
  ⟨⟨rfl, fun h => absurd h (Nat.lt_irrefl 0), fun _ _ => Nat.zero_le _⟩, _, rfl,
    Feed.at_ofBatches _⟩

theorem pull_at {B : Batches β} {b : Nat} {r : EpochRun σ W β} (hat : r.AtBatch B b)
    {feed feed' : Feed β} {handed : Handed β} (hphase : r.phase = .running feed)
    (hnext : feed.next = (some handed, feed')) :
    handed.index = b ∧ (r.pull handed feed').AtBatch B (b + 1) := by
  obtain ⟨f, hf, hfeed⟩ := hat.feed
  rw [hphase] at hf
  cases hf
  obtain ⟨hindex, hget, hisLast, hfeed'⟩ := Feed.of_next hfeed hnext
  refine ⟨hindex, ⟨?_, ?_, ?_⟩, feed', rfl, hfeed'⟩
  · rw [← hat.seen]
    rfl
  · intro _
    exact ⟨by rw [← hindex]; rfl, hisLast⟩
  · intro n hn
    have hin : b < n := by
      simpa [hget] using Batches.get?_isSome_of_length (i := b) hn
    exact hin

/-! ## After a completed batch -/

theorem evaluateBatch_ok {setup : Setup W β} {r r' : EpochRun σ W β}
    (h : (evaluateBatch setup).runOn r = (.ok (), r')) :
    ∃ trainer, r' = { r with trainer } ∧ Follows RunEvent.IsValidation r.trainer trainer ∧
      (r.dueForValidation setup = true →
        (TrainerStep.evaluate setup r.progress).runOn r.trainer = (.ok (), trainer)) ∧
      (r.dueForValidation setup = false → trainer = r.trainer) := by
  simp only [evaluateBatch, runOn_get_bind] at h
  obtain ⟨trainer, rfl, hdue, hnot⟩ := onPart_due_ok rfl h
  exact ⟨trainer, rfl, TrainerStep.evaluate_follows hdue hnot, hdue, hnot⟩

/-- A tick of the step schedules and the next global step come together. -/
theorem takeStep_ok {setup : Setup W β} {r r' : EpochRun σ W β}
    (h : (takeStep setup).runOn r = (.ok (), r')) :
    ∃ (t₁ t₂ : Trainer W β) (globalStep : Nat),
      (TrainerStep.tickRates .step).runOn r.trainer = (.ok (), t₁) ∧
      (TrainerStep.nextStep setup r.progress).runOn t₁.markTrained = (.ok globalStep, t₂) ∧
      r' = { r with trainer := t₂, progress := { r.progress with globalStep } } := by
  obtain ⟨_, r₁, h₁, hrest⟩ := bind_ok h
  obtain ⟨t₁, htick, rfl⟩ := onPart_ok h₁
  simp only [runOn_get_bind, runOn_modify_bind] at hrest
  obtain ⟨globalStep, r₂, h₂, hput⟩ := bind_ok hrest
  obtain ⟨t₂, hnext, rfl⟩ := onPart_ok h₂
  cases hput
  exact ⟨t₁, t₂, globalStep, htick, hnext, rfl⟩

theorem takeStep_follows {setup : Setup W β} {r r' : EpochRun σ W β}
    (h : (takeStep setup).runOn r = (.ok (), r')) :
    Follows RunEvent.IsUpkeep r.trainer r'.trainer := by
  obtain ⟨t₁, t₂, globalStep, htick, hnext, rfl⟩ := takeStep_ok h
  have hticked : Follows RunEvent.IsUpkeep r.trainer t₁ :=
    (TrainerStep.tickRates_keeps _ trivial fun _ => trivial).of_ok htick
  have hcounted : Follows RunEvent.IsUpkeep t₁.markTrained t₂ :=
    (TrainerStep.nextStep_keeps _ _ fun _ _ => trivial).of_ok hnext
  exact hticked.trans ((Follows.markTrained t₁).trans hcounted)

theorem advanceEnd_ok {setup : Setup W β} {loop : BatchLoop σ β} {r r' : EpochRun σ W β}
    (h : (advanceEnd setup loop).runOn r = (.ok (), r')) :
    ∃ r₁ r₂ : EpochRun σ W β,
      (evaluateBatch setup).runOn r = (.ok (), r₁) ∧
      (onTrainer (TrainerStep.flush r₁.progress.globalStep)).runOn r₁ = (.ok (), r₂) ∧
      if r₁.atStepBoundary loop then (takeStep setup).runOn r₂ = (.ok (), r')
      else r' = r₂.mapTrainer Trainer.markTrained := by
  obtain ⟨_, r₁, hevaluate, hrest⟩ := bind_ok h
  simp only [runOn_get_bind] at hrest
  obtain ⟨_, r₂, hflush, hlast⟩ := bind_ok hrest
  refine ⟨r₁, r₂, hevaluate, hflush, ?_⟩
  split at hlast
  · rwa [if_pos ‹_›]
  · cases hlast
    rw [if_neg ‹_›]

/-- What follows a completed batch changes only the trainer and the global step: validation first,
if it is due, and then upkeep. -/
theorem advanceEnd_parts {setup : Setup W β} {loop : BatchLoop σ β} {r r' : EpochRun σ W β}
    (h : (advanceEnd setup loop).runOn r = (.ok (), r')) :
    ∃ (t₁ t₂ : Trainer W β) (globalStep : Nat),
      Follows RunEvent.IsValidation r.trainer t₁ ∧
      (r.dueForValidation setup = true →
        (TrainerStep.evaluate setup r.progress).runOn r.trainer = (.ok (), t₁)) ∧
      (r.dueForValidation setup = false → t₁ = r.trainer) ∧
      Follows RunEvent.IsUpkeep t₁ t₂ ∧
      r' = { r with trainer := t₂, progress := { r.progress with globalStep } } := by
  obtain ⟨r₁, r₂, hevaluate, hflush, hlast⟩ := advanceEnd_ok h
  obtain ⟨t₁, rfl, hvalidated, hdue, hnot⟩ := evaluateBatch_ok hevaluate
  obtain ⟨t₂, hf₂, rfl⟩ := onTrainer_ok (P := RunEvent.IsUpkeep)
    (TrainerStep.flush_keeps _ trivial fun _ => trivial) hflush
  split at hlast
  · have hstepped := takeStep_follows hlast
    obtain ⟨t₃, t₄, globalStep, -, -, rfl⟩ := takeStep_ok hlast
    exact ⟨t₁, t₄, globalStep, hvalidated, hdue, hnot, hf₂.trans hstepped, rfl⟩
  · subst hlast
    exact ⟨t₁, _, r.progress.globalStep, hvalidated, hdue, hnot, hf₂.trans (.markTrained _), rfl⟩

/-- Whether a batch ends with an optimizer step is settled before it is validated. -/
theorem atStepBoundary_of_follows {P : RunEvent β → Prop} {loop : BatchLoop σ β}
    {r : EpochRun σ W β} {trainer : Trainer W β} (h : Follows P r.trainer trainer) :
    EpochRun.atStepBoundary loop { r with trainer } = r.atStepBoundary loop := by
  rw [EpochRun.atStepBoundary, EpochRun.allBatchesSeen, h.trainingBatches]
  rfl

theorem advanceEnd_globalStep {setup : Setup W β} {loop : BatchLoop σ β}
    (hcounts : setup.accelerator.CountsSteps) {r r' : EpochRun σ W β}
    (h : (advanceEnd setup loop).runOn r = (.ok (), r')) :
    r'.progress.globalStep =
      r.progress.globalStep + if r.atStepBoundary loop then 1 else 0 := by
  obtain ⟨r₁, r₂, hevaluate, hflush, hlast⟩ := advanceEnd_ok h
  obtain ⟨t₁, rfl, hvalidated, -⟩ := evaluateBatch_ok hevaluate
  obtain ⟨t₂, -, rfl⟩ := onTrainer_ok (P := RunEvent.IsUpkeep)
    (TrainerStep.flush_keeps _ trivial fun _ => trivial) hflush
  rw [atStepBoundary_of_follows hvalidated] at hlast
  split at hlast
  · obtain ⟨t₃, t₄, globalStep, -, hnext, rfl⟩ := takeStep_ok hlast
    obtain ⟨hstep, -⟩ := TrainerStep.nextStep_ok hnext
    rw [hcounts] at hstep
    rw [if_pos ‹_›]
    exact hstep
  · subst hlast
    rw [if_neg ‹_›]
    rfl

theorem step_at {setup : Setup W β} {loop : BatchLoop σ β} {B : Batches β} {b : Nat}
    {r r₁ r₂ : EpochRun σ W β} {more : KeptOutputs} (hat : r.AtBatch B b)
    (hadvance : (advance setup loop).runOn r = (.ok (.completed more), r₁))
    (hend : (advanceEnd setup loop).runOn r₁ = (.ok (), r₂)) : r₂.AtBatch B (b + 1) := by
  cases advance_ok hadvance with
  | completed hphase hnext hrun hproceeds htrainer =>
      obtain ⟨-, hpulled⟩ := pull_at hat hphase hnext
      obtain ⟨t₁, t₂, globalStep, -, -, -, -, rfl⟩ := advanceEnd_parts hend
      exact ⟨⟨hpulled.seen, hpulled.last, hpulled.within⟩, hpulled.feed⟩

/-! ## The end of an epoch -/

/-- The end of an epoch is hooks only, the last of which is that for the end of any epoch. -/
theorem finish_ok {setup : Setup W β} {kept : KeptOutputs} {r r' : EpochRun σ W β}
    {outputs : Processed} (h : (finish setup kept).runOn r = (.ok outputs, r')) :
    outputs = kept.tree.collapse .epoch ∧
      ∃ trainer, Follows RunEvent.IsHook r.trainer trainer ∧
        (∃ hooks more, trainer.events.toList =
          r.trainer.events.toList ++ hooks ++ .dispatched .epochEnd :: more) ∧
        r' = { r with trainer, phase := .done } := by
  simp only [finish, runOn_modify_bind] at h
  obtain ⟨_, r₁, h₁, hrest⟩ := bind_ok h
  simp only [runOn_get_bind] at hrest
  obtain ⟨_, r₂, h₂, hrest'⟩ := bind_ok hrest
  obtain ⟨_, r₃, h₃, hlast⟩ := bind_ok hrest'
  cases hlast
  obtain ⟨t₁, hf₁, rfl⟩ := onTrainer_ok (TrainerStep.reduce_keeps _ _) h₁
  obtain ⟨t₂, hf₂, rfl⟩ := onTrainer_ok (TrainerStep.call_keeps _ _ _) h₂
  obtain ⟨t₃, hcall, rfl⟩ := onPart_ok h₃
  have hf₃ : Follows RunEvent.IsHook t₂ t₃ := (TrainerStep.call_keeps _ _ _).of_ok hcall
  have hclosed : Follows RunEvent.IsHook r.trainer
      { r.trainer with log := r.trainer.log.closeEpoch } :=
    .of_eq rfl rfl rfl rfl
  have hbefore : Follows RunEvent.IsHook r.trainer t₂ := hclosed.trans (hf₁.trans hf₂)
  obtain ⟨hooks, hhooks, -⟩ := hbefore.events
  obtain ⟨more, hmore, -⟩ := TrainerStep.call_events hcall
  refine ⟨rfl, t₃, hbefore.trans hf₃, ⟨hooks, more, ?_⟩, rfl⟩
  rw [← hhooks]
  exact hmore

/-! ## Whether an epoch goes on -/

theorem lt_of_not_done {loop : BatchLoop σ β} {r : EpochRun σ W β} (h : r.isDone loop = false)
    {n : Nat} (hn : r.trainer.state.trainingBatches = .finite n) : r.counters.batchesSeen < n := by
  simp only [EpochRun.isDone, EpochRun.allBatchesSeen, hn, BatchCount.reachedBy,
    Bool.or_eq_false_iff, decide_eq_false_iff_not] at h
  omega

/-! ## All batches of an epoch -/

/-- Why no further batch of an epoch is trained on, and the epoch after that was found. -/
inductive Ends (setup : Setup W β) (loop : BatchLoop σ β) :
    EpochRun σ W β → EpochRun σ W β → Prop
  | done (r : EpochRun σ W β) (hdone : r.isDone loop = true) : Ends setup loop r r
  | skipped {r r' : EpochRun σ W β} (hdone : r.isDone loop = false)
      (hskipped : (advance setup loop).runOn r = (.ok .skipped, r')) : Ends setup loop r r'
  | exhausted {r r' : EpochRun σ W β} (hdone : r.isDone loop = false)
      (hexhausted : (advance setup loop).runOn r = (.ok .exhausted, r')) : Ends setup loop r r'

/-- How the batches of an epoch come to an end after some completed batches: as they should, by the
horizon, or by a failure of the batch after them. -/
inductive Halts (setup : Setup W β) (loop : BatchLoop σ β) (r : EpochRun σ W β)
    (kept : KeptOutputs) : Except Error (Option KeptOutputs) → EpochRun σ W β → Prop
  | ended {r' : EpochRun σ W β} (hends : Ends setup loop r r') :
      Halts setup loop r kept (.ok (some kept)) r'
  | passed : Halts setup loop r kept (.ok none) r
  | failed {e : Error} {r' : EpochRun σ W β} (hgoes : r.isDone loop = false)
      (hfailed : (advance setup loop).runOn r = (.error e, r')) :
      Halts setup loop r kept (.error e) r'
  | failedAfter {e : Error} {more : KeptOutputs} {r₁ r' : EpochRun σ W β}
      (hgoes : r.isDone loop = false)
      (hadvance : (advance setup loop).runOn r = (.ok (.completed more), r₁))
      (hfailed : (advanceEnd setup loop).runOn r₁ = (.error e, r')) :
      Halts setup loop r kept (.error e) r'

/-- What one completed batch preserves holds where the batches end, whatever their result. The
invariant may speak of the number of completed batches, so it also bounds the runs that pass the
horizon. -/
theorem batches_halt {setup : Setup W β} {loop : BatchLoop σ β}
    {I : Nat → EpochRun σ W β → KeptOutputs → Prop}
    (hstep : ∀ n r kept more r₁ r₂, I n r kept → r.isDone loop = false →
      (advance setup loop).runOn r = (.ok (.completed more), r₁) →
      (advanceEnd setup loop).runOn r₁ = (.ok (), r₂) → I (n + 1) r₂ (kept.extend more))
    {horizon n : Nat} {kept : KeptOutputs} {r r' : EpochRun σ W β}
    {result : Except Error (Option KeptOutputs)} (hI : I n r kept)
    (h : (batches setup loop horizon kept).runOn r = (result, r')) :
    ∃ m r₀ kept', I m r₀ kept' ∧ Halts setup loop r₀ kept' result r' ∧
      (result = .ok none → m = n + horizon) := by
  -- The invariant is carried along the completed batches, so `n` goes up as the horizon goes down.
  induction horizon generalizing n kept r with
  | zero =>
      cases h
      exact ⟨n, _, kept, hI, .passed, fun _ => rfl⟩
  | succ horizon ih =>
      simp only [batches, runOn_get_bind] at h
      by_cases hdone : r.isDone loop = true
      · rw [if_pos hdone] at h
        cases h
        exact ⟨n, _, kept, hI, .ended (.done _ hdone), nofun⟩
      · rw [if_neg hdone] at h
        rw [Bool.not_eq_true] at hdone
        rcases bind_runs h with ⟨e, hadvance, rfl⟩ | ⟨outcome, r₁, hadvance, hrest⟩
        · exact ⟨n, r, kept, hI, .failed hdone hadvance, nofun⟩
        cases outcome with
        | skipped =>
            cases hrest
            exact ⟨n, r, kept, hI, .ended (.skipped hdone hadvance), nofun⟩
        | exhausted =>
            cases hrest
            exact ⟨n, r, kept, hI, .ended (.exhausted hdone hadvance), nofun⟩
        | completed more =>
            rcases bind_runs hrest with ⟨e, hend, rfl⟩ | ⟨_, r₂, hend, hloop⟩
            · exact ⟨n, r, kept, hI, .failedAfter hdone hadvance hend, nofun⟩
            · obtain ⟨m, r₀, kept', hI', hhalts, hpassed⟩ :=
                ih (hstep n r kept more r₁ r₂ hI hdone hadvance hend) hloop
              refine ⟨m, r₀, kept', hI', hhalts, fun hnone => ?_⟩
              rw [hpassed hnone]
              omega

theorem batches_ok {setup : Setup W β} {loop : BatchLoop σ β}
    {I : Nat → EpochRun σ W β → KeptOutputs → Prop}
    (hstep : ∀ n r kept more r₁ r₂, I n r kept → r.isDone loop = false →
      (advance setup loop).runOn r = (.ok (.completed more), r₁) →
      (advanceEnd setup loop).runOn r₁ = (.ok (), r₂) → I (n + 1) r₂ (kept.extend more))
    {horizon n : Nat} {kept : KeptOutputs} {r r' : EpochRun σ W β} {result : Option KeptOutputs}
    (hI : I n r kept) (h : (batches setup loop horizon kept).runOn r = (.ok result, r')) :
    (∃ kept' m r₀, result = some kept' ∧ I m r₀ kept' ∧ Ends setup loop r₀ r') ∨
      (∃ kept', result = none ∧ I (n + horizon) r' kept') := by
  obtain ⟨m, r₀, kept', hI', hhalts, hpassed⟩ := batches_halt hstep hI h
  cases hhalts with
  | ended hends => exact .inl ⟨kept', m, r₀, rfl, hI', hends⟩
  | passed =>
      rw [hpassed rfl] at hI'
      exact .inr ⟨kept', rfl, hI'⟩

/-- The parts of an epoch, whatever its result: its batches and, where these come to an end, what
follows them. -/
theorem run_parts {setup : Setup W β} {loop : BatchLoop σ β} {horizon : Nat} {data : Batches β}
    {r r' : EpochRun σ W β} {result : Except Error (Option Processed)}
    (h : (run setup loop horizon data).runOn r = (result, r')) :
    ∃ trained r₁, (batches setup loop horizon .empty).runOn (r.start setup data) = (trained, r₁) ∧
      match trained with
      | .error e => result = .error e ∧ r' = r₁
      | .ok none => result = .ok none ∧ r' = r₁
      | .ok (some kept) =>
        ∃ outputs, (finish setup kept).runOn r₁ = (outputs, r') ∧ result = outputs.map some := by
  simp only [run, runOn_modify_bind] at h
  rcases bind_runs h with ⟨e, hbatches, rfl⟩ | ⟨kept?, r₁, hbatches, hrest⟩
  · exact ⟨_, r', hbatches, rfl, rfl⟩
  cases kept? with
  | none =>
      cases hrest
      exact ⟨_, _, hbatches, rfl, rfl⟩
  | some kept =>
      refine ⟨_, r₁, hbatches, ?_⟩
      dsimp only at hrest
      rw [map_eq_pure_bind] at hrest
      rcases bind_runs hrest with ⟨e, hfinish, rfl⟩ | ⟨outputs, r₂, hfinish, hlast⟩
      · exact ⟨.error e, hfinish, rfl⟩
      · cases hlast
        exact ⟨.ok outputs, hfinish, rfl⟩

theorem run_ok {setup : Setup W β} {loop : BatchLoop σ β} {horizon : Nat} {data : Batches β}
    {r r' : EpochRun σ W β} {outputs : Processed}
    (h : (run setup loop horizon data).runOn r = (.ok (some outputs), r')) :
    ∃ kept r₁,
      (batches setup loop horizon .empty).runOn (r.start setup data) = (.ok (some kept), r₁) ∧
      (finish setup kept).runOn r₁ = (.ok outputs, r') := by
  obtain ⟨trained, r₁, hbatches, hrest⟩ := run_parts h
  match trained with
  | .error e => cases hrest.1
  | .ok none => cases hrest.1
  | .ok (some kept) =>
      obtain ⟨finished, hfinish, hresult⟩ := hrest
      cases finished with
      | error e => cases hresult
      | ok outputs' =>
          cases hresult
          exact ⟨kept, r₁, hbatches, hfinish⟩

theorem run_none {setup : Setup W β} {loop : BatchLoop σ β} {horizon : Nat} {data : Batches β}
    {r r' : EpochRun σ W β} (h : (run setup loop horizon data).runOn r = (.ok none, r')) :
    (batches setup loop horizon .empty).runOn (r.start setup data) = (.ok none, r') := by
  obtain ⟨trained, r₁, hbatches, hrest⟩ := run_parts h
  match trained with
  | .error e => cases hrest.1
  | .ok none =>
      obtain ⟨-, rfl⟩ := hrest
      exact hbatches
  | .ok (some kept) =>
      obtain ⟨finished, -, hresult⟩ := hrest
      cases finished with
      | error e => cases hresult
      | ok outputs => cases hresult

/-- An epoch does not pass a horizon that lies beyond its data. -/
theorem run_settles {setup : Setup W β} {loop : BatchLoop σ β} {horizon n : Nat}
    {data : Batches β} {r : EpochRun σ W β}
    (hlength : (setup.accelerator.prepare data r.trainer.world).1.length = some n)
    (hbeyond : n < horizon) (r' : EpochRun σ W β) :
    (run setup loop horizon data).runOn r ≠ (.ok none, r') := by
  intro h
  obtain ⟨m, r₀, kept, hat, -, hpassed⟩ := batches_halt
    (I := fun b r₀ _ => r₀.AtBatch (setup.accelerator.prepare data r.trainer.world).1 b)
    (fun _ _ _ _ _ _ hat _ hadvance hend => step_at hat hadvance hend)
    (start_at setup data r) (run_none h)
  have hpulled : m ≤ n := hat.within n hlength
  have hall : m = 0 + horizon := hpassed rfl
  omega

/-! ## The trainer of an epoch -/

theorem advance_follows {loop : BatchLoop σ β} {r r' : EpochRun σ W β} {outcome : Advance}
    (h : Advanced loop r outcome r') : Follows (fun _ => True) r.trainer r'.trainer := by
  cases h with
  | exhausted hphase hnext => exact .refl _
  | @skipped feed feed' handed output worker trainer hphase hnext hrun hstops htrainer =>
      have hpull : Follows (fun _ => True) r.trainer (r.pull handed feed').trainer :=
        .record trivial _
      have hskip : Follows (fun _ => True) trainer (trainer.record (.signalled handed.index)) :=
        .record trivial _
      exact hpull.trans (htrainer.weaken.trans (hskip.trans (.report _ _)))
  | @completed feed feed' handed output worker trainer hphase hnext hrun hproceeds htrainer =>
      have hpull : Follows (fun _ => True) r.trainer (r.pull handed feed').trainer :=
        .record trivial _
      exact hpull.trans htrainer.weaken

theorem advanceEnd_follows {setup : Setup W β} {loop : BatchLoop σ β} {r r' : EpochRun σ W β}
    (h : (advanceEnd setup loop).runOn r = (.ok (), r')) :
    Follows (fun _ => True) r.trainer r'.trainer := by
  obtain ⟨t₁, t₂, globalStep, hvalidated, -, -, hupkeep, rfl⟩ := advanceEnd_parts h
  exact hvalidated.weaken.trans hupkeep.weaken

theorem ends_follows {setup : Setup W β} {loop : BatchLoop σ β} {r r' : EpochRun σ W β}
    (h : Ends setup loop r r') : Follows (fun _ => True) r.trainer r'.trainer := by
  cases h with
  | done hdone => exact .refl _
  | skipped hgoes hskipped => exact advance_follows (advance_ok hskipped)
  | exhausted hgoes hexhausted => exact advance_follows (advance_ok hexhausted)

theorem run_follows {setup : Setup W β} {loop : BatchLoop σ β} {horizon : Nat} {data : Batches β}
    {r r' : EpochRun σ W β} {outputs : Processed}
    (h : (run setup loop horizon data).runOn r = (.ok (some outputs), r')) :
    Follows (fun _ => True) r.trainer r'.trainer := by
  obtain ⟨kept, r₁, hbatches, hfinish⟩ := run_ok h
  obtain ⟨-, trainer, hhooks, -, rfl⟩ := finish_ok hfinish
  have hstart : Follows (fun _ => True) r.trainer (r.start setup data).trainer :=
    .of_eq rfl rfl rfl rfl
  have hrule := batches_ok (n := 0)
    (I := fun _ r₀ _ => Follows (fun _ => True) r.trainer r₀.trainer)
    (fun b r₀ kept more r₂ r₃ hI hgoes hadvance hend =>
      hI.trans ((advance_follows (advance_ok hadvance)).trans (advanceEnd_follows hend)))
    hstart hbatches
  obtain ⟨kept', b, r₀, -, hfollows, hends⟩ | ⟨kept', hnone, -⟩ := hrule
  · exact hfollows.trans ((ends_follows hends).trans hhooks.weaken)
  · cases hnone

end EpochStep

end TrainingLoop
