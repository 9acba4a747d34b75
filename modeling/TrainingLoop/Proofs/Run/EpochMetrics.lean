import TrainingLoop.Proofs.Metric.Log
import TrainingLoop.Proofs.Run.Aside
import TrainingLoop.Proofs.Run.EpochTrace
/-!
# The metrics of an epoch

The log takes in the outputs of a batch once, when the batch is completed, and closes the epoch once
at its end. Everything else in an epoch only reads it, publishes latest values, or calls the logger
behind it, and so leaves alone what the averages of epochs are made of (`MetricsLog.Agrees`).
-/

namespace TrainingLoop

variable {σ W β : Type}

def Trainer.SameMetrics (t t' : Trainer W β) : Prop := t.log.Agrees t'.log

instance : IsPreorder (Trainer W β) Trainer.SameMetrics where
  refl t := .refl t.log
  trans _ _ _ := .trans

theorem Trainer.Aside.sameMetrics {t t' : Trainer W β} (h : Aside t t') : t.SameMetrics t' := by
  obtain ⟨latest, hlog⟩ := h.log
  rw [SameMetrics, hlog]
  exact ⟨rfl, rfl, rfl⟩

/-! ## Steps of the trainer -/

namespace TrainerStep

open Trainer Stateful

variable {setup : Setup W β}

theorem flush_sameMetrics (globalStep : Nat) :
    Keeps SameMetrics (flush globalStep : TrainerStep W β Unit) := by
  refine .get_bind fun t => ?_
  split
  · refine .bind (.modify fun t => .refl t.log) fun _ => .noteFailure (fun t => ?_) fun e t => ?_
    · exact MetricsLog.called_agrees t.log t.world .save
    · exact .refl t.log
  · exact .pure ()

theorem logStep_takesIn {outputs : Processed} {globalStep : Nat} {t t' : Trainer W β}
    (h : (logStep outputs globalStep).runOn t = (.ok (), t')) :
    (t.log.takeIn outputs).Agrees t'.log := by
  obtain ⟨events, rfl⟩ := logStep_ok h
  exact MetricsLog.logStep_agrees t.log outputs globalStep t.state.shouldStop t.world

end TrainerStep

/-! ## Steps of an epoch -/

namespace EpochStep

open Trainer Stateful

variable {setup : Setup W β} {loop : BatchLoop σ β} {r r' : EpochRun σ W β}

theorem onTrainer_sameMetrics {α : Type} {action : TrainerStep W β α}
    (hkeeps : Keeps Aside action) {a : α}
    (h : (onTrainer action).runOn r = (.ok a, r')) : r.trainer.SameMetrics r'.trainer := by
  obtain ⟨trainer, hrun, rfl⟩ := onPart_ok h
  exact (hkeeps.of_ok hrun).sameMetrics

theorem completeBatch_takesIn {handed : Handed β} {results : BatchResults} {kept : KeptOutputs}
    (h : (completeBatch setup handed results).runOn r = (.ok kept, r')) :
    (r.trainer.log.takeIn ((OutputTree.ofBatch results).collapse .batch)).Agrees
      r'.trainer.log := by
  simp only [completeBatch, runOn_get_bind] at h
  obtain ⟨_, r₁, h₁, hrest⟩ := bind_ok h
  obtain ⟨_, r₂, h₂, hrest'⟩ := bind_ok hrest
  obtain ⟨_, r₃, h₃, hlast⟩ := bind_ok hrest'
  cases hlast
  have htold : r.trainer.SameMetrics r₂.trainer :=
    (onTrainer_sameMetrics (TrainerStep.call_aside _ _) h₁).trans
      (onTrainer_sameMetrics (TrainerStep.call_aside _ _) h₂)
  obtain ⟨trainer, hlogged, rfl⟩ := onPart_ok h₃
  exact (htold.takeIn _).trans (TrainerStep.logStep_takesIn hlogged)

/-- A batch counts for the metrics of the epoch where it is completed, and not otherwise. -/
theorem advance_metrics {outcome : Advance}
    (h : (advance setup loop).runOn r = (.ok outcome, r')) {feed feed' : Feed β}
    {handed : Handed β} (hphase : r.phase = .running feed)
    (hnext : feed.next = (some handed, feed')) :
    match outcome with
    | .completed _ =>
      (r.trainer.log.takeIn (loop.outputs handed r.counters.dataloaderIndex r.worker)).Agrees
        r'.trainer.log
    | _ => r.trainer.SameMetrics r'.trainer := by
  simp only [advance, runOn_get_bind, hphase, hnext, runOn_modify_bind] at h
  obtain ⟨output, r₁, hbatch, hrest⟩ := bind_ok h
  have hran : (r.pull handed feed').trainer.SameMetrics r₁.trainer := by
    obtain ⟨r₂, hbody, rfl⟩ := inRegion_ok hbatch
    simp only [runOn_get_bind, runOn_modify_bind] at hbody
    obtain ⟨worker, -, rfl⟩ := onPart_ok (noteFailure_ok.1 (mapError_ok hbody))
    exact .refl r.trainer.log
  obtain ⟨worker, trainer, hrun, -, rfl⟩ := runBatch_ok hbatch
  split at hrest
  · cases hrest
    exact hran
  · obtain ⟨kept, hcomplete, rfl⟩ := map_ok hrest
    have houtputs : loop.outputs handed r.counters.dataloaderIndex r.worker =
        (OutputTree.ofBatch output.results).collapse .batch := by
      rw [BatchLoop.outputs, show (loop.run handed.batch handed.index
        r.counters.dataloaderIndex).runOn r.worker = (.ok output, worker) from hrun]
    rw [houtputs]
    exact (hran.takeIn _).trans (completeBatch_takesIn hcomplete)

theorem advanceEnd_sameMetrics (h : (advanceEnd setup loop).runOn r = (.ok (), r')) :
    r.trainer.SameMetrics r'.trainer := by
  obtain ⟨r₁, r₂, hevaluate, hflush, hlast⟩ := advanceEnd_ok h
  have hevaluated : r.trainer.SameMetrics r₁.trainer :=
    Aside.sameMetrics (evaluateBatch_aside.of_ok hevaluate)
  obtain ⟨t₂, hsaved, rfl⟩ := onPart_ok hflush
  have hflushed : r₁.trainer.SameMetrics t₂ := (TrainerStep.flush_sameMetrics _).of_ok hsaved
  refine (hevaluated.trans hflushed).trans ?_
  split at hlast
  · exact Aside.sameMetrics (takeStep_aside.of_ok hlast)
  · rw [hlast]
    exact .refl _

theorem finish_metrics {kept : KeptOutputs} {outputs : Processed}
    (h : (finish setup kept).runOn r = (.ok outputs, r')) :
    r.trainer.log.closeEpoch.Agrees r'.trainer.log := by
  simp only [finish, runOn_modify_bind] at h
  obtain ⟨_, r₁, h₁, hrest⟩ := bind_ok h
  simp only [runOn_get_bind] at hrest
  obtain ⟨_, r₂, h₂, hrest'⟩ := bind_ok hrest
  obtain ⟨_, r₃, h₃, hlast⟩ := bind_ok hrest'
  cases hlast
  have hreduced := onTrainer_sameMetrics (TrainerStep.reduce_aside _) h₁
  have htold := onTrainer_sameMetrics (TrainerStep.call_aside _ _) h₂
  have hended := onTrainer_sameMetrics (TrainerStep.call_aside _ _) h₃
  exact hreduced.trans (htold.trans hended)

end EpochStep

end TrainingLoop
