import TrainingLoop.Proofs.Run.Aside
/-!
# What all steps of a run keep

A relation between trainers that holds where the logger is not called, that `logStep` and `flush`
keep, and that closing an epoch keeps, is kept by every step of an epoch and of a run, whatever its
result (`Trainer.Framed`).
-/

namespace TrainingLoop

variable {σ W β : Type}

open Stateful

/-! ## Loops -/

namespace EpochStep

variable {setup : Setup W β} {loop : BatchLoop σ β}
  {R : EpochRun σ W β → EpochRun σ W β → Prop} [IsPreorder (EpochRun σ W β) R]

theorem batches_keeps (hadvance : Keeps R (advance setup loop))
    (hend : Keeps R (advanceEnd setup loop)) (horizon : Nat) (kept : KeptOutputs) :
    Keeps R (batches setup loop horizon kept) := by
  induction horizon generalizing kept with
  | zero => exact .pure none
  | succ horizon ih =>
      refine .get_bind fun r => ?_
      split
      · exact .pure _
      · refine .bind hadvance fun outcome => ?_
        cases outcome with
        | completed more => exact .bind hend fun _ => ih _
        | skipped => exact .pure _
        | exhausted => exact .pure _

theorem run_keeps {data : Batches β} (hstart : ∀ r, R r (r.start setup data))
    (hadvance : Keeps R (advance setup loop)) (hend : Keeps R (advanceEnd setup loop))
    (hfinish : ∀ kept, Keeps R (finish setup kept)) (horizon : Nat) :
    Keeps R (run setup loop horizon data) := by
  refine .bind (.modify hstart) fun _ => .bind (batches_keeps hadvance hend _ _) fun kept => ?_
  cases kept with
  | none => exact .pure none
  | some kept => exact .map (hfinish kept)

end EpochStep

namespace FitStep

variable {setup : Setup W β} {loop : BatchLoop σ β}

theorem epoch_keeps {R : Trainer W β → Trainer W β → Prop} {horizon : Nat} {data : Batches β}
    (h : Keeps (Order.Preimage EpochRun.trainer R) (EpochStep.run setup loop horizon data)) :
    Keeps (Order.Preimage FitRun.trainer R) (epoch setup loop horizon data) := by
  intro r
  have hrun : R r.trainer
      ((EpochStep.run setup loop horizon data).runOn (r.epochRun setup.config)).2.trainer :=
    h (r.epochRun setup.config)
  have hsame : ((epoch setup loop horizon data).runOn r).2.trainer =
      ((EpochStep.run setup loop horizon data).runOn (r.epochRun setup.config)).2.trainer := by
    rw [epoch, runOn_of]
    dsimp only
    split <;> rfl
  rw [Order.Preimage, hsame]
  exact hrun

variable {R : FitRun σ W β → FitRun σ W β → Prop} [IsPreorder (FitRun σ W β) R]

theorem epochs_keeps {horizon : Nat} {data : Nat → Batches β}
    (hdecline : ∀ r, R r (r.declineStop setup.config))
    (hnext : Keeps R (nextEpoch setup loop horizon data)) (remaining : Nat) (c : Completed) :
    Keeps R (epochs setup loop horizon data remaining c) := by
  induction remaining generalizing c with
  | zero =>
      unfold epochs
      refine .get_bind fun r => ?_
      split <;> exact .pure _
  | succ remaining ih =>
      unfold epochs
      refine .get_bind fun r => ?_
      split
      · exact .pure _
      · refine .bind (.modify hdecline) fun _ => .bind hnext fun outputs => ?_
        cases outputs with
        | none => exact .pure none
        | some outputs => exact ih _

end FitStep

/-! ## Relations that the logger keeps -/

/-- The relation holds along all that a run does to a trainer. -/
structure Trainer.Framed (R : Trainer W β → Trainer W β → Prop) : Prop where
  aside : ∀ t t', Aside t t' → R t t'
  logStep : ∀ outputs globalStep, Keeps R (TrainerStep.logStep outputs globalStep)
  flush : ∀ globalStep, Keeps R (TrainerStep.flush globalStep)
  closeEpoch : ∀ t, R t { t with log := t.log.closeEpoch }

namespace EpochStep

open EpochRun TrainerStep

variable {setup : Setup W β} {loop : BatchLoop σ β} {R : Trainer W β → Trainer W β → Prop}

theorem framed_of_aside {α : Type} (hR : Trainer.Framed R) {action : EpochStep σ W β α}
    (h : Keeps (Order.Preimage trainer Trainer.Aside) action) :
    Keeps (Order.Preimage trainer R) action :=
  h.mono fun _ _ => hR.aside _ _

theorem onTrainer_framed {α : Type} {action : TrainerStep W β α} (h : Keeps R action) :
    Keeps (Order.Preimage trainer R) (onTrainer action : EpochStep σ W β α) :=
  fun r => h r.trainer

theorem modify_framed (hR : Trainer.Framed R) {f : EpochRun σ W β → EpochRun σ W β}
    (h : ∀ r, Trainer.Aside r.trainer (f r).trainer) :
    Keeps (Order.Preimage trainer R) (modify f : EpochStep σ W β Unit) :=
  .modify fun r => hR.aside _ _ (h r)

variable [IsPreorder (Trainer W β) R]

theorem completeBatch_framed (hR : Trainer.Framed R) (handed : Handed β) (results : BatchResults) :
    Keeps (Order.Preimage trainer R)
      (completeBatch setup handed results : EpochStep σ W β KeptOutputs) := by
  have hcall (hookCall : HookCall β) (context : Context) :
      Keeps (Order.Preimage trainer R)
        (onTrainer (call setup hookCall context) : EpochStep σ W β Unit) :=
    framed_of_aside hR (onTrainer_aside (call_aside hookCall context))
  refine .get_bind fun r => .bind (hcall _ _) fun _ => .bind (hcall _ _) fun _ => ?_
  exact .bind (onTrainer_framed (hR.logStep _ _)) fun _ => .pure _

theorem advance_framed (hR : Trainer.Framed R) :
    Keeps (Order.Preimage trainer R) (advance setup loop) := by
  refine .get_bind fun r => ?_
  split
  · split
    · exact .bind (modify_framed hR fun r => .refl _) fun _ => .pure _
    · refine .bind (modify_framed hR fun r => .record _ _) fun _ =>
        .bind (framed_of_aside hR (runBatch_aside _)) fun output => ?_
      split
      · refine .bind (modify_framed hR fun r => ?_) fun _ => .pure _
        exact (Trainer.Aside.record _ _).trans (.of_eq rfl rfl rfl)
      · exact .map (completeBatch_framed hR _ _)
  · exact .throw _

theorem advanceEnd_framed (hR : Trainer.Framed R) :
    Keeps (Order.Preimage trainer R) (advanceEnd setup loop) := by
  refine .bind (framed_of_aside hR evaluateBatch_aside) fun _ => .get_bind fun r =>
    .bind (onTrainer_framed (hR.flush _)) fun _ => ?_
  split
  · exact framed_of_aside hR takeStep_aside
  · exact framed_of_aside hR markTrained_aside

theorem finish_framed (hR : Trainer.Framed R) (kept : KeptOutputs) :
    Keeps (Order.Preimage trainer R) (finish setup kept : EpochStep σ W β Processed) := by
  have hcall (hookCall : HookCall β) (context : Context) :
      Keeps (Order.Preimage trainer R)
        (onTrainer (call setup hookCall context) : EpochStep σ W β Unit) :=
    framed_of_aside hR (onTrainer_aside (call_aside hookCall context))
  refine .bind (modify_framed hR fun r => .refl _) fun _ =>
    .bind (.modify fun r => hR.closeEpoch r.trainer) fun _ => ?_
  refine .bind (framed_of_aside hR (onTrainer_aside (reduce_aside _))) fun _ => .get_bind fun r => ?_
  exact .bind (hcall _ _) fun _ => .bind (hcall _ _) fun _ => .pure _

theorem run_framed (hR : Trainer.Framed R) (horizon : Nat) (data : Batches β) :
    Keeps (Order.Preimage trainer R) (run setup loop horizon data) := by
  have hstart (r : EpochRun σ W β) : Trainer.Aside r.trainer (r.start setup data).trainer :=
    .of_eq rfl rfl rfl
  exact run_keeps (fun r => hR.aside _ _ (hstart r)) (advance_framed hR) (advanceEnd_framed hR)
    (finish_framed hR) horizon

end EpochStep

namespace FitStep

open FitRun TrainerStep

variable {setup : Setup W β} {loop : BatchLoop σ β} {R : Trainer W β → Trainer W β → Prop}

theorem framed_of_aside {α : Type} (hR : Trainer.Framed R) {action : FitStep σ W β α}
    (h : Keeps (Order.Preimage trainer Trainer.Aside) action) :
    Keeps (Order.Preimage trainer R) action :=
  h.mono fun _ _ => hR.aside _ _

theorem modify_framed (hR : Trainer.Framed R) {f : FitRun σ W β → FitRun σ W β}
    (h : ∀ r, Trainer.Aside r.trainer (f r).trainer) :
    Keeps (Order.Preimage trainer R) (modify f : FitStep σ W β Unit) :=
  .modify fun r => hR.aside _ _ (h r)

variable [IsPreorder (Trainer W β) R]

theorem nextEpoch_framed (hR : Trainer.Framed R) (horizon : Nat) (data : Nat → Batches β) :
    Keeps (Order.Preimage trainer R) (nextEpoch setup loop horizon data) := by
  refine .bind (modify_framed hR enterEpoch_aside) fun _ => .get_bind fun r => ?_
  refine .bind (framed_of_aside hR (onTrainer_aside (resolveCounts_aside _))) fun _ =>
    .get_bind fun r => .bind (framed_of_aside hR (onTrainer_aside (call_aside _ _))) fun _ =>
      .bind (epoch_keeps (EpochStep.run_framed hR _ _)) fun ran => ?_
  cases ran with
  | none => exact .pure none
  | some ran => exact .bind (framed_of_aside hR (closeEpoch_aside _)) fun _ => .pure _

theorem run_framed (hR : Trainer.Framed R) (horizon : Nat) (data : Nat → Batches β) :
    Keeps (Order.Preimage trainer R) (run setup loop horizon data) := by
  refine .bind (.lift _) fun _ => .bind (modify_framed hR fun r => .record _ _) fun _ => ?_
  refine .bind (.noteFailure (fun r => refl_of R r.trainer) fun e r =>
    hR.aside _ _ (.record (.failed e) r.trainer)) fun _ => ?_
  refine .bind (modify_framed hR fun r => Trainer.tellCallbacks_aside _ _ _ _) fun _ =>
    .get_bind fun r => ?_
  refine .bind (epochs_keeps (fun r => hR.aside _ _ (declineStop_aside setup.config r))
    (nextEpoch_framed hR _ _) _ _) fun ended => ?_
  cases ended with
  | none => exact .pure none
  | some ended =>
      refine .bind (modify_framed hR fun r => ?_) fun _ => .get_bind fun r => .pure _
      exact tellEnd_aside _ _ _ r

end FitStep

end TrainingLoop
