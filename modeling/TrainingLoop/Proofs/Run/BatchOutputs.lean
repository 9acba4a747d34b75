import TrainingLoop.Proofs.Run.FitTrace
import TrainingLoop.Proofs.Run.Ledger
/-!
# The outputs of the batches of a run

A batch is completed where the hook for its end is answered, which is shown its outputs. So the
outputs of the completed batches can be read off the events (`RunEvent.outputs?`): a completed batch
leaves its own, and nothing else in a run leaves any.
-/

namespace TrainingLoop

variable {σ W β : Type}

def HookCall.outputs? : HookCall β → Option Processed
  | .trainBatchEnd outputs _ _ _ => some outputs
  | _ => none

def RunEvent.outputs? : RunEvent β → Option Processed
  | .model call | .accelerator call => call.outputs?
  | _ => none

/-- The event shows nothing of the state of the run, and starts nothing: it is the dispatch of a
hook, a request to stop, or one of the calls between two batches. -/
def RunEvent.isBare : RunEvent β → Bool
  | .accumulation _ | .dispatched _ | .stopAsked _ | .stepRequested _ _ | .ratesTicked _
  | .evaluated _ _ | .saved => true
  | _ => false

structure RunEvent.Plain (event : RunEvent β) : Prop where
  outputs? : event.outputs? = none
  record? : event.record? = none

theorem Setup.answered_outputs? (setup : Setup W β) (call : HookCall β) :
    (setup.answered call).outputs? = call.outputs? := by
  unfold Setup.answered
  split <;> rfl

theorem Setup.answered_record? (setup : Setup W β) (call : HookCall β) :
    (setup.answered call).record? = none := by
  unfold Setup.answered
  split <;> rfl

namespace Only

open Trace

variable {Q : RunEvent β → Prop} {L : Language (RunEvent β)} {word : List (RunEvent β)}

theorem filterMap_eq_nil {γ : Type} {f : RunEvent β → Option γ}
    (hL : Only (fun event => f event = none) L) (hword : word ∈ L) : word.filterMap f = [] :=
  List.filterMap_eq_nil_iff.2 (hL word hword)

/-! What a predicate holds of that holds of all bare events, whatever the counters shown. -/

theorem told_of (hbare : ∀ event : RunEvent β, event.isBare = true → Q event)
    {event : CallbackEvent} (hheard : ∀ position context, Q (.callback position event context))
    (n : Nat) (p : Progress) (hook : Hook) : Only Q (Trace.told n p hook event) := by
  rintro word ⟨context, stops, -, -, rfl⟩ e he
  rcases List.mem_cons.1 he with rfl | he
  · exact hbare _ rfl
  · rcases Trainer.mem_heard he with ⟨position, rfl⟩ | ⟨position, rfl⟩
    · exact hheard position context
    · exact hbare _ rfl

theorem called_of (hbare : ∀ event : RunEvent β, event.isBare = true → Q event)
    (call : HookCall β) (hheard : ∀ position context, Q (.callback position call.event context))
    (setup : Setup W β) (hanswered : Q (setup.answered call)) (n : Nat) (p : Progress) :
    Only Q (Trace.called setup n p call) :=
  (told_of hbare hheard n p _).mul (single hanswered)

theorem attempted_of (hpulled : ∀ index isLast, Q (.pulled index isLast))
    (hrun : ∀ batch index dataloader, Q (.batchRun batch index dataloader)) (handed : Handed β)
    (dataloader : Nat) : Only Q (Trace.attempted handed dataloader) :=
  (single (hpulled _ _)).mul (single (hrun _ _ _))

theorem skipped_of (hpulled : ∀ index isLast, Q (.pulled index isLast))
    (hrun : ∀ batch index dataloader, Q (.batchRun batch index dataloader))
    (hsignalled : ∀ index, Q (.signalled index)) (handed : Handed β) (dataloader : Nat) :
    Only Q (Trace.skipped handed dataloader) :=
  (attempted_of hpulled hrun handed dataloader).mul (single (hsignalled _))

theorem validated_of (hbare : ∀ event : RunEvent β, event.isBare = true → Q event)
    (hheard : ∀ position context, Q (.callback position .validationEnd context)) (n : Nat)
    (p : Progress) : Only Q (Trace.validated n p) := by
  refine mul ?_ (told_of hbare hheard n p _)
  rintro word ⟨epoch, rfl⟩ event hevent
  rw [List.mem_singleton.1 hevent]
  exact hbare _ rfl

theorem upkeep_of (hbare : ∀ event : RunEvent β, event.isBare = true → Q event)
    (hheard : ∀ position context, Q (.callback position .validationEnd context)) (n : Nat)
    (p : Progress) (steps : Bool) : Only Q (Trace.upkeep n p steps) := by
  have hsaved : Only Q {[.saved]} := single (hbare _ rfl)
  refine (validated_of hbare hheard n p).optional.mul (hsaved.optional.mul ?_)
  cases steps with
  | true => exact (single (hbare _ rfl)).mul (single (hbare _ rfl))
  | false => exact one

theorem epochClosed_of (hbare : ∀ event : RunEvent β, event.isBare = true → Q event)
    (hheard : ∀ position context, Q (.callback position .validationEnd context)) (n : Nat)
    (p : Progress) : Only Q (Trace.epochClosed n p) :=
  (validated_of hbare hheard n p).optional.mul (single (hbare _ rfl))

/-! Pieces in which no batch is completed and no record logged. -/

theorem plain_bare (event : RunEvent β) (h : event.isBare = true) : event.Plain := by
  cases event <;> first | exact ⟨rfl, rfl⟩ | cases h

theorem plain_told (n : Nat) (p : Progress) (hook : Hook) (event : CallbackEvent) :
    Only RunEvent.Plain (Trace.told n p hook event : Language (RunEvent β)) :=
  told_of plain_bare (fun _ _ => ⟨rfl, rfl⟩) n p hook

theorem plain_called (setup : Setup W β) (n : Nat) (p : Progress) {call : HookCall β}
    (hcall : call.outputs? = none) : Only RunEvent.Plain (Trace.called setup n p call) :=
  called_of plain_bare call (fun _ _ => ⟨rfl, rfl⟩) setup
    ⟨(setup.answered_outputs? call).trans hcall, setup.answered_record? call⟩ n p

theorem plain_skipped (handed : Handed β) (dataloader : Nat) :
    Only RunEvent.Plain (Trace.skipped handed dataloader) :=
  skipped_of (fun _ _ => ⟨rfl, rfl⟩) (fun _ _ _ => ⟨rfl, rfl⟩) (fun _ => ⟨rfl, rfl⟩) handed
    dataloader

theorem plain_upkeep (n : Nat) (p : Progress) (steps : Bool) :
    Only RunEvent.Plain (Trace.upkeep n p steps : Language (RunEvent β)) :=
  upkeep_of plain_bare (fun _ _ => ⟨rfl, rfl⟩) n p steps

theorem plain_epochBegun (setup : Setup W β) (n epoch : Nat) (p : Progress) :
    Only RunEvent.Plain (Trace.epochBegun setup n epoch p) :=
  (single ⟨rfl, rfl⟩).mul (plain_called setup n p rfl)

theorem plain_epochEnded (setup : Setup W β) (n : Nat) (p : Progress) (outputs : Processed) :
    Only RunEvent.Plain (Trace.epochEnded setup n p outputs) := by
  have hreduced : Only RunEvent.Plain (Trace.reduced setup outputs) := by
    refine (single ⟨rfl, rfl⟩).mul ?_
    split
    · exact single ⟨rfl, rfl⟩
    · exact one
  exact hreduced.mul ((plain_called setup n p rfl).mul (plain_called setup n p rfl))

theorem plain_epochClosed (n : Nat) (p : Progress) :
    Only RunEvent.Plain (Trace.epochClosed n p : Language (RunEvent β)) :=
  epochClosed_of plain_bare (fun _ _ => ⟨rfl, rfl⟩) n p

end Only

namespace Trace

variable {setup : Setup W β} {n : Nat} {p q : Progress} {handed : Handed β} {dataloader : Nat}
  {outputs : Processed} {steps : Bool} {word : List (RunEvent β)}

/-- A batch leaves its outputs once, where the hook for its end is answered. -/
theorem outputs_of_trained (h : word ∈ trained setup n p handed dataloader outputs) :
    word.filterMap RunEvent.outputs? = [outputs] := by
  obtain ⟨attempt, hattempt, _, ⟨_, ⟨told, htold, answer, rfl, rfl⟩, ended, hended, rfl⟩, rfl⟩ := h
  have hnone {L : Language (RunEvent β)} (hL : Only RunEvent.Plain L) :
      Only (fun event => event.outputs? = none) L := hL.mono fun _ hplain => hplain.outputs?
  have hlogged : Only (fun event => event.outputs? = none) (logged p : Language (RunEvent β)) := by
    rintro word ⟨record, -, rfl⟩ event hevent
    rw [List.mem_singleton.1 hevent]
    rfl
  have hattempted : Only (fun event => event.outputs? = none) (attempted handed dataloader) :=
    Only.attempted_of (fun _ _ => rfl) (fun _ _ _ => rfl) handed dataloader
  have hbefore := hattempted.filterMap_eq_nil hattempt
  have hheard := (hnone (Only.plain_told n p _ _)).filterMap_eq_nil htold
  have hafter := ((hnone (Only.plain_called setup n p rfl)).mul hlogged.optional).filterMap_eq_nil
    hended
  have hanswered : (setup.answered (.trainBatchEnd outputs handed.batch handed.index
      dataloader)).outputs? = some outputs := setup.answered_outputs? _
  rw [List.filterMap_append, List.filterMap_append, List.filterMap_append, hbefore, hheard, hafter,
    List.filterMap_cons_some hanswered]
  rfl

theorem outputs_of_completed
    (h : word ∈ trained setup n p handed dataloader outputs * upkeep n q steps) :
    word.filterMap RunEvent.outputs? = [outputs] := by
  obtain ⟨batch, hbatch, after, hafter, rfl⟩ := h
  have hnone : after.filterMap RunEvent.outputs? = [] :=
    List.filterMap_eq_nil_iff.2 fun event hevent =>
      (Only.plain_upkeep n q steps after hafter event hevent).outputs?
  rw [List.filterMap_append, outputs_of_trained hbatch, hnone, List.append_nil]

end Trace

end TrainingLoop
