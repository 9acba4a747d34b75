import TrainingLoop.Proofs.Run.Epoch
import TrainingLoop.Proofs.Run.Trace
/-!
# The trace of an epoch

The events of a batch, from the pull to the optimizer step after it, and those of the end of an
epoch, whether the steps behind them succeed or not.
-/

namespace TrainingLoop

variable {σ W β : Type}

def Progress.pull (p : Progress) : Progress := { p with totalBatches := p.totalBatches + 1 }

/-! ## The languages of a batch and of the end of an epoch -/

namespace Trace

open Computability

def attempted (handed : Handed β) (dataloader : Nat) : Language (RunEvent β) :=
  {[.pulled handed.index handed.isLast]} * {[.batchRun handed.batch handed.index dataloader]}

def skipped (handed : Handed β) (dataloader : Nat) : Language (RunEvent β) :=
  attempted handed dataloader * {[.signalled handed.index]}

def batchEnded (setup : Setup W β) (n : Nat) (p : Progress) (handed : Handed β) (dataloader : Nat)
    (outputs : Processed) : Language (RunEvent β) :=
  called setup n p (.trainBatchEnd outputs handed.batch handed.index dataloader) *
    (called setup n p .batchEnd * (1 + logged p))

def trained (setup : Setup W β) (n : Nat) (p : Progress) (handed : Handed β) (dataloader : Nat)
    (outputs : Processed) : Language (RunEvent β) :=
  attempted handed dataloader * batchEnded setup n p handed dataloader outputs

def stepped (p : Progress) : Language (RunEvent β) :=
  {[.ratesTicked .step]} * {[.stepRequested p.totalBatches p.globalStep]}

/-- What follows a trained batch: one validation at most, one save of the logger at most, and an
optimizer step if it ends with one. -/
def upkeep (n : Nat) (p : Progress) (steps : Bool) : Language (RunEvent β) :=
  (1 + validated n p) * ((1 + {[.saved]}) * if steps then stepped p else 1)

def epochEnded (setup : Setup W β) (n : Nat) (p : Progress) (outputs : Processed) :
    Language (RunEvent β) :=
  reduced setup outputs *
    (called setup n p (.trainEpochEnd outputs) * called setup n p .epochEnd)

theorem batchEnded_nonempty (setup : Setup W β) (n : Nat) (p : Progress) (handed : Handed β)
    (dataloader : Nat) (outputs : Processed) :
    ∃ word, word ∈ batchEnded setup n p handed dataloader outputs :=
  mul_nonempty (called_nonempty _ _ _ _)
    (mul_nonempty (called_nonempty _ _ _ _) (optional_nonempty _))

theorem stepped_nonempty (p : Progress) (steps : Bool) :
    ∃ word, word ∈ (if steps then stepped p else 1 : Language (RunEvent β)) := by
  cases steps with
  | true => exact ⟨_, Language.append_mem_mul rfl rfl⟩
  | false => exact ⟨[], Language.nil_mem_one⟩

theorem upkeep_nonempty (n : Nat) (p : Progress) (steps : Bool) :
    ∃ word, word ∈ (upkeep n p steps : Language (RunEvent β)) :=
  mul_nonempty (optional_nonempty _) (mul_nonempty (optional_nonempty _) (stepped_nonempty _ _))

def completed (setup : Setup W β) (n : Nat) : Language (RunEvent β) :=
  ⨆ (p : Progress) (handed : Handed β) (dataloader : Nat) (outputs : Processed) (steps : Bool),
    trained setup n p handed dataloader outputs * upkeep n p steps

def signalling : Language (RunEvent β) :=
  ⨆ (handed : Handed β) (dataloader : Nat), skipped handed dataloader

def epochTrained (setup : Setup W β) (n : Nat) : Language (RunEvent β) :=
  (completed setup n)∗ * (1 + signalling)

theorem mem_completed {setup : Setup W β} {n : Nat} {word : List (RunEvent β)} :
    word ∈ completed setup n ↔ ∃ p handed dataloader outputs steps,
      word ∈ trained setup n p handed dataloader outputs * upkeep n p steps := by
  simp only [completed, Language.mem_iSup]

theorem mem_signalling {word : List (RunEvent β)} :
    word ∈ (signalling : Language (RunEvent β)) ↔ ∃ handed dataloader,
      word ∈ skipped handed dataloader := by
  simp only [signalling, Language.mem_iSup]

theorem le_completed (setup : Setup W β) (n : Nat) (p : Progress) (handed : Handed β)
    (dataloader : Nat) (outputs : Processed) (steps : Bool) :
    trained setup n p handed dataloader outputs * upkeep n p steps ≤ completed setup n :=
  fun _ hword => mem_completed.2 ⟨p, handed, dataloader, outputs, steps, hword⟩

def epochsEnd (setup : Setup W β) (n : Nat) : Language (RunEvent β) :=
  ⨆ (p : Progress) (outputs : Processed), epochEnded setup n p outputs

theorem le_epochsEnd (setup : Setup W β) (n : Nat) (p : Progress) (outputs : Processed) :
    epochEnded setup n p outputs ≤ epochsEnd setup n := by
  have hmem {word : List (RunEvent β)} (hword : word ∈ epochEnded setup n p outputs) :
      word ∈ epochsEnd setup n := by
    simp only [epochsEnd, Language.mem_iSup]
    exact ⟨p, outputs, hword⟩
  exact fun _ => hmem

theorem epochsEnd_nonempty (setup : Setup W β) (n : Nat) :
    ∃ word, word ∈ epochsEnd setup n := by
  obtain ⟨word, hword⟩ := mul_nonempty (reduced_nonempty setup .nothing)
    (mul_nonempty (called_nonempty setup n {} (.trainEpochEnd .nothing))
      (called_nonempty setup n {} .epochEnd))
  exact ⟨word, le_epochsEnd _ _ _ _ hword⟩

def Attempted (setup : Setup W β) (n : Nat) (p : Progress) (handed : Handed β) (dataloader : Nat)
    (outputs : Processed) : Except Error Advance → List (RunEvent β) → Prop
  | .ok (.completed _), new => new ∈ trained setup n p handed dataloader outputs
  | .ok .skipped, new => new ∈ skipped handed dataloader
  | .ok .exhausted, _ => False
  | .error e, new => CutShort (trained setup n p handed dataloader outputs) e new

end Trace

namespace Only

open Trace

theorem batchEnded (setup : Setup W β) (n : Nat) (p : Progress) (handed : Handed β)
    (dataloader : Nat) (outputs : Processed) :
    Only (RunEvent.Quiet p) (batchEnded setup n p handed dataloader outputs) :=
  (called setup n p _).mul ((called setup n p _).mul (logged p).optional)

theorem epochEnded (setup : Setup W β) (n : Nat) (p : Progress) (outputs : Processed) :
    Only (RunEvent.Quiet p) (epochEnded setup n p outputs) :=
  (reduced setup outputs).mul ((called setup n p _).mul (called setup n p _))

end Only

namespace Only

open Trace

theorem attempted (handed : Handed β) (dataloader : Nat) :
    Only RunEvent.Ordinary (attempted handed dataloader) :=
  (single trivial).mul (single trivial)

theorem stepped (p : Progress) (steps : Bool) :
    Only RunEvent.Ordinary (if steps then stepped p else 1 : Language (RunEvent β)) := by
  cases steps with
  | true => exact (single trivial).mul (single trivial)
  | false => exact one

theorem completed (setup : Setup W β) (n : Nat) :
    Only RunEvent.Ordinary (completed setup n) := by
  refine iSup fun p => iSup fun handed => iSup fun dataloader => iSup fun outputs =>
    iSup fun steps => ?_
  have hended := batchEnded setup n p handed dataloader outputs
  have hvalidated : Only (RunEvent.Quiet p) (Trace.validated n p : Language (RunEvent β)) :=
    validated n p
  have hsaved : Only RunEvent.Ordinary ({[.saved]} : Language (RunEvent β)) := single trivial
  have htrained := (attempted handed dataloader).mul (hended.mono fun _ => RunEvent.Quiet.ordinary)
  have hupkeep := (hvalidated.mono fun _ => RunEvent.Quiet.ordinary).optional.mul
    (hsaved.optional.mul (stepped p steps))
  exact htrained.mul hupkeep

theorem epochTrained (setup : Setup W β) (n : Nat) :
    Only RunEvent.Ordinary (epochTrained setup n) := by
  have hsignalling : Only RunEvent.Ordinary (signalling : Language (RunEvent β)) :=
    iSup fun handed => iSup fun dataloader => (attempted handed dataloader).mul (single trivial)
  exact (completed setup n).kstar.mul hsignalling.optional

theorem epochsEnd (setup : Setup W β) (n : Nat) :
    Only RunEvent.Ordinary (epochsEnd setup n) :=
  iSup fun p => iSup fun outputs =>
    (epochEnded setup n p outputs).mono fun _ => RunEvent.Quiet.ordinary

end Only

def BatchLoop.outputs (loop : BatchLoop σ β) (handed : Handed β) (dataloader : Nat) (worker : σ) :
    Processed :=
  match ((loop.run handed.batch handed.index dataloader).runOn worker).1 with
  | .ok output => (OutputTree.ofBatch output.results).collapse .batch
  | .error _ => .nothing

namespace EpochStep

open Trainer Stateful Trace Computability

variable {n : Nat} {r : EpochRun σ W β}

theorem onTrainer_emits {α : Type} {L : Language (RunEvent β)} {action : TrainerStep W β α}
    (h : EmitsAt id n L action r.trainer) :
    EmitsAt EpochRun.trainer n L (onTrainer action) r :=
  .onPart (fun _ _ => rfl) h

/-! ## One more batch -/

theorem runBatch_emits (loop : BatchLoop σ β) (handed : Handed β) :
    EmitsAt EpochRun.trainer n
      {[.batchRun handed.batch handed.index r.counters.dataloaderIndex]}
      (runBatch loop handed) r := by
  intro hn
  simp only [runBatch, inRegion, runOn_of, runOn_get_bind, runOn_modify_bind, mapError,
    recordFailure, noteFailure, onWorker, runOn_onPart, EpochRun.mapTrainer]
  cases (loop.run handed.batch handed.index r.counters.dataloaderIndex).runOn r.worker with
  | mk output worker =>
      cases output with
      | ok output => exact ⟨hn, _, Journal.toList_push _ _, rfl⟩
      | error cause =>
          have hevents := (r.trainer.openRegion "run_training_batch").toList_record_record
            (.batchRun handed.batch handed.index r.counters.dataloaderIndex) (.failed cause)
          exact ⟨hn, _, hevents, CutShort.failed rfl rfl⟩

theorem completeBatch_emits (setup : Setup W β) (handed : Handed β) (results : BatchResults) :
    EmitsAt EpochRun.trainer n
      (batchEnded setup n r.progress handed r.counters.dataloaderIndex
        ((OutputTree.ofBatch results).collapse .batch))
      (completeBatch setup handed results) r := by
  refine .get_bind ?_
  refine .bind ?_ (onTrainer_emits (TrainerStep.call_emits _ _ rfl)) fun _ r₁ _ => ?_
  · exact mul_nonempty (called_nonempty _ _ _ _) (optional_nonempty _)
  refine .bind (optional_nonempty _) (onTrainer_emits (TrainerStep.call_emits _ _ rfl))
    fun _ r₂ _ => ?_
  exact .bind_pure (onTrainer_emits (TrainerStep.logStep_emits _ _))

/-- Where a batch was handed out, the events tell what became of it. -/
theorem advance_traced {setup : Setup W β} {loop : BatchLoop σ β} {r' : EpochRun σ W β}
    {result : Except Error Advance} (h : (advance setup loop).runOn r = (result, r'))
    {feed feed' : Feed β} {handed : Handed β} (hphase : r.phase = .running feed)
    (hnext : feed.next = (some handed, feed')) (hn : r.trainer.callbacks.length = n) :
    r'.trainer.callbacks.length = n ∧
      ∃ new, r'.trainer.events.toList = r.trainer.events.toList ++ new ∧
        Attempted setup n r.progress.pull handed r.counters.dataloaderIndex
          (loop.outputs handed r.counters.dataloaderIndex r.worker) result new := by
  simp only [advance, runOn_get_bind, hphase, hnext, runOn_modify_bind] at h
  have hpulled : [.pulled handed.index handed.isLast] ∈
      ({[.pulled handed.index handed.isLast]} : Language (RunEvent β)) := rfl
  have hpull : (r.pull handed feed').trainer.events.toList =
      r.trainer.events.toList ++ [.pulled handed.index handed.isLast] := Journal.toList_push _ _
  rcases bind_runs h with ⟨e, hbatch, rfl⟩ | ⟨output, r₁, hbatch, hrest⟩
  · obtain ⟨hn', ran, hran, hleaves⟩ := (runBatch_emits loop handed).of_run hbatch hn
    refine ⟨hn', [.pulled handed.index handed.isLast] ++ ran, events_trans hpull hran, ?_⟩
    exact (CutShort.append hpulled hleaves).extend (batchEnded_nonempty _ _ _ _ _ _)
  obtain ⟨hn₁, ran, hran, hleaves⟩ := (runBatch_emits loop handed).of_run hbatch hn
  have hevents₁ : r₁.trainer.events.toList =
      r.trainer.events.toList ++ ([.pulled handed.index handed.isLast] ++ ran) :=
    events_trans hpull hran
  have hattempted : [.pulled handed.index handed.isLast] ++ ran ∈
      attempted handed r.counters.dataloaderIndex := Language.append_mem_mul hpulled hleaves
  obtain ⟨worker, trainer, hrun, -, rfl⟩ := runBatch_ok hbatch
  split at hrest
  · cases hrest
    have hsignalled : [.signalled handed.index] ∈
        ({[.signalled handed.index]} : Language (RunEvent β)) := rfl
    refine ⟨hn₁, [.pulled handed.index handed.isLast] ++ ran ++ [.signalled handed.index], ?_,
      Language.append_mem_mul hattempted hsignalled⟩
    rw [← List.append_assoc, ← hevents₁]
    exact Journal.toList_push _ _
  · have houtputs : loop.outputs handed r.counters.dataloaderIndex r.worker =
        (OutputTree.ofBatch output.results).collapse .batch := by
      rw [BatchLoop.outputs]
      simp only [show (loop.run handed.batch handed.index r.counters.dataloaderIndex).runOn
        r.worker = (.ok output, worker) from hrun]
    rw [map_eq_pure_bind] at hrest
    obtain ⟨hn', ended, hended, hleaves'⟩ :=
      (EmitsAt.bind_pure (completeBatch_emits setup handed output.results)).of_run hrest hn₁
    refine ⟨hn', [.pulled handed.index handed.isLast] ++ ran ++ ended,
      events_trans hevents₁ hended, ?_⟩
    rw [houtputs]
    cases result with
    | error e => exact CutShort.append hattempted hleaves'
    | ok outcome =>
        obtain ⟨kept, r₂, -, hlast⟩ := bind_ok hrest
        cases hlast
        exact Language.append_mem_mul hattempted hleaves'

theorem advance_exhausted {setup : Setup W β} {loop : BatchLoop σ β} {r' : EpochRun σ W β}
    {result : Except Error Advance} (h : (advance setup loop).runOn r = (result, r'))
    {feed : Feed β} (hphase : r.phase = .running feed) (hnone : feed.next.1 = none) :
    result = .ok .exhausted ∧ r' = { r with phase := .done } := by
  simp only [advance, runOn_get_bind, hphase] at h
  split at h
  · cases h
    exact ⟨rfl, rfl⟩
  · rename_i hnext
    rw [hnext] at hnone
    cases hnone

theorem next_of_advance {setup : Setup W β} {loop : BatchLoop σ β} {r' : EpochRun σ W β}
    {result : Except Error Advance} (h : (advance setup loop).runOn r = (result, r'))
    {feed : Feed β} (hphase : r.phase = .running feed) (hresult : result ≠ .ok .exhausted) :
    ∃ handed feed', feed.next = (some handed, feed') := by
  rcases hnext : feed.next with ⟨_ | handed, feed'⟩
  · have hnone : feed.next.1 = none := by rw [hnext]
    exact absurd (advance_exhausted h hphase hnone).1 hresult
  · exact ⟨handed, feed', rfl⟩

/-! ## After a completed batch -/

theorem evaluateBatch_emits (setup : Setup W β) :
    EmitsAt EpochRun.trainer n (1 + validated n r.progress) (evaluateBatch setup) r := by
  refine .get_bind ?_
  split
  · exact onTrainer_emits (TrainerStep.evaluate_emits _ _)
  · exact .pure () (.inl Language.nil_mem_one)

theorem takeStep_emits (setup : Setup W β) :
    EmitsAt EpochRun.trainer n (stepped r.progress) (takeStep setup) r := by
  refine .bind ⟨_, rfl⟩ (onTrainer_emits (TrainerStep.tickRates_emits _)) fun _ r₁ hrun => ?_
  obtain ⟨t₁, htick, rfl⟩ := onPart_ok hrun
  refine .modify_bind rfl rfl (.get_bind ?_)
  intro hn
  exact ⟨hn, _, Journal.toList_push _ _, rfl⟩

theorem advanceEnd_emits (setup : Setup W β) (loop : BatchLoop σ β) :
    EmitsAt EpochRun.trainer n (upkeep n r.progress (r.atStepBoundary loop))
      (advanceEnd setup loop) r := by
  refine .bind (mul_nonempty (optional_nonempty _) (stepped_nonempty _ _))
    (evaluateBatch_emits setup) fun _ r₁ hevaluated => ?_
  obtain ⟨t₁, rfl, hvalidated, -⟩ := evaluateBatch_ok hevaluated
  refine .get_bind (.bind (stepped_nonempty _ _)
    (onTrainer_emits (TrainerStep.flush_emits _)) fun _ r₂ hflushed => ?_)
  obtain ⟨t₂, -, rfl⟩ := onPart_ok hflushed
  rw [← atStepBoundary_of_follows hvalidated]
  split
  · exact takeStep_emits setup
  · intro hn
    exact ⟨hn, [], (List.append_nil _).symm, Language.nil_mem_one⟩

/-! ## The end of an epoch -/

theorem finish_emits (setup : Setup W β) (kept : KeptOutputs) :
    EmitsAt EpochRun.trainer n (epochEnded setup n r.progress (kept.tree.collapse .epoch))
      (finish setup kept) r := by
  apply EmitsAt.modify_bind rfl rfl
  apply EmitsAt.modify_bind rfl rfl
  refine .bind ?_ (onTrainer_emits (TrainerStep.reduce_emits _ _)) fun _ r₁ hreduced => ?_
  · exact mul_nonempty (called_nonempty _ _ _ _) (called_nonempty _ _ _ _)
  obtain ⟨t₁, -, rfl⟩ := onPart_ok hreduced
  refine .get_bind (.bind (called_nonempty _ _ _ _)
    (onTrainer_emits (TrainerStep.call_emits _ _ rfl)) fun _ r₂ _ => ?_)
  exact .bind_pure (onTrainer_emits (TrainerStep.call_emits _ _ rfl))

/-! ## The whole epoch -/

theorem progress_of_advance {setup : Setup W β} {loop : BatchLoop σ β} {r' : EpochRun σ W β}
    {more : KeptOutputs} (h : (advance setup loop).runOn r = (.ok (.completed more), r')) :
    r'.progress = r.progress.pull := by
  cases advance_ok h with
  | completed hphase hnext hrun hproceeds htrainer => rfl

theorem batch_traced {setup : Setup W β} {loop : BatchLoop σ β} {r₁ r₂ : EpochRun σ W β}
    {feed : Feed β} {more : KeptOutputs} (hphase : r.phase = .running feed)
    (hadvance : (advance setup loop).runOn r = (.ok (.completed more), r₁))
    (hend : (advanceEnd setup loop).runOn r₁ = (.ok (), r₂)) (hn : r.trainer.callbacks.length = n) :
    r₂.trainer.callbacks.length = n ∧
      ∃ handed feed' new, feed.next = (some handed, feed') ∧
        r₂.trainer.events.toList = r.trainer.events.toList ++ new ∧
        new ∈ trained setup n r.progress.pull handed r.counters.dataloaderIndex
            (loop.outputs handed r.counters.dataloaderIndex r.worker) *
          upkeep n r.progress.pull (r₁.atStepBoundary loop) := by
  obtain ⟨handed, feed', hnext⟩ := next_of_advance hadvance hphase nofun
  obtain ⟨hn₁, new, hnew, hword⟩ := advance_traced hadvance hphase hnext hn
  have hprogress : r₁.progress = r.progress.pull := progress_of_advance hadvance
  obtain ⟨hn₂, ended, hended, hleaves⟩ := (advanceEnd_emits setup loop).of_run hend hn₁
  rw [hprogress] at hleaves
  exact ⟨hn₂, handed, feed', new ++ ended, hnext, events_trans hnew hended,
    Language.append_mem_mul hword hleaves⟩

/-- What events there are, and what the counters `p` come to, where the batches of an epoch come to
an end: there are none, those of the batch on which the end was asked for, or those of a batch that
fails. -/
inductive Halted (setup : Setup W β) (loop : BatchLoop σ β) (n : Nat) (r : EpochRun σ W β)
    (kept : KeptOutputs) (p : Progress) :
    Except Error (Option KeptOutputs) → List (RunEvent β) → Prop
  | ended (hprogress : p = r.progress) : Halted setup loop n r kept p (.ok (some kept)) []
  | passed (hprogress : p = r.progress) : Halted setup loop n r kept p (.ok none) []
  | skipped {handed : Handed β} {word : List (RunEvent β)} (hgoes : r.isDone loop = false)
      (hprogress : p = r.progress.pull)
      (hword : word ∈ Trace.skipped handed r.counters.dataloaderIndex) :
      Halted setup loop n r kept p (.ok (some kept)) word
  | failed {e : Error} {handed : Handed β} {outputs : Processed} {steps : Bool}
      {word : List (RunEvent β)} (hgoes : r.isDone loop = false)
      (hcut : CutShort (trained setup n r.progress.pull handed r.counters.dataloaderIndex outputs *
        upkeep n r.progress.pull steps) e word) :
      Halted setup loop n r kept p (.error e) word

theorem halts_told {setup : Setup W β} {loop : BatchLoop σ β} {r' : EpochRun σ W β}
    {kept : KeptOutputs} {result : Except Error (Option KeptOutputs)} {feed : Feed β}
    (hphase : r.phase = .running feed) (h : Halts setup loop r kept result r')
    (hn : r.trainer.callbacks.length = n) :
    r'.trainer.callbacks.length = n ∧
      ∃ new, r'.trainer.events.toList = r.trainer.events.toList ++ new ∧
        Halted setup loop n r kept r'.progress result new := by
  have hnothing : r.trainer.events.toList = r.trainer.events.toList ++ [] :=
    (List.append_nil _).symm
  cases h with
  | passed => exact ⟨hn, [], hnothing, .passed rfl⟩
  | ended hends =>
      cases hends with
      | done hdone => exact ⟨hn, [], hnothing, .ended rfl⟩
      | exhausted hgoes hexhausted =>
          cases advance_ok hexhausted with
          | exhausted hphase' hnone => exact ⟨hn, [], hnothing, .ended rfl⟩
      | skipped hgoes hskipped =>
          obtain ⟨handed, feed', hnext⟩ := next_of_advance hskipped hphase nofun
          obtain ⟨hn', new, hnew, hword⟩ := advance_traced hskipped hphase hnext hn
          cases advance_ok hskipped with
          | skipped hphase' hnext' hrun hstops htrainer =>
              exact ⟨hn', new, hnew, .skipped hgoes rfl hword⟩
  | failed hgoes hfailed =>
      obtain ⟨handed, feed', hnext⟩ := next_of_advance hfailed hphase nofun
      obtain ⟨hn', new, hnew, hattempted⟩ := advance_traced hfailed hphase hnext hn
      have hcut := CutShort.extend (upkeep_nonempty n r.progress.pull false) hattempted
      exact ⟨hn', new, hnew, .failed hgoes hcut⟩
  | failedAfter hgoes hadvance hfailed =>
      obtain ⟨handed, feed', hnext⟩ := next_of_advance hadvance hphase nofun
      obtain ⟨hn₁, new, hnew, hword⟩ := advance_traced hadvance hphase hnext hn
      obtain ⟨hn₂, ended, hended, hleaves⟩ := (advanceEnd_emits setup loop).of_run hfailed hn₁
      rw [progress_of_advance hadvance] at hleaves
      have hcut := CutShort.append hword hleaves
      exact ⟨hn₂, new ++ ended, events_trans hnew hended, .failed hgoes hcut⟩

/-- The events of all batches of an epoch: of completed ones, and of one that may have asked to end
the epoch. -/
theorem batches_traced {setup : Setup W β} {loop : BatchLoop σ β} {horizon b : Nat}
    {B : Batches β} {kept : KeptOutputs} {r' : EpochRun σ W β}
    {result : Except Error (Option KeptOutputs)} (hat : r.AtBatch B b)
    (h : (batches setup loop horizon kept).runOn r = (result, r'))
    (hn : r.trainer.callbacks.length = n) :
    r'.trainer.callbacks.length = n ∧
      ∃ new, r'.trainer.events.toList = r.trainer.events.toList ++ new ∧
        LeavesUpTo (epochTrained setup n) (completed setup n)∗ result new := by
  have hstar : (completed setup n)∗ * completed setup n ≤ (completed setup n)∗ :=
    kstar_mul_le_kstar
  have hfrom := batches_halt (I := fun _ r₀ _ => r₀.trainer.callbacks.length = n ∧
      (∃ m, r₀.AtBatch B m) ∧ ∃ new, r₀.trainer.events.toList = r.trainer.events.toList ++ new ∧
        new ∈ (completed setup n)∗)
    (fun _ r₀ _ more r₂ r₃ hI hgoes hadvance hend => by
      obtain ⟨hn₀, ⟨m, hat₀⟩, new, hnew, hword⟩ := hI
      obtain ⟨feed, hphase, -⟩ := hat₀.feed
      obtain ⟨hn₃, handed, feed', ended, -, hended, hcompleted⟩ :=
        batch_traced hphase hadvance hend hn₀
      exact ⟨hn₃, ⟨m + 1, step_at hat₀ hadvance hend⟩, new ++ ended, events_trans hnew hended,
        hstar (Language.append_mem_mul hword (le_completed _ _ _ _ _ _ _ hcompleted))⟩)
    (n := 0) ⟨hn, ⟨b, hat⟩, [], (List.append_nil _).symm, Language.nil_mem_kstar _⟩ h
  obtain ⟨_, r₀, kept', ⟨hn₀, ⟨m, hat₀⟩, new, hnew, hword⟩, hhalts, -⟩ := hfrom
  obtain ⟨feed, hphase, -⟩ := hat₀.feed
  obtain ⟨hn', last, hlast, hhalted⟩ := halts_told hphase hhalts hn₀
  refine ⟨hn', new ++ last, events_trans hnew hlast, ?_⟩
  cases hhalted with
  | ended hprogress => exact Language.append_mem_mul hword (.inl Language.nil_mem_one)
  | passed hprogress =>
      rw [List.append_nil]
      exact hword
  | skipped hgoes hprogress hskipped =>
      exact Language.append_mem_mul hword (.inr (mem_signalling.2 ⟨_, _, hskipped⟩))
  | failed hgoes hcut =>
      have hlast : CutShort (completed setup n) _ last := hcut.mono (le_completed _ _ _ _ _ _ _)
      exact ((CutShort.append hword hlast).mono hstar).extend (optional_nonempty _)

/-- The events of an epoch: those of its batches and, where these come to an end, of its hooks. -/
theorem run_traced {setup : Setup W β} {loop : BatchLoop σ β} {horizon : Nat} {data : Batches β}
    {r' : EpochRun σ W β} {result : Except Error (Option Processed)}
    (h : (run setup loop horizon data).runOn r = (result, r'))
    (hn : r.trainer.callbacks.length = n) :
    r'.trainer.callbacks.length = n ∧
      ∃ new, r'.trainer.events.toList = r.trainer.events.toList ++ new ∧
        LeavesUpTo (epochTrained setup n * epochsEnd setup n) (completed setup n)∗ result new := by
  obtain ⟨trained, r₁, hbatches, hrest⟩ := run_parts h
  obtain ⟨hn₁, new, hnew, hleaves⟩ := batches_traced (start_at setup data r) hbatches hn
  match trained with
  | .error e =>
      obtain ⟨rfl, rfl⟩ := hrest
      exact ⟨hn₁, new, hnew, CutShort.extend (epochsEnd_nonempty _ _) hleaves⟩
  | .ok none =>
      obtain ⟨rfl, rfl⟩ := hrest
      exact ⟨hn₁, new, hnew, hleaves⟩
  | .ok (some kept) =>
      obtain ⟨outputs, hfinish, rfl⟩ := hrest
      obtain ⟨hn', ended, hended, hleaves'⟩ := (finish_emits setup kept).of_run hfinish hn₁
      have hends := Leaves.mono (le_epochsEnd _ _ _ _) hleaves'
      refine ⟨hn', new ++ ended, events_trans hnew hended, ?_⟩
      have hall := Leaves.append hleaves hends
      cases outputs with
      | error e => exact hall
      | ok outputs => exact hall

end EpochStep

end TrainingLoop
