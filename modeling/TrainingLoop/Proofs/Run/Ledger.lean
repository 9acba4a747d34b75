import TrainingLoop.Proofs.Metric.Log
import TrainingLoop.Proofs.Output.Means
import TrainingLoop.Proofs.Run.Epoch
import TrainingLoop.Proofs.Run.LogFrame
/-!
# The metrics file of a run

The events of a run tell which records were given to its logger and when the logger was saved, and
so which of the records are in the metrics file and which wait in the buffer (`Ledger`). One step
of the trainer logs and one saves; each keeps the file and the buffer what the ledger says, all
others do not touch them, and so does the whole run, whatever its result (`run_books`).
-/

namespace TrainingLoop

variable {σ W β : Type}

/-- The records that are in a metrics file, and those that wait for the next save. -/
structure Ledger where
  written : List LogRecord := []
  waiting : List LogRecord := []

def RunEvent.record? : RunEvent β → Option LogRecord
  | .logged record => some record
  | _ => none

namespace Ledger

def enter (l : Ledger) : RunEvent β → Ledger
  | .logged record => { l with waiting := l.waiting ++ [record] }
  | .saved => { written := l.written ++ l.waiting }
  | _ => l

def ofEvents (events : List (RunEvent β)) : Ledger := events.foldl enter {}

theorem enter_of_not_booking {event : RunEvent β} (h : event.isBooking = false) (l : Ledger) :
    l.enter event = l := by
  cases event <;> first | rfl | cases h

theorem foldl_enter_aside {new : List (RunEvent β)} (h : ∀ event ∈ new, event.isBooking = false)
    (l : Ledger) : new.foldl enter l = l := by
  induction new with
  | nil => rfl
  | cons event new ih =>
      obtain ⟨hevent, hnew⟩ := List.forall_mem_cons.1 h
      rw [List.foldl_cons, enter_of_not_booking hevent, ih hnew]

/-- Every record is entered once, in the order of logging. -/
theorem written_append_waiting (events : List (RunEvent β)) :
    (ofEvents events).written ++ (ofEvents events).waiting =
      events.filterMap RunEvent.record? := by
  have hfrom (l : Ledger) : (events.foldl enter l).written ++ (events.foldl enter l).waiting =
      l.written ++ l.waiting ++ events.filterMap RunEvent.record? := by
    induction events generalizing l with
    | nil => exact (List.append_nil _).symm
    | cons event events ih =>
        rw [List.foldl_cons, ih, List.filterMap_cons]
        cases event <;> simp [enter, RunEvent.record?]
  exact hfrom {}

def text (before : Option String) (l : Ledger) : Option String :=
  if l.written = [] then before
  else some (before.getD "" ++ JsonLines.lines l.written)

theorem getD_text (before : Option String) (l : Ledger) :
    (l.text before).getD "" = before.getD "" ++ JsonLines.lines l.written :=
  JsonLines.getD_textAfter before l.written

end Ledger

/-! ## The logger -/

/-- The file and the buffer of a logger are what a ledger says, and the file can always be
opened. -/
structure JsonLines.Holds (l : JsonLines) (before : Option String) (ledger : Ledger) : Prop where
  text : l.file.text = ledger.text before
  pending : l.pending.toList = ledger.waiting
  opens : ∀ attempt, l.file.faultAt attempt = none

namespace JsonLines.Holds

variable {l : JsonLines} {before : Option String} {ledger : Ledger}

theorem log (h : l.Holds before ledger) (record : LogRecord) :
    (l.log record).Holds before (ledger.enter (.logged record : RunEvent β)) where
  text := h.text
  pending := by rw [JsonLines.log, Journal.toList_push, h.pending]; rfl
  opens := h.opens

theorem save (h : l.Holds before ledger) :
    ∃ l', l.save = (.ok (), l') ∧ l'.Holds before (ledger.enter (.saved : RunEvent β)) := by
  by_cases hpending : l.pending.toList = []
  · have hnone : ledger.waiting = [] := h.pending.symm.trans hpending
    refine ⟨l, JsonLines.save_of_empty hpending, ?_, h.pending.trans hnone, h.opens⟩
    rw [h.text, Ledger.text, Ledger.text, Ledger.enter, hnone, List.append_nil]
  · refine ⟨_, JsonLines.save_of_opens hpending (h.opens _), ?_, rfl, h.opens⟩
    rw [h.pending] at hpending ⊢
    rw [h.text]
    exact (JsonLines.textAfter_append before ledger.written hpending).symm

end JsonLines.Holds

/-! ## Steps of the trainer -/

namespace Trainer

def ledger (t : Trainer W β) : Ledger := .ofEvents t.events.toList

/-- A trainer with a metrics file, in which it keeps what its ledger says. It logs as its setup has
it. -/
structure Books (setup : Setup W β) (before : Option String) (t : Trainer W β) : Prop where
  logEvery : t.log.logEvery = setup.config.logEveryNSteps
  flushEvery : t.log.flushEvery = setup.config.flushLogsEveryNSteps
  isGlobalZero : t.state.isGlobalZero = setup.accelerator.isGlobalZero
  sink : ∃ l, t.log.sink = some (.jsonLines l) ∧ l.Holds before t.ledger

def KeepsBooks (setup : Setup W β) (before : Option String) (t t' : Trainer W β) : Prop :=
  t.Books setup before → t'.Books setup before

instance (setup : Setup W β) (before : Option String) :
    IsPreorder (Trainer W β) (KeepsBooks setup before) where
  refl _ := id
  trans _ _ _ h h' := h' ∘ h

theorem ledger_record (event : RunEvent β) (t : Trainer W β) :
    (t.record event).ledger = t.ledger.enter event := by
  rw [ledger, record, Journal.toList_push, Ledger.ofEvents, List.foldl_append]
  rfl

variable {setup : Setup W β} {before : Option String} {t t' : Trainer W β}

theorem ledger_of_events {new : List (RunEvent β)} (h : t'.events.toList = t.events.toList ++ new)
    (haside : ∀ event ∈ new, event.isBooking = false) : t'.ledger = t.ledger := by
  rw [ledger, h, Ledger.ofEvents, List.foldl_append, Ledger.foldl_enter_aside haside]
  rfl

theorem Aside.ledger (h : Aside t t') : t'.ledger = t.ledger := by
  obtain ⟨new, hnew, haside⟩ := h.events
  exact ledger_of_events hnew haside

theorem Follows.ledger (h : Follows RunEvent.IsHook t t') : t'.ledger = t.ledger := by
  obtain ⟨new, hnew, hhooks⟩ := h.events
  exact ledger_of_events hnew fun event hevent => (hhooks event hevent).not_booking

theorem Aside.keepsBooks (h : Aside t t') : t.KeepsBooks setup before t' := by
  intro hbooks
  obtain ⟨latest, hlog⟩ := h.log
  obtain ⟨l, hsink, hholds⟩ := hbooks.sink
  refine ⟨?_, ?_, h.isGlobalZero.trans hbooks.isGlobalZero, l, ?_, ?_⟩
  · rw [hlog, ← hbooks.logEvery]
  · rw [hlog, ← hbooks.flushEvery]
  · rw [hlog, ← hsink]
  · rwa [h.ledger]

end Trainer

namespace TrainerStep

open Trainer Stateful

variable {setup : Setup W β} {before : Option String} {t : Trainer W β}

def logged (t : Trainer W β) (outputs : Processed) (globalStep : Nat) : Ledger :=
  match t.log.due? outputs globalStep t.state.shouldStop with
  | some record => t.ledger.enter (.logged record : RunEvent β)
  | none => t.ledger

def saved (t : Trainer W β) (globalStep : Nat) : Ledger :=
  if t.log.flushDue globalStep t.state.shouldStop && t.state.isGlobalZero then
    t.ledger.enter (.saved : RunEvent β)
  else t.ledger

theorem logStep_books (h : t.Books setup before) (outputs : Processed) (globalStep : Nat) :
    ∃ t', (logStep outputs globalStep).runOn t = (.ok (), t') ∧ t'.Books setup before ∧
      t'.ledger = logged t outputs globalStep := by
  obtain ⟨l, hsink, hholds⟩ := h.sink
  obtain ⟨hkept, hlogEvery, hflushEvery⟩ :
      (t.log.takeIn outputs).sink = some (.jsonLines l) ∧
        (t.log.takeIn outputs).logEvery = t.log.logEvery ∧
        (t.log.takeIn outputs).flushEvery = t.log.flushEvery := by
    rw [MetricsLog.takeIn_eq]
    exact ⟨hsink, rfl, rfl⟩
  simp only [logStep, runOn_get_bind, hsink, Option.isSome_some, if_true, logged]
  cases hdue : t.log.due? outputs globalStep t.state.shouldStop with
  | none =>
      refine ⟨{ t with log := t.log.takeIn outputs }, ?_, ⟨hlogEvery.trans h.logEvery,
        hflushEvery.trans h.flushEvery, h.isGlobalZero, l, hkept, hholds⟩, rfl⟩
      apply noteFailure_ok.2
      simp [MetricsLog.logStep_eq, hdue]
  | some record =>
      refine ⟨{ t.record (.logged record) with
        log := { t.log.takeIn outputs with sink := some (.jsonLines (l.log record)) } }, ?_,
        ⟨hlogEvery.trans h.logEvery, hflushEvery.trans h.flushEvery, h.isGlobalZero, l.log record,
          rfl, ?_⟩, ledger_record _ t⟩
      · rw [runOn_modify_bind]
        apply noteFailure_ok.2
        simp [MetricsLog.logStep_eq, MetricsLog.called_of_some hkept, hdue, Sink.meet, Sink.log,
          Trainer.record]
      · have hledger := ledger_record (.logged record) t
        exact hledger ▸ hholds.log record

theorem flush_books (h : t.Books setup before) (globalStep : Nat) :
    ∃ t', (flush globalStep).runOn t = (.ok (), t') ∧ t'.Books setup before ∧
      t'.ledger = saved t globalStep := by
  obtain ⟨l, hsink, hholds⟩ := h.sink
  simp only [flush, runOn_get_bind, hsink, Option.isSome_some, Bool.and_true, saved]
  by_cases hdue : (t.log.flushDue globalStep t.state.shouldStop && t.state.isGlobalZero) = true
  · rw [if_pos hdue, if_pos hdue]
    obtain ⟨l', hsaved, hholds'⟩ := hholds.save (β := β)
    refine ⟨{ t.record .saved with log := { t.log with sink := some (.jsonLines l') } }, ?_,
      ⟨h.logEvery, h.flushEvery, h.isGlobalZero, l', rfl, ?_⟩, ledger_record _ t⟩
    · rw [runOn_modify_bind]
      apply noteFailure_ok.2
      simp [MetricsLog.save, Sink.save, hsink, hsaved, Trainer.record]
    · have hledger := ledger_record .saved t
      exact hledger ▸ hholds'
  · rw [if_neg hdue, if_neg hdue]
    exact ⟨t, rfl, h, rfl⟩

theorem logStep_keepsBooks (outputs : Processed) (globalStep : Nat) :
    Keeps (KeepsBooks setup before) (logStep outputs globalStep : TrainerStep W β Unit) := by
  intro t h
  obtain ⟨t', hrun, hbooks, -⟩ := logStep_books h outputs globalStep
  rwa [hrun]

theorem flush_keepsBooks (globalStep : Nat) :
    Keeps (KeepsBooks setup before) (flush globalStep : TrainerStep W β Unit) := by
  intro t h
  obtain ⟨t', hrun, hbooks, -⟩ := flush_books h globalStep
  rwa [hrun]

theorem framed_keepsBooks (setup : Setup W β) (before : Option String) :
    Framed (KeepsBooks setup before) where
  aside _ _ := Aside.keepsBooks
  logStep := logStep_keepsBooks
  flush := flush_keepsBooks
  closeEpoch t := by
    rintro ⟨hlogEvery, hflushEvery, hzero, l, hsink, hholds⟩
    rw [MetricsLog.closeEpoch_eq]
    exact ⟨hlogEvery, hflushEvery, hzero, l, hsink, hholds⟩

/-- A batch with something to log leaves nothing waiting just if nothing was waiting and no record
is due. -/
theorem logged_waiting (h : t.Books setup before) (hunasked : t.state.shouldStop = false)
    {outputs : Processed} (hmeans : outputs.means.isEmpty = false) (globalStep : Nat) :
    (logged t outputs globalStep).waiting = [] ↔ t.ledger.waiting = [] ∧
      MetricsLog.closesGroup setup.config.logEveryNSteps globalStep = false := by
  rw [logged, MetricsLog.due?, if_neg (by simp [hmeans]), h.logEvery, hunasked, Bool.or_false]
  cases hcloses : MetricsLog.closesGroup setup.config.logEveryNSteps globalStep with
  | true => simp [Ledger.enter]
  | false => simp

theorem saved_waiting (h : t.Books setup before) (hunasked : t.state.shouldStop = false)
    (hzero : setup.accelerator.isGlobalZero = true) (globalStep : Nat) :
    (saved t globalStep).waiting = [] ↔ t.ledger.waiting = [] ∨
      MetricsLog.closesGroup setup.config.flushLogsEveryNSteps globalStep = true := by
  rw [saved, MetricsLog.flushDue, h.flushEvery, hunasked, h.isGlobalZero, hzero, Bool.or_false,
    Bool.and_true]
  cases hcloses : MetricsLog.closesGroup setup.config.flushLogsEveryNSteps globalStep with
  | true => simp [Ledger.enter]
  | false => simp

end TrainerStep

/-! ## Steps of an epoch -/

def BatchLoop.HasResults (loop : BatchLoop σ β) : Prop :=
  ∀ batch index dataloader worker output worker',
    (loop.run batch index dataloader).runOn worker = (.ok output, worker') →
      output.stopsEpoch = false → output.results.flatten ≠ []

def EpochRun.KeepsBooks (setup : Setup W β) (before : Option String) :
    EpochRun σ W β → EpochRun σ W β → Prop :=
  Order.Preimage EpochRun.trainer (Trainer.KeepsBooks setup before)

namespace EpochStep

open EpochRun Stateful TrainerStep

variable {setup : Setup W β} {before : Option String} {loop : BatchLoop σ β}
  {r r₁ r₂ : EpochRun σ W β}

theorem advance_books : Keeps (EpochRun.KeepsBooks setup before) (advance setup loop) :=
  advance_framed (framed_keepsBooks setup before)

theorem advanceEnd_books : Keeps (EpochRun.KeepsBooks setup before) (advanceEnd setup loop) :=
  advanceEnd_framed (framed_keepsBooks setup before)

theorem completeBatch_logged {handed : Handed β} {results : BatchResults} {kept : KeptOutputs}
    (hbooks : r.trainer.Books setup before)
    (h : (completeBatch setup handed results).runOn r = (.ok kept, r₁))
    (hunasked : r₁.trainer.state.shouldStop = false) :
    ∃ t : Trainer W β, Trainer.Aside r.trainer t ∧ t.state.shouldStop = false ∧
      r₁.trainer.ledger = logged t ((OutputTree.ofBatch results).collapse .batch)
        r.progress.globalStep := by
  simp only [completeBatch, runOn_get_bind] at h
  obtain ⟨_, r₂, h₂, hrest⟩ := bind_ok h
  obtain ⟨_, r₃, h₃, hrest'⟩ := bind_ok hrest
  obtain ⟨_, r₄, h₄, hlast⟩ := bind_ok hrest'
  cases hlast
  obtain ⟨t₂, htold, rfl⟩ := onPart_ok h₂
  obtain ⟨t₃, hended, rfl⟩ := onPart_ok h₃
  obtain ⟨t₄, hlogged, rfl⟩ := onPart_ok h₄
  have haside : Trainer.Aside r.trainer t₃ :=
    ((call_aside _ _).of_ok htold).trans ((call_aside _ _).of_ok hended)
  have hfollows : Trainer.Follows RunEvent.IsTraining t₃ t₄ :=
    (logStep_keeps _ _ (fun _ => trivial) fun _ => trivial).of_ok hlogged
  obtain ⟨t, hrun, -, hledger⟩ := logStep_books (haside.keepsBooks hbooks)
    ((OutputTree.ofBatch results).collapse .batch) r.progress.globalStep
  obtain rfl : t = t₄ := congrArg Prod.snd (hrun.symm.trans hlogged)
  exact ⟨t₃, haside, hfollows.unasked hunasked, hledger⟩

theorem advance_logged {feed feed' : Feed β} {handed : Handed β} {output : BatchOutput}
    {worker : σ} {kept : KeptOutputs} (hbooks : r.trainer.Books setup before)
    (hphase : r.phase = .running feed) (hnext : feed.next = (some handed, feed'))
    (hrun : (loop.run handed.batch handed.index r.counters.dataloaderIndex).runOn r.worker =
      (.ok output, worker))
    (h : (advance setup loop).runOn r = (.ok (.completed kept), r₁))
    (hunasked : r₁.trainer.state.shouldStop = false) :
    ∃ t : Trainer W β, Trainer.Aside r.trainer t ∧ t.state.shouldStop = false ∧
      r₁.trainer.ledger = logged t ((OutputTree.ofBatch output.results).collapse .batch)
        r.progress.globalStep := by
  simp only [advance, runOn_get_bind, hphase, hnext, runOn_modify_bind] at h
  obtain ⟨output', r₂, hbatch, hrest⟩ := bind_ok h
  have hpulled : Trainer.Aside r.trainer (r.pull handed feed').trainer := .record _ _
  have hran : Trainer.Aside r.trainer r₂.trainer :=
    hpulled.trans ((runBatch_aside handed).of_ok hbatch)
  obtain ⟨worker', trainer, hrun', -, rfl⟩ := runBatch_ok hbatch
  obtain rfl : output' = output :=
    Except.ok.inj (congrArg Prod.fst (hrun'.symm.trans hrun))
  split at hrest
  · cases hrest
  · obtain ⟨kept', hcomplete, -⟩ := map_ok hrest
    obtain ⟨t, haside, hunasked', hledger⟩ :=
      completeBatch_logged (hran.keepsBooks hbooks) hcomplete hunasked
    exact ⟨t, hran.trans haside, hunasked', hledger⟩

theorem advanceEnd_saved (hbooks : r.trainer.Books setup before)
    (h : (advanceEnd setup loop).runOn r = (.ok (), r₁))
    (hunasked : r₁.trainer.state.shouldStop = false) :
    ∃ t : Trainer W β, Trainer.Aside r.trainer t ∧ t.state.shouldStop = false ∧
      r₁.trainer.ledger = saved t r.progress.globalStep := by
  obtain ⟨r₂, r₃, hevaluate, hflush, hlast⟩ := advanceEnd_ok h
  have haside : Trainer.Aside r.trainer r₂.trainer := evaluateBatch_aside.of_ok hevaluate
  obtain ⟨t₂, rfl, -⟩ := evaluateBatch_ok hevaluate
  obtain ⟨t₃, hsaved, rfl⟩ := onPart_ok hflush
  obtain ⟨t, hrun, -, hledger⟩ := flush_books (haside.keepsBooks hbooks) r.progress.globalStep
  obtain rfl : t = t₃ := congrArg Prod.snd (hrun.symm.trans hsaved)
  have hflushed : Trainer.Follows RunEvent.IsUpkeep t₂ t :=
    (flush_keeps _ trivial fun _ => trivial).of_ok hsaved
  split at hlast
  · have hrest : Trainer.Aside t r₁.trainer := takeStep_aside.of_ok hlast
    have hall := hflushed.trans (takeStep_follows hlast)
    exact ⟨t₂, haside, hall.unasked hunasked, hrest.ledger.trans hledger⟩
  · subst hlast
    have hmarked : Trainer.Aside t t.markTrained := .of_eq rfl rfl rfl
    exact ⟨t₂, haside, hflushed.unasked hunasked, hmarked.ledger.trans hledger⟩

/-- What a batch leaves waiting, where no stop is asked for: nothing if the logger is saved at its
step, and else what was waiting and its own record, if one is due. -/
theorem batch_waiting (hresults : loop.HasResults)
    (hzero : setup.accelerator.isGlobalZero = true) (hbooks : r.trainer.Books setup before)
    {kept : KeptOutputs} (hadvance : (advance setup loop).runOn r = (.ok (.completed kept), r₁))
    (hend : (advanceEnd setup loop).runOn r₁ = (.ok (), r₂))
    (hunasked : r₂.trainer.state.shouldStop = false) :
    r₂.trainer.ledger.waiting = [] ↔
      (r.trainer.ledger.waiting = [] ∧
        MetricsLog.closesGroup setup.config.logEveryNSteps r.progress.globalStep = false) ∨
      MetricsLog.closesGroup setup.config.flushLogsEveryNSteps r.progress.globalStep = true := by
  have hbooks₁ : r₁.trainer.Books setup before := advance_books.of_ok hadvance hbooks
  obtain ⟨t₁, haside₁, hunasked₁, hsaved⟩ := advanceEnd_saved hbooks₁ hend hunasked
  have hunasked' := (advanceEnd_follows hend).unasked hunasked
  cases advance_ok hadvance with
  | @completed feed feed' handed output worker trainer hphase hnext hrun hproceeds _ =>
      obtain ⟨t, haside, hunasked₀, hlogged⟩ :=
        advance_logged hbooks hphase hnext hrun hadvance hunasked'
      have hmeans :
          ((OutputTree.ofBatch output.results).collapse .batch).means.isEmpty = false := by
        rw [isEmpty_means_ofBatch, List.isEmpty_eq_false_iff]
        exact hresults _ _ _ _ _ _ hrun hproceeds
      rw [hsaved, saved_waiting (haside₁.keepsBooks hbooks₁) hunasked₁ hzero, haside₁.ledger,
        hlogged, logged_waiting (haside.keepsBooks hbooks) hunasked₀ hmeans, haside.ledger]
      exact Iff.rfl

end EpochStep

/-! ## Steps of a run -/

def FitRun.KeepsBooks (setup : Setup W β) (before : Option String) :
    FitRun σ W β → FitRun σ W β → Prop :=
  Order.Preimage FitRun.trainer (Trainer.KeepsBooks setup before)

namespace FitStep

open FitRun Stateful TrainerStep

variable {setup : Setup W β} {before : Option String} {loop : BatchLoop σ β}

theorem nextEpoch_books (horizon : Nat) (data : Nat → Batches β) :
    Keeps (FitRun.KeepsBooks setup before) (nextEpoch setup loop horizon data) :=
  nextEpoch_framed (framed_keepsBooks setup before) horizon data

theorem run_books (horizon : Nat) (data : Nat → Batches β) :
    Keeps (FitRun.KeepsBooks setup before) (run setup loop horizon data) :=
  run_framed (framed_keepsBooks setup before) horizon data

end FitStep

end TrainingLoop
