import TrainingLoop.Proofs.Metric.Log
import TrainingLoop.Proofs.Run.BatchOutputs
import TrainingLoop.Proofs.Run.Limits
import TrainingLoop.Proofs.Run.OptimizerSteps
/-!
# The steps at which a run logs

A batch is logged with the global step of its moment, which stands still until the next optimizer
step. So the records of a run come in the order of their steps, and two of them have one step just
if no optimizer step lies between them. At a step that closes a group of the cadence every batch
with metrics is logged, whether it ends with an optimizer step or not.
-/

namespace TrainingLoop

variable {σ W β : Type}

def RunEvent.isStep : RunEvent β → Bool
  | .stepRequested _ _ => true
  | _ => false

theorem RunEvent.Quiet.isStep {p : Progress} {event : RunEvent β} (h : event.Quiet p) :
    event.isStep = false := by
  cases event <;> first | rfl | cases h

/-- What holds of any two records in their order, told by the events around them. -/
theorem RunEvent.pairwise_records {R : LogRecord → LogRecord → Prop}
    {events : List (RunEvent β)} :
    (events.filterMap RunEvent.record?).Pairwise R ↔
      ∀ before first between second after,
        events = before ++ .logged first :: (between ++ .logged second :: after) →
        R first second := by
  constructor
  · rintro hpairwise before first between second after rfl
    simp only [List.filterMap_append, List.filterMap_cons, RunEvent.record?,
      List.pairwise_append, List.pairwise_cons] at hpairwise
    exact hpairwise.2.1.1 second (by simp)
  · intro hsplits
    induction events with
    | nil => exact .nil
    | cons event events ih =>
        have hrest := ih fun before first between second after heq =>
          hsplits (event :: before) first between second after (by rw [heq, List.cons_append])
        cases hrecord : event.record? with
        | none => rwa [List.filterMap_cons_none hrecord]
        | some first =>
            rw [List.filterMap_cons_some hrecord]
            refine List.pairwise_cons.2 ⟨fun second hsecond => ?_, hrest⟩
            obtain ⟨event', hevent', hrecord'⟩ := List.mem_filterMap.1 hsecond
            obtain ⟨between, after, rfl⟩ := List.append_of_mem hevent'
            cases event <;> cases hrecord
            cases event' <;> cases hrecord'
            exact hsplits [] first between second after rfl

namespace Progress

variable {p : Progress} {events : List (RunEvent β)}

theorem globalStep_afterAll (p : Progress) (events : List (RunEvent β)) :
    (p.afterAll events).globalStep = p.globalStep + events.countP RunEvent.isStep := by
  induction events generalizing p with
  | nil => rfl
  | cons event events ih =>
      rw [afterAll_cons, ih, List.countP_cons]
      cases event <;> simp [after, pull, step, RunEvent.isStep, Nat.add_assoc, Nat.add_comm]

theorem Tells.step_eq {before after : List (RunEvent β)} {record : LogRecord}
    (h : p.Tells (before ++ .logged record :: after)) :
    record.step = p.globalStep + before.countP RunEvent.isStep := by
  obtain ⟨-, hshows, -⟩ := tells_append.1 h
  rw [← globalStep_afterAll]
  exact hshows

theorem Tells.rest {before after : List (RunEvent β)} (h : p.Tells (before ++ after)) :
    (p.afterAll before).Tells after := (tells_append.1 h).2

theorem Tells.step_later {before between after : List (RunEvent β)} {first second : LogRecord}
    (h : p.Tells (before ++ .logged first :: (between ++ .logged second :: after))) :
    second.step = first.step + between.countP RunEvent.isStep := by
  have hsecond : second.step = (p.afterAll before).globalStep + between.countP RunEvent.isStep :=
    Tells.step_eq h.rest.2
  rw [hsecond, globalStep_afterAll, h.step_eq]

/-- Later records have later steps just if an optimizer step lies between any two of them. -/
theorem Tells.ascending_iff (h : p.Tells events) :
    (events.filterMap RunEvent.record?).Pairwise (fun first second => first.step < second.step) ↔
      ∀ before first between second after,
        events = before ++ .logged first :: (between ++ .logged second :: after) →
        between.any RunEvent.isStep = true := by
  rw [RunEvent.pairwise_records]
  refine forall_congr' fun before => forall_congr' fun first => forall_congr' fun between =>
    forall_congr' fun second => forall_congr' fun after => ?_
  refine imp_congr_right ?_
  rintro rfl
  rw [h.step_later, List.any_eq_true, ← List.countP_pos_iff]
  omega

theorem Tells.ordered (h : p.Tells events) :
    (events.filterMap RunEvent.record?).Pairwise (fun first second => first.step ≤ second.step) := by
  rw [RunEvent.pairwise_records]
  rintro before first between second after rfl
  rw [h.step_later]
  exact Nat.le_add_right _ _

/-! ## The records that batches have to give -/

def report? (p : Progress) (outputs : Processed) : Option LogRecord :=
  if outputs.means.isEmpty then none else some ⟨p.globalStep, outputs.means⟩

/-- A record is due that a batch has to give, if its step closes a group or a stop was requested. -/
theorem due?_eq_filter (p : Progress) (outputs : Processed) (stopRequested : Bool)
    (l : MetricsLog W) :
    l.due? outputs p.globalStep stopRequested = (p.report? outputs).filter fun record =>
      MetricsLog.closesGroup l.logEvery record.step || stopRequested := by
  unfold MetricsLog.due? report?
  split
  · rfl
  · rw [Option.filter_some]

/-- The records of all batches that are completed in the course of some events. -/
def reports : Progress → List (RunEvent β) → List LogRecord
  | _, [] => []
  | p, event :: rest => (event.outputs?.bind p.report?).toList ++ (p.after event).reports rest

theorem reports_append (p : Progress) (before rest : List (RunEvent β)) :
    p.reports (before ++ rest) = p.reports before ++ (p.afterAll before).reports rest := by
  induction before generalizing p with
  | nil => rfl
  | cons event before ih => simp [reports, ih]

theorem reports_eq_nil (h : ∀ event ∈ events, event.outputs? = none) (p : Progress) :
    p.reports events = [] := by
  induction events generalizing p with
  | nil => rfl
  | cons event events ih =>
      obtain ⟨hevent, hrest⟩ := List.forall_mem_cons.1 h
      rw [reports, ih hrest, hevent]
      rfl

/-- Without an optimizer step among the events, all batches have the same step. -/
theorem reports_of_unstepped (h : ∀ event ∈ events, event.isStep = false) :
    p.reports events = (events.filterMap RunEvent.outputs?).filterMap p.report? := by
  induction events generalizing p with
  | nil => rfl
  | cons event events ih =>
      obtain ⟨hevent, hrest⟩ := List.forall_mem_cons.1 h
      have hsame : (p.after event).report? = p.report? := by
        cases event <;> first | rfl | cases hevent
      rw [reports, ih hrest, hsame]
      cases houtputs : event.outputs? with
      | none =>
          rw [List.filterMap_cons_none houtputs]
          rfl
      | some outputs =>
          rw [List.filterMap_cons_some houtputs, List.filterMap_cons, Option.bind_some]
          cases p.report? outputs <;> rfl

end Progress

/-- Only records that batches have to give are logged, and all those at steps that close a group of
`every`. -/
structure Reported (every : Nat) (p : Progress) (new : List (RunEvent β)) : Prop where
  sublist : (new.filterMap RunEvent.record?).Sublist (p.reports new)
  closing : (new.filterMap RunEvent.record?).filter (MetricsLog.closesGroup every ·.step) =
    (p.reports new).filter (MetricsLog.closesGroup every ·.step)

namespace Reported

variable {every : Nat} {p : Progress} {new more : List (RunEvent β)}

theorem append (h : Reported every p new) (h' : Reported every (p.afterAll new) more) :
    Reported every p (new ++ more) := by
  constructor
  · rw [List.filterMap_append, Progress.reports_append]
    exact h.sublist.append h'.sublist
  · rw [List.filterMap_append, Progress.reports_append, List.filter_append, List.filter_append,
      h.closing, h'.closing]

/-- One batch, of which a record is logged if it is due, as it is wherever a group is closed. -/
theorem of_due {report : Option LogRecord} {due : LogRecord → Bool}
    (hrecords : new.filterMap RunEvent.record? = (report.filter due).toList)
    (hreports : p.reports new = report.toList)
    (hdue : ∀ record, MetricsLog.closesGroup every record.step = true → due record = true) :
    Reported every p new := by
  cases report with
  | none => exact ⟨by rw [hrecords, hreports]; rfl, by rw [hrecords, hreports]; rfl⟩
  | some record =>
      rw [Option.filter_some] at hrecords
      by_cases hrecord : due record = true
      · rw [if_pos hrecord] at hrecords
        exact ⟨by rw [hrecords, hreports], by rw [hrecords, hreports]⟩
      · rw [if_neg hrecord] at hrecords
        have hopen : MetricsLog.closesGroup every record.step = false := by
          rw [← Bool.not_eq_true]
          exact fun hcloses => hrecord (hdue record hcloses)
        refine ⟨by rw [hrecords]; exact List.nil_sublist _, ?_⟩
        rw [hrecords, hreports]
        simp [hopen]

theorem of_plain (h : ∀ event ∈ new, event.Plain) (p : Progress) : Reported every p new := by
  have hrecords : new.filterMap RunEvent.record? = [] :=
    List.filterMap_eq_nil_iff.2 fun event hevent => (h event hevent).record?
  have hreports : p.reports new = [] :=
    Progress.reports_eq_nil (fun event hevent => (h event hevent).outputs?) p
  exact ⟨by rw [hrecords, hreports], by rw [hrecords, hreports]⟩

end Reported

/-! ## Steps of the trainer -/

namespace Trainer

structure SameLogger (t t' : Trainer W β) : Prop where
  logEvery : t'.log.logEvery = t.log.logEvery
  sink : t'.log.sink.isSome = t.log.sink.isSome

instance : IsPreorder (Trainer W β) SameLogger where
  refl _ := ⟨rfl, rfl⟩
  trans _ _ _ h h' := ⟨h'.logEvery.trans h.logEvery, h'.sink.trans h.sink⟩

end Trainer

namespace MetricsLog

theorem called_sameLogger (l : MetricsLog W) (world : W) (call : JsonLines.Call) :
    (l.called world call).2.1.logEvery = l.logEvery ∧
      (l.called world call).2.1.sink.isSome = l.sink.isSome :=
  ⟨by rw [called_eq], called_sink_isSome l world call⟩

theorem logStep_sameLogger (outputs : Processed) (step : Nat) (stopRequested : Bool)
    (l : MetricsLog W) (world : W) :
    (l.logStep outputs step stopRequested world).2.1.logEvery = l.logEvery ∧
      (l.logStep outputs step stopRequested world).2.1.sink.isSome = l.sink.isSome := by
  have htaken : (l.takeIn outputs).logEvery = l.logEvery := by rw [takeIn_eq]
  rw [logStep_eq, ← htaken, ← takeIn_sink l outputs]
  cases l.due? outputs step stopRequested with
  | none => exact ⟨rfl, rfl⟩
  | some record => exact called_sameLogger (l.takeIn outputs) world (.log record)

end MetricsLog

namespace TrainerStep

open Trainer Stateful

theorem onLog_sameLogger {action : MetricsLog W → W → Except Error Unit × MetricsLog W × W}
    (h : ∀ l world, (action l world).2.1.logEvery = l.logEvery ∧
      (action l world).2.1.sink.isSome = l.sink.isSome) :
    Keeps SameLogger (onLog action : TrainerStep W β Unit) :=
  .noteFailure (fun t => ⟨(h t.log t.world).1, (h t.log t.world).2⟩) fun _ _ => ⟨rfl, rfl⟩

theorem framed_sameLogger : Framed (SameLogger : Trainer W β → Trainer W β → Prop) where
  aside t t' h := by
    obtain ⟨latest, hlog⟩ := h.log
    exact ⟨by rw [hlog], by rw [hlog]⟩
  logStep outputs globalStep := by
    have hrecord (record : LogRecord) : Keeps SameLogger
        (modify fun t => t.record (.logged record) : TrainerStep W β Unit) :=
      .modify fun _ => ⟨rfl, rfl⟩
    refine .get_bind fun t => ?_
    dsimp only
    split
    · split
      · exact .bind (hrecord _) fun _ => onLog_sameLogger (MetricsLog.logStep_sameLogger _ _ _)
      · exact onLog_sameLogger (MetricsLog.logStep_sameLogger _ _ _)
    · exact onLog_sameLogger (MetricsLog.logStep_sameLogger _ _ _)
  flush globalStep := by
    refine .get_bind fun t => ?_
    split
    · exact .bind (.modify fun _ => ⟨rfl, rfl⟩) fun _ =>
        onLog_sameLogger fun l world => l.called_sameLogger world .save
    · exact .pure ()
  closeEpoch t := by
    rw [MetricsLog.closeEpoch_eq]
    exact ⟨rfl, rfl⟩

theorem logStep_records {outputs : Processed} {globalStep : Nat} {t t' : Trainer W β}
    (hsink : t.log.sink.isSome) (h : (logStep outputs globalStep).runOn t = (.ok (), t')) :
    t'.events.toList = t.events.toList ++
      (t.log.due? outputs globalStep t.state.shouldStop).toList.map .logged := by
  have hlog {t₁ : Trainer W β}
      (h₁ : (onLog (MetricsLog.logStep outputs globalStep t.state.shouldStop)).runOn t₁ =
        (.ok (), t')) : t'.events = t₁.events := by
    have hrun := noteFailure_ok.1 h₁
    simp only [runOn_of, Prod.mk.injEq] at hrun
    obtain ⟨-, rfl⟩ := hrun
    rfl
  simp only [logStep, runOn_get_bind, hsink, if_true] at h
  cases hdue : t.log.due? outputs globalStep t.state.shouldStop with
  | none =>
      rw [hdue] at h
      rw [hlog h]
      exact (List.append_nil _).symm
  | some record =>
      rw [hdue] at h
      rw [hlog h]
      exact Journal.toList_push _ _

end TrainerStep

/-! ## One epoch -/

def Trainer.Reports (every : Nat) (t : Trainer W β) (p : Progress) (t' : Trainer W β)
    (q : Progress) : Prop :=
  ∃ new, t'.events.toList = t.events.toList ++ new ∧ Counted p new q ∧ Reported every p new

namespace Trainer.Reports

variable {every : Nat} {t t' t'' : Trainer W β} {p q s : Progress}

theorem refl (t : Trainer W β) (p : Progress) : t.Reports every p t p :=
  ⟨[], (List.append_nil _).symm, .nil p, .of_plain (List.forall_mem_nil _) p⟩

theorem trans (h : t.Reports every p t' q) (h' : t'.Reports every q t'' s) :
    t.Reports every p t'' s := by
  obtain ⟨new, hnew, hcounted, hreported⟩ := h
  obtain ⟨more, hmore, hcounted', hreported'⟩ := h'
  refine ⟨new ++ more, events_trans hnew hmore, hcounted.append hcounted',
    hreported.append ?_⟩
  rwa [hcounted.after]

theorem of_word {new : List (RunEvent β)} {L : Language (RunEvent β)}
    (hnew : t'.events.toList = t.events.toList ++ new) (hword : new ∈ L)
    (hrests : Only (RunEvent.Rests p) L) (hplain : Only RunEvent.Plain L) :
    t.Reports every p t' p :=
  ⟨new, hnew, .of_rests (hrests new hword), .of_plain (hplain new hword) p⟩

end Trainer.Reports

namespace EpochStep

open Trainer Stateful Trace

variable {setup : Setup W β} {loop : BatchLoop σ β} {every n : Nat} {r r₁ r₂ r' : EpochRun σ W β}
  {more : KeptOutputs}

/-- A completed batch logs its outputs once, in the state that the hooks for its end leave. -/
theorem advance_logStep {feed feed' : Feed β} {handed : Handed β}
    (hphase : r.phase = .running feed) (hnext : feed.next = (some handed, feed'))
    (h : (advance setup loop).runOn r = (.ok (.completed more), r')) :
    ∃ t : Trainer W β, Aside r.trainer t ∧
      (TrainerStep.logStep (loop.outputs handed r.counters.dataloaderIndex r.worker)
        r.progress.globalStep).runOn t = (.ok (), r'.trainer) := by
  simp only [advance, runOn_get_bind, hphase, hnext, runOn_modify_bind] at h
  obtain ⟨output, r₁, hbatch, hrest⟩ := bind_ok h
  have hpulled : Aside r.trainer (r.pull handed feed').trainer := .record _ _
  have hran : Aside r.trainer r₁.trainer :=
    hpulled.trans ((runBatch_aside handed).of_ok hbatch)
  obtain ⟨worker, trainer, hrun, -, rfl⟩ := runBatch_ok hbatch
  split at hrest
  · cases hrest
  · obtain ⟨kept, hcomplete, -⟩ := map_ok hrest
    have houtputs : loop.outputs handed r.counters.dataloaderIndex r.worker =
        (OutputTree.ofBatch output.results).collapse .batch := by
      rw [BatchLoop.outputs, show (loop.run handed.batch handed.index
        r.counters.dataloaderIndex).runOn r.worker = (.ok output, worker) from hrun]
    simp only [completeBatch, runOn_get_bind] at hcomplete
    obtain ⟨_, r₂, h₂, hrest₂⟩ := bind_ok hcomplete
    obtain ⟨_, r₃, h₃, hrest₃⟩ := bind_ok hrest₂
    obtain ⟨_, r₄, h₄, hlast⟩ := bind_ok hrest₃
    cases hlast
    obtain ⟨t₂, htold, rfl⟩ := onPart_ok h₂
    obtain ⟨t₃, hended, rfl⟩ := onPart_ok h₃
    obtain ⟨t₄, hlogged, rfl⟩ := onPart_ok h₄
    rw [houtputs]
    exact ⟨t₃, hran.trans (((TrainerStep.call_aside _ _).of_ok htold).trans
      ((TrainerStep.call_aside _ _).of_ok hended)), hlogged⟩

theorem advance_records {feed feed' : Feed β} {handed : Handed β} {new : List (RunEvent β)}
    (hphase : r.phase = .running feed) (hnext : feed.next = (some handed, feed'))
    (hsink : r.trainer.log.sink.isSome)
    (h : (advance setup loop).runOn r = (.ok (.completed more), r'))
    (hnew : r'.trainer.events.toList = r.trainer.events.toList ++ new) :
    ∃ stopRequested, new.filterMap RunEvent.record? =
      (r.trainer.log.due? (loop.outputs handed r.counters.dataloaderIndex r.worker)
        r.progress.globalStep stopRequested).toList := by
  obtain ⟨t, haside, hlogged⟩ := advance_logStep hphase hnext h
  obtain ⟨before, hbefore, hquiet⟩ := haside.events
  have hkept := TrainerStep.framed_sameLogger.aside _ _ haside
  have hnone : before.filterMap RunEvent.record? = [] := by
    refine List.filterMap_eq_nil_iff.2 fun event hevent => ?_
    have hnot := hquiet event hevent
    cases event <;> first | rfl | cases hnot
  have hall := events_trans hbefore
    (TrainerStep.logStep_records (hkept.sink.trans hsink) hlogged)
  refine ⟨t.state.shouldStop, ?_⟩
  rw [List.append_cancel_left (hnew.symm.trans hall), List.filterMap_append, hnone,
    List.nil_append, List.filterMap_map, MetricsLog.due?, hkept.logEvery]
  exact List.filterMap_some

theorem reports_of_trained {handed : Handed β} {dataloader : Nat} {q : Progress}
    {outputs : Processed} {new : List (RunEvent β)}
    (h : new ∈ trained setup n q handed dataloader outputs) (p : Progress) :
    p.reports new = (p.report? outputs).toList := by
  have hunstepped : ∀ event ∈ new, event.isStep = false := by
    obtain ⟨attempt, hattempt, rest, hrest, rfl⟩ := h
    intro event hevent
    rcases List.mem_append.1 hevent with hin | hin
    · obtain ⟨_, rfl, _, rfl, rfl⟩ := hattempt
      rcases List.mem_cons.1 hin with rfl | hin
      · rfl
      · rw [List.mem_singleton.1 hin]
        rfl
    · exact (Only.batchEnded _ _ _ _ _ _ rest hrest event hin).isStep
  rw [Progress.reports_of_unstepped hunstepped, outputs_of_trained h,
    List.filterMap_cons, List.filterMap_nil]
  cases p.report? outputs <;> rfl

/-- A completed batch logs the record that it has to give at a step that closes a group. -/
theorem batch_reports (hcounts : setup.accelerator.CountsSteps) {feed : Feed β}
    (hphase : r.phase = .running feed) (hsink : r.trainer.log.sink.isSome)
    (hevery : r.trainer.log.logEvery = every)
    (hadvance : (advance setup loop).runOn r = (.ok (.completed more), r₁))
    (hend : (advanceEnd setup loop).runOn r₁ = (.ok (), r₂))
    (hn : r.trainer.callbacks.length = n) :
    r₂.trainer.callbacks.length = n ∧
      r.trainer.Reports every r.progress r₂.trainer r₂.progress := by
  obtain ⟨handed, feed', hnext⟩ := next_of_advance hadvance hphase nofun
  obtain ⟨hn₁, new, hnew, htrained⟩ := advance_traced hadvance hphase hnext hn
  obtain ⟨hn₂, ended, hended, hupkeep⟩ := (advanceEnd_emits setup loop).of_run hend hn₁
  rw [progress_of_advance hadvance] at hupkeep
  have hcounted := counted_of_completed (Language.append_mem_mul htrained hupkeep)
  rw [← batch_progress hcounts hadvance hend] at hcounted
  obtain ⟨stopRequested, hrecords⟩ := advance_records hphase hnext hsink hadvance hnew
  rw [Progress.due?_eq_filter, hevery] at hrecords
  have htrainedReported : Reported every r.progress new :=
    .of_due hrecords (reports_of_trained htrained _) fun record hcloses => by
      rw [hcloses, Bool.true_or]
  exact ⟨hn₂, new ++ ended, events_trans hnew hended, hcounted,
    htrainedReported.append (.of_plain (Only.plain_upkeep _ _ _ ended hupkeep) _)⟩

theorem batches_reports (hcounts : setup.accelerator.CountsSteps) {horizon b : Nat} {B : Batches β}
    {kept kept' : KeptOutputs} (hat : r.AtBatch B b) (hsink : r.trainer.log.sink.isSome)
    (hevery : r.trainer.log.logEvery = every)
    (h : (batches setup loop horizon kept).runOn r = (.ok (some kept'), r'))
    (hn : r.trainer.callbacks.length = n) :
    r'.trainer.callbacks.length = n ∧ r.trainer.Reports every r.progress r'.trainer r'.progress := by
  have hends := batches_ok (I := fun _ r₀ _ => r₀.trainer.callbacks.length = n ∧
      (∃ m, r₀.AtBatch B m) ∧ r.trainer.SameLogger r₀.trainer ∧
      r.trainer.Reports every r.progress r₀.trainer r₀.progress)
    (fun _ r₀ _ more r₂ r₃ hI hgoes hadvance hend => by
      obtain ⟨hn₀, ⟨m, hat₀⟩, hlogger, hreports⟩ := hI
      obtain ⟨feed, hphase, -⟩ := hat₀.feed
      obtain ⟨hn₃, hbatch⟩ := batch_reports hcounts hphase (hlogger.sink.trans hsink)
        (hlogger.logEvery.trans hevery) hadvance hend hn₀
      have hadvanced : SameLogger r₀.trainer r₂.trainer :=
        (advance_framed TrainerStep.framed_sameLogger).of_ok hadvance
      have hended : SameLogger r₂.trainer r₃.trainer :=
        (advanceEnd_framed TrainerStep.framed_sameLogger).of_ok hend
      exact ⟨hn₃, ⟨m + 1, step_at hat₀ hadvance hend⟩,
        trans_of SameLogger hlogger (trans_of SameLogger hadvanced hended), hreports.trans hbatch⟩)
    (n := 0) ⟨hn, ⟨b, hat⟩, refl_of SameLogger _, .refl _ _⟩ h
  obtain ⟨kept₀, m, r₀, -, ⟨hn₀, ⟨m, hat₀⟩, -, hreports⟩, hends⟩ | ⟨_, hnone, -⟩ := hends
  · obtain ⟨feed, hphase, -⟩ := hat₀.feed
    have hhalts : Halts setup loop r₀ kept₀ (.ok (some kept₀)) _ := .ended hends
    obtain ⟨hn', new, hnew, hhalted⟩ := halts_told hphase hhalts hn₀
    refine ⟨hn', hreports.trans ?_⟩
    cases hhalted with
    | ended hprogress =>
        rw [hprogress]
        exact ⟨[], hnew, .nil _, .of_plain (List.forall_mem_nil _) _⟩
    | skipped hgoes hprogress hword =>
        rw [hprogress]
        exact ⟨new, hnew, counted_of_skipped hword,
          .of_plain (Only.plain_skipped _ _ new hword) _⟩
  · cases hnone

theorem run_reports (hcounts : setup.accelerator.CountsSteps) {horizon : Nat} {data : Batches β}
    {outputs : Processed} (hsink : r.trainer.log.sink.isSome)
    (hevery : r.trainer.log.logEvery = every)
    (h : (run setup loop horizon data).runOn r = (.ok (some outputs), r'))
    (hn : r.trainer.callbacks.length = n) :
    r'.trainer.callbacks.length = n ∧ r.trainer.Reports every r.progress r'.trainer r'.progress := by
  obtain ⟨kept, r₁, hbatches, hfinish⟩ := run_ok h
  obtain ⟨hn₁, hreports⟩ :=
    batches_reports hcounts (start_at setup data r) hsink hevery hbatches hn
  obtain ⟨hn', ended, hended, hword⟩ := (finish_emits setup kept).of_run hfinish hn₁
  have hlast : r₁.trainer.Reports every r₁.progress r'.trainer r₁.progress :=
    .of_word hended hword (Only.epochEnded setup n r₁.progress _).rests
      (Only.plain_epochEnded setup n r₁.progress _)
  obtain ⟨-, trainer, -, -, rfl⟩ := finish_ok hfinish
  exact ⟨hn', hreports.trans hlast⟩

end EpochStep

/-! ## The whole run -/

namespace FitStep

open Trainer Stateful Trace

variable {setup : Setup W β} {loop : BatchLoop σ β} {horizon every n : Nat}
  {data : Nat → Batches β} {r r' : FitRun σ W β}

theorem nextEpoch_reports (hcounts : setup.accelerator.CountsSteps) {outputs : Processed}
    (hsink : r.trainer.log.sink.isSome) (hevery : r.trainer.log.logEvery = every)
    (h : (nextEpoch setup loop horizon data).runOn r = (.ok (some outputs), r'))
    (hn : r.trainer.callbacks.length = n) :
    r'.trainer.callbacks.length = n ∧ r.trainer.Reports every r.progress r'.trainer r'.progress := by
  cases nextEpoch_ran h with
  | @closed t₁ t₂ e _ closed _ _ hresolved hcall hepoch hclose hresult =>
      obtain ⟨hn₂, begun, hbegun, hword⟩ := begins_traced hresolved hcall hn
      have hstart : r.trainer.Reports every r.progress t₂ r.progress :=
        .of_word hbegun hword (Only.epochBegun_rests _ _ _ _)
          (Only.plain_epochBegun _ _ _ _)
      have hlogger : SameLogger r.trainer t₂ :=
        TrainerStep.framed_sameLogger.aside _ _ (begins_aside hresolved hcall)
      obtain ⟨hn₃, htrained⟩ := EpochStep.run_reports hcounts (hlogger.sink.trans hsink)
        (hlogger.logEvery.trans hevery) hepoch hn₂
      obtain ⟨hn', ended, hended, hleaves⟩ := (closeEpoch_emits setup e.counters).of_run hclose hn₃
      cases closed with
      | error e => cases hresult
      | ok _ =>
          have hlast : e.trainer.Reports every e.progress r'.trainer e.progress :=
            .of_word hended hleaves (Only.epochClosed n e.progress).rests
              (Only.plain_epochClosed n e.progress)
          rw [closeEpoch_progress hclose]
          exact ⟨hn', hstart.trans (htrained.trans hlast)⟩

theorem Ran.reports (hcounts : setup.accelerator.CountsSteps) {c c' : Completed}
    (hsink : r.trainer.log.sink.isSome) (h : Ran setup loop horizon data r c r' c')
    (hn : r.trainer.callbacks.length = n) :
    r.trainer.Reports r.trainer.log.logEvery r.progress r'.trainer r'.progress := by
  refine (h.preserves (J := fun r₀ _ => r₀.trainer.callbacks.length = n ∧
    SameLogger r.trainer r₀.trainer ∧
    r.trainer.Reports r.trainer.log.logEvery r.progress r₀.trainer r₀.progress) ?_
    ⟨hn, refl_of SameLogger _, .refl _ _⟩).2.2
  rintro r₀ c outputs r₁ ⟨hn₀, hlogger, hreports⟩ hgoes hepoch
  have hdeclined : SameLogger r₀.trainer (r₀.declineStop setup.config).trainer :=
    TrainerStep.framed_sameLogger.aside _ _ (declineStop_aside setup.config r₀)
  have hbefore := trans_of SameLogger hlogger hdeclined
  obtain ⟨hevents, hcallbacks⟩ := declineStop_events setup.config r₀
  rw [← hcallbacks] at hn₀
  obtain ⟨hn₁, hnext⟩ := nextEpoch_reports hcounts (hbefore.sink.trans hsink) hbefore.logEvery
    hepoch hn₀
  have hran : SameLogger (r₀.declineStop setup.config).trainer r₁.trainer :=
    (nextEpoch_framed TrainerStep.framed_sameLogger horizon data).of_ok hepoch
  refine ⟨hn₁, trans_of SameLogger hbefore hran, hreports.trans ?_⟩
  rwa [Trainer.Reports, hevents, declineStop_progress] at hnext

theorem run_reports (hcounts : setup.accelerator.CountsSteps) {fit : FitResult}
    (hsink : r.trainer.log.sink.isSome)
    (h : (run setup loop horizon data).runOn r = (.ok (some fit), r')) :
    r.trainer.Reports r.trainer.log.logEvery r.progress r'.trainer r'.progress := by
  obtain ⟨worker, r₁, reason, completed, hset, hran, rfl, -⟩ := run_returns h
  obtain ⟨-, first, hfirst, hword⟩ := begun_traced setup worker (r := r) rfl
  have hstart : r.trainer.Reports r.trainer.log.logEvery r.progress (begun setup worker r).trainer
      r.progress := by
    refine .of_word hfirst hword (.mul (.single ?_) (Only.told _ _ _ _).rests)
      ((Only.single ⟨rfl, rfl⟩).mul (Only.plain_told _ _ _ _))
    exact ⟨trivial, rfl, rfl, rfl⟩
  have hlogger : SameLogger r.trainer (begun setup worker r).trainer :=
    TrainerStep.framed_sameLogger.aside _ _ (begun_aside setup worker r)
  have hepochs := hran.reports hcounts (hlogger.sink.trans hsink) rfl
  rw [hlogger.logEvery] at hepochs
  obtain ⟨told, htold, hend⟩ := tellEnd_traced setup reason completed r₁
  exact hstart.trans (hepochs.trans (.of_word htold hend (Only.told _ _ _ _).rests
    (Only.plain_told _ _ _ _)))

/-- The steps at which a run with a logger logs. A record has the step that the optimizer steps
before it amount to. So steps never go down from one record to the next, and they go up just if
there is an optimizer step between any two records: batches within one window are logged with one
step. Every record is one that a batch has to give, in the order of the batches, and at the steps
that close a group of the cadence no such record is left out. -/
theorem run_loggedSteps (hcounts : setup.accelerator.CountsSteps) {fit : FitResult}
    (hsink : r.trainer.log.sink.isSome)
    (h : (run setup loop horizon data).runOn r = (.ok (some fit), r')) :
    ∃ new, r'.trainer.events.toList = r.trainer.events.toList ++ new ∧
      (∀ before record after, new = before ++ .logged record :: after →
        record.step = r.progress.globalStep + before.countP RunEvent.isStep) ∧
      (new.filterMap RunEvent.record?).Pairwise (fun first second => first.step ≤ second.step) ∧
      ((new.filterMap RunEvent.record?).Pairwise (fun first second => first.step < second.step) ↔
        ∀ before first between second after,
          new = before ++ .logged first :: (between ++ .logged second :: after) →
          between.any RunEvent.isStep = true) ∧
      (new.filterMap RunEvent.record?).Sublist (r.progress.reports new) ∧
      (new.filterMap RunEvent.record?).filter
          (MetricsLog.closesGroup r.trainer.log.logEvery ·.step) =
        (r.progress.reports new).filter (MetricsLog.closesGroup r.trainer.log.logEvery ·.step) := by
  obtain ⟨new, hnew, hcounted, hreported⟩ := run_reports hcounts hsink h
  refine ⟨new, hnew, ?_, hcounted.tells.ordered, hcounted.tells.ascending_iff, hreported.sublist,
    hreported.closing⟩
  rintro before record after rfl
  exact hcounted.tells.step_eq

def loggedWindows : Setup Unit Unit :=
  { config := { maxEpochs := 1, accumulateGradBatches := 2, logEveryNSteps := 1 } }

def freshLogging : FitRun SyntheticWorker Unit Unit :=
  let fresh := freshSynthetic loggedWindows
  { fresh with
    trainer := { fresh.trainer with
      log := { fresh.trainer.log with sink := some (.memory {}) } } }

/-- With a cadence of one step all batches are logged, the two of the first window with one step. -/
theorem run_loggedSteps_threeBatches :
    ∃ (fit : FitResult) (r' : FitRun SyntheticWorker Unit Unit),
      (run loggedWindows (SyntheticModel.batchLoop {} Unit) 4 fun _ => .exact 3 fun _ => ()).runOn
        freshLogging = (.ok (some fit), r') ∧
      r'.trainer.events.toList.filterMap RunEvent.record? =
        Progress.reports {} r'.trainer.events.toList ∧
      (r'.trainer.events.toList.filterMap RunEvent.record?).map LogRecord.step = [0, 0, 1] := by
  let action := run loggedWindows (SyntheticModel.batchLoop {} Unit) 4
    fun _ => .exact 3 fun _ => ()
  have hreturns : (Stateful.returned? action freshLogging).isSome = true := by
    decide +kernel
  have hsteps : ((action.runOn freshLogging).2.trainer.events.toList.filterMap
      RunEvent.record?).map LogRecord.step = [0, 0, 1] := by
    decide +kernel
  obtain ⟨fit, hfit⟩ := Option.isSome_iff_exists.1 hreturns
  obtain ⟨r', hrun⟩ := Stateful.returned?_eq_some hfit
  obtain ⟨new, hnew, -, -, -, -, hall⟩ :=
    run_loggedSteps Accelerator.countsSteps_default rfl hrun
  have hevery (step : Nat) :
      MetricsLog.closesGroup freshLogging.trainer.log.logEvery step = true := by
    simp [MetricsLog.closesGroup, freshLogging, freshSynthetic, ofSetup, loggedWindows, Nat.mod_one]
  rw [List.filter_eq_self.2 fun _ _ => hevery _, List.filter_eq_self.2 fun _ _ => hevery _] at hall
  obtain rfl : r'.trainer.events.toList = new := hnew
  rw [hrun] at hsteps
  exact ⟨fit, r', hrun, hall, hsteps⟩

/-- Two batches of one window are logged with the same step. -/
theorem run_window_loggedTwice :
    ∃ (fit : FitResult) (r' : FitRun SyntheticWorker Unit Unit),
      (run loggedWindows (SyntheticModel.batchLoop {} Unit) 3 fun _ => .exact 2 fun _ => ()).runOn
        freshLogging = (.ok (some fit), r') ∧
      (r'.trainer.events.toList.filterMap RunEvent.record?).map LogRecord.step = [0, 0] ∧
      ¬ (r'.trainer.events.toList.filterMap RunEvent.record?).Pairwise
        (fun first second => first.step < second.step) := by
  let action := run loggedWindows (SyntheticModel.batchLoop {} Unit) 3
    fun _ => .exact 2 fun _ => ()
  have hreturns : (Stateful.returned? action freshLogging).isSome = true := by
    decide +kernel
  have hsteps : ((action.runOn freshLogging).2.trainer.events.toList.filterMap
      RunEvent.record?).map LogRecord.step = [0, 0] := by
    decide +kernel
  obtain ⟨fit, hfit⟩ := Option.isSome_iff_exists.1 hreturns
  obtain ⟨r', hrun⟩ := Stateful.returned?_eq_some hfit
  rw [hrun] at hsteps
  refine ⟨fit, r', hrun, hsteps, fun hascending => ?_⟩
  rw [← List.pairwise_map (f := LogRecord.step) (R := (· < ·)), hsteps] at hascending
  simp at hascending

end FitStep

end TrainingLoop
