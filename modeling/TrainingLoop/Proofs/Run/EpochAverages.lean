import TrainingLoop.Proofs.Metric.Averages
import TrainingLoop.Proofs.Run.EpochMetrics
import TrainingLoop.Proofs.Run.EpochEnd
import TrainingLoop.Proofs.Run.Lockstep
import TrainingLoop.Proofs.Run.OptimizerSteps
import TrainingLoop.Proofs.Run.StopProtocol
/-!
# The averages of the epochs of a run

The averages of an epoch are those over the batches that it completed, whatever happened in the
epochs before. They are its entry of the history, callbacks are shown them at its end, and the epoch
schedules of the board that are due advance with them after it unless a validation reports a metric
of the same name (`FitStep.run_epochAverages`).
-/

namespace TrainingLoop

variable {σ W β : Type}

def RunEvent.isSignalled : RunEvent β → Bool
  | .signalled _ => true
  | _ => false

/-- All batches pulled are completed but those on which the batch loop asked to end the epoch. -/
def Settled (events : List (RunEvent β)) : Prop :=
  events.countP RunEvent.isPulled =
    (events.filterMap RunEvent.outputs?).length + events.countP RunEvent.isSignalled

structure RunEvent.Idle (event : RunEvent β) : Prop where
  outputs? : event.outputs? = none
  isPulled : event.isPulled = false
  isSignalled : event.isSignalled = false

theorem RunEvent.Quiet.idle {p : Progress} {event : RunEvent β} (h : event.Quiet p)
    (hplain : event.Plain) : event.Idle := by
  refine ⟨hplain.outputs?, h.unpulled, ?_⟩
  cases event <;> first | exact h.elim | rfl

namespace Settled

variable {events more : List (RunEvent β)}

theorem append (h : Settled events) (h' : Settled more) : Settled (events ++ more) := by
  rw [Settled] at *
  rw [List.countP_append, List.countP_append, List.filterMap_append, List.length_append]
  omega

theorem of_idle (h : ∀ event ∈ events, event.Idle) : Settled events := by
  have hpulled : events.countP RunEvent.isPulled = 0 :=
    List.countP_eq_zero.2 fun event hevent => by simp [(h event hevent).isPulled]
  have hsignalled : events.countP RunEvent.isSignalled = 0 :=
    List.countP_eq_zero.2 fun event hevent => by simp [(h event hevent).isSignalled]
  have hnone : events.filterMap RunEvent.outputs? = [] :=
    List.filterMap_eq_nil_iff.2 fun event hevent => (h event hevent).outputs?
  rw [Settled, hpulled, hsignalled, hnone]
  rfl

end Settled

namespace Only

theorem idle_bare (event : RunEvent β) (h : event.isBare = true) : event.Idle := by
  cases event <;> first | exact ⟨rfl, rfl, rfl⟩ | cases h

theorem idle_epochBegun (setup : Setup W β) (n epoch : Nat) (p : Progress) :
    Only RunEvent.Idle (Trace.epochBegun setup n epoch p) := by
  have hanswered : (setup.answered .trainEpochStart).Idle := by
    unfold Setup.answered
    split <;> exact ⟨rfl, rfl, rfl⟩
  exact mul (single ⟨rfl, rfl, rfl⟩)
    (called_of idle_bare .trainEpochStart (fun _ _ => ⟨rfl, rfl, rfl⟩) setup hanswered n p)

theorem idle_epochClosed (n : Nat) (p : Progress) :
    Only RunEvent.Idle (Trace.epochClosed n p : Language (RunEvent β)) :=
  epochClosed_of idle_bare (fun _ _ => ⟨rfl, rfl, rfl⟩) n p

end Only

namespace Trace

variable {setup : Setup W β} {n : Nat} {p : Progress} {handed : Handed β} {dataloader : Nat}
  {outputs : Processed} {steps : Bool} {word : List (RunEvent β)}

theorem settled_completed
    (h : word ∈ trained setup n p handed dataloader outputs * upkeep n p steps) :
    Settled word := by
  have hbare (event : RunEvent β) (hevent : event.isBare = true) : event.isSignalled = false := by
    cases event <;> first | rfl | cases hevent
  have hanswered (call : HookCall β) : (setup.answered call).isSignalled = false := by
    unfold Setup.answered
    split <;> rfl
  have hunsignalled : word.countP RunEvent.isSignalled = 0 := by
    refine List.countP_eq_zero.2 fun event hevent => ?_
    have hnone := Only.completed_of hbare (fun _ _ => rfl) (fun _ _ _ => rfl) (fun _ _ _ _ => rfl)
      (fun _ => rfl) hanswered n word (le_completed _ _ _ _ _ _ _ h) event hevent
    simp [hnone]
  rw [Settled, countP_completed h, outputs_of_completed h, hunsignalled]
  rfl

theorem settled_skipped (h : word ∈ skipped handed dataloader) : Settled word := by
  obtain ⟨_, ⟨_, rfl, _, rfl, rfl⟩, _, rfl, rfl⟩ := h
  rfl

end Trace

/-! ## The batches of an epoch -/

/-- The second trainer comes from the first by batches that are settled, and its log has taken in
the outputs of those completed. -/
def Trainer.TakesIn (t t' : Trainer W β) : Prop :=
  ∃ new, t'.events.toList = t.events.toList ++ new ∧ Settled new ∧
    (t.log.takeInAll (new.filterMap RunEvent.outputs?)).Agrees t'.log

namespace Trainer.TakesIn

variable {t t' t'' : Trainer W β}

theorem refl (t : Trainer W β) : t.TakesIn t :=
  ⟨[], (List.append_nil _).symm, rfl, .refl t.log⟩

theorem trans (h : t.TakesIn t') (h' : t'.TakesIn t'') : t.TakesIn t'' := by
  obtain ⟨new, hnew, hsettled, htaken⟩ := h
  obtain ⟨more, hmore, hsettled', htaken'⟩ := h'
  refine ⟨new ++ more, events_trans hnew hmore, hsettled.append hsettled', ?_⟩
  rw [List.filterMap_append, MetricsLog.takeInAll_append]
  exact (htaken.takeInAll _).trans htaken'

end Trainer.TakesIn

namespace EpochStep

open Trainer Stateful Trace

variable {setup : Setup W β} {loop : BatchLoop σ β} {n : Nat} {r r₁ r₂ r' : EpochRun σ W β}

theorem batch_takesIn {feed : Feed β} {more : KeptOutputs} (hphase : r.phase = .running feed)
    (hadvance : (advance setup loop).runOn r = (.ok (.completed more), r₁))
    (hend : (advanceEnd setup loop).runOn r₁ = (.ok (), r₂)) (hn : r.trainer.callbacks.length = n) :
    r₂.trainer.callbacks.length = n ∧ r.trainer.TakesIn r₂.trainer := by
  obtain ⟨hn₂, handed, feed', new, hnext, hnew, hword⟩ := batch_traced hphase hadvance hend hn
  refine ⟨hn₂, new, hnew, settled_completed hword, ?_⟩
  rw [outputs_of_completed hword]
  exact (advance_metrics hadvance hphase hnext).trans (advanceEnd_sameMetrics hend)

theorem ends_takesIn {feed : Feed β} (hphase : r.phase = .running feed)
    (h : Ends setup loop r r') (hn : r.trainer.callbacks.length = n) :
    r'.trainer.callbacks.length = n ∧ r.trainer.TakesIn r'.trainer := by
  cases h with
  | done hdone => exact ⟨hn, .refl _⟩
  | exhausted hgoes hexhausted =>
      cases advance_ok hexhausted with
      | exhausted hphase' hnone => exact ⟨hn, .refl _⟩
  | skipped hgoes hskipped =>
      obtain ⟨handed, feed', hnext⟩ := next_of_advance hskipped hphase nofun
      obtain ⟨hn', new, hnew, hword⟩ := advance_traced hskipped hphase hnext hn
      have hnone : new.filterMap RunEvent.outputs? = [] :=
        List.filterMap_eq_nil_iff.2 fun event hevent =>
          (Only.plain_skipped _ _ new hword event hevent).outputs?
      refine ⟨hn', new, hnew, settled_skipped hword, ?_⟩
      rw [hnone]
      exact advance_metrics hskipped hphase hnext

theorem batches_takesIn {horizon b : Nat} {B : Batches β} {kept kept' : KeptOutputs}
    (hat : r.AtBatch B b) (h : (batches setup loop horizon kept).runOn r = (.ok (some kept'), r'))
    (hn : r.trainer.callbacks.length = n) :
    r'.trainer.callbacks.length = n ∧ r.trainer.TakesIn r'.trainer := by
  have hends := batches_ok (I := fun _ r₀ _ => r₀.trainer.callbacks.length = n ∧
      (∃ m, r₀.AtBatch B m) ∧ r.trainer.TakesIn r₀.trainer)
    (fun _ r₀ _ more r₂ r₃ hI hgoes hadvance hend => by
      obtain ⟨hn₀, ⟨m, hat₀⟩, htaken⟩ := hI
      obtain ⟨feed, hphase, -⟩ := hat₀.feed
      obtain ⟨hn₃, hbatch⟩ := batch_takesIn hphase hadvance hend hn₀
      exact ⟨hn₃, ⟨m + 1, step_at hat₀ hadvance hend⟩, htaken.trans hbatch⟩)
    (n := 0) ⟨hn, ⟨b, hat⟩, .refl _⟩ h
  obtain ⟨_, m, r₀, -, ⟨hn₀, ⟨m, hat₀⟩, htaken⟩, hends⟩ | ⟨_, hnone, -⟩ := hends
  · obtain ⟨feed, hphase, -⟩ := hat₀.feed
    obtain ⟨hn', hlast⟩ := ends_takesIn hphase hends hn₀
    exact ⟨hn', htaken.trans hlast⟩
  · cases hnone

structure Averaged (events : List (RunEvent β)) (entry : Option Metrics) (t t' : Trainer W β) :
    Prop where
  settled : Settled events
  drained : t'.log.epochValues = ∅
  history : t'.log.history = t.log.history ++ entry.toList
  entryOf : EntryOf (events.filterMap RunEvent.outputs?) entry
  latest : ∀ key mean, epochMean? key (events.filterMap RunEvent.outputs?) = some mean →
    t'.log.latest.get? (key ++ epochSuffix) = some mean
  shown : ∀ event ∈ events, event.endsEpoch = true → event.ShowsMetrics t'.log.latest

/-- An epoch that starts without values has the averages of its own batches in the end. -/
theorem run_averaged {horizon : Nat} {data : Batches β} {outputs : Processed}
    (hempty : r.trainer.log.epochValues = ∅)
    (h : (run setup loop horizon data).runOn r = (.ok (some outputs), r'))
    (hn : r.trainer.callbacks.length = n) :
    r'.trainer.callbacks.length = n ∧
      ∃ new entry, r'.trainer.events.toList = r.trainer.events.toList ++ new ∧
        Averaged new entry r.trainer r'.trainer := by
  obtain ⟨kept, r₁, hbatches, hfinish⟩ := run_ok h
  obtain ⟨hn₁, trained, htrained, hsettled, htaken⟩ :=
    batches_takesIn (start_at setup data r) hbatches hn
  obtain ⟨-, trained', htrained', hleaves⟩ := batches_traced (start_at setup data r) hbatches hn
  obtain rfl : trained' = trained := List.append_cancel_left (htrained'.symm.trans htrained)
  obtain ⟨hn', ended, hended, hword⟩ := (finish_emits setup kept).of_run hfinish hn₁
  obtain ⟨hclosed, ended', hended', hshown⟩ := finish_shows hfinish
  obtain rfl : ended' = ended := List.append_cancel_left (hended'.symm.trans hended)
  have hplain := Only.plain_epochEnded setup n r₁.progress _ ended' hword
  have hquiet := Only.epochEnded setup n r₁.progress _ ended' hword
  have hbatches : (trained' ++ ended').filterMap RunEvent.outputs? =
      trained'.filterMap RunEvent.outputs? := by
    have hnone : ended'.filterMap RunEvent.outputs? = [] :=
      List.filterMap_eq_nil_iff.2 fun event hevent => (hplain event hevent).outputs?
    rw [List.filterMap_append, hnone, List.append_nil]
  obtain ⟨hdrained, ⟨entry, hhistory, hentry⟩, hlatest⟩ :=
    MetricsLog.closeEpoch_averages hempty htaken
  rw [← hclosed] at hdrained hhistory hlatest hshown
  refine ⟨hn', trained' ++ ended', entry, events_trans htrained hended, ?_⟩
  refine ⟨?_, hdrained, hhistory, ?_, ?_, ?_⟩
  · exact hsettled.append (.of_idle fun event hevent =>
      (hquiet event hevent).idle (hplain event hevent))
  · rw [hbatches]
    exact hentry
  · rw [hbatches]
    exact hlatest
  · intro event hevent hends
    rcases List.mem_append.1 hevent with hin | hin
    · rw [Only.unended_epochTrained setup n trained' hleaves event hin] at hends
      cases hends
    · exact hshown event hin

end EpochStep

/-! ## The epochs of a run -/

/-- What an epoch leaves: its events, its entry of the history if it has one, and the tick of the
epoch schedules after it. -/
structure EpochAccount (β : Type) where
  events : List (RunEvent β)
  entry : Option Metrics
  tick : RateTick

namespace EpochAccount

def batches (a : EpochAccount β) : List Processed := a.events.filterMap RunEvent.outputs?

/-- The averages of the epoch with the given index are those over its own batches, wherever they
are read. The schedules are those of the board as the epoch's tick finds them. -/
structure Averages (setup : Setup W β) (epoch : Nat) (schedules : List ScheduledRate)
    (a : EpochAccount β) : Prop where
  settled : Settled a.events
  entryOf : EntryOf a.batches a.entry
  shown : ∀ position event context, .callback position event context ∈ a.events →
    event.endsEpoch = true → ∀ key mean, epochMean? key a.batches = some mean →
      context.metrics.get? (key ++ epochSuffix) = some mean
  fed : ∀ key mean, epochMean? key a.batches = some mean →
    setup.Unreported epoch (key ++ epochSuffix) → ∀ s ∈ schedules, s.interval = .epoch →
      s.due = true → s.monitor = some (key ++ epochSuffix) →
        s.input? a.tick = some (some mean) ∧ (s.after a.tick).schedule = s.schedule.observe mean

/-- What precedes and follows the batches and the last hooks of an epoch does not matter to its
averages, as long as the tick reads what the log has in the end. -/
theorem Averages.of_averaged {setup : Setup W β} {epoch : Nat} {entry : Option Metrics}
    {begun trained ended : List (RunEvent β)} {metrics : Metrics} {t t' : Trainer W β}
    (hidle : ∀ event ∈ begun ++ ended, event.Idle)
    (hunended : ∀ event ∈ begun ++ ended, event.endsEpoch = false)
    (h : EpochStep.Averaged trained entry t t')
    (hread : ∀ name, setup.Unreported epoch name → metrics.get? name = t'.log.latest.get? name)
    (schedules : List ScheduledRate) :
    Averages setup epoch schedules ⟨begun ++ (trained ++ ended), entry, ⟨.epoch, metrics⟩⟩ := by
  obtain ⟨hbegun, hended⟩ := List.forall_mem_append.1 hidle
  have hbatches : (begun ++ (trained ++ ended)).filterMap RunEvent.outputs? =
      trained.filterMap RunEvent.outputs? := by
    have hnone {events : List (RunEvent β)} (hevents : ∀ event ∈ events, event.Idle) :
        events.filterMap RunEvent.outputs? = [] :=
      List.filterMap_eq_nil_iff.2 fun event hevent => (hevents event hevent).outputs?
    rw [List.filterMap_append, List.filterMap_append, hnone hbegun, hnone hended,
      List.append_nil, List.nil_append]
  constructor
  · exact (Settled.of_idle hbegun).append (h.settled.append (.of_idle hended))
  · rw [batches, hbatches]
    exact h.entryOf
  · intro position event context hevent hlast key mean hmean
    rw [batches, hbatches] at hmean
    have hin : .callback position event context ∈ trained := by
      rcases List.mem_append.1 hevent with hin | hin
      · cases hlast.symm.trans (hunended _ (List.mem_append_left ended hin))
      · rcases List.mem_append.1 hin with hin | hin
        · exact hin
        · cases hlast.symm.trans (hunended _ (List.mem_append_right begun hin))
    have hshown : context.metrics = t'.log.latest := h.shown _ hin hlast
    rw [hshown]
    exact h.latest key mean hmean
  · intro key mean hmean hunreported s _ hinterval hdue hmonitor
    rw [batches, hbatches] at hmean
    have hvalue := (hread _ hunreported).trans (h.latest key mean hmean)
    have hinput : s.input? ⟨.epoch, metrics⟩ = some (some mean) := by
      rw [ScheduledRate.input?, if_pos ⟨hinterval, hdue⟩, hmonitor]
      exact congrArg (Option.map some) hvalue
    exact ⟨hinput, ScheduledRate.after_schedule_of_input hinput⟩

end EpochAccount

namespace FitStep

open Trainer Stateful Trace

variable {setup : Setup W β} {loop : BatchLoop σ β} {horizon n : Nat} {data : Nat → Batches β}
  {r r' : FitRun σ W β}

theorem nextEpoch_averages {outputs : Processed} (hempty : r.trainer.log.epochValues = ∅)
    (h : (nextEpoch setup loop horizon data).runOn r = (.ok (some outputs), r')) :
    ∃ (a : EpochAccount β) (ticks : List RateTick),
      r'.trainer.events.toList = r.trainer.events.toList ++ a.events ∧
      (∀ schedules, a.Averages setup r.currentEpoch schedules) ∧
      r'.trainer.log.epochValues = ∅ ∧
      r'.trainer.log.history = r.trainer.log.history ++ a.entry.toList ∧
      Ticked ticks r.trainer r'.trainer ∧
      ticks.filter (fun t => t.interval = .epoch) = [a.tick] := by
  obtain ⟨t₁, t₂, e, hresolve, hcall, hepoch, hclose⟩ := nextEpoch_begins h
  obtain ⟨hn₂, begun, hbegun, hstarts⟩ := begins_traced hresolve hcall rfl
  have hstart : r.trainer.SameMetrics t₂ := (begins_aside hresolve hcall).sameMetrics
  obtain ⟨hn₃, trained, entry, htrained, haveraged⟩ :=
    EpochStep.run_averaged (hstart.epochValues.trans hempty) hepoch hn₂
  obtain ⟨-, ended, hended, hends⟩ :=
    (closeEpoch_emits setup e.counters).of_run (hclose rfl) hn₃
  have hclosed : e.trainer.SameMetrics r'.trainer :=
    Aside.sameMetrics ((closeEpoch_aside e.counters).of_ok (hclose rfl))
  have hcurrent : e.trainer.state.currentEpoch = r.currentEpoch := by
    obtain ⟨-, -, -, -, -, hcurrent, -⟩ := epoch_starts hresolve hcall
    exact (EpochStep.run_follows hepoch).currentEpoch.trans hcurrent
  obtain ⟨t₃, t₄, hevaluate, htick, rfl⟩ := closeEpoch_ok (hclose rfl)
  obtain ⟨ticks, hticks⟩ := EpochStep.run_ticked hepoch
  have hticked := (evaluateEpoch_ticked hevaluate).trans (.tick htick)
  have haverages : ∀ schedules, EpochAccount.Averages setup r.currentEpoch schedules
      ⟨begun ++ (trained ++ ended), entry, ⟨.epoch, t₃.log.latest⟩⟩ := by
    refine .of_averaged ?_ ?_ haveraged fun name hunreported => ?_
    · exact List.forall_mem_append.2 ⟨Only.idle_epochBegun _ _ _ _ begun hstarts,
        Only.idle_epochClosed _ _ ended hends⟩
    · exact List.forall_mem_append.2 ⟨Only.unended_epochBegun _ _ _ _ begun hstarts,
        Only.unended_epochClosed _ _ ended hends⟩
    · exact evaluateEpoch_latest (hcurrent ▸ hunreported) hevaluate
  have hhistory : t₄.log.history = t₂.log.history ++ entry.toList :=
    hclosed.history.trans haveraged.history
  rw [hstart.history] at hhistory
  refine ⟨_, ticks ++ [⟨.epoch, t₃.log.latest⟩],
    events_trans hbegun (events_trans htrained hended), haverages,
    hclosed.epochValues.trans haveraged.drained, hhistory,
    (begins_ticked hresolve hcall).trans (hticks.trainer.trans hticked), ?_⟩
  have hsteps : ticks.filter (fun t => t.interval = .epoch) = [] :=
    List.filter_eq_nil_iff.2 fun t ht => by simp [hticks.interval t ht]
  rw [List.filter_append, hsteps]
  rfl

theorem exists_split_of_tick {ticks : List RateTick} {accounts : List (EpochAccount β)} {i : Nat}
    {a : EpochAccount β}
    (hticks : ticks.filter (fun t => t.interval = .epoch) = accounts.map EpochAccount.tick)
    (ha : accounts[i]? = some a) :
    ∃ before later, ticks = before ++ a.tick :: later ∧
      before.filter (fun t => t.interval = .epoch) = (accounts.take i).map EpochAccount.tick := by
  obtain ⟨hi, rfl⟩ := List.getElem?_eq_some_iff.1 ha
  rw [← List.take_append_drop i accounts, List.drop_eq_getElem_cons hi, List.map_append,
    List.map_cons, List.filter_eq_append_iff] at hticks
  obtain ⟨before, rest, rfl, hbefore, hrest⟩ := hticks
  obtain ⟨between, later, rfl, hbetween, -⟩ := List.filter_eq_cons_iff.1 hrest
  refine ⟨before ++ between, later, (List.append_assoc ..).symm, ?_⟩
  rw [List.filter_append, hbefore, List.filter_eq_nil_iff.2 hbetween, List.append_nil]

structure Accounted (setup : Setup W β) (n first : Nat) (t : Trainer W β)
    (accounts : List (EpochAccount β)) (ticks : List RateTick) (t' : Trainer W β) : Prop where
  drained : t'.log.epochValues = ∅
  history : t'.log.history = t.log.history ++ accounts.filterMap EpochAccount.entry
  ticked : Ticked ticks t t'
  ticks : ticks.filter (fun t => t.interval = .epoch) = accounts.map EpochAccount.tick
  averages : ∀ i a, accounts[i]? = some a →
    a.events ∈ wholeEpoch setup n (first + i) ∧
      ∀ schedules, a.Averages setup (first + i) schedules

theorem Ran.accounted {c c' : Completed} (hempty : r.trainer.log.epochValues = ∅)
    (h : Ran setup loop horizon data r c r' c') :
    ∃ (accounts : List (EpochAccount β)) (ticks : List RateTick),
      r'.trainer.events.toList =
        r.trainer.events.toList ++ (accounts.map EpochAccount.events).flatten ∧
      c'.epochs = c.epochs + accounts.length ∧
      Accounted setup r.trainer.callbacks.length r.currentEpoch r.trainer accounts ticks
        r'.trainer := by
  have hall := h.epochwise (J := fun r₀ epochs => ∃ accounts ticks,
    epochs = accounts.map EpochAccount.events ∧
    Accounted setup r.trainer.callbacks.length r.currentEpoch r.trainer accounts ticks
      r₀.trainer) ?_ ?_
  · obtain ⟨_, hevents, hcount, accounts, ticks, rfl, haccounted⟩ := hall
    rw [List.length_map] at hcount
    exact ⟨accounts, ticks, hevents, hcount, haccounted⟩
  · rintro r₀ epochs outputs r₁ new ⟨accounts, ticks, rfl, haccounted⟩ hcurrent hnext hnew hword
    have hdeclined : r₀.trainer.SameMetrics (r₀.declineStop setup.config).trainer :=
      (declineStop_aside setup.config r₀).sameMetrics
    obtain ⟨a, more, hevents, haverages, hdrained, hhistory, hticked, hticks⟩ :=
      nextEpoch_averages (hdeclined.epochValues.trans haccounted.drained) hnext
    rw [(declineStop_events setup.config r₀).1] at hevents
    obtain rfl : a.events = new := List.append_cancel_left (hevents.symm.trans hnew)
    rw [List.length_map] at hcurrent
    rw [declineStop_currentEpoch, hcurrent] at haverages
    rw [hcurrent] at hword
    refine ⟨accounts ++ [a], ticks ++ ([] ++ more), by rw [List.map_append]; rfl, hdrained, ?_,
      haccounted.ticked.trans
        ((FitRun.declineStop_lockstep setup.config r₀).trainer.trans hticked), ?_,
      indexed_snoc haccounted.averages ⟨hword, haverages⟩⟩
    · rw [hhistory, hdeclined.history, haccounted.history, List.filterMap_append, List.append_assoc,
        List.filterMap_cons]
      cases a.entry <;> rfl
    · rw [List.nil_append, List.filter_append, haccounted.ticks, hticks, List.map_append]
      rfl
  · exact ⟨[], [], rfl, hempty, (List.append_nil _).symm, .of_eq rfl rfl, rfl, nofun⟩

/-- The averages of the epochs of a run that starts without values of an epoch. Each completed epoch
has an account: its events, in which every batch pulled is completed or is the one on which the
batch loop asked to end the epoch; its entry of the history, if any of the batches that it completed
has a metric; and the tick of the epoch schedules after it, the only one in the epoch. The entries
of the epochs are all that is new in the history. In each account the averages are those over the
batches completed in that epoch: in the entry, in all that callbacks are shown at the end of the
epoch, and, unless the evaluator reports a metric of that name, in that with which the epoch
schedules of the board that are due advance at the tick. -/
theorem run_epochAverages {fit : FitResult} (hfresh : r.trainer.log.epochValues = ∅)
    (h : (run setup loop horizon data).runOn r = (.ok (some fit), r')) :
    ∃ (begun rest : List (RunEvent β)) (accounts : List (EpochAccount β)) (ticks : List RateTick),
      r'.trainer.events.toList = r.trainer.events.toList ++
        (begun ++ ((accounts.map EpochAccount.events).flatten ++ rest)) ∧
      accounts.length = fit.epochsCompleted ∧
      r'.trainer.log.history =
        r.trainer.log.history ++ accounts.filterMap EpochAccount.entry ∧
      r'.trainer.board.rates = r.trainer.board.rates.map (·.afterAll ticks) ∧
      ticks.filter (fun t => t.interval = .epoch) = accounts.map EpochAccount.tick ∧
      ∀ i a, accounts[i]? = some a →
        a.events ∈ wholeEpoch setup r.trainer.callbacks.length (r.currentEpoch + i) ∧
        ∃ before later, ticks = before ++ a.tick :: later ∧
          before.filter (fun t => t.interval = .epoch) =
            (accounts.take i).map EpochAccount.tick ∧
          a.Averages setup (r.currentEpoch + i)
            (r.trainer.board.rates.map (·.afterAll before)) := by
  obtain ⟨worker, r₁, reason, completed, hset, hran, rfl, hcompleted, -⟩ := run_returns h
  obtain ⟨hn, first, hfirst, -⟩ := begun_traced setup worker (r := r) rfl
  have hbegun : r.trainer.SameMetrics (begun setup worker r).trainer :=
    (begun_aside setup worker r).sameMetrics
  obtain ⟨accounts, ticks, hevents, hcount, haccounted⟩ :=
    hran.accounted (hbegun.epochValues.trans hfresh)
  obtain ⟨told, htold, -⟩ := tellEnd_traced setup reason completed r₁
  have hended : r₁.trainer.SameMetrics (r₁.tellEnd setup reason completed).trainer :=
    (tellEnd_aside setup reason completed r₁).sameMetrics
  have hticked := (begun_ticked setup worker r).trans
    (haccounted.ticked.trans (tellEnd_ticked setup reason completed r₁))
  rw [List.nil_append, List.append_nil] at hticked
  have haverages := haccounted.averages
  rw [hn] at haverages
  refine ⟨first, told, accounts, ticks, events_trans hfirst (events_trans hevents htold), ?_, ?_,
    hticked.rates, haccounted.ticks, fun i a ha => ?_⟩
  · rw [hcompleted, hcount]
    exact (Nat.zero_add _).symm
  · rw [hended.history, haccounted.history, hbegun.history]
  · obtain ⟨before, later, hsplit, hbefore⟩ := exists_split_of_tick haccounted.ticks ha
    obtain ⟨hword, hown⟩ := haverages i a ha
    exact ⟨hword, before, later, hsplit, hbefore, hown _⟩

/-- Of two epochs with four batches each both have averages. -/
theorem run_epochAverages_twoWindows :
    ∃ (fit : FitResult) (r' : FitRun SyntheticWorker Unit Unit)
      (accounts : List (EpochAccount Unit)),
      (run twoWindows (SyntheticModel.batchLoop {} Unit) 5 fun _ => .exact 4 fun _ => ()).runOn
        (freshSynthetic twoWindows) = (.ok (some fit), r') ∧
      accounts.length = 2 ∧
      r'.trainer.log.history = accounts.filterMap EpochAccount.entry ∧
      ∀ a ∈ accounts, ∃ key, (epochMean? key a.batches).isSome = true := by
  let action := run twoWindows (SyntheticModel.batchLoop {} Unit) 5 fun _ => .exact 4 fun _ => ()
  have hreturns : (Stateful.returned? action (freshSynthetic twoWindows)).map
      FitResult.epochsCompleted = some 2 := by
    decide +kernel
  have hentries : (action.runOn (freshSynthetic twoWindows)).2.trainer.log.history.length = 2 := by
    decide +kernel
  obtain ⟨fit, hfit, htwo⟩ := Option.map_eq_some_iff.1 hreturns
  obtain ⟨r', hrun⟩ := Stateful.returned?_eq_some hfit
  obtain ⟨-, -, accounts, ticks, -, hlength, hhistory, -, -, haverages⟩ :=
    run_epochAverages rfl hrun
  have hall : r'.trainer.log.history = accounts.filterMap EpochAccount.entry := hhistory
  rw [hrun, hall] at hentries
  rw [htwo] at hlength
  have hsome : ∀ a ∈ accounts, a.entry.isSome = true := by
    obtain ⟨a, b, rfl⟩ := List.length_eq_two.1 hlength
    cases ha : a.entry <;> cases hb : b.entry <;> simp [ha, hb] at hentries
    simp [ha, hb]
  refine ⟨fit, r', accounts, hrun, hlength, hall, fun a ha => ?_⟩
  obtain ⟨i, hi⟩ := List.mem_iff_getElem?.1 ha
  obtain ⟨-, before, later, -, -, hown⟩ := haverages i a hi
  exact hown.entryOf.isSome_iff.1 (hsome a ha)

end FitStep

end TrainingLoop
