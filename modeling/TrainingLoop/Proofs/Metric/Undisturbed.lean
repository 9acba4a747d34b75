import Mathlib.Data.List.DropRight
import TrainingLoop.Proofs.Metric.Averages
import TrainingLoop.Proofs.Metric.Log
/-!
# A log beside its logger

What a log is asked to do it does alone first (`MetricsLog.settle`); then it calls its logger, if it
has one and the call is due. So whatever the logger answers, the metrics are those of a log without
one, and the logger only ever sees the calls that the cadence gives it (`undisturbed`). What a logger
sees is told by loggers that note it: any one from outside with its calls noted beside its world
(`OutsideLogger.noting`), and the one in memory.
-/

namespace TrainingLoop

variable {W : Type}

open JsonLines (Call recordsOf)

/-! ## Loggers that note their calls -/

namespace OutsideLogger

def noted (call : Call) (action : Stateful W Unit) : Stateful (W × List Call) Unit :=
  .of fun (world, calls) =>
    let (result, world) := action.runOn world
    (result, world, calls ++ [call])

/-- The logger, whatever it does and wherever it fails, with every call of it noted. -/
def noting (o : OutsideLogger W) : OutsideLogger (W × List Call) where
  name := o.name
  log record := noted (.log record) (o.log record)
  save := noted .save o.save

end OutsideLogger

namespace Sink

def after (s : Sink W) (world : W) (calls : List Call) : Sink W × W :=
  calls.foldl (fun state call => (state.1.meet state.2 call).2) (s, world)

theorem after_append (s : Sink W) (world : W) (calls more : List Call) :
    s.after world (calls ++ more) =
      (s.after world calls).1.after (s.after world calls).2 more :=
  List.foldl_append

theorem after_outside (o : OutsideLogger W) (world : W) (calls : List Call) :
    ((outside o).after world calls).1 = outside o := by
  induction calls using List.reverseRecOn with
  | nil => rfl
  | append_singleton calls call ih =>
      rw [after_append, ih]
      cases call <;> rfl

theorem after_noting (o : OutsideLogger W) (world : W) (before calls : List Call) :
    (outside o.noting).after (world, before) calls =
      (outside o.noting, ((outside o).after world calls).2, before ++ calls) := by
  induction calls using List.reverseRecOn with
  | nil => simp [after]
  | append_singleton calls call ih =>
      rw [after_append, ih, after_append, after_outside, ← List.append_assoc]
      cases call <;> rfl

theorem after_memory (m : MemoryLog) (world : W) (calls : List Call) :
    (memory m).after world calls =
      (memory {
        records := m.records.append (recordsOf calls)
        saves := m.saves + calls.countP (·.record?.isNone) }, world) := by
  induction calls using List.reverseRecOn with
  | nil => rfl
  | append_singleton calls call ih =>
      rw [after_append, ih]
      cases call with
      | log record =>
          simp [after, meet, Sink.log, recordsOf, Call.record?, Journal.append, Journal.push]
      | save =>
          simp [after, meet, Sink.save, recordsOf, Call.record?, Journal.append, Nat.add_assoc]

end Sink

namespace MetricsLog

inductive Request where
  | logStep (outputs : Processed) (step : Nat) (stopRequested : Bool)
  | publish (metrics : Metrics)
  | closeEpoch
  | save

namespace Request

/-- The record that a request has for the logger: there are means, and the step is the last of its
group or a stop was requested. -/
def record? (logEvery : Nat) : Request → Option LogRecord
  | .logStep outputs step stopRequested =>
    if outputs.means.isEmpty = false ∧ (0 < logEvery ∧ logEvery ∣ step + 1 ∨ stopRequested = true)
    then some ⟨step, outputs.means⟩
    else none
  | _ => none

def call? (logEvery : Nat) : Request → Option Call
  | .logStep outputs step stopRequested =>
    (record? logEvery (.logStep outputs step stopRequested)).map .log
  | .save => some .save
  | _ => none

theorem recordsOf_calls (logEvery : Nat) (requests : List Request) :
    recordsOf (requests.filterMap (call? logEvery)) = requests.filterMap (record? logEvery) := by
  rw [recordsOf, List.filterMap_filterMap]
  congr 1
  funext request
  cases request with
  | logStep outputs step stopRequested =>
      rw [call?]
      cases record? logEvery (.logStep outputs step stopRequested) <;> rfl
  | publish metrics => rfl
  | closeEpoch => rfl
  | save => rfl

def outputs? : Request → Option Processed
  | .logStep outputs _ _ => some outputs
  | _ => none

def closesEpoch : Request → Bool
  | .closeEpoch => true
  | _ => false

def openBatches (requests : List Request) : List Processed :=
  (requests.rtakeWhile fun request => !request.closesEpoch).filterMap outputs?

/-- A request gives a metric a value: the mean over the outputs of its batch, the value told, or the
average over the batches of the epoch that it closes. -/
inductive Publishes (before : List Request) : Request → String → Float32 → Prop
  | mean {outputs : Processed} {step : Nat} {stopRequested : Bool} {key : String} {value : Float32}
      (hmean : outputs.meanOf? key = some value) :
      Publishes before (.logStep outputs step stopRequested) key value
  | told {metrics : Metrics} {key : String} {value : Float32}
      (hvalue : metrics.get? key = some value) : Publishes before (.publish metrics) key value
  | average {key : String} {value : Float32}
      (haverage : epochMean? key (openBatches before) = some value) :
      Publishes before .closeEpoch (key ++ epochSuffix) value

/-- The last of the requests that give the metric a value gives it this one. -/
def LastPublished (requests : List Request) (key : String) (value : Float32) : Prop :=
  ∃ before request rest, requests = before ++ request :: rest ∧
    Publishes before request key value ∧
    ∀ middle later tail, rest = middle ++ later :: tail →
      ∀ other, ¬ Publishes (before ++ request :: middle) later key other

end Request

def meet (l : MetricsLog W) (world : W) : Request → Except Error Unit × MetricsLog W × W
  | .logStep outputs step stopRequested => l.logStep outputs step stopRequested world
  | .publish metrics => (.ok (), l.publish metrics, world)
  | .closeEpoch => (.ok (), l.closeEpoch, world)
  | .save => l.save world

def after (l : MetricsLog W) (world : W) (requests : List Request) : MetricsLog W × W :=
  requests.foldl (fun state request => (state.1.meet state.2 request).2) (l, world)

theorem after_snoc (l : MetricsLog W) (world : W) (requests : List Request) (request : Request) :
    l.after world (requests ++ [request]) =
      ((l.after world requests).1.meet (l.after world requests).2 request).2 :=
  List.foldl_append

/-! ## What a request does to the log itself -/

def settle (l : MetricsLog W) : Request → MetricsLog W
  | .logStep outputs _ _ => l.takeIn outputs
  | .publish metrics => l.publish metrics
  | .closeEpoch => l.closeEpoch
  | .save => l

theorem settle_withSink (l : MetricsLog W) (sink : Option (Sink W)) (request : Request) :
    ({ l with sink } : MetricsLog W).settle request = { l.settle request with sink } := by
  cases request with
  | logStep outputs step stopRequested =>
      simp only [settle, takeIn]
      split <;> rfl
  | publish metrics => rfl
  | closeEpoch =>
      have haverages : ({ l with sink } : MetricsLog W).epochAverages = l.epochAverages := rfl
      simp only [settle, MetricsLog.closeEpoch, haverages]
      split <;> rfl
  | save => rfl

theorem settle_rest (l : MetricsLog W) (request : Request) :
    (l.settle request).sink = l.sink ∧ (l.settle request).logEvery = l.logEvery := by
  cases request with
  | logStep outputs step stopRequested =>
      rw [settle, takeIn_eq]
      exact ⟨rfl, rfl⟩
  | publish metrics => exact ⟨rfl, rfl⟩
  | closeEpoch =>
      rw [settle, closeEpoch_eq]
      exact ⟨rfl, rfl⟩
  | save => exact ⟨rfl, rfl⟩

theorem due?_eq_record? (l : MetricsLog W) (outputs : Processed) (step : Nat)
    (stopRequested : Bool) :
    l.due? outputs step stopRequested =
      Request.record? l.logEvery (.logStep outputs step stopRequested) := by
  rw [due?, Request.record?]
  cases hempty : outputs.means.isEmpty with
  | true => simp
  | false => simp [closesGroup_iff]

/-! ## What a request is to the logger -/

theorem meet_eq (l : MetricsLog W) (world : W) (request : Request) :
    l.meet world request =
      match request.call? l.logEvery with
      | none => (.ok (), l.settle request, world)
      | some call => (l.settle request).called world call := by
  cases request with
  | logStep outputs step stopRequested =>
      rw [Request.call?, ← due?_eq_record?, meet, logStep_eq]
      cases l.due? outputs step stopRequested <;> rfl
  | publish metrics => rfl
  | closeEpoch => rfl
  | save => exact save_eq l world

theorem meet_logged (l : MetricsLog W) (sink : Sink W) (world : W) (request : Request) :
    ({ l with sink := some sink } : MetricsLog W).meet world request =
      match request.call? l.logEvery with
      | none => (.ok (), { l.settle request with sink := some sink }, world)
      | some call =>
        let (result, sink, world) := sink.meet world call
        (result, { l.settle request with sink := some sink }, world) := by
  rw [meet_eq, settle_withSink]
  cases request.call? l.logEvery <;> rfl

def settleAll (l : MetricsLog W) (requests : List Request) : MetricsLog W :=
  requests.foldl settle l

theorem settleAll_snoc (l : MetricsLog W) (requests : List Request) (request : Request) :
    l.settleAll (requests ++ [request]) = (l.settleAll requests).settle request :=
  List.foldl_append

theorem settleAll_rest (l : MetricsLog W) (requests : List Request) :
    (l.settleAll requests).sink = l.sink ∧ (l.settleAll requests).logEvery = l.logEvery := by
  induction requests using List.reverseRecOn with
  | nil => exact ⟨rfl, rfl⟩
  | append_singleton requests request ih =>
      obtain ⟨hsink, hevery⟩ := settle_rest (l.settleAll requests) request
      rw [settleAll_snoc]
      exact ⟨hsink.trans ih.1, hevery.trans ih.2⟩

theorem after_alone {l : MetricsLog W} (hsink : l.sink = none) (world : W)
    (requests : List Request) : l.after world requests = (l.settleAll requests, world) := by
  induction requests using List.reverseRecOn with
  | nil => rfl
  | append_singleton requests request ih =>
      have hnone : ((l.settleAll requests).settle request).sink = none :=
        (settle_rest _ request).1.trans ((settleAll_rest l requests).1.trans hsink)
      rw [after_snoc, ih, meet_eq, settleAll_snoc]
      cases request.call? (l.settleAll requests).logEvery with
      | none => rfl
      | some call => exact congrArg Prod.snd (called_of_none hnone world call)

/-- The log is as it would be alone, and the logger as if it had met its calls alone. -/
theorem after_logged (l : MetricsLog W) (sink : Sink W) (world : W) (requests : List Request) :
    ({ l with sink := some sink } : MetricsLog W).after world requests =
      ({ l.settleAll requests with
          sink := some (sink.after world (requests.filterMap (Request.call? l.logEvery))).1 },
        (sink.after world (requests.filterMap (Request.call? l.logEvery))).2) := by
  induction requests using List.reverseRecOn with
  | nil => rfl
  | append_singleton requests request ih =>
      rw [after_snoc, ih, meet_logged, settleAll_snoc, List.filterMap_append, Sink.after_append,
        (settleAll_rest l requests).2, List.filterMap_cons, List.filterMap_nil]
      cases request.call? l.logEvery <;> rfl

/-! ## Latest values -/

theorem get?_values_averages (nanArises : Bool) (key : String) (p : Processed) :
    (Sample.values (p.averages nanArises)).get? key = p.meanOf? key := by
  rw [Sample.values, KeyMap.get?_mapValues, Processed.get?_averages]

def published (l : MetricsLog W) : Request → Metrics
  | .logStep outputs _ _ => outputs.means
  | .publish metrics => metrics
  | .closeEpoch => Sample.values l.epochAverages
  | .save => ∅

theorem get?_settle (l : MetricsLog W) (request : Request) (key : String) :
    (l.settle request).latest.get? key =
      ((l.published request).get? key).or (l.latest.get? key) := by
  cases request with
  | logStep outputs step stopRequested =>
      rw [settle, takeIn, published]
      split
      · rename_i hempty
        rw [KeyMap.isEmpty_iff_get?.1 hempty key, Option.none_or]
      · rw [Processed.means, get?_values_averages, ← get?_values_averages l.nanArises]
        exact KeyMap.get?_merge ..
  | publish metrics => exact KeyMap.get?_merge ..
  | closeEpoch =>
      rw [settle, MetricsLog.closeEpoch, published]
      split
      · rename_i hempty
        rw [← KeyMap.isEmpty_mapValues Sample.value] at hempty
        rw [Sample.values, KeyMap.isEmpty_iff_get?.1 hempty key, Option.none_or]
      · exact KeyMap.get?_merge ..
  | save => rfl

/-- The log holds the values of the batches of the open epoch, and no others. -/
def Gathers (requests : List Request) (l : MetricsLog W) : Prop :=
  ∃ start : MetricsLog W, start.epochValues = ∅ ∧
    (start.takeInAll (Request.openBatches requests)).Agrees l

namespace Request

theorem openBatches_snoc (requests : List Request) {request : Request}
    (hopen : request.closesEpoch = false) :
    openBatches (requests ++ [request]) = openBatches requests ++ request.outputs?.toList := by
  rw [openBatches, List.rtakeWhile_concat_pos _ _ _ (by simp [hopen]), List.filterMap_append,
    openBatches]
  cases request <;> rfl

theorem openBatches_closed (requests : List Request) :
    openBatches (requests ++ [.closeEpoch]) = [] := by
  rw [openBatches, List.rtakeWhile_concat_neg _ _ _ (by simp [closesEpoch])]
  rfl

theorem lastPublished_snoc {requests : List Request} {request : Request} {key : String}
    {value : Float32} :
    LastPublished (requests ++ [request]) key value ↔
      Publishes requests request key value ∨
        (∀ other, ¬ Publishes requests request key other) ∧ LastPublished requests key value := by
  constructor
  · rintro ⟨before, published, rest, hsplit, hpublishes, hlast⟩
    rcases List.eq_nil_or_concat' rest with rfl | ⟨rest, final, rfl⟩
    · obtain ⟨rfl, hone⟩ := List.append_inj' hsplit rfl
      cases hone
      exact .inl hpublishes
    · rw [← List.cons_append, ← List.append_assoc] at hsplit
      obtain ⟨rfl, hone⟩ := List.append_inj' hsplit rfl
      cases hone
      refine .inr ⟨hlast rest request [] rfl, before, published, rest, rfl, hpublishes, ?_⟩
      rintro middle later tail rfl
      exact hlast middle later (tail ++ [request]) (by simp)
  · rintro (hpublishes | ⟨hsilent, before, published, rest, rfl, hpublishes, hlast⟩)
    · exact ⟨requests, request, [], rfl, hpublishes, by simp⟩
    · refine ⟨before, published, rest ++ [request], by simp, hpublishes, ?_⟩
      intro middle later tail hsplit
      rcases List.eq_nil_or_concat' tail with rfl | ⟨tail, final, rfl⟩
      · obtain ⟨rfl, hone⟩ := List.append_inj' hsplit rfl
        cases hone
        exact hsilent
      · rw [← List.cons_append, ← List.append_assoc] at hsplit
        obtain ⟨rfl, -⟩ := List.append_inj' hsplit rfl
        exact hlast middle later tail rfl

end Request

theorem Gathers.settle {requests : List Request} {l : MetricsLog W} (h : Gathers requests l)
    (request : Request) : Gathers (requests ++ [request]) (l.settle request) := by
  obtain ⟨start, hempty, hagrees⟩ := h
  cases request with
  | logStep outputs step stopRequested =>
      refine ⟨start, hempty, ?_⟩
      rw [Request.openBatches_snoc requests rfl, takeInAll_append]
      exact hagrees.takeIn outputs
  | publish metrics =>
      refine ⟨start, hempty, ?_⟩
      rw [Request.openBatches_snoc requests rfl, takeInAll_append]
      exact hagrees.trans ⟨rfl, rfl, rfl⟩
  | closeEpoch =>
      refine ⟨l.closeEpoch, ?_, ?_⟩
      · rw [closeEpoch_eq]
      · rw [Request.openBatches_closed]
        exact .refl l.closeEpoch
  | save =>
      refine ⟨start, hempty, ?_⟩
      rw [Request.openBatches_snoc requests rfl, takeInAll_append]
      exact hagrees

theorem published_iff {requests : List Request} {l : MetricsLog W} (h : Gathers requests l)
    {request : Request} {key : String} {value : Float32} :
    (l.published request).get? key = some value ↔ request.Publishes requests key value := by
  cases request with
  | logStep outputs step stopRequested =>
      rw [published, Processed.means, get?_values_averages]
      refine ⟨.mean, fun hpublishes => ?_⟩
      cases hpublishes with
      | mean hmean => exact hmean
  | publish metrics =>
      refine ⟨.told, fun hpublishes => ?_⟩
      cases hpublishes with
      | told hvalue => exact hvalue
  | closeEpoch =>
      obtain ⟨start, hempty, hagrees⟩ := h
      have haverages := hagrees.averagesOver hempty
      constructor
      · intro hvalue
        obtain ⟨base, rfl⟩ := haverages.suffixed key value hvalue
        exact .average ((haverages.average base).symm.trans hvalue)
      · intro hpublishes
        cases hpublishes with
        | average haverage => exact (haverages.average _).trans haverage
  | save =>
      constructor
      · exact fun hvalue => absurd hvalue (Option.some_ne_none value).symm
      · intro hpublishes
        cases hpublishes

theorem gathers_settleAll {l : MetricsLog W} (hvalues : l.epochValues = ∅)
    (requests : List Request) : Gathers requests (l.settleAll requests) := by
  induction requests using List.reverseRecOn with
  | nil => exact ⟨l, hvalues, .refl l⟩
  | append_singleton requests request ih =>
      rw [settleAll_snoc]
      exact ih.settle request

theorem latest_iff {l : MetricsLog W} (hlatest : l.latest = ∅) (hvalues : l.epochValues = ∅)
    (requests : List Request) (key : String) (value : Float32) :
    (l.settleAll requests).latest.get? key = some value ↔
      Request.LastPublished requests key value := by
  induction requests using List.reverseRecOn with
  | nil =>
      constructor
      · intro hvalue
        rw [settleAll, List.foldl_nil, hlatest] at hvalue
        cases hvalue
      · rintro ⟨before, request, rest, hsplit, -⟩
        simp at hsplit
  | append_singleton requests request ih =>
      have hpublished : ∀ other, ((l.settleAll requests).published request).get? key = some other ↔
          request.Publishes requests key other :=
        fun other => published_iff (gathers_settleAll hvalues requests)
      rw [settleAll_snoc, get?_settle, Request.lastPublished_snoc, Option.or_eq_some_iff,
        Option.eq_none_iff_forall_ne_some]
      simp only [ne_eq, hpublished, ih]

def fresh (logEvery flushEvery : Nat) (nanArises : Bool) (sink : Option (Sink W)) : MetricsLog W :=
  { logEvery, flushEvery, nanArises, sink }

theorem logger_after_fresh (logEvery flushEvery : Nat) (nanArises : Bool) (sink : Sink W)
    (world : W) (requests : List Request) :
    let logged := (fresh logEvery flushEvery nanArises (some sink)).after world requests
    let logger := sink.after world (requests.filterMap (Request.call? logEvery))
    logged.1.sink = some logger.1 ∧ logged.2 = logger.2 := by
  have hlogged := after_logged (fresh logEvery flushEvery nanArises none) sink world requests
  exact ⟨congrArg (·.1.sink) hlogged, congrArg Prod.snd hlogged⟩

/-- Whatever is asked of a log, and whatever its logger answers: the metrics are those of a log
without a logger; a key's latest value is the one that was published last; the logger is as if it
had been called for the records that are due and for the saves alone, and just these calls are what
a logger notes that notes its calls; and a request fails exactly if its own call does. -/
theorem undisturbed (logEvery flushEvery : Nat) (nanArises : Bool) (sink : Sink W) (world : W)
    (requests : List Request) (request : Request) :
    let alone := (fresh logEvery flushEvery nanArises none).after world requests
    let logged := (fresh logEvery flushEvery nanArises (some sink)).after world requests
    let calls := requests.filterMap (Request.call? logEvery)
    let logger := sink.after world calls
    (logged.1.latest = alone.1.latest ∧ logged.1.history = alone.1.history ∧
      ∀ key, logged.1.best? key = alone.1.best? key) ∧
    (∀ key value,
      alone.1.latest.get? key = some value ↔ Request.LastPublished requests key value) ∧
    (recordsOf calls = requests.filterMap (Request.record? logEvery) ∧
      logged.1.sink = some logger.1 ∧ logged.2 = logger.2) ∧
    (∀ o : OutsideLogger W,
      ((fresh logEvery flushEvery nanArises (some (.outside o.noting))).after (world, [])
        requests).2 = (((Sink.outside o).after world calls).2, calls)) ∧
    (∀ m : MemoryLog,
      ((fresh logEvery flushEvery nanArises (some (.memory m))).after world requests).1.sink =
        some (.memory {
          records := m.records.append (requests.filterMap (Request.record? logEvery))
          saves := m.saves + calls.countP (·.record?.isNone) })) ∧
    (logged.1.meet logged.2 request).1 =
      match request.call? logEvery with
      | none => .ok ()
      | some call => (logger.1.meet logger.2 call).1 := by
  intro alone logged calls logger
  let start : MetricsLog W := fresh logEvery flushEvery nanArises none
  have halone : alone = (start.settleAll requests, world) := after_alone rfl world requests
  have hlogged : logged = ({ start.settleAll requests with sink := some logger.1 }, logger.2) :=
    after_logged start sink world requests
  have hevery : (start.settleAll requests).logEvery = logEvery :=
    (settleAll_rest start requests).2
  have hrecords := Request.recordsOf_calls logEvery requests
  rw [halone, hlogged]
  refine ⟨⟨rfl, rfl, fun key => rfl⟩, ?_, ⟨hrecords, rfl, rfl⟩, fun o => ?_, fun m => ?_, ?_⟩
  · exact latest_iff rfl rfl requests
  · rw [(logger_after_fresh logEvery flushEvery nanArises (.outside o.noting) _ requests).2,
      Sink.after_noting]
    rfl
  · rw [(logger_after_fresh logEvery flushEvery nanArises (.memory m) world requests).1,
      Sink.after_memory, hrecords]
  · rw [meet_logged, hevery]
    cases request.call? logEvery <;> rfl

end MetricsLog

end TrainingLoop
