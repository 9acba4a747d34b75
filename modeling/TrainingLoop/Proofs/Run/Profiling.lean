import TrainingLoop.Proofs.KeyMap
import TrainingLoop.Proofs.Run.Fit
import TrainingLoop.Proofs.Run.LogFrame
import TrainingLoop.Proofs.Run.Trace
/-!
# The profile of a run

Every region of a run is opened with one event of it, and closed on every way out. So the profile of
a run can be read off its events (`run_profiled`), also where the run failed: its counts are those
of the batches pulled, the evaluations started and the hooks dispatched.
-/

namespace TrainingLoop

variable {σ W β : Type}

/-! ## The events of regions -/

def Hook.isProfiled : Hook → Bool
  | .trainStart | .validationEnd | .trainEnd => false
  | _ => true

theorem HookCall.name_eq (call : HookCall β) : call.name = call.hook.name := by
  cases call <;> rfl

theorem HookCall.isProfiled (call : HookCall β) : call.hook.isProfiled = true := by
  cases call <;> rfl

namespace RunEvent

def region? : RunEvent β → Option String
  | .pulled _ _ => some "run_training_batch"
  | .evaluated _ _ => some "run_evaluation"
  | .dispatched hook => if hook.isProfiled then some hook.name else none
  | _ => none

def dispatches (hook : Hook) : RunEvent β → Bool
  | .dispatched other => other == hook
  | _ => false

def answers (hook : Hook) : RunEvent β → Bool
  | .model call | .accelerator call => call.hook == hook
  | _ => false

def isFailed : RunEvent β → Bool
  | .failed _ => true
  | _ => false

/-- The event has no region, and it is no answer to the end of a batch. -/
def IsBeside (event : RunEvent β) : Prop :=
  event.region? = none ∧ event.answers .trainBatchEnd = false

theorem IsBeside.not_batchEnd {event : RunEvent β} (h : event.IsBeside) :
    event.dispatches .batchEnd = false := by
  cases event with
  | dispatched hook =>
      cases hook with
      | batchEnd => cases h.1
      | _ => rfl
  | _ => rfl

end RunEvent

def startsFailed : List (RunEvent β) → Bool
  | [] => false
  | event :: _ => event.isFailed

/-- How many answers to a hook returned: the failure of one would come right behind it. -/
def returned (hook : Hook) : List (RunEvent β) → Nat
  | [] => 0
  | event :: rest =>
    (if event.answers hook && !startsFailed rest then 1 else 0) + returned hook rest

section Returned

variable {hook : Hook} {first second : List (RunEvent β)}

theorem startsFailed_append (h : startsFailed second = false) :
    startsFailed (first ++ second) = startsFailed first := by
  cases first with
  | nil => exact h
  | cons event rest => rfl

theorem returned_append (h : startsFailed second = false) :
    returned hook (first ++ second) = returned hook first + returned hook second := by
  induction first with
  | nil => simp [returned]
  | cons event rest ih =>
      rw [List.cons_append, returned, returned, startsFailed_append h, ih, Nat.add_assoc]

theorem returned_eq_zero {events : List (RunEvent β)}
    (h : ∀ event ∈ events, event.answers hook = false) : returned hook events = 0 := by
  induction events with
  | nil => rfl
  | cons event rest ih =>
      rw [List.forall_mem_cons] at h
      rw [returned, h.1, ih h.2]
      rfl

end Returned

/-! ## Profiles -/

namespace Profile

variable {p : Profile}

theorem count_stop_start (h : p.active = []) (action other : String) :
    ((p.start action).stop action).active = [] ∧
      ((p.start action).stop action).count other =
        p.count other + if action = other then 1 else 0 := by
  have hidle : p.isActive action = false := by rw [isActive, h]; rfl
  have hopened : p.start action = { p with active := [action] } := by
    rw [start, hidle, h]
    rfl
  have hactive : ({ p with active := [action] } : Profile).isActive action = true := by
    simp [isActive]
  rw [hopened, stop, if_pos hactive]
  refine ⟨by simp, ?_⟩
  rw [count, count, KeyMap.get?_alter]
  by_cases hsame : action = other
  · rw [if_pos hsame, if_pos hsame, hsame]
    rfl
  · rw [if_neg hsame, if_neg hsame, Nat.add_zero]

end Profile

namespace Profiler

variable {before middle after : Profiler} {first second : List (RunEvent β)}

def Closes (before after : Profiler) (events : List (RunEvent β)) : Prop :=
  ∀ p, before = .recording p → p.active = [] →
    ∃ p', after = .recording p' ∧ p'.active = [] ∧ ∀ action,
      p'.count action = p.count action + events.countP fun event => event.region? == some action

theorem Closes.of_beside (hsame : after = before) {events : List (RunEvent β)}
    (h : ∀ event ∈ events, event.region? = none) : Closes before after events := by
  rintro p rfl hidle
  refine ⟨p, hsame, hidle, fun action => ?_⟩
  rw [List.countP_eq_zero.2 fun event hevent => by simp [h event hevent], Nat.add_zero]

theorem Closes.append (h : Closes before middle first) (h' : Closes middle after second) :
    Closes before after (first ++ second) := by
  intro p hp hidle
  obtain ⟨p', hp', hidle', hcount⟩ := h p hp hidle
  obtain ⟨p'', hp'', hidle'', hcount'⟩ := h' p' hp' hidle'
  refine ⟨p'', hp'', hidle'', fun action => ?_⟩
  rw [hcount', hcount, List.countP_append, Nat.add_assoc]

theorem Closes.region {action : String} {event : RunEvent β} {events : List (RunEvent β)}
    (hregion : event.region? = some action) (h : ∀ event ∈ events, event.region? = none) :
    Closes before ((before.start action).stop action) (event :: events) := by
  rintro p rfl hidle
  refine ⟨(p.start action).stop action, rfl, (p.count_stop_start hidle action action).1,
    fun other => ?_⟩
  rw [(p.count_stop_start hidle action other).2, List.countP_cons,
    List.countP_eq_zero.2 fun event hevent => by simp [h event hevent], hregion]
  simp

end Profiler

/-! ## Pieces of a run -/

namespace Trainer

structure Beside (t t' : Trainer W β) : Prop where
  events : ∃ new, t'.events.toList = t.events.toList ++ new ∧ ∀ event ∈ new, event.IsBeside
  profiler : t'.profiler = t.profiler

namespace Beside

variable {t t' t'' : Trainer W β}

theorem of_eq (hevents : t'.events = t.events) (hprofiler : t'.profiler = t.profiler) :
    Beside t t' :=
  ⟨⟨[], by rw [hevents, List.append_nil], by simp⟩, hprofiler⟩

theorem trans (h : Beside t t') (h' : Beside t' t'') : Beside t t'' := by
  obtain ⟨new, hnew, hbeside⟩ := h.events
  obtain ⟨new', hnew', hbeside'⟩ := h'.events
  exact ⟨⟨new ++ new', by rw [hnew', hnew, List.append_assoc],
    List.forall_mem_append.2 ⟨hbeside, hbeside'⟩⟩, h'.profiler.trans h.profiler⟩

instance : IsPreorder (Trainer W β) Beside where
  refl _ := of_eq rfl rfl
  trans _ _ _ := trans

theorem record {event : RunEvent β} (h : event.IsBeside) (t : Trainer W β) :
    Beside t (t.record event) :=
  ⟨⟨[event], Journal.toList_push _ _, by simpa using h⟩, rfl⟩

end Beside

/-- A piece of a run: the regions of its events are counted, hooks for the end of a batch were
dispatched `ends` times, and the answers to the end of a trained batch returned `returns` times. -/
def Adds (t t' : Trainer W β) (ends returns : Nat) : Prop :=
  ∃ new, t'.events.toList = t.events.toList ++ new ∧ startsFailed new = false ∧
    new.countP (RunEvent.dispatches .batchEnd) = ends ∧
    returned .trainBatchEnd new = returns ∧ t.profiler.Closes t'.profiler new

def Accounts (t t' : Trainer W β) : Prop := ∃ n, t.Adds t' n n

theorem isBeside_of_mem_heard {event : CallbackEvent} {context : Context} {position : Nat}
    {stops : List Bool} {e : RunEvent β} (h : e ∈ heard event context position stops) :
    e.IsBeside := by
  rcases mem_heard h with ⟨p, rfl⟩ | ⟨p, rfl⟩ <;> exact ⟨rfl, rfl⟩

section Adds

variable {t t' t'' : Trainer W β}

theorem Adds.trans {ends ends' returns returns' : Nat} (h : t.Adds t' ends returns)
    (h' : t'.Adds t'' ends' returns') : t.Adds t'' (ends + ends') (returns + returns') := by
  obtain ⟨new, hnew, hproper, hends, hreturns, hcloses⟩ := h
  obtain ⟨new', hnew', hproper', hends', hreturns', hcloses'⟩ := h'
  refine ⟨new ++ new', by rw [hnew', hnew, List.append_assoc], ?_, ?_, ?_, hcloses.append hcloses'⟩
  · rw [startsFailed_append hproper', hproper]
  · rw [List.countP_append, hends, hends']
  · rw [returned_append hproper', hreturns, hreturns']

theorem Adds.of_beside {new : List (RunEvent β)} (hprofiler : t'.profiler = t.profiler)
    (hnew : t'.events.toList = t.events.toList ++ new) (hproper : startsFailed new = false)
    (h : ∀ event ∈ new, event.IsBeside) : t.Adds t' 0 0 :=
  ⟨new, hnew, hproper,
    List.countP_eq_zero.2 fun event hevent => by simp [(h event hevent).not_batchEnd],
    returned_eq_zero fun event hevent => (h event hevent).2,
    .of_beside hprofiler fun event hevent => (h event hevent).1⟩

theorem Adds.accounts {n : Nat} (h : t.Adds t' n n) : t.Accounts t' := ⟨n, h⟩

theorem Accounts.of_eq (hprofiler : t'.profiler = t.profiler) (hevents : t'.events = t.events) :
    t.Accounts t' :=
  ⟨0, .of_beside hprofiler (by rw [hevents, List.append_nil]) rfl (by simp)⟩

theorem Accounts.refl (t : Trainer W β) : t.Accounts t := .of_eq rfl rfl

theorem Accounts.trans (h : t.Accounts t') (h' : t'.Accounts t'') : t.Accounts t'' := by
  obtain ⟨n, hn⟩ := h
  obtain ⟨n', hn'⟩ := h'
  exact ⟨n + n', hn.trans hn'⟩

instance : IsPreorder (Trainer W β) Accounts where
  refl := Accounts.refl
  trans _ _ _ := Accounts.trans

theorem Accounts.record {event : RunEvent β} (h : event.IsBeside)
    (hproper : event.isFailed = false := by rfl) (t : Trainer W β) :
    t.Accounts (t.record event) :=
  ⟨0, .of_beside rfl (Journal.toList_push _ _) hproper (by simpa using h)⟩

/-- What comes after a recorded event is no failure without a call. -/
theorem Accounts.of_record {event : RunEvent β} (h : event.IsBeside)
    (hproper : event.isFailed = false) (hbeside : Beside (t.record event) t') : t.Accounts t' := by
  obtain ⟨⟨new, hnew, hnews⟩, hprofiler⟩ := hbeside
  rw [Trainer.record, Journal.toList_push, List.append_assoc] at hnew
  exact ⟨0, .of_beside hprofiler hnew hproper (List.forall_mem_cons.2 ⟨h, hnews⟩)⟩

theorem Accounts.of_region {action : String} {event : RunEvent β} {new : List (RunEvent β)}
    (hregion : event.region? = some action) (hends : event.dispatches .batchEnd = false)
    (hanswers : event.answers .trainBatchEnd = false) (hproper : event.isFailed = false)
    (hnew : t'.events.toList = t.events.toList ++ event :: new)
    (hbeside : ∀ event ∈ new, event.IsBeside)
    (hprofiler : t'.profiler = (t.profiler.start action).stop action) : t.Accounts t' := by
  refine ⟨0, event :: new, hnew, hproper, ?_, ?_, ?_⟩
  · rw [List.countP_cons, hends, List.countP_eq_zero.2 fun event hevent => by
      simp [(hbeside event hevent).not_batchEnd]]
    rfl
  · rw [returned, hanswers, returned_eq_zero fun event hevent => (hbeside event hevent).2]
    rfl
  · rw [hprofiler]
    exact .region hregion fun event hevent => (hbeside event hevent).1

theorem Accounts.tellCallbacks {hook : Hook} (hhook : hook.isProfiled = false)
    (event : CallbackEvent) (context : Context) (t : Trainer W β) :
    t.Accounts (t.tellCallbacks hook event context) := by
  obtain ⟨callbacks, world, events, notices, -, hevents, htold⟩ :=
    tellCallbacks_told hook event context t
  refine ⟨0, .of_beside (by rw [htold]) (by rw [htold]; exact hevents) rfl ?_⟩
  rw [List.forall_mem_cons]
  exact ⟨⟨by simp [RunEvent.region?, hhook], rfl⟩, fun e => isBeside_of_mem_heard⟩

end Adds

end Trainer

namespace TrainerStep

open Trainer Stateful

variable {setup : Setup W β}

theorem recordFailure_beside {α : Type} {step : TrainerStep W β α} (h : Keeps Beside step) :
    Keeps Beside (recordFailure step) :=
  .noteFailure h fun _ t => .record ⟨rfl, rfl⟩ t

theorem outside_beside {α : Type} (action : Stateful W α) :
    Keeps Beside (outside action : TrainerStep W β α) :=
  recordFailure_beside fun _ => .of_eq rfl rfl

theorem recorded_accounts {α : Type} {event : RunEvent β} {step : TrainerStep W β α}
    (h : event.IsBeside) (hproper : event.isFailed = false) (hstep : Keeps Beside step) :
    Keeps Accounts (do modify fun t => t.record event; step : TrainerStep W β α) :=
  fun t => .of_record h hproper (hstep (t.record event))

theorem onLog_accounts {event : RunEvent β} (h : event.IsBeside) (hproper : event.isFailed = false)
    (action : MetricsLog W → W → Except Error Unit × MetricsLog W × W) :
    Keeps Accounts (do modify fun t => t.record event; onLog action : TrainerStep W β Unit) :=
  recorded_accounts h hproper (recordFailure_beside fun _ => .of_eq rfl rfl)

/-! ## Dispatches -/

theorem isBeside_of_mem_failure {α : Type} {result : Except Error α} {event : RunEvent β}
    (h : event ∈ failure result) : event.IsBeside := by
  cases result with
  | ok a => cases h
  | error e =>
      rw [List.mem_singleton.1 h]
      exact ⟨rfl, rfl⟩

/-- The answer to a hook is recorded, and its failure right after it. -/
theorem answer_told (setup : Setup W β) (hookCall : HookCall β) (t : Trainer W β) :
    ∃ event, (event = .model hookCall ∨ event = .accelerator hookCall) ∧
      ((answer setup hookCall).runOn t).2.events.toList =
        t.events.toList ++ event :: failure ((answer setup hookCall).runOn t).1 ∧
      ((answer setup hookCall).runOn t).2.profiler = t.profiler := by
  have houtside (event : RunEvent β) (action : Stateful W Unit) (t : Trainer W β) :
      ((do modify fun t => t.record event; outside action : TrainerStep W β Unit).runOn t
        ).2.events.toList = t.events.toList ++ event :: failure
          ((do modify fun t => t.record event; outside action : TrainerStep W β Unit).runOn t).1 ∧
      ((do modify fun t => t.record event; outside action : TrainerStep W β Unit).runOn t
        ).2.profiler = t.profiler := by
    obtain ⟨hresult, hevents⟩ := outside_events event action t
    rw [hresult]
    exact ⟨hevents, (outside_beside action (t.record event)).profiler⟩
  unfold answer
  cases setup.model.override? hookCall with
  | none => exact ⟨_, .inr rfl, houtside _ _ t⟩
  | some action =>
      dsimp only
      split
      · exact ⟨_, .inl rfl, houtside _ action { t.report _ with warnings := _ }⟩
      · exact ⟨_, .inl rfl, houtside _ action t⟩

def dispatched (hook : Hook) (told : List (RunEvent β)) (reply : RunEvent β)
    (result : Except Error Unit) : List (RunEvent β) :=
  .dispatched hook :: (told ++ reply :: failure result)

section Dispatched

variable {hook : Hook} {told : List (RunEvent β)} {reply : RunEvent β} {result : Except Error Unit}

theorem dispatched_batchEnds (htold : ∀ event ∈ told, event.IsBeside)
    (hreply : reply.dispatches .batchEnd = false) :
    (dispatched hook told reply result).countP (RunEvent.dispatches .batchEnd) =
      if hook = .batchEnd then 1 else 0 := by
  have htoldEnds : told.countP (RunEvent.dispatches .batchEnd) = 0 :=
    List.countP_eq_zero.2 fun event hevent => by simp [(htold event hevent).not_batchEnd]
  have hfailureEnds : (failure result : List (RunEvent β)).countP
      (RunEvent.dispatches .batchEnd) = 0 :=
    List.countP_eq_zero.2 fun event hevent => by
      simp [(isBeside_of_mem_failure hevent).not_batchEnd]
  rw [dispatched, List.countP_cons, List.countP_append, List.countP_cons, htoldEnds, hfailureEnds,
    hreply]
  simp [RunEvent.dispatches]

theorem returned_dispatched (htold : ∀ event ∈ told, event.IsBeside)
    (hreply : reply.answers .trainBatchEnd = (hook == .trainBatchEnd))
    (hproper : reply.isFailed = false) :
    returned .trainBatchEnd (dispatched hook told reply result) =
      if hook = .trainBatchEnd ∧ result = .ok () then 1 else 0 := by
  have htoldReturns : returned .trainBatchEnd told = 0 :=
    returned_eq_zero fun event hevent => (htold event hevent).2
  have hlast : startsFailed (reply :: failure result) = false := hproper
  have hhead : returned .trainBatchEnd (dispatched hook told reply result) =
      returned .trainBatchEnd (told ++ reply :: failure result) := by
    rw [dispatched, returned]
    simp [RunEvent.answers]
  rw [hhead, returned_append hlast, htoldReturns, returned, hreply,
    returned_eq_zero fun event hevent => (isBeside_of_mem_failure hevent).2]
  cases result with
  | ok _ => simp [failure, startsFailed]
  | error e => simp [failure, startsFailed, RunEvent.isFailed]

end Dispatched

/-- A call of a hook is a region: its dispatch comes first, and its answer last. -/
theorem call_adds {hookCall : HookCall β} {context : Context} {t t' : Trainer W β}
    {result : Except Error Unit} (h : (call setup hookCall context).runOn t = (result, t')) :
    t.Adds t' (if hookCall.hook = .batchEnd then 1 else 0)
      (if hookCall.hook = .trainBatchEnd ∧ result = .ok () then 1 else 0) := by
  simp only [call, inRegion, runOn_of, runOn_modify_bind, Prod.mk.injEq] at h
  obtain ⟨hresult, rfl⟩ := h
  obtain ⟨callbacks, world, events, notices, -, hevents, htold⟩ := tellCallbacks_told hookCall.hook
    hookCall.event context (t.openRegion hookCall.name)
  obtain ⟨reply, hreply, hanswered, hprofiler⟩ := answer_told setup hookCall
    ((t.openRegion hookCall.name).tellCallbacks hookCall.hook hookCall.event context)
  rw [hresult] at hanswered
  have hbeside : ∀ e ∈ heard hookCall.event context 0
      ((t.openRegion hookCall.name).stops hookCall.event context), RunEvent.IsBeside (β := β) e :=
    fun e => isBeside_of_mem_heard
  generalize heard hookCall.event context 0
    ((t.openRegion hookCall.name).stops hookCall.event context) = told at hevents hbeside
  have hanswers : reply.region? = none ∧ reply.dispatches .batchEnd = false ∧
      reply.answers .trainBatchEnd = (hookCall.hook == .trainBatchEnd) ∧
        reply.isFailed = false := by
    rcases hreply with rfl | rfl <;> exact ⟨rfl, rfl, rfl, rfl⟩
  obtain ⟨hregionless, hbatchEnd, htrained, hproper⟩ := hanswers
  have hregion : (RunEvent.dispatched hookCall.hook : RunEvent β).region? = some hookCall.name := by
    rw [RunEvent.region?, if_pos hookCall.isProfiled, hookCall.name_eq]
  have hafter : (((answer setup hookCall).runOn ((t.openRegion hookCall.name).tellCallbacks
      hookCall.hook hookCall.event context)).2.closeRegion hookCall.name).profiler =
        (t.profiler.start hookCall.name).stop hookCall.name := by
    refine congrArg (Profiler.stop hookCall.name) (hprofiler.trans ?_)
    rw [htold]
    rfl
  refine ⟨dispatched hookCall.hook told reply result, ?_, rfl,
    dispatched_batchEnds hbeside hbatchEnd, returned_dispatched hbeside htrained hproper, ?_⟩
  · refine hanswered.trans ?_
    rw [htold]
    dsimp only
    rw [hevents]
    simp [openRegion, dispatched]
  · rw [hafter]
    refine .region hregion ?_
    rw [List.forall_mem_append, List.forall_mem_cons]
    exact ⟨fun event hevent => (hbeside event hevent).1, hregionless,
      fun event hevent => (isBeside_of_mem_failure hevent).1⟩

theorem call_accounts {hookCall : HookCall β} (hend : hookCall.hook ≠ .batchEnd)
    (htrained : hookCall.hook ≠ .trainBatchEnd) (context : Context) :
    Keeps Accounts (call setup hookCall context) := by
  intro t
  have hadds : t.Adds ((call setup hookCall context).runOn t).2 _ _ := call_adds rfl
  rw [if_neg hend, if_neg fun h => htrained h.1] at hadds
  exact hadds.accounts

/-! ## Regions without a call of a hook -/

theorem inRegion_accounts {α : Type} {action : String} {event : RunEvent β}
    {body : TrainerStep W β α} (hregion : event.region? = some action)
    (hends : event.dispatches .batchEnd = false) (hanswers : event.answers .trainBatchEnd = false)
    (hproper : event.isFailed = false) (hbody : Keeps Beside body) :
    Keeps Accounts (inRegion action do
      modify fun t => t.record event
      body : TrainerStep W β α) := by
  intro t
  obtain ⟨⟨new, hnew, hbeside⟩, hprofiler⟩ := hbody ((t.openRegion action).record event)
  rw [Trainer.record, Journal.toList_push, List.append_assoc] at hnew
  exact .of_region hregion hends hanswers hproper hnew hbeside
    (congrArg (Profiler.stop action) hprofiler)

theorem reduce_accounts (outputs : Processed) : Keeps Accounts (reduce setup outputs) := by
  refine inRegion_accounts rfl rfl rfl rfl ?_
  cases setup.model.trainingEpochEnd with
  | none => exact .pure ()
  | some consume =>
      refine .bind (.modify fun t => .record ⟨rfl, rfl⟩ t) fun _ =>
        .bind (outside_beside _) fun returned => ?_
      cases returned with
      | false => exact .pure ()
      | true => exact .throw _

theorem evaluate_accounts (progress : Progress) : Keeps Accounts (evaluate setup progress) := by
  unfold evaluate
  split
  · exact .pure ()
  · refine .bind (.bind (.modify fun t => .of_eq rfl rfl) fun _ => .get_bind fun t => ?_)
      fun result => ?_
    · exact .bind (.attempt (inRegion_accounts rfl rfl rfl rfl (outside_beside _))) fun result =>
        .bind (.modify fun t => .of_eq rfl rfl) fun _ => .pure _
    · cases result with
      | error e => exact .throw _
      | ok metrics =>
          exact .bind (.modify fun t => .of_eq rfl rfl) fun _ =>
            .modify fun t => Accounts.tellCallbacks rfl _ _ t

/-! ## Steps without a region -/

theorem logStep_accounts (outputs : Processed) (globalStep : Nat) :
    Keeps Accounts (logStep outputs globalStep : TrainerStep W β Unit) := by
  intro t
  -- Where no record is given to the logger, nothing can fail.
  have hquiet (h : t.log.sink = none ∨ t.log.due? outputs globalStep t.state.shouldStop = none) :
      t.Accounts ((onLog (MetricsLog.logStep outputs globalStep t.state.shouldStop) :
        TrainerStep W β Unit).runOn t).2 := by
    have hok := MetricsLog.logStep_quiet h t.world
    obtain ⟨log, world, hrun⟩ : ∃ log world,
        (onLog (MetricsLog.logStep outputs globalStep t.state.shouldStop) :
          TrainerStep W β Unit).runOn t = (.ok (), { t with log, world }) :=
      ⟨_, _, noteFailure_ok.2 (Prod.ext hok rfl)⟩
    rw [hrun]
    exact .of_eq rfl rfl
  rw [logStep, runOn_get_bind]
  dsimp only
  split
  · split
    · exact onLog_accounts ⟨rfl, rfl⟩ rfl _ t
    · rename_i hdue
      exact hquiet (.inr hdue)
  · rename_i hsink
    exact hquiet (.inl (by simpa using hsink))

theorem flush_accounts (globalStep : Nat) :
    Keeps Accounts (flush globalStep : TrainerStep W β Unit) := by
  refine .get_bind fun t => ?_
  split
  · exact onLog_accounts ⟨rfl, rfl⟩ rfl _
  · exact .pure ()

theorem tickRates_accounts (interval : Interval) :
    Keeps Accounts (tickRates interval : TrainerStep W β Unit) := by
  have hticked : Keeps Accounts (do
      modify fun t => t.record (.ratesTicked interval)
      recordFailure <| Stateful.of fun t =>
        let update := t.board.update interval t.log.latest
        (update.result.map fun _ => (),
          { t.report update.notices with board := ⟨update.rates⟩ }) : TrainerStep W β Unit) :=
    recorded_accounts ⟨rfl, rfl⟩ rfl (recordFailure_beside fun _ => .of_eq rfl rfl)
  exact hticked

theorem nextStep_accounts (progress : Progress) : Keeps Accounts (nextStep setup progress) := by
  intro t
  have hrecorded : t.Accounts
      (t.record (.stepRequested progress.totalBatches progress.globalStep)) :=
    .record ⟨rfl, rfl⟩ rfl t
  exact hrecorded.trans (.of_eq rfl rfl)

theorem resolveCounts_accounts (length : Option Nat) :
    Keeps Accounts (resolveCounts setup length) :=
  .bind (.lift _) fun _ => .bind (.lift _) fun _ => .modify fun _ => .of_eq rfl rfl

end TrainerStep

/-! ## An epoch -/

namespace EpochStep

open Trainer EpochRun Stateful TrainerStep

variable {setup : Setup W β} {loop : BatchLoop σ β}

theorem onTrainer_accounts {α : Type} {action : TrainerStep W β α} (h : Keeps Accounts action) :
    Keeps (Order.Preimage trainer Accounts) (onTrainer action : EpochStep σ W β α) :=
  fun r => h r.trainer

theorem pull_runBatch_accounts (handed : Handed β) (feed : Feed β) :
    Keeps (Order.Preimage trainer Accounts) (do
      modify fun r => r.pull handed feed
      runBatch loop handed : EpochStep σ W β BatchOutput) := by
  intro r
  have hbody : Keeps (Order.Preimage trainer Beside) (do
      let dataloader := (← get).counters.dataloaderIndex
      modify fun r => r.mapTrainer fun t =>
        t.record (.batchRun handed.batch handed.index dataloader)
      Stateful.mapError Error.ofBatchLoop <| recordFailure <|
        onWorker (loop.run handed.batch handed.index dataloader) :
          EpochStep σ W β BatchOutput) := by
    refine .get_bind fun r => .bind (.modify fun r => .record ⟨rfl, rfl⟩ r.trainer) fun _ =>
      .mapError (.noteFailure (fun r => .of_eq rfl rfl) fun e r => ?_)
    exact .record ⟨rfl, rfl⟩ r.trainer
  obtain ⟨⟨new, hnew, hbeside⟩, hprofiler⟩ :=
    hbody ((r.pull handed feed).mapTrainer fun t => t.openRegion "run_training_batch")
  have hregion : (RunEvent.pulled handed.index handed.isLast : RunEvent β).region? =
      some "run_training_batch" := rfl
  refine .of_region hregion rfl rfl rfl (hnew.trans ?_) hbeside
    (congrArg (Profiler.stop _) hprofiler)
  change (r.trainer.events.push _).toList ++ new = _
  rw [Journal.toList_push, List.append_assoc]
  rfl

/-- The hook for the end of a batch is dispatched where the one before it returned. -/
theorem completeBatch_accounts (handed : Handed β) (results : BatchResults) :
    Keeps (Order.Preimage trainer Accounts)
      (completeBatch setup handed results : EpochStep σ W β KeptOutputs) := by
  intro r
  simp only [completeBatch, runOn_get_bind]
  generalize (OutputTree.ofBatch results).collapse .batch = outputs
  generalize r.trainer.context setup r.progress handed.index outputs.meanLoss? = context
  rw [runOn_bind, onTrainer, runOn_onPart]
  rcases htrained : (call setup (.trainBatchEnd outputs handed.batch handed.index
    r.counters.dataloaderIndex) context).runOn r.trainer with ⟨e | _, t₁⟩
  · exact (call_adds htrained).accounts
  dsimp only
  rw [runOn_bind, onTrainer, runOn_onPart]
  rcases hended : (call setup .batchEnd context).runOn t₁ with ⟨result, t₂⟩
  have hboth : r.trainer.Accounts t₂ := ((call_adds htrained).trans (call_adds hended)).accounts
  cases result with
  | error e => exact hboth
  | ok _ =>
      have hlogged : Keeps (Order.Preimage trainer Accounts) (do
          onTrainer (logStep outputs r.progress.globalStep)
          pure (KeptOutputs.track r.modelReduces (.ofOptimizers results.length) results).1 :
            EpochStep σ W β KeptOutputs) :=
        .bind (onTrainer_accounts (logStep_accounts _ _)) fun _ => .pure _
      exact hboth.trans (hlogged { r with trainer := t₂ })

theorem advance_accounts : Keeps (Order.Preimage trainer Accounts) (advance setup loop) := by
  refine .get_bind fun r => ?_
  split
  · split
    · exact .bind (.modify fun r => Accounts.refl r.trainer) fun _ => .pure _
    · rw [← bind_assoc]
      refine .bind (pull_runBatch_accounts _ _) fun output => ?_
      split
      · refine .bind (.modify fun r => ?_) fun _ => .pure _
        exact (Accounts.record ⟨rfl, rfl⟩ rfl r.trainer).trans (.of_eq rfl rfl)
      · exact .map (completeBatch_accounts _ _)
  · exact .throw _

theorem advanceEnd_accounts : Keeps (Order.Preimage trainer Accounts) (advanceEnd setup loop) := by
  have hmark : Keeps (Order.Preimage trainer Accounts)
      (modify fun r => r.mapTrainer Trainer.markTrained : EpochStep σ W β Unit) :=
    .modify fun r => .of_eq rfl rfl
  refine .bind (.get_bind fun r => ?_) fun _ => .get_bind fun r =>
    .bind (onTrainer_accounts (flush_accounts _)) fun _ => ?_
  · split
    · exact onTrainer_accounts (evaluate_accounts _)
    · exact .pure ()
  · split
    · refine .bind (onTrainer_accounts (tickRates_accounts _)) fun _ => .bind hmark fun _ =>
        .get_bind fun r => .bind (onTrainer_accounts (nextStep_accounts _)) fun _ => ?_
      exact .modify fun r => Accounts.refl r.trainer
    · exact hmark

theorem finish_accounts (kept : KeptOutputs) :
    Keeps (Order.Preimage trainer Accounts) (finish setup kept : EpochStep σ W β Processed) := by
  refine .bind (.modify fun r => Accounts.refl r.trainer) fun _ =>
    .bind (.modify fun r => .of_eq rfl rfl) fun _ =>
      .bind (onTrainer_accounts (reduce_accounts _)) fun _ => .get_bind fun r => ?_
  refine .bind (onTrainer_accounts (call_accounts ?_ ?_ _)) fun _ =>
    .bind (onTrainer_accounts (call_accounts ?_ ?_ _)) fun _ => .pure _ <;> simp [HookCall.hook]

theorem run_accounts (horizon : Nat) (data : Batches β) :
    Keeps (Order.Preimage trainer Accounts) (run setup loop horizon data) := by
  have hstart (r : EpochRun σ W β) : r.trainer.Accounts (r.start setup data).trainer :=
    .of_eq rfl rfl
  exact run_keeps hstart advance_accounts advanceEnd_accounts finish_accounts horizon

end EpochStep

/-! ## A run -/

namespace FitStep

open Trainer FitRun Stateful TrainerStep

variable {setup : Setup W β} {loop : BatchLoop σ β} {horizon : Nat} {data : Nat → Batches β}

theorem onTrainer_accounts {α : Type} {action : TrainerStep W β α} (h : Keeps Accounts action) :
    Keeps (Order.Preimage trainer Accounts) (onTrainer action : FitStep σ W β α) :=
  fun r => h r.trainer

theorem closeEpoch_accounts (counters : EpochCounters) :
    Keeps (Order.Preimage trainer Accounts) (closeEpoch setup counters : FitStep σ W β Unit) := by
  refine .bind (.get_bind fun r => ?_) fun _ =>
    .bind (onTrainer_accounts (tickRates_accounts _)) fun _ =>
      .modify fun r => Accounts.refl r.trainer
  split
  · exact onTrainer_accounts (evaluate_accounts _)
  · exact .pure ()

theorem nextEpoch_accounts :
    Keeps (Order.Preimage trainer Accounts) (nextEpoch setup loop horizon data) := by
  refine .bind (.modify fun r => ?_) fun _ => .get_bind fun r => ?_
  · have hcurrent : r.trainer.Accounts
        { r.trainer with state := { r.trainer.state with currentEpoch := r.currentEpoch } } :=
      .of_eq rfl rfl
    exact hcurrent.trans (.record ⟨rfl, rfl⟩ rfl _)
  refine .bind (onTrainer_accounts (resolveCounts_accounts _)) fun _ => .get_bind fun r =>
    .bind (onTrainer_accounts (call_accounts ?_ ?_ _)) fun _ =>
      .bind (epoch_keeps (EpochStep.run_accounts _ _)) fun ran => ?_
  · simp [HookCall.hook]
  · simp [HookCall.hook]
  cases ran with
  | none => exact .pure none
  | some ran => exact .bind (closeEpoch_accounts _) fun _ => .pure _

theorem run_accounts : Keeps (Order.Preimage trainer Accounts) (run setup loop horizon data) := by
  have hdecline (r : FitRun σ W β) : r.trainer.Accounts (r.declineStop setup.config).trainer := by
    unfold declineStop
    split <;> exact .of_eq rfl rfl
  refine .bind (.lift _) fun _ => ?_
  rw [← bind_assoc]
  refine .bind ?_ fun _ => .bind (.modify fun r => Accounts.tellCallbacks rfl _ _ _) fun _ =>
    .get_bind fun r => .bind (epochs_keeps hdecline nextEpoch_accounts _ _) fun ended => ?_
  · intro r
    have hset : Keeps (Order.Preimage trainer Beside) (recordFailure
        (onWorker (loop.setAccumulation setup.config.accumulateGradBatches)) :
          FitStep σ W β Unit) :=
      .noteFailure (fun r => .of_eq rfl rfl) fun e r => .record ⟨rfl, rfl⟩ r.trainer
    have hbeside : (RunEvent.accumulation setup.config.accumulateGradBatches :
        RunEvent β).IsBeside := ⟨rfl, rfl⟩
    exact .of_record hbeside rfl (hset (r.mapTrainer fun t => t.record _))
  cases ended with
  | none => exact .pure none
  | some ended =>
      refine .bind (.modify fun r => ?_) fun _ => .get_bind fun r => .pure _
      exact (Accounts.tellCallbacks rfl _ _ _).trans (.of_eq rfl rfl)

end FitStep

/-! ## What the profile says -/

/-- No region is open, and every region of some events was counted: of the training on batches, of
evaluations and of each hook. -/
structure Profile.Tells (p : Profile) (events : List (RunEvent β)) : Prop where
  idle : ∀ action, p.isActive action = false
  batches : p.count "run_training_batch" = events.countP RunEvent.isPulled
  evaluations : p.count "run_evaluation" = events.countP RunEvent.isEvaluated
  epochsStarted : p.count "on_train_epoch_start" =
    events.countP (RunEvent.dispatches .trainEpochStart)
  batchesTrained : p.count "on_train_batch_end" =
    events.countP (RunEvent.dispatches .trainBatchEnd)
  /-- The last hook of a batch follows where the one before it returned. -/
  batchesEnded : p.count "on_batch_end" = returned .trainBatchEnd events
  epochsReduced : p.count "training_epoch_end" =
    events.countP (RunEvent.dispatches .trainingEpochEnd)
  epochsTrained : p.count "on_train_epoch_end" = events.countP (RunEvent.dispatches .trainEpochEnd)
  epochsEnded : p.count "on_epoch_end" = events.countP (RunEvent.dispatches .epochEnd)

theorem RunEvent.region?_beq (event : RunEvent β) :
    (event.region? == some "run_training_batch") = event.isPulled ∧
    (event.region? == some "run_evaluation") = event.isEvaluated ∧
    ∀ hook : Hook, hook.isProfiled = true →
      (event.region? == some hook.name) = event.dispatches hook := by
  cases event with
  | dispatched other =>
      refine ⟨by cases other <;> rfl, by cases other <;> rfl, fun hook hprofiled => ?_⟩
      cases hook <;> first | (cases other <;> rfl) | cases hprofiled
  | pulled _ _ => exact ⟨rfl, rfl, fun hook _ => by cases hook <;> rfl⟩
  | evaluated _ _ => exact ⟨rfl, rfl, fun hook _ => by cases hook <;> rfl⟩
  | _ => exact ⟨rfl, rfl, fun _ _ => rfl⟩

namespace FitStep

open Trainer FitRun Stateful

/-- The profile of a run, whether it returns or fails and whatever fails in it: all its regions are
closed, and all of them are counted. -/
theorem run_profiled {setup : Setup W β} {loop : BatchLoop σ β} {horizon : Nat}
    {data : Nat → Batches β} {r r' : FitRun σ W β} {result : Except Error (Option FitResult)}
    (hfresh : r.trainer.profiler = .recording {})
    (h : (run setup loop horizon data).runOn r = (result, r')) :
    ∃ new p, r'.trainer.events.toList = r.trainer.events.toList ++ new ∧
      r'.trainer.profiler = .recording p ∧ p.Tells new := by
  have haccounts : r.trainer.Accounts ((run setup loop horizon data).runOn r).2.trainer :=
    run_accounts r
  rw [h] at haccounts
  obtain ⟨n, new, hnew, -, hends, hreturns, hcloses⟩ := haccounts
  obtain ⟨p, hp, hidle, hcount⟩ := hcloses {} hfresh rfl
  have hregion (action : String) :
      p.count action = new.countP fun event => event.region? == some action := by
    rw [hcount]
    exact Nat.zero_add _
  have hhook (hook : Hook) (hprofiled : hook.isProfiled = true) :
      p.count hook.name = new.countP (RunEvent.dispatches hook) := by
    rw [hregion]
    exact List.countP_congr fun event _ => by rw [event.region?_beq.2.2 hook hprofiled]
  refine ⟨new, p, hnew, hp, ?_⟩
  exact
    { idle := fun action => by rw [Profile.isActive, hidle]; rfl
      batches := by
        rw [hregion]
        exact List.countP_congr fun event _ => by rw [event.region?_beq.1]
      evaluations := by
        rw [hregion]
        exact List.countP_congr fun event _ => by rw [event.region?_beq.2.1]
      epochsStarted := hhook .trainEpochStart rfl
      batchesTrained := hhook .trainBatchEnd rfl
      batchesEnded := (hhook .batchEnd rfl).trans (hends.trans hreturns.symm)
      epochsReduced := hhook .trainingEpochEnd rfl
      epochsTrained := hhook .trainEpochEnd rfl
      epochsEnded := hhook .epochEnd rfl }

def failsLate : Setup Unit Unit :=
  { config := {}
    model := { onTrainBatchEnd := some fun _ _ index _ =>
      if index = 1 then throw (.misconfiguration (.stated "late")) else pure () } }

def failsLate.start : FitRun Unit Unit Unit :=
  { trainer := { Trainer.ofSetup failsLate () with profiler := .recording {} }, worker := () }

/-- Where the end of the second batch fails, the last hook of that batch is not in the profile. -/
theorem run_profiled_failsLate :
    ∃ (e : Error) (r' : FitRun Unit Unit Unit) (p : Profile),
      (run failsLate idle 3 fun _ => .exact 2 fun _ => ()).runOn failsLate.start = (.error e, r') ∧
      r'.trainer.profiler = .recording p ∧ p.Tells r'.trainer.events.toList ∧
      p.count "run_training_batch" = 2 ∧ p.count "on_train_batch_end" = 2 ∧
      p.count "on_batch_end" = 1 := by
  have hfails : ((run failsLate idle 3 fun _ => .exact 2 fun _ => ()).runOn
      failsLate.start).1.toOption.isNone = true := by
    decide +kernel
  have hcounts : (((run failsLate idle 3 fun _ => .exact 2 fun _ => ()).runOn
      failsLate.start).2.trainer.events.toList.countP RunEvent.isPulled,
      ((run failsLate idle 3 fun _ => .exact 2 fun _ => ()).runOn
        failsLate.start).2.trainer.events.toList.countP (RunEvent.dispatches .trainBatchEnd),
      returned .trainBatchEnd ((run failsLate idle 3 fun _ => .exact 2 fun _ => ()).runOn
        failsLate.start).2.trainer.events.toList) = (2, 2, 1) := by
    decide +kernel
  obtain ⟨e, hrun⟩ := error_of_isNone hfails
  obtain ⟨new, p, hnew, hp, htells⟩ := run_profiled rfl hrun
  have hevents : _ = new := hnew
  rw [hevents, Prod.mk.injEq, Prod.mk.injEq] at hcounts
  exact ⟨e, _, p, hrun, hp, hevents ▸ htells, htells.batches.trans hcounts.1,
    htells.batchesTrained.trans hcounts.2.1, htells.batchesEnded.trans hcounts.2.2⟩

end FitStep

end TrainingLoop
