import Mathlib.Computability.Language
import Mathlib.Order.CompletePartialOrder
import TrainingLoop.Proofs.Metric.Log
import TrainingLoop.Proofs.Run.Trainer
/-!
# The trace of a computation

The events that a computation makes are a word of a language if it succeeds, and the beginning of
one, with the failure of its last call behind it, if it fails (`EmitsAt`). Here are the languages
of the steps of the trainer, and the rule by which the trace of a composed computation follows from
those of its parts.
-/

namespace TrainingLoop

variable {S W β α γ : Type}

def RunEvent.runError : RunEvent β → Error → Error
  | .batchRun _ _ _ => Error.ofBatchLoop
  | .evaluated _ _ => Error.ofEvaluation
  | _ => id

def Context.progress (c : Context) : Progress := ⟨c.globalStep, c.totalBatches⟩

/-- Who answers a call after the callbacks: the model's override or, where the model has none, the
accelerator. -/
def Setup.answered (setup : Setup W β) (call : HookCall β) : RunEvent β :=
  if (setup.model.override? call).isSome then .model call else .accelerator call

theorem events_trans {first second third new more : List (RunEvent β)}
    (h : second = first ++ new) (h' : third = second ++ more) : third = first ++ (new ++ more) := by
  rw [h', h, List.append_assoc]

/-! ## Words cut short -/

/-- A word of a language cut short by an error: either between two events, or by the failure of the
last call made, which is the error then. -/
def CutShort (L : Language (RunEvent β)) (e : Error) (new : List (RunEvent β)) : Prop :=
  ∃ done rest, done ++ rest ∈ L ∧
    (new = done ∨ ∃ before call cause, done = before ++ [call] ∧
      new = done ++ [.failed cause] ∧ e = call.runError cause)

namespace CutShort

variable {L M : Language (RunEvent β)} {e : Error} {new word : List (RunEvent β)}

theorem mono (hle : L ≤ M) (h : CutShort L e new) : CutShort M e new := by
  obtain ⟨done, rest, hword, hends⟩ := h
  exact ⟨done, rest, hle hword, hends⟩

theorem nil (hL : ∃ word, word ∈ L) : CutShort L e [] := by
  obtain ⟨word, hword⟩ := hL
  exact ⟨[], word, hword, .inl rfl⟩

theorem failed {call : RunEvent β} {cause : Error} (hcall : [call] ∈ L)
    (he : e = call.runError cause) : CutShort L e [call, .failed cause] :=
  ⟨[call], [], hcall, .inr ⟨[], call, cause, rfl, rfl, he⟩⟩

theorem extend (hM : ∃ word, word ∈ M) (h : CutShort L e new) : CutShort (L * M) e new := by
  obtain ⟨done, rest, hword, hends⟩ := h
  obtain ⟨more, hmore⟩ := hM
  refine ⟨done, rest ++ more, ?_, hends⟩
  rw [← List.append_assoc]
  exact Language.append_mem_mul hword hmore

theorem append (hword : word ∈ L) (h : CutShort M e new) : CutShort (L * M) e (word ++ new) := by
  obtain ⟨done, rest, hmore, hends⟩ := h
  refine ⟨word ++ done, rest, ?_, ?_⟩
  · rw [List.append_assoc]
    exact Language.append_mem_mul hword hmore
  · rcases hends with rfl | ⟨before, call, cause, hdone, hnew, he⟩
    · exact .inl rfl
    · refine .inr ⟨word ++ before, call, cause, ?_, ?_, he⟩
      · rw [hdone, List.append_assoc]
      · rw [hnew, List.append_assoc]

end CutShort

def Leaves (L : Language (RunEvent β)) (result : Except Error α) (new : List (RunEvent β)) : Prop :=
  match result with
  | .ok _ => new ∈ L
  | .error e => CutShort L e new

theorem Leaves.mono {L M : Language (RunEvent β)} (hle : L ≤ M) {result : Except Error α}
    {new : List (RunEvent β)} (h : Leaves L result new) : Leaves M result new := by
  cases result with
  | ok a => exact hle h
  | error e => exact CutShort.mono hle h

theorem Leaves.append {L M : Language (RunEvent β)} {word : List (RunEvent β)} (hword : word ∈ L)
    {result : Except Error α} {new : List (RunEvent β)} (h : Leaves M result new) :
    Leaves (L * M) result (word ++ new) := by
  cases result with
  | ok a => exact Language.append_mem_mul hword h
  | error e => exact CutShort.append hword h

def LeavesUpTo (L M : Language (RunEvent β)) : Except Error (Option α) → List (RunEvent β) → Prop
  | .ok (some _), new => new ∈ L
  | .ok none, new => new ∈ M
  | .error e, new => CutShort L e new

/-! ## Traces of composed computations -/

/-- From a state with `n` callbacks the computation makes the events of a word of `L`, which is cut
short if it fails, and leaves as many callbacks. -/
def EmitsAt (trainer : S → Trainer W β) (n : Nat) (L : Language (RunEvent β))
    (action : Stateful S α) (s : S) : Prop :=
  (trainer s).callbacks.length = n →
    (trainer (action.runOn s).2).callbacks.length = n ∧
      ∃ new, (trainer (action.runOn s).2).events.toList = (trainer s).events.toList ++ new ∧
        Leaves L (action.runOn s).1 new

namespace EmitsAt

open Stateful

variable {trainer : S → Trainer W β} {n : Nat} {L M : Language (RunEvent β)} {s : S}

theorem of_run {action : Stateful S α} (h : EmitsAt trainer n L action s) {s' : S}
    {result : Except Error α} (hrun : action.runOn s = (result, s'))
    (hn : (trainer s).callbacks.length = n) :
    (trainer s').callbacks.length = n ∧
      ∃ new, (trainer s').events.toList = (trainer s).events.toList ++ new ∧
        Leaves L result new := by
  have hall := h hn
  rw [hrun] at hall
  exact hall

theorem mono {action : Stateful S α} (hle : L ≤ M) (h : EmitsAt trainer n L action s) :
    EmitsAt trainer n M action s := by
  intro hn
  obtain ⟨hcallbacks, new, hnew, hleaves⟩ := h hn
  exact ⟨hcallbacks, new, hnew, hleaves.mono hle⟩

theorem pure (a : α) (hL : [] ∈ L) : EmitsAt trainer n L (pure a) s :=
  fun hn => ⟨hn, [], (List.append_nil _).symm, hL⟩

theorem throw (e : Error) (hL : ∃ word, word ∈ L) :
    EmitsAt trainer n L (throw e : Stateful S α) s :=
  fun hn => ⟨hn, [], (List.append_nil _).symm, CutShort.nil hL⟩

theorem bind {x : Stateful S α} {f : α → Stateful S γ} (hM : ∃ word, word ∈ M)
    (hx : EmitsAt trainer n L x s)
    (hf : ∀ a s', x.runOn s = (.ok a, s') → EmitsAt trainer n M (f a) s') :
    EmitsAt trainer n (L * M) (x >>= f) s := by
  intro hn
  obtain ⟨hcallbacks, new, hnew, hleaves⟩ := hx hn
  rw [runOn_bind]
  cases hrun : x.runOn s with
  | mk result s' =>
      rw [hrun] at hcallbacks hnew hleaves
      cases result with
      | error e => exact ⟨hcallbacks, new, hnew, CutShort.extend hM hleaves⟩
      | ok a =>
          obtain ⟨hcallbacks', more, hmore, hleaves'⟩ := hf a s' hrun hcallbacks
          refine ⟨hcallbacks', new ++ more, ?_, Leaves.append hleaves hleaves'⟩
          rw [hmore, hnew, List.append_assoc]

theorem bind_pure {x : Stateful S α} {g : α → γ} (hx : EmitsAt trainer n L x s) :
    EmitsAt trainer n L (x >>= fun a => Pure.pure (g a)) s := by
  have hall : EmitsAt trainer n (L * 1) (x >>= fun a => Pure.pure (g a)) s :=
    bind ⟨[], Language.nil_mem_one⟩ hx fun _ _ _ => pure _ Language.nil_mem_one
  rwa [mul_one] at hall

theorem get_bind {f : S → Stateful S γ} (h : EmitsAt trainer n L (f s) s) :
    EmitsAt trainer n L (get >>= f) s := h

theorem modify_bind {f : S → S} {g : Unit → Stateful S γ}
    (hevents : (trainer (f s)).events = (trainer s).events)
    (hcallbacks : (trainer (f s)).callbacks = (trainer s).callbacks)
    (h : EmitsAt trainer n L (g ()) (f s)) : EmitsAt trainer n L (modify f >>= g) s := by
  intro hn
  rw [runOn_modify_bind, ← hevents]
  exact h (by rw [hcallbacks, hn])

theorem record_bind {event : RunEvent β} {f : S → S} {g : Unit → Stateful S γ}
    (hevents : (trainer (f s)).events = (trainer s).events.push event)
    (hcallbacks : (trainer (f s)).callbacks = (trainer s).callbacks)
    (h : EmitsAt trainer n L (g ()) (f s)) :
    EmitsAt trainer n ({[event]} * L) (modify f >>= g) s := by
  intro hn
  obtain ⟨hcallbacks', new, hnew, hleaves⟩ := h (by rw [hcallbacks, hn])
  rw [runOn_modify_bind]
  have hevent : [event] ∈ ({[event]} : Language (RunEvent β)) := rfl
  refine ⟨hcallbacks', [event] ++ new, ?_, hleaves.append hevent⟩
  rw [hnew, hevents, Journal.toList_push, List.append_assoc]

theorem onPart {put : Trainer W β → S → S} {action : Stateful (Trainer W β) α}
    (hput : ∀ part s, trainer (put part s) = part) (h : EmitsAt id n L action (trainer s)) :
    EmitsAt trainer n L (onPart trainer put action) s := by
  intro hn
  rw [runOn_onPart]
  dsimp only
  rw [hput]
  exact h hn

theorem ite {due : Bool} {action : Stateful S Unit}
    (h : due = true → EmitsAt trainer n L action s) :
    EmitsAt trainer n (1 + L) (if due then action else Pure.pure ()) s := by
  cases due with
  | true => exact mono (fun _ hword => Or.inr hword) (h rfl)
  | false => exact pure () (Or.inl Language.nil_mem_one)

end EmitsAt

/-! ## The languages of the trainer's steps -/

namespace Trace

open Trainer

/-- A hook told to `n` callbacks in the order of their positions, each of which is shown the same,
with the counters `p`. -/
def told (n : Nat) (p : Progress) (hook : Hook) (event : CallbackEvent) : Language (RunEvent β) :=
  {word | ∃ context stops, context.progress = p ∧ stops.length = n ∧
    word = .dispatched hook :: heard event context 0 stops}

def called (setup : Setup W β) (n : Nat) (p : Progress) (call : HookCall β) :
    Language (RunEvent β) :=
  told n p call.hook call.event * {[setup.answered call]}

def reduced (setup : Setup W β) (outputs : Processed) : Language (RunEvent β) :=
  {[.dispatched .trainingEpochEnd]} *
    if setup.model.trainingEpochEnd.isSome then {[.reduced outputs]} else 1

def evaluated (p : Progress) : Language (RunEvent β) :=
  {word | ∃ epoch, word = [.evaluated epoch p.globalStep]}

def validated (n : Nat) (p : Progress) : Language (RunEvent β) :=
  evaluated p * told n p .validationEnd .validationEnd

def logged (p : Progress) : Language (RunEvent β) :=
  {word | ∃ record : LogRecord, record.step = p.globalStep ∧ word = [.logged record]}

theorem told_nonempty (n : Nat) (p : Progress) (hook : Hook) (event : CallbackEvent) :
    ∃ word, word ∈ (told n p hook event : Language (RunEvent β)) :=
  ⟨_, { globalStep := p.globalStep, totalBatches := p.totalBatches }, List.replicate n false, rfl,
    List.length_replicate, rfl⟩

theorem mul_nonempty {L M : Language (RunEvent β)} (hL : ∃ word, word ∈ L)
    (hM : ∃ word, word ∈ M) : ∃ word, word ∈ L * M := by
  obtain ⟨word, hword⟩ := hL
  obtain ⟨more, hmore⟩ := hM
  exact ⟨word ++ more, Language.append_mem_mul hword hmore⟩

theorem called_nonempty (setup : Setup W β) (n : Nat) (p : Progress) (call : HookCall β) :
    ∃ word, word ∈ called setup n p call :=
  mul_nonempty (told_nonempty _ _ _ _) ⟨_, rfl⟩

theorem reduced_nonempty (setup : Setup W β) (outputs : Processed) :
    ∃ word, word ∈ reduced setup outputs := by
  refine mul_nonempty ⟨_, rfl⟩ ?_
  split
  · exact ⟨_, rfl⟩
  · exact ⟨[], Language.nil_mem_one⟩

theorem optional_nonempty (L : Language (RunEvent β)) : ∃ word, word ∈ 1 + L :=
  ⟨[], .inl Language.nil_mem_one⟩

end Trace

/-! ## Events that all words of a language hold -/

/-- The event shows the counters `p` where it shows any; it neither moves the loops on nor is a
failure. -/
def RunEvent.Quiet (p : Progress) : RunEvent β → Prop
  | .callback _ _ context => context.progress = p
  | .evaluated _ globalStep => globalStep = p.globalStep
  | .logged record => record.step = p.globalStep
  | .dataRequested _ | .pulled _ _ | .signalled _ | .stepRequested _ _ | .failed _ => False
  | _ => True

def RunEvent.Ordinary : RunEvent β → Prop
  | .dataRequested _ | .failed _ => False
  | _ => True

theorem RunEvent.Quiet.ordinary {p : Progress} {event : RunEvent β} (h : event.Quiet p) :
    event.Ordinary := by
  cases event <;> trivial

def Only (Q : RunEvent β → Prop) (L : Language (RunEvent β)) : Prop :=
  ∀ word ∈ L, ∀ event ∈ word, Q event

namespace Only

open Trace Computability

variable {Q R : RunEvent β → Prop} {L M : Language (RunEvent β)} {p : Progress}

theorem mono (hle : ∀ event, Q event → R event) (h : Only Q L) : Only R L :=
  fun word hword event hevent => hle event (h word hword event hevent)

theorem one : Only Q 1 := by
  intro word hword event hevent
  rw [(Language.mem_one word).1 hword] at hevent
  cases hevent

theorem single {event : RunEvent β} (h : Q event) : Only Q {[event]} := by
  rintro word rfl event' hevent
  rwa [List.mem_singleton.1 hevent]

theorem add (hL : Only Q L) (hM : Only Q M) : Only Q (L + M) :=
  fun word hword => hword.elim (hL word) (hM word)

theorem optional (hL : Only Q L) : Only Q (1 + L) := one.add hL

theorem mul (hL : Only Q L) (hM : Only Q M) : Only Q (L * M) := by
  rintro _ ⟨word, hword, more, hmore, rfl⟩ event hevent
  exact (List.mem_append.1 hevent).elim (hL word hword event) (hM more hmore event)

theorem kstar (hL : Only Q L) : Only Q L∗ := by
  intro word hword event hevent
  obtain ⟨words, rfl, hwords⟩ := Language.mem_kstar.1 hword
  obtain ⟨part, hpart, hin⟩ := List.mem_flatten.1 hevent
  exact hL part (hwords part hpart) event hin

theorem iSup {ι : Type} {L : ι → Language (RunEvent β)} (h : ∀ i, Only Q (L i)) :
    Only Q (⨆ i, L i) := by
  intro word hword
  obtain ⟨i, hi⟩ := Language.mem_iSup.1 hword
  exact h i word hi

theorem told (n : Nat) (p : Progress) (hook : Hook) (event : CallbackEvent) :
    Only (RunEvent.Quiet p) (told n p hook event : Language (RunEvent β)) := by
  rintro word ⟨context, stops, hp, -, rfl⟩ e he
  rcases List.mem_cons.1 he with rfl | he
  · trivial
  · rcases Trainer.mem_heard he with ⟨position, rfl⟩ | ⟨position, rfl⟩
    · exact hp
    · trivial

theorem called (setup : Setup W β) (n : Nat) (p : Progress) (call : HookCall β) :
    Only (RunEvent.Quiet p) (called setup n p call) := by
  refine (told n p call.hook call.event).mul (single ?_)
  unfold Setup.answered
  split <;> trivial

theorem reduced (setup : Setup W β) (outputs : Processed) :
    Only (RunEvent.Quiet p) (reduced setup outputs) := by
  refine (single trivial).mul ?_
  split
  · exact single trivial
  · exact one

theorem validated (n : Nat) (p : Progress) :
    Only (RunEvent.Quiet p) (validated n p : Language (RunEvent β)) := by
  refine mul ?_ (told n p _ _)
  rintro word ⟨epoch, rfl⟩ event hevent
  rw [List.mem_singleton.1 hevent]
  exact rfl

theorem logged (p : Progress) :
    Only (RunEvent.Quiet p) (logged p : Language (RunEvent β)) := by
  rintro word ⟨record, hstep, rfl⟩ event hevent
  rw [List.mem_singleton.1 hevent]
  exact hstep

end Only

theorem CutShort.only {Q : RunEvent β → Prop} {L : Language (RunEvent β)} {e : Error}
    {new : List (RunEvent β)} (hL : Only Q L) (hfailed : ∀ cause, Q (.failed cause))
    (h : CutShort L e new) : ∀ event ∈ new, Q event := by
  obtain ⟨done, rest, hword, hends⟩ := h
  have hdone : ∀ event ∈ done, Q event := fun event hevent =>
    hL _ hword event (List.mem_append_left rest hevent)
  rcases hends with rfl | ⟨before, call, cause, -, rfl, -⟩
  · exact hdone
  · intro event hevent
    rcases List.mem_append.1 hevent with hin | hlast
    · exact hdone event hin
    · rw [List.mem_singleton.1 hlast]
      exact hfailed cause

theorem Leaves.only {Q : RunEvent β → Prop} {L : Language (RunEvent β)}
    {result : Except Error α} {new : List (RunEvent β)} (hL : Only Q L)
    (hfailed : ∀ cause, Q (.failed cause)) (h : Leaves L result new) :
    ∀ event ∈ new, Q event := by
  cases result with
  | ok a => exact hL new h
  | error e => exact CutShort.only hL hfailed h

theorem LeavesUpTo.only {Q : RunEvent β → Prop} {L M : Language (RunEvent β)}
    {result : Except Error (Option α)} {new : List (RunEvent β)} (hL : Only Q L) (hM : Only Q M)
    (hfailed : ∀ cause, Q (.failed cause)) (h : LeavesUpTo L M result new) :
    ∀ event ∈ new, Q event := by
  match result with
  | .ok (some a) => exact hL new h
  | .ok none => exact hM new h
  | .error e => exact CutShort.only hL hfailed h

theorem Trainer.tellCallbacks_traced {n : Nat} {t : Trainer W β} (hook : Hook)
    (event : CallbackEvent) {context : Context} {p : Progress} (hp : context.progress = p)
    (hn : t.callbacks.length = n) :
    (t.tellCallbacks hook event context).callbacks.length = n ∧
      ∃ new, (t.tellCallbacks hook event context).events.toList = t.events.toList ++ new ∧
        new ∈ (Trace.told n p hook event : Language (RunEvent β)) := by
  obtain ⟨callbacks, world, events, notices, hcallbacks, hevents, htold⟩ :=
    tellCallbacks_told hook event context t
  rw [htold]
  exact ⟨hcallbacks.trans hn, _, hevents, context, t.stops event context, hp,
    (length_stops event context t).trans hn, rfl⟩

/-! ## The calls of the logger -/

namespace MetricsLog

theorem step_of_due {outputs : Processed} {step : Nat} {stopRequested : Bool} {l : MetricsLog W}
    {due : LogRecord} (h : l.due? outputs step stopRequested = some due) : due.step = step := by
  unfold due? at h
  split at h
  · cases h
  · split at h
    · cases h
      rfl
    · cases h

end MetricsLog

/-! ## The traces of the trainer's steps -/

namespace TrainerStep

open Trainer Stateful Trace

variable {n : Nat} {t : Trainer W β}

theorem inRegion_emits {L : Language (RunEvent β)} {action : String} {body : TrainerStep W β α}
    (h : EmitsAt id n L body (t.openRegion action)) : EmitsAt id n L (inRegion action body) t := h

theorem recordFailure_emits {event : RunEvent β} {step : TrainerStep W β α}
    (herror : ∀ cause, event.runError cause = cause)
    (hevents : (step.runOn t).2.events.toList = t.events.toList ++ [event])
    (hcallbacks : (step.runOn t).2.callbacks = t.callbacks) :
    EmitsAt id n {[event]} (recordFailure step) t := by
  intro hn
  obtain ⟨hresult, hsame, hall⟩ := recordFailure_events step t
  refine ⟨by simpa [hsame, hcallbacks] using hn, event :: failure (step.runOn t).1, ?_, ?_⟩
  · rw [id, hall, hevents, List.append_assoc]
    rfl
  · rw [hresult]
    cases (step.runOn t).1 with
    | ok a => exact rfl
    | error e => exact CutShort.failed rfl (herror e).symm

theorem outside_emits {event : RunEvent β} {action : Stateful W α}
    (herror : ∀ cause, event.runError cause = cause) :
    EmitsAt id n {[event]} (do modify fun t => t.record event; outside action) t := by
  have hstep : EmitsAt id n {[event]} (recordFailure (do
      modify fun t => t.record event
      onPart Trainer.world (fun world t => { t with world }) action)) t :=
    recordFailure_emits herror (Journal.toList_push _ _) rfl
  exact hstep

theorem onLog_emits {event : RunEvent β}
    {action : MetricsLog W → W → Except Error Unit × MetricsLog W × W}
    (herror : ∀ cause, event.runError cause = cause) :
    EmitsAt id n {[event]} (do modify fun t => t.record event; onLog action) t := by
  have hstep : EmitsAt id n {[event]} (recordFailure (do
      modify fun t => t.record event
      of fun t => ((action t.log t.world).1, { t with
        log := (action t.log t.world).2.1
        world := (action t.log t.world).2.2 }))) t :=
    recordFailure_emits herror (Journal.toList_push _ _) rfl
  exact hstep

theorem onLog_quiet {action : MetricsLog W → W → Except Error Unit × MetricsLog W × W}
    (hok : (action t.log t.world).1 = .ok ()) : EmitsAt id n 1 (onLog action) t := by
  intro hn
  obtain ⟨hresult, hsame, hall⟩ := recordFailure_events (of fun t : Trainer W β =>
    ((action t.log t.world).1, { t with
      log := (action t.log t.world).2.1
      world := (action t.log t.world).2.2 })) t
  rw [runOn_of] at hresult hsame hall
  dsimp only at hresult hsame hall
  rw [hok] at hresult hall
  refine ⟨?_, [], hall, ?_⟩
  · simpa [onLog, hsame] using hn
  · rw [onLog, hresult]
    exact Language.nil_mem_one

theorem tellCallbacks_emits (hook : Hook) (event : CallbackEvent)
    {context : Trainer W β → Context} {p : Progress} (hp : (context t).progress = p) :
    EmitsAt id n (told n p hook event)
      (modify fun t => t.tellCallbacks hook event (context t)) t :=
  fun hn => tellCallbacks_traced hook event hp hn

theorem answer_emits (setup : Setup W β) (hookCall : HookCall β) :
    EmitsAt id n {[setup.answered hookCall]} (answer setup hookCall) t := by
  unfold answer
  cases hoverride : setup.model.override? hookCall with
  | none =>
      have hanswered : setup.answered hookCall = .accelerator hookCall := by
        simp [Setup.answered, hoverride]
      rw [hanswered]
      exact outside_emits fun _ => rfl
  | some action =>
      have hanswered : setup.answered hookCall = .model hookCall := by
        simp [Setup.answered, hoverride]
      have hmodel (t : Trainer W β) : EmitsAt id n {[.model hookCall]}
          (do modify fun t => t.record (.model hookCall); outside action) t :=
        outside_emits fun _ => rfl
      rw [hanswered]
      dsimp only
      split
      · apply EmitsAt.modify_bind rfl rfl
        exact hmodel _
      · exact hmodel t

/-- A hook that the model may override is told to all callbacks, and then answered once. -/
theorem call_emits (setup : Setup W β) (hookCall : HookCall β) {context : Context} {p : Progress}
    (hp : context.progress = p) :
    EmitsAt id n (called setup n p hookCall) (call setup hookCall context) t :=
  inRegion_emits <| .bind ⟨_, rfl⟩ (tellCallbacks_emits _ _ hp) fun _ _ _ => answer_emits _ _

theorem reduce_emits (setup : Setup W β) (outputs : Processed) :
    EmitsAt id n (reduced setup outputs) (reduce setup outputs) t := by
  refine inRegion_emits (.record_bind rfl rfl ?_)
  cases setup.model.trainingEpochEnd with
  | none => exact .pure () Language.nil_mem_one
  | some action =>
      have hcall (t : Trainer W β) : EmitsAt id n {[.reduced outputs]}
          (do modify fun t => t.record (.reduced outputs); outside (action outputs)) t :=
        outside_emits fun _ => rfl
      have hall (t : Trainer W β) : EmitsAt id n ({[.reduced outputs]} * 1)
          ((modify (fun t => t.record (.reduced outputs)) >>= fun _ => outside (action outputs)) >>=
            fun returned =>
              if returned then throw (.misconfiguration .epochEndReturnedValue) else pure ()) t := by
        refine .bind ⟨[], Language.nil_mem_one⟩ (hcall _) fun returned t' _ => ?_
        cases returned
        · exact .pure () Language.nil_mem_one
        · exact .throw _ ⟨[], Language.nil_mem_one⟩
      simp only [mul_one, bind_assoc] at hall
      exact hall _

theorem logStep_emits (outputs : Processed) (p : Progress) :
    EmitsAt id n (1 + logged p) (logStep outputs p.globalStep) t := by
  refine .get_bind ?_
  dsimp only
  split
  · split
    · rename_i hsink due hdue
      have hlogged : EmitsAt id n {[.logged due]} (do
          modify fun t => t.record (.logged due)
          onLog (MetricsLog.logStep outputs p.globalStep t.state.shouldStop)) t :=
        onLog_emits fun _ => rfl
      refine hlogged.mono ?_
      rintro word rfl
      exact .inr ⟨due, MetricsLog.step_of_due hdue, rfl⟩
    · rename_i hsink hdue
      exact (onLog_quiet (MetricsLog.logStep_quiet (.inr hdue) _)).mono fun _ => .inl
  · rename_i hsink
    have hnone : t.log.sink = none := by simpa using hsink
    exact (onLog_quiet (MetricsLog.logStep_quiet (.inl hnone) _)).mono fun _ => .inl

theorem flush_emits (globalStep : Nat) :
    EmitsAt id n (1 + {[.saved]}) (flush globalStep : TrainerStep W β Unit) t := by
  refine .get_bind (.ite fun _ => ?_)
  exact onLog_emits fun _ => rfl

theorem tickRates_emits (interval : Interval) :
    EmitsAt id n {[.ratesTicked interval]} (tickRates interval : TrainerStep W β Unit) t :=
  recordFailure_emits (fun _ => rfl) (by simp [Trainer.record, Trainer.report]) rfl

theorem publishEvaluation_emits (setup : Setup W β) (p : Progress) (metrics : Metrics) :
    EmitsAt id n (told n p .validationEnd .validationEnd)
      (publishEvaluation setup p (.ok metrics)) t := by
  unfold publishEvaluation
  apply EmitsAt.modify_bind rfl rfl
  exact tellCallbacks_emits _ _ rfl

theorem evaluate_emits (setup : Setup W β) (p : Progress) :
    EmitsAt id n (1 + validated n p) (evaluate setup p) t := by
  unfold evaluate
  cases setup.evaluator with
  | none => exact .pure () (.inl Language.nil_mem_one)
  | some evaluator =>
      refine EmitsAt.mono (fun _ => .inr) fun hn => ?_
      obtain ⟨result, t', hrun, hevents⟩ := runEvaluator_events evaluator p.globalStep t
      have hframe : Follows (fun _ => True) t t' :=
        (runEvaluator_keeps evaluator p.globalStep (fun _ _ => trivial) fun _ => trivial).of_ok hrun
      have hn' : t'.callbacks.length = n := hframe.callbacks.trans hn
      have hevaluated : [.evaluated t.state.currentEpoch p.globalStep] ∈
          (evaluated p : Language (RunEvent β)) := ⟨_, rfl⟩
      dsimp only
      rw [runOn_bind, hrun]
      dsimp only
      cases result with
      | error cause =>
          have hfailed : CutShort (evaluated p : Language (RunEvent β)) cause.ofEvaluation
              [.evaluated t.state.currentEpoch p.globalStep, .failed cause] :=
            .failed hevaluated rfl
          rw [publishEvaluation, runOn_throw]
          exact ⟨hn', _, hevents, hfailed.extend (told_nonempty _ _ _ _)⟩
      | ok metrics =>
          obtain ⟨hcallbacks, new, hnew, hleaves⟩ := publishEvaluation_emits setup p metrics hn'
          have hall := hleaves.append hevaluated
          refine ⟨hcallbacks, _, ?_, hall⟩
          rw [hnew, id, hevents, List.append_assoc]
          rfl

end TrainerStep

end TrainingLoop
