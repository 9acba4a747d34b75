import TrainingLoop.Proofs.Run.FitTrace
/-!
# The stop protocol

A callback may ask for a stop at any event of an epoch. From then on the epoch pulls no batch
(`Heeds`), and comes to its end as any other. Whether the run goes on after it depends on the
limits alone; if it does, it goes on without the request (`run_stopProtocol`).
-/

namespace TrainingLoop

variable {σ W β : Type}

/-! ## Events after a request -/

/-- No batch is pulled while a stop is requested, where `stop` tells whether one is from the
start. -/
def Heeds : (stop : Bool) → List (RunEvent β) → Prop
  | _, [] => True
  | stop, event :: rest => (event.isPulled → stop = false) ∧ Heeds (stop || event.asksStop) rest

namespace Heeds

variable {stop : Bool} {events rest : List (RunEvent β)}

theorem append (h : Heeds stop events)
    (hrest : Heeds (stop || events.any RunEvent.asksStop) rest) : Heeds stop (events ++ rest) := by
  induction events generalizing stop with
  | nil => simpa using hrest
  | cons event events ih =>
      refine ⟨h.1, ih h.2 ?_⟩
      rwa [List.any_cons, ← Bool.or_assoc] at hrest

theorem of_append (h : Heeds stop (events ++ rest)) :
    Heeds stop events ∧ Heeds (stop || events.any RunEvent.asksStop) rest := by
  induction events generalizing stop with
  | nil => exact ⟨trivial, by simpa using h⟩
  | cons event events ih =>
      obtain ⟨hevents, hrest⟩ := ih h.2
      rw [List.any_cons, ← Bool.or_assoc]
      exact ⟨⟨h.1, hevents⟩, hrest⟩

theorem of_unpulled (h : ∀ event ∈ events, event.isPulled = false) : Heeds stop events := by
  induction events generalizing stop with
  | nil => trivial
  | cons event events ih =>
      have hevent : event.isPulled = false := h event List.mem_cons_self
      exact ⟨by simp [hevent], ih fun event' hin => h event' (List.mem_cons_of_mem _ hin)⟩

theorem unpulled (h : Heeds true events) : ∀ event ∈ events, event.isPulled = false := by
  induction events with
  | nil => nofun
  | cons event events ih =>
      intro event' hin
      rcases List.mem_cons.1 hin with rfl | hin
      · simpa using h.1
      · exact ih h.2 event' hin

theorem after_stop {position : Nat} (h : Heeds stop (events ++ .stopAsked position :: rest)) :
    ∀ event ∈ rest, event.isPulled = false := by
  have hrest := h.of_append.2.2
  rw [RunEvent.asksStop, Bool.or_true] at hrest
  exact hrest.unpulled

theorem of_leaves {α : Type} {L : Language (RunEvent β)} {result : Except Error α}
    {new : List (RunEvent β)} (hL : ∀ word ∈ L, Heeds stop word) (h : Leaves L result new) :
    Heeds stop new := by
  cases result with
  | ok a => exact hL new h
  | error e =>
      obtain ⟨done, rest, hword, hends⟩ := h
      have hdone : Heeds stop done := (hL _ hword).of_append.1
      rcases hends with rfl | ⟨before, call, cause, -, rfl, -⟩
      · exact hdone
      · exact hdone.append (of_unpulled (by simp [RunEvent.isPulled]))

end Heeds

/-! ## The languages of a batch -/

theorem RunEvent.Quiet.unpulled {p : Progress} {event : RunEvent β} (h : event.Quiet p) :
    event.isPulled = false := by
  cases event <;> first | exact h.elim | rfl

namespace Only

open Trace

theorem unpulled {p : Progress} {L : Language (RunEvent β)} (h : Only (RunEvent.Quiet p) L) :
    Only (fun event => event.isPulled = false) L := h.mono fun _ => RunEvent.Quiet.unpulled

theorem upkeep (n : Nat) (p : Progress) (steps : Bool) :
    Only (fun event => event.isPulled = false) (upkeep n p steps : Language (RunEvent β)) := by
  have hone {event : RunEvent β} (h : event.isPulled = false) :
      Only (fun event => event.isPulled = false) {[event]} := single h
  have hstepped : Only (fun event => event.isPulled = false)
      (if steps then Trace.stepped p else 1 : Language (RunEvent β)) := by
    cases steps with
    | true => exact (hone rfl).mul (hone rfl)
    | false => exact one
  exact (validated n p).unpulled.optional.mul ((hone rfl).optional.mul hstepped)

end Only

namespace Trace

variable {setup : Setup W β} {n : Nat} {p : Progress} {handed : Handed β} {dataloader : Nat}
  {outputs : Processed} {steps : Bool} {word : List (RunEvent β)}

theorem completed_pulls
    (h : word ∈ trained setup n p handed dataloader outputs * upkeep n p steps) :
    ∃ rest, word = .pulled handed.index handed.isLast :: rest ∧
      ∀ event ∈ rest, event.isPulled = false := by
  obtain ⟨_, ⟨_, ⟨_, rfl, _, rfl, rfl⟩, ended, hended, rfl⟩, kept, hkept, rfl⟩ := h
  refine ⟨.batchRun handed.batch handed.index dataloader :: (ended ++ kept), by simp, ?_⟩
  have hboth := (Only.batchEnded setup n p handed dataloader outputs).unpulled.mul
    (Only.upkeep n p steps)
  intro event hevent
  rcases List.mem_cons.1 hevent with rfl | hin
  · rfl
  · exact hboth _ (Language.append_mem_mul hended hkept) event hin

theorem heeds_completed
    (h : word ∈ trained setup n p handed dataloader outputs * upkeep n p steps) :
    Heeds false word := by
  obtain ⟨rest, rfl, hrest⟩ := completed_pulls h
  exact ⟨fun _ => rfl, .of_unpulled hrest⟩

theorem countP_completed
    (h : word ∈ trained setup n p handed dataloader outputs * upkeep n p steps) :
    word.countP RunEvent.isPulled = 1 := by
  obtain ⟨rest, rfl, hrest⟩ := completed_pulls h
  have hnone : rest.countP RunEvent.isPulled = 0 :=
    List.countP_eq_zero.2 fun event hin => by simp [hrest event hin]
  rw [List.countP_cons, hnone]
  rfl

theorem heeds_skipped (h : word ∈ skipped handed dataloader) : Heeds false word := by
  obtain ⟨_, ⟨_, rfl, _, rfl, rfl⟩, _, rfl, rfl⟩ := h
  exact ⟨fun _ => rfl, .of_unpulled (by simp [RunEvent.isPulled])⟩

end Trace

/-! ## An epoch -/

namespace EpochStep

open Trainer Stateful Trace

variable {setup : Setup W β} {loop : BatchLoop σ β} {horizon n : Nat} {r r' : EpochRun σ W β}
  {kept : KeptOutputs}

theorem unstopped_of_goes (hgoes : r.isDone loop = false) :
    r.trainer.state.shouldStop = false := by
  simp only [EpochRun.isDone, Bool.or_eq_false_iff] at hgoes
  exact hgoes.1.2

theorem halts_heed {result : Except Error (Option KeptOutputs)} {feed : Feed β}
    (hphase : r.phase = .running feed) (h : Halts setup loop r kept result r')
    (hn : r.trainer.callbacks.length = n) :
    ∃ new, r'.trainer.events.toList = r.trainer.events.toList ++ new ∧
      Heeds r.trainer.state.shouldStop new ∧ (result = .ok none → new = []) := by
  obtain ⟨-, new, hnew, hhalted⟩ := halts_told hphase h hn
  refine ⟨new, hnew, ?_⟩
  cases hhalted with
  | ended hprogress => exact ⟨trivial, fun _ => rfl⟩
  | passed hprogress => exact ⟨trivial, fun _ => rfl⟩
  | skipped hgoes hprogress hword =>
      rw [unstopped_of_goes hgoes]
      exact ⟨heeds_skipped hword, nofun⟩
  | @failed e _ _ _ _ hgoes hcut =>
      have hleaves : Leaves _ (.error e : Except Error Unit) new := hcut
      rw [unstopped_of_goes hgoes]
      exact ⟨.of_leaves (fun _ => heeds_completed) hleaves, nofun⟩

/-- The batches of an epoch heed requests, and those that pass the horizon are as many as it
allows. -/
theorem batches_heed {b : Nat} {B : Batches β} {result : Except Error (Option KeptOutputs)}
    (hat : r.AtBatch B b) (h : (batches setup loop horizon kept).runOn r = (result, r'))
    (hn : r.trainer.callbacks.length = n) :
    ∃ new, r'.trainer.events.toList = r.trainer.events.toList ++ new ∧
      Heeds r.trainer.state.shouldStop new ∧
      (result = .ok none → new.countP RunEvent.isPulled = horizon) := by
  have hfrom := batches_halt (I := fun m r₀ _ => r₀.trainer.callbacks.length = n ∧
      (∃ b, r₀.AtBatch B b) ∧
      ∃ new, r₀.trainer.events.toList = r.trainer.events.toList ++ new ∧
        Heeds r.trainer.state.shouldStop new ∧
        r₀.trainer.state.shouldStop =
          (r.trainer.state.shouldStop || new.any RunEvent.asksStop) ∧
        new.countP RunEvent.isPulled = m)
    (fun m r₀ _ more r₂ r₃ hI hgoes hadvance hend => by
      obtain ⟨hn₀, ⟨b, hat₀⟩, new, hnew, hheeds, hstop, hcount⟩ := hI
      obtain ⟨feed, hphase, -⟩ := hat₀.feed
      obtain ⟨hn₃, handed, feed', batch, -, hbatch, hword⟩ :=
        batch_traced hphase hadvance hend hn₀
      have hfollows := (advance_follows (advance_ok hadvance)).trans (advanceEnd_follows hend)
      have hunstopped := unstopped_of_goes hgoes
      refine ⟨hn₃, ⟨b + 1, step_at hat₀ hadvance hend⟩, new ++ batch, events_trans hnew hbatch,
        hheeds.append ?_, ?_, ?_⟩
      · rw [← hstop, hunstopped]
        exact heeds_completed hword
      · rw [hfollows.asked batch hbatch, hstop, List.any_append, Bool.or_assoc]
      · rw [List.countP_append, hcount, countP_completed hword])
    (n := 0) ⟨hn, ⟨b, hat⟩, [], (List.append_nil _).symm, trivial, by simp, rfl⟩ h
  obtain ⟨m, r₀, kept', ⟨hn₀, ⟨b, hat₀⟩, new, hnew, hheeds, hstop, hcount⟩, hhalts, hpassed⟩ :=
    hfrom
  obtain ⟨feed, hphase, -⟩ := hat₀.feed
  obtain ⟨last, hlast, hheeds', hnone⟩ := halts_heed hphase hhalts hn₀
  rw [hstop] at hheeds'
  refine ⟨new ++ last, events_trans hnew hlast, hheeds.append hheeds', fun hresult => ?_⟩
  rw [hnone hresult, List.append_nil, hcount, hpassed hresult]
  omega

theorem run_heeds {data : Batches β} {result : Except Error (Option Processed)}
    (h : (run setup loop horizon data).runOn r = (result, r'))
    (hn : r.trainer.callbacks.length = n) :
    ∃ new, r'.trainer.events.toList = r.trainer.events.toList ++ new ∧
      Heeds r.trainer.state.shouldStop new ∧
      (result = .ok none → new.countP RunEvent.isPulled = horizon) := by
  obtain ⟨trained, r₁, hbatches, hrest⟩ := run_parts h
  obtain ⟨new, hnew, hheeds, hpassed⟩ := batches_heed (start_at setup data r) hbatches hn
  match trained with
  | .error e =>
      obtain ⟨rfl, rfl⟩ := hrest
      exact ⟨new, hnew, hheeds, nofun⟩
  | .ok none =>
      obtain ⟨rfl, rfl⟩ := hrest
      exact ⟨new, hnew, hheeds, fun _ => hpassed rfl⟩
  | .ok (some kept) =>
      obtain ⟨outputs, hfinish, rfl⟩ := hrest
      obtain ⟨hn₁, -⟩ := batches_traced (start_at setup data r) hbatches hn
      obtain ⟨-, ended, hended, hleaves⟩ := (finish_emits setup kept).of_run hfinish hn₁
      have hunpulled := hleaves.only (Only.epochEnded setup n _ _).unpulled fun _ => rfl
      refine ⟨new ++ ended, events_trans hnew hended, hheeds.append (.of_unpulled hunpulled), ?_⟩
      cases outputs <;> nofun

end EpochStep

/-! ## A run -/

/-- An epoch that is followed by no other once a stop was requested: it was the last one, the steps
have reached their bound, or the least epochs and steps are complete. -/
def FitRun.MustStop (config : Config) (r : FitRun σ W β) : Prop :=
  config.maxEpochs ≤ r.currentEpoch ∨
    (∃ most, config.maxSteps = some most ∧ most ≤ r.progress.globalStep) ∨
    (config.minEpochs ≤ r.currentEpoch ∧
      ∀ least, config.minSteps = some least → least ≤ r.progress.globalStep)

theorem FitRun.goes_iff {config : Config} {r : FitRun σ W β}
    (hstop : r.trainer.state.shouldStop = true) :
    r.stopReason? config = none ↔ ¬ r.MustStop config := by
  rw [stopReason?_eq_none, limitReached?_eq_none, mayStop_iff, MustStop]
  simp only [hstop, true_and, not_or, not_exists, not_and, Nat.not_le]
  exact and_assoc

namespace FitStep

open Trainer Stateful Trace

variable {setup : Setup W β} {loop : BatchLoop σ β} {horizon n : Nat} {data : Nat → Batches β}
  {r r₁ r' : FitRun σ W β}

/-- The run comes to a further epoch, before which it is in the state `r₁`. -/
def Starts (setup : Setup W β) (loop : BatchLoop σ β) (horizon : Nat) (data : Nat → Batches β)
    (r r₁ : FitRun σ W β) : Prop :=
  ∃ worker c, setup.config.check = .ok () ∧
    (loop.setAccumulation setup.config.accumulateGradBatches).runOn r.worker = (.ok (), worker) ∧
    Ran setup loop horizon data (begun setup worker r) {} r₁ c ∧
    r₁.stopReason? setup.config = none

/-- What becomes of a run after an epoch that it came to. -/
def Proceeds (setup : Setup W β) (loop : BatchLoop σ β) (horizon : Nat) (data : Nat → Batches β)
    (r r₂ : FitRun σ W β) (ran : Except Error (Option Processed))
    (result : Except Error (Option FitResult)) (r' : FitRun σ W β) : Prop :=
  match ran with
  | .error e => result = .error e ∧ r' = r₂
  | .ok none => result = .ok none ∧ r' = r₂
  | .ok (some _) => Starts setup loop horizon data r r₂ ∨
      ∃ reason c fit, r₂.stopReason? setup.config = some reason ∧ result = .ok (some fit) ∧
        r' = r₂.tellEnd setup reason c

theorem starts_runs {result : Except Error (Option FitResult)}
    (h : (run setup loop horizon data).runOn r = (result, r'))
    (hstarts : Starts setup loop horizon data r r₁) :
    ∃ ran r₂,
      (nextEpoch setup loop horizon data).runOn (r₁.declineStop setup.config) = (ran, r₂) ∧
      Proceeds setup loop horizon data r r₂ ran result r' := by
  obtain ⟨worker, c, hcheck, hset, hran, hgoes⟩ := hstarts
  cases run_ended h with
  | refused hcheck' => simp [hcheck] at hcheck'
  | unset hcheck' hset' => simp [hset] at hset'
  | @halted worker' r₃ r₄ _ c₃ ended _ hcheck' hset' hran' hhalts hreports =>
      rw [hset] at hset'
      cases hset'
      cases hran.resume hran' hhalts.final with
      | nothing =>
          cases hhalts with
          | stopped hreason => simp [hgoes] at hreason
          | passed _ hpassed => exact ⟨_, _, hpassed, hreports⟩
          | failed _ hfailed => exact ⟨_, _, hfailed, hreports⟩
      | @epoch _ r₂ _ _ _ outputs _ hepoch hrest =>
          have hnext (hgoes' : r₂.stopReason? setup.config = none) :
              Starts setup loop horizon data r r₂ :=
            ⟨worker, _, hcheck, hset, hran.snoc hgoes hepoch, hgoes'⟩
          refine ⟨_, _, hepoch, ?_⟩
          cases hrest with
          | epoch hgoes₂ _ _ => exact .inl (hnext hgoes₂)
          | nothing =>
              cases hhalts with
              | passed hgoes₂ _ => exact .inl (hnext hgoes₂)
              | failed hgoes₂ _ => exact .inl (hnext hgoes₂)
              | stopped hreason =>
                  obtain ⟨rfl, rfl⟩ := hreports
                  exact .inr ⟨_, _, _, hreason, rfl, rfl⟩

theorem begins_heed {batches : Batches β} {t₁ t₂ : Trainer W β} {answered : Except Error Unit}
    (hcounts : (TrainerStep.resolveCounts setup batches.knownLength).runOn r.enterEpoch.trainer =
      (.ok (), t₁))
    (hcall : (TrainerStep.call setup .trainEpochStart
      (t₁.context setup r.progress 0 none)).runOn t₁ = (answered, t₂))
    (hn : r.trainer.callbacks.length = n) :
    t₂.callbacks.length = n ∧ ∃ told,
      t₂.events.toList = r.trainer.events.toList ++ .dataRequested r.currentEpoch :: told ∧
      told.countP RunEvent.isPulled = 0 ∧
      ∀ new, Heeds t₂.state.shouldStop new → Heeds r.trainer.state.shouldStop (told ++ new) := by
  obtain ⟨hn₂, told, htold, hstop, hleaves⟩ := begins_told hcounts hcall hn
  have hunpulled : ∀ event ∈ told, event.isPulled = false :=
    hleaves.only (Only.called setup n r.progress _).unpulled fun _ => rfl
  refine ⟨hn₂, told, htold, ?_, ?_⟩
  · apply List.countP_eq_zero.2
    intro event hin
    simp [hunpulled event hin]
  · intro new hheeds
    rw [hstop] at hheeds
    exact (Heeds.of_unpulled hunpulled).append hheeds

theorem nextEpoch_heeds {result : Except Error (Option Processed)}
    (h : (nextEpoch setup loop horizon data).runOn r = (result, r'))
    (hn : r.trainer.callbacks.length = n) :
    ∃ more, r'.trainer.events.toList =
        r.trainer.events.toList ++ .dataRequested r.currentEpoch :: more ∧
      Heeds r.trainer.state.shouldStop more ∧
      (result = .ok none → more.countP RunEvent.isPulled = horizon) := by
  cases nextEpoch_ran h with
  | uncounted hcounts => exact ⟨[], Journal.toList_push _ _, trivial, nofun⟩
  | unstarted hcounts hcall =>
      obtain ⟨-, told, htold, -, hbegun⟩ := begins_heed hcounts hcall hn
      have hall := hbegun [] trivial
      rw [List.append_nil] at hall
      exact ⟨told, htold, hall, nofun⟩
  | failed hcounts hcall hepoch =>
      obtain ⟨hn₂, told, htold, -, hbegun⟩ := begins_heed hcounts hcall hn
      obtain ⟨new, hnew, hheeds, -⟩ := EpochStep.run_heeds hepoch hn₂
      exact ⟨told ++ new, events_trans htold hnew, hbegun new hheeds, nofun⟩
  | passed hcounts hcall hepoch =>
      obtain ⟨hn₂, told, htold, hnone, hbegun⟩ := begins_heed hcounts hcall hn
      obtain ⟨new, hnew, hheeds, hpassed⟩ := EpochStep.run_heeds hepoch hn₂
      refine ⟨told ++ new, events_trans htold hnew, hbegun new hheeds, fun _ => ?_⟩
      rw [List.countP_append, hnone, hpassed rfl, Nat.zero_add]
  | @closed t₁ t₂ e outputs closed _ _ hcounts hcall hepoch hclose hresult =>
      obtain ⟨hn₂, told, htold, -, hbegun⟩ := begins_heed hcounts hcall hn
      obtain ⟨hn₃, -⟩ := EpochStep.run_traced hepoch hn₂
      obtain ⟨new, hnew, hheeds, -⟩ := EpochStep.run_heeds hepoch hn₂
      obtain ⟨-, ended, hended, hleaves⟩ := (closeEpoch_emits setup e.counters).of_run hclose hn₃
      have hunpulled : ∀ event ∈ ended, event.isPulled = false :=
        hleaves.only (Only.epochClosed n e.progress).unpulled fun _ => rfl
      refine ⟨told ++ (new ++ ended), events_trans htold (events_trans hnew hended),
        hbegun _ (hheeds.append (.of_unpulled hunpulled)), ?_⟩
      cases closed <;> simp [hresult, Except.map]

/-- Where an epoch succeeds, the next one is due, and a stop is requested just if it was before or
a callback asked for it. -/
theorem nextEpoch_asked {outputs : Processed} {more : List (RunEvent β)}
    (h : (nextEpoch setup loop horizon data).runOn r = (.ok (some outputs), r'))
    (hmore : r'.trainer.events.toList =
      r.trainer.events.toList ++ .dataRequested r.currentEpoch :: more) :
    r'.currentEpoch = r.currentEpoch + 1 ∧
      r'.trainer.state.shouldStop =
        (r.trainer.state.shouldStop || more.any RunEvent.asksStop) := by
  obtain ⟨t₁, t₂, e, hcounts, hcall, hepoch, hclose⟩ := nextEpoch_begins h
  obtain ⟨-, told, htold, hstop, -⟩ := begins_told hcounts hcall rfl
  have hclosed := hclose rfl
  have hfollows : Follows (fun _ => True) t₂ r'.trainer :=
    (EpochStep.run_follows hepoch).trans (closeEpoch_follows hclosed)
  obtain ⟨new, hnew, -⟩ := hfollows.events
  have hsplit : more = told ++ new := by
    have hboth := List.append_cancel_left (hmore.symm.trans (events_trans htold hnew))
    exact (List.cons.inj hboth).2
  obtain ⟨t₃, t₄, -, -, rfl⟩ := closeEpoch_ok hclosed
  refine ⟨rfl, ?_⟩
  rw [hfollows.asked new hnew, hstop, hsplit, List.any_append, Bool.or_assoc]

/-- What a run has done when it comes to an epoch, it has still done in the end. -/
theorem starts_extends {result : Except Error (Option FitResult)}
    (h : (run setup loop horizon data).runOn r = (result, r'))
    (hstarts : Starts setup loop horizon data r r₁) :
    r₁.trainer.callbacks.length = r.trainer.callbacks.length ∧
      ∃ rest, r'.trainer.events.toList = r₁.trainer.events.toList ++ rest := by
  obtain ⟨worker, c, hcheck, hset, hran, -⟩ := hstarts
  obtain ⟨hn, -⟩ := begun_traced setup worker (r := r) rfl
  obtain ⟨hn₁, -⟩ := hran.traced hn
  exact ⟨hn₁, hran.rest hcheck hset h⟩

theorem starts_requests {result : Except Error (Option FitResult)}
    (h : (run setup loop horizon data).runOn r = (result, r'))
    (hstarts : Starts setup loop horizon data r r₁) :
    ∃ more, r'.trainer.events.toList =
      r₁.trainer.events.toList ++ .dataRequested r₁.currentEpoch :: more := by
  obtain ⟨ran, r₂, hepoch, hproceeds⟩ := starts_runs h hstarts
  obtain ⟨hevents, -⟩ := declineStop_events setup.config r₁
  obtain ⟨more, hmore, -⟩ := nextEpoch_heeds hepoch rfl
  rw [hevents, declineStop_currentEpoch] at hmore
  match ran with
  | .error e =>
      obtain ⟨-, rfl⟩ := hproceeds
      exact ⟨more, hmore⟩
  | .ok none =>
      obtain ⟨-, rfl⟩ := hproceeds
      exact ⟨more, hmore⟩
  | .ok (some outputs) =>
      rcases hproceeds with hnext | ⟨reason, c, fit, -, -, rfl⟩
      · obtain ⟨-, rest, hrest⟩ := starts_extends h hnext
        exact ⟨more ++ rest, events_trans hmore hrest⟩
      · obtain ⟨told, htold, -⟩ := tellEnd_traced setup reason c r₂
        exact ⟨more ++ told, events_trans hmore htold⟩

theorem proceeds_rest {result : Except Error (Option FitResult)} {r₂ : FitRun σ W β}
    {outputs : Processed} (h : (run setup loop horizon data).runOn r = (result, r'))
    (hproceeds : Proceeds setup loop horizon data r r₂ (.ok (some outputs)) result r') :
    ∃ rest, r'.trainer.events.toList = r₂.trainer.events.toList ++ rest ∧
      ((Starts setup loop horizon data r r₂ ∧
          ∃ more, rest = .dataRequested r₂.currentEpoch :: more) ∨
        (r₂.stopReason? setup.config ≠ none ∧ (∃ fit, result = .ok (some fit)) ∧
          ∀ epoch, .dataRequested epoch ∉ rest)) := by
  rcases hproceeds with hnext | ⟨reason, c, fit, hreason, hresult, rfl⟩
  · obtain ⟨more, hmore⟩ := starts_requests h hnext
    exact ⟨_, hmore, .inl ⟨hnext, more, rfl⟩⟩
  · obtain ⟨told, htold, hword⟩ := tellEnd_traced setup reason c r₂
    refine ⟨told, htold, .inr ⟨by simp [hreason], ⟨fit, hresult⟩, fun epoch hin => ?_⟩⟩
    exact Only.told _ _ _ _ told hword _ hin

theorem nextEpoch_stops {result : Except Error (Option Processed)}
    (h : (nextEpoch setup loop horizon data).runOn r = (result, r'))
    (hunasked : r.trainer.state.shouldStop = false) (hn : r.trainer.callbacks.length = n)
    {before after : List (RunEvent β)} {position : Nat}
    (hnew : r'.trainer.events.toList =
      r.trainer.events.toList ++ (before ++ .stopAsked position :: after)) :
    (∀ event ∈ after, event.isPulled = false) ∧
      LeavesUpTo (wholeEpoch setup n r.currentEpoch) (openEpoch setup n r.currentEpoch) result
        (before ++ .stopAsked position :: after) ∧
      (result = .ok none → before.countP RunEvent.isPulled = horizon) ∧
      ∀ outputs, result = .ok (some outputs) →
        r'.currentEpoch = r.currentEpoch + 1 ∧ r'.trainer.state.shouldStop = true := by
  obtain ⟨-, new, hnew', hword⟩ := nextEpoch_traced h hn
  obtain ⟨more, hmore, hheeds, hpassed⟩ := nextEpoch_heeds h hn
  rw [hunasked] at hheeds
  obtain rfl : new = before ++ .stopAsked position :: after :=
    List.append_cancel_left (hnew'.symm.trans hnew)
  have hsplit : .dataRequested r.currentEpoch :: more = before ++ .stopAsked position :: after :=
    List.append_cancel_left (hmore.symm.trans hnew)
  have hall : Heeds false (before ++ .stopAsked position :: after) := hsplit ▸ ⟨nofun, hheeds⟩
  have hasks : more.any RunEvent.asksStop = true := by
    have hin : .stopAsked position ∈ .dataRequested r.currentEpoch :: more := by simp [hsplit]
    have hin' : .stopAsked position ∈ more := (List.mem_cons.1 hin).resolve_left nofun
    exact List.any_eq_true.2 ⟨_, hin', rfl⟩
  refine ⟨hall.after_stop, hword, fun hnone => ?_, fun outputs hok => ?_⟩
  · have hafter : after.countP RunEvent.isPulled = 0 :=
      List.countP_eq_zero.2 fun event hin => by simp [hall.after_stop event hin]
    have hcount := congrArg (List.countP RunEvent.isPulled) hsplit
    rw [List.countP_append, List.countP_cons, List.countP_cons, hafter, hpassed hnone] at hcount
    simpa [RunEvent.isPulled] using hcount.symm
  · rw [hok] at h
    obtain ⟨hcurrent, hstop⟩ := nextEpoch_asked h hmore
    exact ⟨hcurrent, by rw [hstop, hasks, Bool.or_true]⟩

theorem run_requested {fit : FitResult}
    (h : (run setup loop horizon data).runOn r = (.ok (some fit), r'))
    (hrequested : fit.stopReason = .requested) :
    r'.trainer.state.shouldStop = true ∧ setup.config.minEpochs ≤ r'.currentEpoch ∧
      ∀ least, setup.config.minSteps = some least → least ≤ fit.progress.globalStep := by
  cases run_ended h with
  | @halted worker r₁ r₂ _ c ended _ hcheck hset hran hhalts hreports =>
      match ended with
      | .error e => cases hreports.1
      | .ok none => cases hreports.1
      | .ok (some (reason, completed)) =>
          obtain ⟨rfl, hfit⟩ := hreports
          cases hfit
          obtain rfl : reason = .requested := hrequested
          cases hhalts with
          | stopped hreason =>
              obtain ⟨hstop, hends⟩ := FitRun.of_requested hreason
              have htold : Follows (fun _ => True) r₁.trainer
                  (r₁.tellEnd setup .requested c).trainer :=
                (tellCallbacks_follows _ _ _ _).weaken.trans (.report _ _)
              obtain ⟨hepochs, hsteps⟩ := FitRun.mayStop_iff.1 hends
              exact ⟨htold.shouldStop hstop, hepochs, hsteps⟩

/-- The stop protocol. When a run has come to an epoch, it clears the request that there may be and
runs the epoch. Where a callback asks for a stop in that epoch, no batch is pulled after that, and
the epoch comes to its end as others do, unless something fails. Then no epoch follows if the limits
do not ask for one; otherwise the next one follows, with the request cleared. The result of a run
names a request as its reason only if there is one and the limits allow for it. -/
theorem run_stopProtocol {result : Except Error (Option FitResult)}
    (h : (run setup loop horizon data).runOn r = (result, r')) :
    (∀ r₁, Starts setup loop horizon data r r₁ →
      (r₁.declineStop setup.config).trainer.state.shouldStop = false ∧
      ∃ ran r₂ new rest,
        (nextEpoch setup loop horizon data).runOn (r₁.declineStop setup.config) = (ran, r₂) ∧
        r₂.trainer.events.toList = r₁.trainer.events.toList ++ new ∧
        r'.trainer.events.toList = r₂.trainer.events.toList ++ rest ∧
        ∀ before position after, new = before ++ .stopAsked position :: after →
          (∀ event ∈ after, event.isPulled = false) ∧
          match ran with
          | .error e =>
            CutShort (wholeEpoch setup r.trainer.callbacks.length r₁.currentEpoch) e new ∧
              result = .error e ∧ rest = []
          | .ok none => before.countP RunEvent.isPulled = horizon
          | .ok (some _) =>
            new ∈ wholeEpoch setup r.trainer.callbacks.length r₁.currentEpoch ∧
              r₂.currentEpoch = r₁.currentEpoch + 1 ∧
              (r₂.MustStop setup.config →
                (∃ fit, result = .ok (some fit)) ∧ ∀ epoch, .dataRequested epoch ∉ rest) ∧
              (¬ r₂.MustStop setup.config →
                Starts setup loop horizon data r r₂ ∧
                (r₂.declineStop setup.config).trainer.state.shouldStop = false ∧
                ∃ more, rest = .dataRequested (r₁.currentEpoch + 1) :: more)) ∧
    ∀ fit, result = .ok (some fit) → fit.stopReason = .requested →
      r'.trainer.state.shouldStop = true ∧ setup.config.minEpochs ≤ r'.currentEpoch ∧
        ∀ least, setup.config.minSteps = some least → least ≤ fit.progress.globalStep := by
  refine ⟨fun r₁ hstarts => ⟨declineStop_shouldStop _ _, ?_⟩, ?_⟩
  · obtain ⟨ran, r₂, hepoch, hproceeds⟩ := starts_runs h hstarts
    obtain ⟨hn, -⟩ := starts_extends h hstarts
    obtain ⟨hevents, hcallbacks⟩ := declineStop_events setup.config r₁
    rw [← hcallbacks] at hn
    obtain ⟨-, new, hnew, -⟩ := nextEpoch_traced hepoch hn
    have hstops {before after : List (RunEvent β)} {position : Nat}
        (hsplit : new = before ++ .stopAsked position :: after) :=
      nextEpoch_stops hepoch (declineStop_shouldStop setup.config r₁) hn (hsplit ▸ hnew)
    rw [hevents] at hnew
    rw [declineStop_currentEpoch] at hstops
    match ran with
    | .error e =>
        obtain ⟨rfl, rfl⟩ := hproceeds
        refine ⟨_, r', new, [], hepoch, hnew, (List.append_nil _).symm, ?_⟩
        rintro before position after rfl
        obtain ⟨hafter, hword, -⟩ := hstops rfl
        exact ⟨hafter, hword, rfl, rfl⟩
    | .ok none =>
        obtain ⟨rfl, rfl⟩ := hproceeds
        refine ⟨_, r', new, [], hepoch, hnew, (List.append_nil _).symm, ?_⟩
        rintro before position after rfl
        obtain ⟨hafter, -, hpassed, -⟩ := hstops rfl
        exact ⟨hafter, hpassed rfl⟩
    | .ok (some outputs) =>
        obtain ⟨rest, hrest, hends⟩ := proceeds_rest h hproceeds
        refine ⟨_, r₂, new, rest, hepoch, hnew, hrest, ?_⟩
        rintro before position after rfl
        obtain ⟨hafter, hword, -, hclosed⟩ := hstops rfl
        obtain ⟨hcurrent, hstop⟩ := hclosed outputs rfl
        have hgoes : r₂.stopReason? setup.config = none ↔ ¬ r₂.MustStop setup.config :=
          FitRun.goes_iff hstop
        refine ⟨hafter, hword, hcurrent, fun hmust => ?_, fun hnot => ?_⟩
        · rcases hends with ⟨⟨_, _, _, _, _, hnone⟩, -⟩ | ⟨-, hfit, hunasked⟩
          · exact absurd hmust (hgoes.1 hnone)
          · exact ⟨hfit, hunasked⟩
        · rcases hends with ⟨hnext, more, hmore⟩ | ⟨hreason, -⟩
          · exact ⟨hnext, declineStop_shouldStop _ _, more, by rw [hmore, hcurrent]⟩
          · exact absurd (hgoes.2 hnot) hreason
  · rintro fit rfl hrequested
    exact run_requested h hrequested

def hasty : OutsideCallback Unit :=
  { respond := fun event _ world =>
      match event with
      | .trainEpochStart => (.stop, world)
      | _ => (.proceed, world) }

def twoEpochsAtLeast : Setup Unit Unit := { config := { maxEpochs := 5, minEpochs := 2 } }

/-- A run whose epochs are all asked to stop before their first batch, and that ends after the
second one. -/
theorem run_stopProtocol_twoEpochsAtLeast :
    ∃ (fit : FitResult) (r' : FitRun Unit Unit Unit),
      (run twoEpochsAtLeast idle 1 fun _ => .exact 3 fun _ => ()).runOn
        { trainer := { Trainer.ofSetup twoEpochsAtLeast () with callbacks := [.outside hasty] }
          worker := () } = (.ok (some fit), r') ∧
      fit.stopReason = .requested ∧ r'.trainer.state.shouldStop = true ∧ 2 ≤ r'.currentEpoch := by
  let start : FitRun Unit Unit Unit :=
    { trainer := { Trainer.ofSetup twoEpochsAtLeast () with callbacks := [.outside hasty] }
      worker := () }
  have hreason : (Stateful.returned? (run twoEpochsAtLeast idle 1 fun _ => .exact 3 fun _ => ())
      start).map FitResult.stopReason = some .requested := by
    decide +kernel
  obtain ⟨fit, hfit, hrequested⟩ := Option.map_eq_some_iff.1 hreason
  obtain ⟨r', hrun⟩ := Stateful.returned?_eq_some hfit
  obtain ⟨hstop, hepochs, -⟩ := (run_stopProtocol hrun).2 fit rfl hrequested
  exact ⟨fit, r', hrun, hrequested, hstop, hepochs⟩

end FitStep

end TrainingLoop
