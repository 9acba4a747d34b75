import TrainingLoop.Proofs.Run.Consumption
import TrainingLoop.Proofs.Run.Calm
/-!
# Epochs that are validated once

With the whole epoch as the interval, validation is to run once an epoch, after its last batch. The
interval is resolved before the epoch, from the number of batches that it may have at most, and
`run_validatedOnce` says of every epoch of a run whether that is the number that it turns out to
have.
-/

namespace TrainingLoop

variable {σ W β : Type}

/-! ## The interval -/

theorem BatchCount.multiples_eq_singleton {k n : Nat} (hpos : 0 < n) :
    ((List.range' 1 n).filter fun b => decide (1 ≤ k ∧ k ∣ b)) = [n] ↔ k = n := by
  constructor
  · intro h
    have hlast : n ∈ (List.range' 1 n).filter fun b => decide (1 ≤ k ∧ k ∣ b) := by
      rw [h]
      exact List.mem_singleton_self n
    obtain ⟨hk, hdvd⟩ := of_decide_eq_true (List.mem_filter.1 hlast).2
    have hle : k ≤ n := Nat.le_of_dvd hpos hdvd
    have hfirst : k ∈ (List.range' 1 n).filter fun b => decide (1 ≤ k ∧ k ∣ b) := by
      rw [List.mem_filter, List.mem_range'_1, decide_eq_true_iff]
      exact ⟨⟨hk, by omega⟩, hk, Nat.dvd_refl k⟩
    rw [h] at hfirst
    exact List.mem_singleton.1 hfirst
  · rintro rfl
    obtain ⟨m, rfl⟩ := Nat.exists_eq_succ_of_ne_zero hpos.ne'
    have hbefore : ((List.range' 1 m).filter fun b => decide (1 ≤ m + 1 ∧ m + 1 ∣ b)) = [] := by
      apply List.filter_eq_nil_iff.2
      intro b hb
      obtain ⟨hb, hlt⟩ := List.mem_range'_1.1 hb
      rw [decide_eq_true_iff]
      rintro ⟨-, hdvd⟩
      have hle := Nat.le_of_dvd hb hdvd
      omega
    rw [Nat.succ_eq_add_one, List.range'_1_concat, List.filter_append, hbefore, Nat.add_comm 1 m,
      List.nil_append]
    simp

theorem BatchCount.validated_eq_singleton {K : BatchCount} {consumed : Nat} {ranOut : Bool}
    (hpos : 0 < consumed) :
    K.validated consumed ranOut = [consumed] ↔
      K = .finite consumed ∨ K = .infinite ∧ ranOut = true := by
  cases K with
  | finite k =>
      rw [validated, multiples_eq_singleton hpos]
      simp
  | infinite => simp [validated, hpos]

theorem BatchLimit.resolveInterval_whole {N K : BatchCount}
    (h : whole.resolveInterval N = .ok K) :
    N = .infinite ∧ K = .infinite ∨ ∃ n, N = .finite n ∧ K = .finite (max (share 1.0 n) 1) := by
  cases N with
  | finite n =>
      cases h
      exact .inr ⟨n, rfl, rfl⟩
  | infinite =>
      have hone : ((1.0 : Float32) == 1.0) = true := by decide +kernel
      rw [whole, resolveInterval, if_pos hone] at h
      cases h
      exact .inl ⟨rfl, rfl⟩

/-- The whole epoch as the interval gives one validation, after the last batch, just if it was
resolved to the number of batches that there are, or to no end. -/
theorem BatchCount.validated_whole {N K : BatchCount} {B : Batches β} {consumed : Nat}
    (hK : BatchLimit.whole.resolveInterval N = .ok K)
    (hconsumed : (consumed : ℕ∞) = min N.size B.size) (hfinite : B.length ≠ none)
    (hpos : 0 < consumed) :
    K.validated consumed (decide (B.length = some consumed)) = [consumed] ↔
      ∀ n, N = .finite n → max (BatchLimit.share 1.0 n) 1 = consumed := by
  rw [validated_eq_singleton hpos]
  obtain ⟨rfl, rfl⟩ | ⟨n, rfl, rfl⟩ := BatchLimit.resolveInterval_whole hK
  · obtain ⟨n, hn⟩ := Option.ne_none_iff_exists'.1 hfinite
    have hall : n = consumed := by
      rw [size, min_eq_right le_top, Batches.size, hn] at hconsumed
      exact (Nat.cast_inj.1 hconsumed).symm
    simp [hn, hall]
  · simp

/-! ## One epoch -/

namespace EpochStep

theorem run_consumesWhole {setup : Setup W β} {loop : BatchLoop σ β} {horizon : ℕ}
    {data : Batches β} {r r' : EpochRun σ W β} {outputs : Processed}
    (h : (run setup loop horizon data).runOn r = (.ok (some outputs), r'))
    (hbound : r.counters.maxSteps = none) (hunasked : r'.trainer.state.shouldStop = false)
    (hunsignalled : ∀ index new, r'.trainer.events.toList = r.trainer.events.toList ++ new →
      .signalled index ∉ new) :
    (r'.counters.batchesSeen : ℕ∞) = min r.trainer.state.trainingBatches.size
      (setup.accelerator.prepare data r.trainer.world).1.size := by
  obtain ⟨m, r₀, kept, trainer, hconsumed, hunasked₀, hends, -, rfl⟩ :=
    run_calm (I := Consumes setup loop _ (r.start setup data))
      (fun _ _ _ _ _ _ => Consumes.step) (consumes_start setup loop data r) h hunasked hunsignalled
  have hseen : (r₀.counters.batchesSeen : ℕ∞) = m := congrArg Nat.cast hconsumed.seen
  refine hseen.trans ?_
  rcases hends with hdone | ⟨-, feed, hphase, hnext⟩
  · exact (hconsumed.of_done hbound hunasked₀ hdone).symm
  · obtain ⟨feed', hphase', hfeed⟩ := hconsumed.feed
    obtain rfl : feed' = feed := EpochPhase.running.inj (hphase'.symm.trans hphase)
    exact (hconsumed.of_exhausted (Feed.eq_none_of_next hfeed hnext)).symm

end EpochStep

namespace FitStep

open Trainer EpochStep RunEvent Trace

variable {setup : Setup W β} {loop : BatchLoop σ β} {horizon : Nat} {data : Nat → Batches β}
  {r r' : FitRun σ W β}

/-- Along some events the evaluator runs once, after the last of the batches that they pull. -/
def ValidatedOnce (events : List (RunEvent β)) : Prop :=
  evaluatedFrom 0 events = [events.countP isPulled]

/-- What the events of an epoch say of its validation: the number of batches pulled is the one that
the limit and the data allow, and where the schedule covers the epoch, it is validated once just if
the interval resolved for it has that many batches too, or no end. -/
def EpochValidation (setup : Setup W β) (epoch : Nat) (data : Batches β)
    (events : List (RunEvent β)) : Prop :=
  ∃ N world,
    setup.config.limitTrainBatches.resolveBatches data.knownLength = .ok N ∧
    (events.countP isPulled : ℕ∞) = min N.size (setup.accelerator.prepare data world).1.size ∧
    (0 < events.countP isPulled → setup.config.checkValEveryNEpochs ∣ epoch + 1 →
      (ValidatedOnce events ↔
        ∀ n, N = .finite n → max (BatchLimit.share 1.0 n) 1 = events.countP isPulled))

theorem nextEpoch_validation {outputs : Processed}
    (h : (nextEpoch setup loop horizon data).runOn r = (.ok (some outputs), r'))
    (hinterval : setup.config.valCheckInterval = .whole)
    (henabled : setup.config.enableValidation = true) (hevaluator : setup.evaluator.isSome = true)
    (hsteps : setup.config.maxSteps = none)
    (hfinite : ∀ world, (setup.accelerator.prepare (data r.currentEpoch) world).1.length ≠ none)
    (hunasked : r.trainer.state.shouldStop = false) {new : List (RunEvent β)}
    (hnew : r'.trainer.events.toList = r.trainer.events.toList ++ new)
    (hcalm : ∀ event ∈ new, event.isCalm = true) :
    EpochValidation setup r.currentEpoch (data r.currentEpoch) new := by
  obtain ⟨t, e, hthrough⟩ := nextEpoch_calm h hunasked hnew hcalm
  obtain ⟨outputs', htrained⟩ := hthrough.trained
  have hwhole : (new.countP isPulled : ℕ∞) = min t.state.trainingBatches.size
      (setup.accelerator.prepare (data r.currentEpoch) t.world).1.size := by
    rw [hthrough.pulled]
    exact run_consumesWhole htrained hsteps hthrough.unasked hthrough.unsignalled
  refine ⟨_, t.world, hthrough.limit, hwhole, fun hpos hdvd => ?_⟩
  have hevery : 0 < setup.config.checkValEveryNEpochs := Nat.pos_of_dvd_of_pos hdvd (Nat.succ_pos _)
  have hcovers : (t.validationSchedule setup).coversEpoch r.currentEpoch = true := by
    apply ValidationSchedule.coversEpoch_iff.2
    exact ⟨by simp [validationSchedule, henabled, hevaluator], hevery, hdvd⟩
  have hevaluated := hthrough.evaluated
  rw [if_pos hcovers, ← hthrough.pulled] at hevaluated
  have hK := hthrough.interval
  rw [hinterval] at hK
  rw [ValidatedOnce, hevaluated]
  exact BatchCount.validated_whole hK hwhole (hfinite _) hpos

/-! ## The whole run -/

theorem Ran.epochValidations {c c' : Completed} (h : Ran setup loop horizon data r c r' c')
    (hinterval : setup.config.valCheckInterval = .whole)
    (henabled : setup.config.enableValidation = true) (hevaluator : setup.evaluator.isSome = true)
    (hsteps : setup.config.maxSteps = none)
    (hfinite : ∀ epoch world, (setup.accelerator.prepare (data epoch) world).1.length ≠ none) :
    ∃ epochs : List (List (RunEvent β)),
      r'.trainer.events.toList = r.trainer.events.toList ++ epochs.flatten ∧
      c'.epochs = c.epochs + epochs.length ∧
      EpochsFrom (fun epoch events =>
        events ∈ wholeEpoch setup r.trainer.callbacks.length epoch ∧
          ((∀ event ∈ events, event.isCalm = true) →
            EpochValidation setup epoch (data epoch) events)) r.currentEpoch epochs := by
  refine h.epochwise (J := fun _ => EpochsFrom (fun epoch events =>
    events ∈ wholeEpoch setup r.trainer.callbacks.length epoch ∧
      ((∀ event ∈ events, event.isCalm = true) →
        EpochValidation setup epoch (data epoch) events)) r.currentEpoch) ?_ nofun
  intro r₀ epochs outputs r₁ new hepochs hcurrent hnext hnew hword
  apply hepochs.snoc
  rw [← hcurrent]
  refine ⟨hword, fun hcalm => ?_⟩
  rw [← (declineStop_events setup.config r₀).1] at hnew
  have hvalidation := nextEpoch_validation hnext hinterval henabled hevaluator hsteps
    (hfinite _) (declineStop_shouldStop _ _) hnew hcalm
  rwa [declineStop_currentEpoch] at hvalidation

/-- Of a run that is not cut short by a request to stop, a signal of the batch loop or a bound of
its steps, every epoch consumes the batches that its limit and its data allow. One that the schedule
covers is validated once, after its last batch, just if its interval is resolved to the number of
these batches or to no end. -/
theorem run_validatedOnce {fit : FitResult}
    (h : (run setup loop horizon data).runOn r = (.ok (some fit), r'))
    (hinterval : setup.config.valCheckInterval = .whole)
    (henabled : setup.config.enableValidation = true) (hevaluator : setup.evaluator.isSome = true)
    (hsteps : setup.config.maxSteps = none)
    (hfinite : ∀ epoch world, (setup.accelerator.prepare (data epoch) world).1.length ≠ none)
    (hcalm : ∀ event ∈ r.trainer.eventsSince r'.trainer, event.isCalm = true) :
    ∃ (begun : List (RunEvent β)) (epochs : List (List (RunEvent β))) (ended : List (RunEvent β)),
      r'.trainer.events.toList = r.trainer.events.toList ++ (begun ++ (epochs.flatten ++ ended)) ∧
      (∀ event ∈ begun ++ ended, event.IsQuiet) ∧
      epochs.length = fit.epochsCompleted ∧
      EpochsFrom (fun epoch events =>
        events ∈ wholeEpoch setup r.trainer.callbacks.length epoch ∧
          EpochValidation setup epoch (data epoch) events) r.currentEpoch epochs := by
  obtain ⟨worker, r₁, reason, completed, -, hran, rfl, hcompleted, -⟩ := run_returns h
  obtain ⟨epochs, hepochs, hcount, hall⟩ :=
    hran.epochValidations hinterval henabled hevaluator hsteps hfinite
  obtain ⟨hn, -⟩ := begun_traced setup worker (r := r) rfl
  rw [hn] at hall
  obtain ⟨first, hfirst, hfirstQuiet⟩ := begun_quiet setup worker r
  obtain ⟨last, hlast, hlastQuiet⟩ := tellEnd_quiet setup reason completed r₁
  have hevents := events_trans hfirst (events_trans hepochs hlast)
  refine ⟨first, epochs, last, hevents, ?_, ?_, ?_⟩
  · exact List.forall_mem_append.2 ⟨hfirstQuiet, hlastQuiet⟩
  · rw [hcompleted]
    exact (hcount.trans (Nat.zero_add _)).symm
  · intro i events hi
    obtain ⟨hword, hvalidation⟩ := hall i events hi
    exact ⟨hword, hvalidation (calm_of_epochs hevents hcalm events (List.mem_of_getElem? hi))⟩

def twoEpochs : Setup Unit Unit :=
  { config := { maxEpochs := 2 }
    evaluator := some fun _ _ => pure ∅ }

/-- Of data with a known length both epochs are validated. -/
theorem run_validatedOnce_twoEpochs :
    ∃ (fit : FitResult) (r' : FitRun Unit Unit Unit) (begun : List (RunEvent Unit))
      (epochs : List (List (RunEvent Unit))) (ended : List (RunEvent Unit)),
      (run twoEpochs idle 4 fun _ => .exact 3 fun _ => ()).runOn
        { trainer := .ofSetup twoEpochs (), worker := () } = (.ok (some fit), r') ∧
      r'.trainer.events.toList = begun ++ (epochs.flatten ++ ended) ∧
      epochs.length = fit.epochsCompleted ∧ fit.epochsCompleted = 2 ∧
      ∀ events ∈ epochs, ValidatedOnce events := by
  let start : FitRun Unit Unit Unit := { trainer := .ofSetup twoEpochs (), worker := () }
  have hreturns : (Stateful.returned? (run twoEpochs idle 4 fun _ => .exact 3 fun _ => ())
      start).map FitResult.epochsCompleted = some 2 := by
    decide +kernel
  have hcalm : (start.trainer.eventsSince
      ((run twoEpochs idle 4 fun _ => .exact 3 fun _ => ()).runOn start).2.trainer).all
        RunEvent.isCalm = true := by
    decide +kernel
  obtain ⟨fit, hfit, htwo⟩ := Option.map_eq_some_iff.1 hreturns
  obtain ⟨r', hrun⟩ := Stateful.returned?_eq_some hfit
  rw [hrun, List.all_eq_true] at hcalm
  obtain ⟨begun, epochs, ended, hevents, -, hlength, hall⟩ :=
    run_validatedOnce hrun rfl rfl rfl rfl (fun _ _ => nofun) hcalm
  refine ⟨fit, r', begun, epochs, ended, hrun, hevents, hlength, htwo, fun events hmem => ?_⟩
  obtain ⟨i, hi⟩ := List.getElem?_of_mem hmem
  obtain ⟨-, N, world, hN, hpulled, hvalidated⟩ := hall i events hi
  have hshare : BatchLimit.share 1.0 3 = 3 := by decide +kernel
  obtain rfl : BatchCount.finite 3 = N := by
    have hresolved : Except.ok (BatchCount.finite (BatchLimit.share 1.0 3)) = Except.ok N := hN
    rw [hshare] at hresolved
    exact Except.ok.inj hresolved
  have hthree : events.countP isPulled = 3 := by
    have hmin : (events.countP isPulled : ℕ∞) = min 3 3 := hpulled
    rw [min_self] at hmin
    exact Nat.cast_inj.1 hmin
  rw [hthree] at hvalidated
  refine (hvalidated (by decide) (Nat.one_dvd _)).2 ?_
  rintro n hn
  cases hn
  rw [hshare]
  rfl

def tenAtMost : Setup Unit Unit :=
  { config := { maxEpochs := 1, limitTrainBatches := .batches 10 }
    evaluator := some fun _ _ => pure ∅ }

/-- An epoch whose data end before its limit is not validated at all. -/
theorem run_tenAtMost_unvalidated :
    ∃ (fit : FitResult) (r' : FitRun Unit Unit Unit),
      (run tenAtMost idle 5 fun _ => { Batches.exact 4 fun _ => () with hint := ⟨0, none⟩ }).runOn
        { trainer := .ofSetup tenAtMost (), worker := () } = (.ok (some fit), r') ∧
      fit.epochsCompleted = 1 ∧ r'.trainer.events.toList.countP isPulled = 4 ∧
      evaluatedFrom 0 r'.trainer.events.toList = [] := by
  let start : FitRun Unit Unit Unit := { trainer := .ofSetup tenAtMost (), worker := () }
  let data (_ : Nat) : Batches Unit := { Batches.exact 4 fun _ => () with hint := ⟨0, none⟩ }
  have hreturns : (Stateful.returned? (run tenAtMost idle 5 data) start).map
      FitResult.epochsCompleted = some 1 := by
    decide +kernel
  have hevents : ((run tenAtMost idle 5 data).runOn start).2.trainer.events.toList.countP
        isPulled = 4 ∧
      evaluatedFrom 0 ((run tenAtMost idle 5 data).runOn start).2.trainer.events.toList = [] := by
    decide +kernel
  obtain ⟨fit, hfit, hone⟩ := Option.map_eq_some_iff.1 hreturns
  obtain ⟨r', hrun⟩ := Stateful.returned?_eq_some hfit
  rw [hrun] at hevents
  exact ⟨fit, r', hrun, hone, hevents⟩

end FitStep

end TrainingLoop
