import TrainingLoop.Proofs.Run.Counting
/-!
# The limits of a run

No run oversteps its limits, whether it fails or not. The bound on the global step is tested
together with the answer of the batch loop, while an optimizer step may also be forced by the end of
the epoch; `EpochRun.WithinSteps` is the invariant that keeps both in step, and `run_limits` says
what holds at every point of a run.
-/

namespace TrainingLoop

variable {σ W β : Type}

def Trainer.Counts (t : Trainer W β) (p : Progress) (t' : Trainer W β) (q : Progress) : Prop :=
  ∃ new, t'.events.toList = t.events.toList ++ new ∧ Counted p new q

namespace Trainer.Counts

variable {t t' t'' : Trainer W β} {p q s : Progress}

theorem refl (t : Trainer W β) (p : Progress) : t.Counts p t p :=
  ⟨[], (List.append_nil _).symm, .nil p⟩

theorem trans (h : t.Counts p t' q) (h' : t'.Counts q t'' s) : t.Counts p t'' s := by
  obtain ⟨new, hnew, hcounted⟩ := h
  obtain ⟨more, hmore, hcounted'⟩ := h'
  exact ⟨new ++ more, events_trans hnew hmore, hcounted.append hcounted'⟩

end Trainer.Counts

def RunEvent.WithinEpochs (most : Nat) : RunEvent β → Prop
  | .dataRequested epoch => epoch < most
  | _ => True

theorem RunEvent.Ordinary.withinEpochs {most : Nat} {event : RunEvent β} (h : event.Ordinary) :
    event.WithinEpochs most := by
  cases event <;> first | exact h.elim | trivial

/-- The global step is within its bound, and below it as long as the epoch goes on. -/
def EpochRun.WithinSteps (loop : BatchLoop σ β) (r : EpochRun σ W β) : Prop :=
  ∀ most, r.counters.maxSteps = some most →
    r.progress.globalStep ≤ most ∧ (r.isDone loop = false → r.progress.globalStep < most)

namespace EpochStep

open Trainer Stateful Trace

variable {setup : Setup W β} {loop : BatchLoop σ β} {n : Nat} {r r₁ r₂ r' : EpochRun σ W β}
  {more kept : KeptOutputs}

/-! ## One batch -/

/-- An epoch that goes on after its bound was reached is not at the end of a window or of its
batches, where it would have stepped. -/
theorem atStepBoundary_of_goes (hgoes : r.isDone loop = false)
    (hreached : r.counters.maxStepsReached r.progress.globalStep = true) :
    r.atStepBoundary loop = false := by
  simp only [EpochRun.isDone, Bool.or_eq_false_iff, Bool.and_eq_false_iff] at hgoes
  obtain ⟨⟨⟨-, hwindow⟩, -⟩, hall⟩ := hgoes
  have hopen : loop.closedWindow r.worker = false := by simpa [hreached] using hwindow
  rw [EpochRun.atStepBoundary, hopen, hall]
  rfl

theorem batch_progress (hcounts : setup.accelerator.CountsSteps)
    (hadvance : (advance setup loop).runOn r = (.ok (.completed more), r₁))
    (hend : (advanceEnd setup loop).runOn r₁ = (.ok (), r₂)) :
    r₂.progress = if r₁.atStepBoundary loop then r.progress.pull.step else r.progress.pull := by
  have hpulled : r₁.progress = r.progress.pull := progress_of_advance hadvance
  have hstep := advanceEnd_globalStep hcounts hend
  obtain ⟨t₁, t₂, globalStep, -, -, -, -, rfl⟩ := advanceEnd_parts hend
  simp only [hpulled] at hstep ⊢
  rw [hstep]
  split <;> rfl

theorem batch_counted (hcounts : setup.accelerator.CountsSteps) {feed : Feed β}
    (hphase : r.phase = .running feed)
    (hadvance : (advance setup loop).runOn r = (.ok (.completed more), r₁))
    (hend : (advanceEnd setup loop).runOn r₁ = (.ok (), r₂)) (hn : r.trainer.callbacks.length = n) :
    r₂.trainer.callbacks.length = n ∧ r.trainer.Counts r.progress r₂.trainer r₂.progress := by
  obtain ⟨hn₂, handed, feed', new, -, hnew, hword⟩ := batch_traced hphase hadvance hend hn
  rw [batch_progress hcounts hadvance hend]
  exact ⟨hn₂, new, hnew, counted_of_completed hword⟩

theorem batch_within (hcounts : setup.accelerator.CountsSteps) (hwithin : r.WithinSteps loop)
    (hgoes : r.isDone loop = false)
    (hadvance : (advance setup loop).runOn r = (.ok (.completed more), r₁))
    (hend : (advanceEnd setup loop).runOn r₁ = (.ok (), r₂)) :
    r₂.WithinSteps loop ∧ r₂.counters.maxSteps = r.counters.maxSteps := by
  have hprogress := batch_progress hcounts hadvance hend
  have hbounds : r₁.counters.maxSteps = r.counters.maxSteps := by
    cases advance_ok hadvance with
    | completed hphase hnext hrun hproceeds htrainer => rfl
  have hboundary : r₂.atStepBoundary loop = r₁.atStepBoundary loop := by
    obtain ⟨t₁, t₂, globalStep, hvalidated, -, -, hupkeep, rfl⟩ := advanceEnd_parts hend
    have hfollows : Follows (fun _ => True) r₁.trainer t₂ :=
      hvalidated.weaken.trans hupkeep.weaken
    exact atStepBoundary_of_follows hfollows
  have hsame : r₂.counters.maxSteps = r₁.counters.maxSteps := by
    obtain ⟨t₁, t₂, globalStep, -, -, -, -, rfl⟩ := advanceEnd_parts hend
    rfl
  refine ⟨?_, hsame.trans hbounds⟩
  intro most hmost
  have hbelow : r.progress.globalStep < most :=
    (hwithin most (hbounds ▸ hsame ▸ hmost)).2 hgoes
  have hone : r₂.progress.globalStep ≤ r.progress.globalStep + 1 := by
    rw [hprogress]
    split <;> simp [Progress.pull, Progress.step]
  refine ⟨by omega, ?_⟩
  intro hgoes₂
  by_contra hreached
  -- At the bound the batch has ended with a step, and then the epoch does not go on.
  have hwithout : r₁.atStepBoundary loop = false := by
    rw [← hboundary]
    apply atStepBoundary_of_goes hgoes₂
    rw [EpochCounters.maxStepsReached, hmost]
    simpa using hreached
  have hsteps : r₂.progress.globalStep = r.progress.globalStep := by
    rw [hprogress, hwithout]
    rfl
  omega

/-! ## All batches -/

/-- What becomes of the counters in the last batch of an epoch, which may fail. -/
theorem halts_limited {result : Except Error (Option KeptOutputs)} {feed : Feed β}
    (hphase : r.phase = .running feed) (hwithin : r.WithinSteps loop)
    (h : Halts setup loop r kept result r') (hn : r.trainer.callbacks.length = n) :
    ∃ q, r.trainer.Counts r.progress r'.trainer q ∧
      (∀ most, r.counters.maxSteps = some most → q.globalStep ≤ most) ∧
      ∀ trained, result = .ok trained → r'.progress = q := by
  have hle : ∀ most, r.counters.maxSteps = some most → r.progress.globalStep ≤ most :=
    fun most hmost => (hwithin most hmost).1
  obtain ⟨-, new, hnew, hhalted⟩ := halts_told hphase h hn
  cases hhalted with
  | ended hprogress => exact ⟨r.progress, ⟨[], hnew, .nil _⟩, hle, fun _ _ => hprogress⟩
  | passed hprogress => exact ⟨r.progress, ⟨[], hnew, .nil _⟩, hle, fun _ _ => hprogress⟩
  | skipped hgoes hprogress hword =>
      exact ⟨r.progress.pull, ⟨new, hnew, counted_of_skipped hword⟩, hle, fun _ _ => hprogress⟩
  | failed hgoes hcut =>
      -- An epoch that goes on is below the bound, so that one more step is within it.
      obtain ⟨q, hq, hone⟩ := counted_of_broken hcut
      refine ⟨q, ⟨new, hnew, hq⟩, fun most hmost => ?_, nofun⟩
      have hbelow := (hwithin most hmost).2 hgoes
      omega

theorem batches_limited (hcounts : setup.accelerator.CountsSteps) {horizon b : Nat}
    {B : Batches β} {result : Except Error (Option KeptOutputs)} (hat : r.AtBatch B b)
    (hwithin : r.WithinSteps loop)
    (h : (batches setup loop horizon kept).runOn r = (result, r'))
    (hn : r.trainer.callbacks.length = n) :
    ∃ q, r.trainer.Counts r.progress r'.trainer q ∧
      (∀ most, r.counters.maxSteps = some most → q.globalStep ≤ most) ∧
      ∀ trained, result = .ok trained → r'.progress = q := by
  have hfrom := batches_halt (I := fun _ r₀ _ => r₀.trainer.callbacks.length = n ∧
      (∃ m, r₀.AtBatch B m) ∧ r₀.WithinSteps loop ∧
      r₀.counters.maxSteps = r.counters.maxSteps ∧
      r.trainer.Counts r.progress r₀.trainer r₀.progress)
    (fun _ r₀ _ more r₂ r₃ hI hgoes hadvance hend => by
      obtain ⟨hn₀, ⟨m, hat₀⟩, hwithin₀, hbounds, hcounted⟩ := hI
      obtain ⟨feed, hphase, -⟩ := hat₀.feed
      obtain ⟨hn₃, hbatch⟩ := batch_counted hcounts hphase hadvance hend hn₀
      obtain ⟨hwithin₃, hsame⟩ := batch_within hcounts hwithin₀ hgoes hadvance hend
      exact ⟨hn₃, ⟨m + 1, step_at hat₀ hadvance hend⟩, hwithin₃, hsame.trans hbounds,
        hcounted.trans hbatch⟩)
    (n := 0) ⟨hn, ⟨b, hat⟩, hwithin, rfl, .refl _ _⟩ h
  obtain ⟨_, r₀, kept', ⟨hn₀, ⟨m, hat₀⟩, hwithin₀, hbounds, hcounted⟩, hhalts, -⟩ := hfrom
  obtain ⟨feed, hphase, -⟩ := hat₀.feed
  obtain ⟨q, hlast, hbound, hq⟩ := halts_limited hphase hwithin₀ hhalts hn₀
  rw [hbounds] at hbound
  exact ⟨q, hcounted.trans hlast, hbound, hq⟩

theorem run_limited (hcounts : setup.accelerator.CountsSteps) {horizon : Nat} {data : Batches β}
    {result : Except Error (Option Processed)}
    (hbelow : ∀ most, r.counters.maxSteps = some most → r.progress.globalStep < most)
    (h : (run setup loop horizon data).runOn r = (result, r'))
    (hn : r.trainer.callbacks.length = n) :
    ∃ q, r.trainer.Counts r.progress r'.trainer q ∧
      (∀ most, r.counters.maxSteps = some most → q.globalStep ≤ most) ∧
      ∀ outputs, result = .ok outputs → r'.progress = q := by
  obtain ⟨trained, r₁, hbatches, hrest⟩ := run_parts h
  have hwithin : (r.start setup data).WithinSteps loop := fun most hmost =>
    ⟨(hbelow most hmost).le, fun _ => hbelow most hmost⟩
  obtain ⟨q, hcounted, hbound, hq⟩ :=
    batches_limited hcounts (start_at setup data r) hwithin hbatches hn
  match trained with
  | .error e =>
      obtain ⟨rfl, rfl⟩ := hrest
      exact ⟨q, hcounted, hbound, nofun⟩
  | .ok none =>
      obtain ⟨rfl, rfl⟩ := hrest
      exact ⟨q, hcounted, hbound, fun _ _ => hq _ rfl⟩
  | .ok (some kept) =>
      obtain ⟨outputs, hfinish, rfl⟩ := hrest
      obtain ⟨hn₁, -⟩ := batches_traced (start_at setup data r) hbatches hn
      obtain ⟨-, ended, hended, hleaves⟩ := (finish_emits setup kept).of_run hfinish hn₁
      have hrests : Counted r₁.progress ended r₁.progress :=
        .of_leaves (Only.epochEnded setup n r₁.progress _).rests hleaves
      rw [hq _ rfl] at hrests
      refine ⟨q, hcounted.trans ⟨ended, hended, hrests⟩, hbound, ?_⟩
      intro result hresult
      cases outputs with
      | error e => cases hresult
      | ok outputs =>
          obtain ⟨-, trainer, -, -, rfl⟩ := finish_ok hfinish
          exact hq _ rfl

end EpochStep

namespace FitStep

open Trainer Stateful Trace

variable {setup : Setup W β} {loop : BatchLoop σ β} {horizon n : Nat} {data : Nat → Batches β}
  {r r' : FitRun σ W β}

/-! ## All epochs -/

/-- An epoch within a run that is below its bound; what it failed in, the run does not count. -/
theorem nextEpoch_limited (hcounts : setup.accelerator.CountsSteps)
    {result : Except Error (Option Processed)}
    (hbelow : ∀ most, setup.config.maxSteps = some most → r.progress.globalStep < most)
    (h : (nextEpoch setup loop horizon data).runOn r = (result, r'))
    (hn : r.trainer.callbacks.length = n) :
    ∃ q, r.trainer.Counts r.progress r'.trainer q ∧
      (∀ most, setup.config.maxSteps = some most → q.globalStep ≤ most) ∧
      (r'.progress = r.progress ∨ r'.progress = q) ∧
      ∀ outputs, result = .ok (some outputs) → r'.progress = q := by
  have hle : ∀ most, setup.config.maxSteps = some most → r.progress.globalStep ≤ most :=
    fun most hmost => (hbelow most hmost).le
  have hbegins {t₁ t₂ : Trainer W β} {answered : Except Error Unit}
      (hcounts : (TrainerStep.resolveCounts setup (data r.currentEpoch).knownLength).runOn
        r.enterEpoch.trainer = (.ok (), t₁))
      (hcall : (TrainerStep.call setup .trainEpochStart
        (t₁.context setup r.progress 0 none)).runOn t₁ = (answered, t₂)) :
      t₂.callbacks.length = n ∧ r.trainer.Counts r.progress t₂ r.progress := by
    obtain ⟨hn₂, new, hnew, hleaves⟩ := begins_traced hcounts hcall hn
    exact ⟨hn₂, new, hnew, .of_leaves (Only.epochBegun_rests _ _ _ _) hleaves⟩
  cases nextEpoch_ran h with
  | uncounted hcounts =>
      have hasked := Counted.single (RunEvent.dataRequested_rests (β := β) r.progress r.currentEpoch)
      exact ⟨r.progress, ⟨_, Journal.toList_push _ _, hasked⟩, hle, .inl rfl, nofun⟩
  | unstarted hresolved hcall =>
      obtain ⟨-, hbegun⟩ := hbegins hresolved hcall
      exact ⟨r.progress, hbegun, hle, .inl rfl, nofun⟩
  | failed hresolved hcall hepoch =>
      obtain ⟨hn₂, hbegun⟩ := hbegins hresolved hcall
      obtain ⟨q, hq, hbound, -⟩ := EpochStep.run_limited hcounts hbelow hepoch hn₂
      exact ⟨q, hbegun.trans hq, hbound, .inl rfl, nofun⟩
  | passed hresolved hcall hepoch =>
      obtain ⟨hn₂, hbegun⟩ := hbegins hresolved hcall
      obtain ⟨q, hq, hbound, -⟩ := EpochStep.run_limited hcounts hbelow hepoch hn₂
      exact ⟨q, hbegun.trans hq, hbound, .inl rfl, nofun⟩
  | @closed t₁ t₂ e outputs closed _ _ hresolved hcall hepoch hclose hresult =>
      obtain ⟨hn₂, hbegun⟩ := hbegins hresolved hcall
      obtain ⟨hn₃, -⟩ := EpochStep.run_traced hepoch hn₂
      obtain ⟨q, hq, hbound, hsame⟩ := EpochStep.run_limited hcounts hbelow hepoch hn₂
      obtain ⟨-, ended, hended, hleaves⟩ := (closeEpoch_emits setup e.counters).of_run hclose hn₃
      have hrests : Counted e.progress ended e.progress :=
        .of_leaves (Only.epochClosed n e.progress).rests hleaves
      have hprogress : r'.progress = e.progress := closeEpoch_progress hclose
      rw [hsame _ rfl] at hrests hprogress
      exact ⟨q, hbegun.trans (hq.trans ⟨ended, hended, hrests⟩), hbound, .inr hprogress,
        fun _ _ => hprogress⟩

theorem Ran.limited (hcounts : setup.accelerator.CountsSteps) {c c' : Completed}
    (h : Ran setup loop horizon data r c r' c') (hn : r.trainer.callbacks.length = n) :
    r.trainer.Counts r.progress r'.trainer r'.progress ∧
      ∀ most, setup.config.maxSteps = some most → r.progress.globalStep ≤ most →
        r'.progress.globalStep ≤ most := by
  refine (h.preserves (J := fun r₀ _ => r₀.trainer.callbacks.length = n ∧
    r.trainer.Counts r.progress r₀.trainer r₀.progress ∧
    ∀ most, setup.config.maxSteps = some most → r.progress.globalStep ≤ most →
      r₀.progress.globalStep ≤ most) ?_ ⟨hn, .refl _ _, fun _ _ => id⟩).2
  rintro r₀ c outputs r₁ ⟨hn₀, hcounted, -⟩ hgoes hepoch
  obtain ⟨-, hbelow⟩ := FitRun.limitReached?_eq_none.1 (FitRun.stopReason?_eq_none.1 hgoes).1
  obtain ⟨hevents, hcallbacks⟩ := declineStop_events setup.config r₀
  rw [← declineStop_progress setup.config] at hbelow
  rw [← hcallbacks] at hn₀
  obtain ⟨hn₁, -⟩ := nextEpoch_traced hepoch hn₀
  obtain ⟨q, hq, hbound, -, hsame⟩ := nextEpoch_limited hcounts hbelow hepoch hn₀
  rw [← hsame outputs rfl] at hq hbound
  have hfrom : r₀.trainer.Counts r₀.progress r₁.trainer r₁.progress := by
    rwa [Trainer.Counts, hevents, declineStop_progress] at hq
  exact ⟨hn₁, hcounted.trans hfrom, fun most hmost _ => hbound most hmost⟩

theorem halts_limited (hcounts : setup.accelerator.CountsSteps) {c : Completed}
    {ended : Except Error (Option (StopReason × Completed))}
    (h : Halts setup loop horizon data r c ended r') (hn : r.trainer.callbacks.length = n) :
    ∃ q, r.trainer.Counts r.progress r'.trainer q ∧
      (∀ most, setup.config.maxSteps = some most → r.progress.globalStep ≤ most →
        q.globalStep ≤ most) ∧
      (r'.progress = r.progress ∨ r'.progress = q) := by
  have hepoch {result : Except Error (Option Processed)}
      (hgoes : r.stopReason? setup.config = none)
      (hepoch : (nextEpoch setup loop horizon data).runOn (r.declineStop setup.config) =
        (result, r')) :
      ∃ q, r.trainer.Counts r.progress r'.trainer q ∧
        (∀ most, setup.config.maxSteps = some most → r.progress.globalStep ≤ most →
          q.globalStep ≤ most) ∧
        (r'.progress = r.progress ∨ r'.progress = q) := by
    obtain ⟨-, hbelow⟩ := FitRun.limitReached?_eq_none.1 (FitRun.stopReason?_eq_none.1 hgoes).1
    obtain ⟨hevents, hcallbacks⟩ := declineStop_events setup.config r
    rw [← declineStop_progress setup.config] at hbelow
    rw [← hcallbacks] at hn
    obtain ⟨q, hq, hbound, hsame, -⟩ := nextEpoch_limited hcounts hbelow hepoch hn
    rw [Trainer.Counts, hevents, declineStop_progress] at hq
    rw [declineStop_progress] at hsame
    exact ⟨q, hq, fun most hmost _ => hbound most hmost, hsame⟩
  cases h with
  | stopped hreason => exact ⟨r.progress, .refl _ _, fun _ _ => id, .inl rfl⟩
  | passed hgoes hpassed => exact hepoch hgoes hpassed
  | failed hgoes hfailed => exact hepoch hgoes hfailed

/-! ## The whole run -/

/-- No epoch is started that the run may not have. -/
theorem run_withinEpochs {result : Except Error (Option FitResult)}
    (h : (run setup loop horizon data).runOn r = (result, r')) {new : List (RunEvent β)}
    (hnew : r'.trainer.events.toList = r.trainer.events.toList ++ new) :
    ∀ event ∈ new, event.WithinEpochs setup.config.maxEpochs := by
  have hordinary : ∀ event : RunEvent β, event.Ordinary →
      event.WithinEpochs setup.config.maxEpochs := fun _ => RunEvent.Ordinary.withinEpochs
  have hasked : ∀ epoch < setup.config.maxEpochs,
      (RunEvent.dataRequested epoch : RunEvent β).WithinEpochs setup.config.maxEpochs :=
    fun _ => id
  obtain ⟨new', hnew', hreturned, hpassed, hfailed⟩ := run_traced h rfl
  obtain rfl : new' = new := List.append_cancel_left (hnew'.symm.trans hnew)
  match result with
  | .ok (some fit) => exact Only.wholeRun hordinary hasked _ new' (hreturned fit rfl)
  | .ok none => exact Only.openRun hordinary hasked _ new' (hpassed rfl)
  | .error e => exact (hfailed e rfl).only (Only.runEpochs hordinary hasked _) fun _ => trivial

theorem begun_counted (setup : Setup W β) (worker : σ) (r : FitRun σ W β) :
    r.trainer.Counts r.progress (begun setup worker r).trainer (begun setup worker r).progress := by
  obtain ⟨-, new, hnew, hword⟩ := begun_traced setup worker (r := r) rfl
  have htold : Only (RunEvent.Rests r.progress)
      ({[.accumulation setup.config.accumulateGradBatches]} *
        Trace.told r.trainer.callbacks.length r.progress .trainStart .trainStart :
          Language (RunEvent β)) :=
    (Only.single ⟨trivial, rfl, rfl, rfl⟩).mul (Only.told _ _ _ _).rests
  exact ⟨new, hnew, .of_rests (htold new hword)⟩

theorem tellEnd_counted (setup : Setup W β) (reason : StopReason) (c : Completed)
    (r : FitRun σ W β) :
    r.trainer.Counts r.progress (r.tellEnd setup reason c).trainer r.progress := by
  obtain ⟨told, htold, hend⟩ := tellEnd_traced setup reason c r
  exact ⟨told, htold, .of_rests ((Only.told _ _ _ _).rests told hend)⟩

theorem run_counters (hcounts : setup.accelerator.CountsSteps)
    {result : Except Error (Option FitResult)}
    (h : (run setup loop horizon data).runOn r = (result, r')) :
    ∃ new q, r'.trainer.events.toList = r.trainer.events.toList ++ new ∧
      Counted r.progress new q ∧
      (∀ most, setup.config.maxSteps = some most → r.progress.globalStep ≤ most →
        q.globalStep ≤ most) ∧
      (∃ done rest, new = done ++ rest ∧ r'.progress = r.progress.afterAll done) ∧
      ∀ fit, result = .ok (some fit) → fit.progress = q ∧ r'.progress = q ∧
        (fit.stopReason = .maxSteps → ∃ most, setup.config.maxSteps = some most ∧
          most ≤ q.globalStep) := by
  cases run_ended h with
  | refused hcheck =>
      exact ⟨[], r.progress, (List.append_nil _).symm, .nil _, fun _ _ => id,
        ⟨[], [], rfl, rfl⟩, nofun⟩
  | @unset e worker hcheck hset =>
      have hevents := r.trainer.toList_record_record
        (.accumulation setup.config.accumulateGradBatches) (.failed e)
      have hset : Counted (β := β) r.progress
          [.accumulation setup.config.accumulateGradBatches] r.progress :=
        .single ⟨trivial, rfl, rfl, rfl⟩
      have hrests := hset.append (.single (RunEvent.failed_rests _ e))
      exact ⟨_, r.progress, hevents, hrests, fun _ _ => id, ⟨[], _, rfl, rfl⟩, nofun⟩
  | @halted worker r₁ r₂ _ c ended _ hcheck hset hran hhalts hreports =>
      obtain ⟨hepochs, hbound⟩ := hran.limited hcounts rfl
      obtain ⟨q, hlast, hbound', hsame⟩ := halts_limited hcounts hhalts rfl
      have hwithin : ∀ most, setup.config.maxSteps = some most → r.progress.globalStep ≤ most →
          q.globalStep ≤ most :=
        fun most hmost hstart => hbound' most hmost (hbound most hmost hstart)
      obtain ⟨new, hnew, hcounted⟩ := (begun_counted setup worker r).trans hepochs
      obtain ⟨last, hlast, hcounted'⟩ := hlast
      have hdone : ∃ done rest, new ++ last = done ++ rest ∧
          r₂.progress = r.progress.afterAll done := by
        rcases hsame with hsame | hsame
        · exact ⟨new, last, rfl, by rw [hcounted.after, hsame]⟩
        · exact ⟨new ++ last, [], (List.append_nil _).symm,
            by rw [(hcounted.append hcounted').after, hsame]⟩
      match ended with
      | .error e =>
          obtain ⟨rfl, rfl⟩ := hreports
          exact ⟨_, q, events_trans hnew hlast, hcounted.append hcounted', hwithin, hdone, nofun⟩
      | .ok none =>
          obtain ⟨rfl, rfl⟩ := hreports
          exact ⟨_, q, events_trans hnew hlast, hcounted.append hcounted', hwithin, hdone, nofun⟩
      | .ok (some (reason, completed)) =>
          obtain ⟨rfl, rfl⟩ := hreports
          cases hhalts with
          | stopped hreason =>
              obtain ⟨told, htold, hend⟩ := tellEnd_counted setup reason c r₁
              have hall := hcounted.append hend
              refine ⟨new ++ told, r₁.progress, events_trans hnew htold, hall, hbound,
                ⟨_, [], (List.append_nil _).symm, hall.after.symm⟩, ?_⟩
              rintro fit hfit
              cases hfit
              refine ⟨rfl, rfl, ?_⟩
              rintro rfl
              exact FitRun.of_maxSteps hreason

/-- The limits of a run hold at all its points, whether it fails or not. All that it tells of its
counters is what the events up to there amount to: a batch pulled adds one to the batches, and
between two pulls there is one optimizer step or one signal at most. So there are no more steps than
batches, no step beyond the bound and no epoch beyond the last one, and a run that ends for its
steps ends at their bound. -/
theorem run_limits (hcounts : setup.accelerator.CountsSteps)
    {result : Except Error (Option FitResult)}
    (h : (run setup loop horizon data).runOn r = (result, r')) :
    ∃ new, r'.trainer.events.toList = r.trainer.events.toList ++ new ∧
      r.progress.Tells new ∧
      (∀ before index isLast batch after,
        new = before ++ .pulled index isLast :: (batch ++ after) →
        (∀ event ∈ batch, event.isPulled = false) → batch.countP RunEvent.spends ≤ 1) ∧
      (∀ before after, new = before ++ after →
        (r.progress.afterAll before).globalStep + r.progress.totalBatches ≤
            r.progress.globalStep + (r.progress.afterAll before).totalBatches ∧
          ∀ most, setup.config.maxSteps = some most → r.progress.globalStep ≤ most →
            (r.progress.afterAll before).globalStep ≤ most) ∧
      (∀ epoch, .dataRequested epoch ∈ new → epoch < setup.config.maxEpochs) ∧
      (∃ done rest, new = done ++ rest ∧ r'.progress = r.progress.afterAll done) ∧
      ∀ fit, result = .ok (some fit) →
        fit.progress = r.progress.afterAll new ∧ r'.progress = fit.progress ∧
        (fit.stopReason = .maxSteps → ∃ most, setup.config.maxSteps = some most ∧
          most ≤ fit.progress.globalStep ∧
          (r.progress.globalStep ≤ most → fit.progress.globalStep = most)) := by
  obtain ⟨new, q, hnew, hcounted, hbound, hdone, hresult⟩ := run_counters hcounts h
  refine ⟨new, hnew, hcounted.tells, ?_, ?_, ?_, hdone, ?_⟩
  · rintro before index isLast batch after hsplit hbatch
    have hpaid : Paid false (before ++ .pulled index isLast :: (batch ++ after)) :=
      hsplit ▸ hcounted.paid
    obtain ⟨left, -, hrest⟩ := hpaid.of_append.2
    have hcredit : Paid true batch := hrest.of_append.1
    exact hcredit.countP_spends_le hbatch
  · intro before after hsplit
    have hcounted' : Counted r.progress (before ++ after) q := hsplit ▸ hcounted
    have hbefore := hcounted'.of_append
    refine ⟨hbefore.paid.steps_le r.progress, fun most hmost hstart => ?_⟩
    calc
      (r.progress.afterAll before).globalStep ≤ q.globalStep := by
        rw [← hcounted'.after, Progress.afterAll_append]
        exact Progress.globalStep_le_afterAll _ _
      _ ≤ most := hbound most hmost hstart
  · exact fun epoch hepoch => run_withinEpochs h hnew _ hepoch
  · intro fit hfit
    obtain ⟨hprogress, hsame, hsteps⟩ := hresult fit hfit
    refine ⟨hprogress.trans hcounted.after.symm, hsame.trans hprogress.symm, fun hreason => ?_⟩
    obtain ⟨most, hmost, hreached⟩ := hsteps hreason
    rw [hprogress]
    exact ⟨most, hmost, hreached, fun hstart => le_antisymm (hbound most hmost hstart) hreached⟩

def everyOther : BatchLoop Nat Unit :=
  { run := fun _ index _ => do
      modify fun _ => index + 1
      pure (.ofResults [])
    closedWindow := fun batches => batches % 2 == 0
    setAccumulation := fun _ => pure () }

def fourStepsAtMost : Setup Unit Unit := { config := { maxSteps := some 4 } }

/-- Epochs of five batches take three steps each, as the last batch closes its window alone; the
fourth step is the last one of the run. -/
theorem run_limits_fourStepsAtMost :
    ∃ (fit : FitResult) (r' : FitRun Nat Unit Unit),
      (run fourStepsAtMost everyOther 6 fun _ => .exact 5 fun _ => ()).runOn
        { trainer := .ofSetup fourStepsAtMost (), worker := 0 } = (.ok (some fit), r') ∧
      fit.stopReason = .maxSteps ∧ fit.progress.globalStep = 4 := by
  have hreason : (Stateful.returned? (run fourStepsAtMost everyOther 6 fun _ => .exact 5 fun _ => ())
      { trainer := .ofSetup fourStepsAtMost (), worker := 0 }).map FitResult.stopReason =
        some .maxSteps := by
    decide +kernel
  obtain ⟨fit, hfit, hsteps⟩ := Option.map_eq_some_iff.1 hreason
  obtain ⟨r', hrun⟩ := Stateful.returned?_eq_some hfit
  obtain ⟨new, -, -, -, -, -, -, hresult⟩ := run_limits Accelerator.countsSteps_default hrun
  obtain ⟨-, -, hlast⟩ := hresult fit rfl
  obtain ⟨most, hmost, -, hreached⟩ := hlast hsteps
  cases hmost
  exact ⟨fit, r', hrun, hsteps, hreached (Nat.zero_le 4)⟩

end FitStep

end TrainingLoop
