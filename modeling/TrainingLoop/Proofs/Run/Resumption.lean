import TrainingLoop.Proofs.Run.Course
/-!
# Runs that are interrupted and taken up again

A run of at most `k` epochs, taken up from its counters by a new run of at most `n`, comes to what
one run of at most `n` epochs comes to (`run_resumed`). What a run comes to is a function of its
settings, its data and the counters from which it starts (`itinerary`), and that function can be cut
in two at any bound of the epochs (`itinerary_split`).
-/

namespace TrainingLoop

variable {σ W β : Type}

structure FitTally where
  epochsCompleted : Nat
  progress : Progress
  currentEpoch : Nat
  stopReason : StopReason
  deriving DecidableEq, Repr

namespace FitTally

def after (epochs : Nat) (t : FitTally) : FitTally :=
  { t with epochsCompleted := epochs + t.epochsCompleted }

theorem map_after_zero (ended : Except Error (Option FitTally)) :
    ended.map (Option.map (after 0)) = ended := by
  have hid : after 0 = id := by
    funext t
    simp [after]
  rw [hid, Option.map_id]
  cases ended <;> rfl

theorem map_after_after (a b : Nat) (ended : Except Error (Option FitTally)) :
    (ended.map (Option.map (after b))).map (Option.map (after a)) =
      ended.map (Option.map (after (a + b))) := by
  have hcomp : after a ∘ after b = after (a + b) := by
    funext t
    simp [after, Nat.add_assoc]
  rcases ended with _ | _ | _ <;> simp [Except.map, ← hcomp]

/-- What two runs come to together of which the second takes up the first where that ends, unless it
fails or passes the horizon. -/
def takenUp (first : Except Error (Option FitTally))
    (second : FitTally → Except Error (Option FitTally)) : Except Error (Option FitTally) :=
  match first with
  | .error e => .error e
  | .ok none => .ok none
  | .ok (some tally) => (second tally).map (Option.map (after tally.epochsCompleted))

theorem of_takenUp {first : Except Error (Option FitTally)}
    {second : FitTally → Except Error (Option FitTally)} {t : FitTally}
    (h : takenUp first second = .ok (some t)) :
    ∃ t₁ t₂, first = .ok (some t₁) ∧ second t₁ = .ok (some t₂) ∧
      t = t₂.after t₁.epochsCompleted := by
  match first with
  | .error e => cases h
  | .ok none => cases h
  | .ok (some t₁) =>
      unfold takenUp at h
      dsimp only at h
      match hsecond : second t₁ with
      | .error e =>
          rw [hsecond] at h
          cases h
      | .ok none =>
          rw [hsecond] at h
          cases h
      | .ok (some t₂) =>
          rw [hsecond] at h
          cases h
          exact ⟨t₁, t₂, rfl, hsecond, rfl⟩

theorem takenUp_map_after (a : Nat) (first : Except Error (Option FitTally))
    (second : Progress → Nat → Except Error (Option FitTally)) :
    takenUp (first.map (Option.map (after a))) (fun t => second t.progress t.currentEpoch) =
      (takenUp first fun t => second t.progress t.currentEpoch).map (Option.map (after a)) := by
  match first with
  | .error e => rfl
  | .ok none => rfl
  | .ok (some tally) => exact (map_after_after _ _ _).symm

end FitTally

/-! ## The course of a run -/

def StopReason.limit? (maxSteps : Option Nat) (maxEpochs epoch : Nat) (p : Progress) :
    Option StopReason :=
  if maxEpochs ≤ epoch then some .maxEpochs
  else
    match maxSteps with
    | none => none
    | some most => if most ≤ p.globalStep then some .maxSteps else none

section

variable (next : Nat → Progress → Except Error (Option Progress)) (maxSteps : Option Nat)

/-- What a run comes to that has at most so many epochs left, if `next` gives the counters after each
of them. -/
def itinerary (maxEpochs remaining epoch : Nat) (p : Progress) : Except Error (Option FitTally) :=
  match StopReason.limit? maxSteps maxEpochs epoch p with
  | some reason => .ok (some ⟨0, p, epoch, reason⟩)
  | none =>
    match remaining with
    | 0 => .ok none
    | remaining + 1 =>
      match next epoch p with
      | .error e => .error e
      | .ok none => .ok none
      | .ok (some ended) =>
        (itinerary maxEpochs remaining (epoch + 1) ended).map (Option.map (.after 1))

end

section

variable {next : Nat → Progress → Except Error (Option Progress)} {maxSteps : Option Nat}

theorem itinerary_stopped {maxEpochs remaining epoch : Nat} {p : Progress} {reason : StopReason}
    (h : StopReason.limit? maxSteps maxEpochs epoch p = some reason) :
    itinerary next maxSteps maxEpochs remaining epoch p = .ok (some ⟨0, p, epoch, reason⟩) := by
  rw [itinerary.eq_def, h]

theorem itinerary_goes {maxEpochs remaining epoch : Nat} {p : Progress}
    (h : StopReason.limit? maxSteps maxEpochs epoch p = none) :
    itinerary next maxSteps maxEpochs (remaining + 1) epoch p =
      match next epoch p with
      | .error e => .error e
      | .ok none => .ok none
      | .ok (some ended) =>
        (itinerary next maxSteps maxEpochs remaining (epoch + 1) ended).map
          (Option.map (.after 1)) := by
  rw [itinerary, h]

/-- A run can be cut at a bound of its epochs: taken up where that ends it, it comes to what it would
have come to. -/
theorem itinerary_split {k n : Nat} (hk : k ≤ n) (epoch : Nat) (p : Progress) :
    itinerary next maxSteps n (n - epoch) epoch p =
      FitTally.takenUp (itinerary next maxSteps k (k - epoch) epoch p) fun first =>
        itinerary next maxSteps n (n - first.currentEpoch) first.currentEpoch first.progress := by
  -- The induction is on the epochs left to the first part.
  generalize hleft : k - epoch = left
  induction left generalizing epoch p with
  | zero =>
      have hended : StopReason.limit? maxSteps k epoch p = some .maxEpochs := if_pos (by omega)
      rw [itinerary_stopped hended]
      exact (FitTally.map_after_zero _).symm
  | succ left ih =>
      have hsame : StopReason.limit? maxSteps k epoch p = StopReason.limit? maxSteps n epoch p := by
        unfold StopReason.limit?
        rw [if_neg (by omega), if_neg (by omega)]
      cases hlimit : StopReason.limit? maxSteps n epoch p with
      | some reason =>
          rw [itinerary_stopped (hsame.trans hlimit)]
          exact (FitTally.map_after_zero _).symm
      | none =>
          obtain ⟨more, hmore⟩ : ∃ more, n - epoch = more + 1 := ⟨n - epoch - 1, by omega⟩
          rw [hmore, itinerary_goes hlimit, itinerary_goes (hsame.trans hlimit)]
          rcases next epoch p with e | _ | ended
          · rfl
          · rfl
          · have hsplit := ih (epoch + 1) ended (by omega)
            rw [show n - (epoch + 1) = more by omega] at hsplit
            dsimp only
            rw [hsplit]
            exact (FitTally.takenUp_map_after 1 _ fun p' epoch' =>
              itinerary next maxSteps n (n - epoch') epoch' p').symm

theorem itinerary_returns (hnext : ∀ epoch p, ∃ ended, next epoch p = .ok (some ended))
    (maxEpochs epoch : Nat) (p : Progress) :
    ∃ tally, itinerary next maxSteps maxEpochs (maxEpochs - epoch) epoch p = .ok (some tally) := by
  generalize hleft : maxEpochs - epoch = left
  induction left generalizing epoch p with
  | zero =>
      have hended : StopReason.limit? maxSteps maxEpochs epoch p = some .maxEpochs :=
        if_pos (by omega)
      exact ⟨_, itinerary_stopped hended⟩
  | succ left ih =>
      cases hlimit : StopReason.limit? maxSteps maxEpochs epoch p with
      | some reason => exact ⟨_, itinerary_stopped hlimit⟩
      | none =>
          obtain ⟨ended, hended⟩ := hnext epoch p
          obtain ⟨tally, hrest⟩ := ih (epoch + 1) ended (by omega)
          exact ⟨tally.after 1, by rw [itinerary_goes hlimit, hended]; simp only [hrest]; rfl⟩

end

/-! ## Runs follow their course -/

def Setup.upTo (maxEpochs : Nat) (setup : Setup W β) : Setup W β :=
  { setup with config := { setup.config with maxEpochs } }

theorem Setup.Reliable.upTo {setup : Setup W β} (h : setup.Reliable) (maxEpochs : Nat) :
    (setup.upTo maxEpochs).Reliable :=
  ⟨h.model, h.respond, h.evaluator⟩

namespace Config

def counts? (config : Config) (length : Option Nat) : Except Error (BatchCount × BatchCount) :=
  match config.limitTrainBatches.resolveBatches length with
  | .error e => .error e
  | .ok trainingBatches =>
    (config.valCheckInterval.resolveInterval trainingBatches).map fun valCheckBatch =>
      (trainingBatches, valCheckBatch)

/-- The least epochs matter to the check only where the most epochs are fewer. -/
theorem check_upTo {config : Config} {k n : Nat} (hk : config.minEpochs ≤ k) (hkn : k ≤ n) :
    { config with maxEpochs := k }.check = { config with maxEpochs := n }.check := by
  have hk' : ¬ k < config.minEpochs := by omega
  have hn : ¬ n < config.minEpochs := by omega
  simp only [check, if_neg hk', if_neg hn]
  rfl

def epochEnd? (config : Config) (m : SyntheticModel) (horizon : Nat) (data : Nat → Batches β)
    (epoch : Nat) (p : Progress) : Except Error (Option Progress) :=
  (config.counts? (data epoch).knownLength).map fun counts =>
    EpochCourse.ends
      ⟨data epoch, counts.1, max config.accumulateGradBatches 1, m.stopEpochAt, config.maxSteps⟩
      horizon 0 p

end Config

theorem TrainerStep.resolveCounts_eq (setup : Setup W β) (length : Option Nat) (t : Trainer W β) :
    (TrainerStep.resolveCounts setup length).runOn t =
      match setup.config.counts? length with
      | .error e => (.error e, t)
      | .ok (trainingBatches, valCheckBatch) =>
        (.ok (), { t with state := { t.state with trainingBatches, valCheckBatch } }) := by
  rw [TrainerStep.resolveCounts, Config.counts?, Stateful.runOn_bind, Stateful.runOn_lift]
  cases setup.config.limitTrainBatches.resolveBatches length with
  | error e => rfl
  | ok trainingBatches =>
      dsimp only
      rw [Stateful.runOn_bind, Stateful.runOn_lift]
      cases setup.config.valCheckInterval.resolveInterval trainingBatches <;> rfl

structure FitRun.Alone (config : Config) (r : FitRun SyntheticWorker W β) : Prop where
  trainer : r.trainer.Alone
  window : r.worker.window = max config.accumulateGradBatches 1

namespace FitStep

open Trainer

section

variable {setup : Setup W β} {m : SyntheticModel} {horizon : Nat} {data : Nat → Batches β}
  {r r' : FitRun SyntheticWorker W β}

theorem stopReason?_alone {config : Config} (h : r.Alone config) :
    r.stopReason? config =
      StopReason.limit? config.maxSteps config.maxEpochs r.currentEpoch r.progress := by
  rw [FitRun.stopReason?, h.trainer.shouldStop, Bool.false_and]
  exact Option.or_none

theorem begins_course (hsetup : setup.Reliable) (hr : r.Alone setup.config) {length : Option Nat}
    {t₁ t₂ : Trainer W β} {context : Context} {called : Except Error Unit}
    (hcounts : (TrainerStep.resolveCounts setup length).runOn r.enterEpoch.trainer = (.ok (), t₁))
    (hcall : (TrainerStep.call setup .trainEpochStart context).runOn t₁ = (called, t₂)) :
    called = .ok () ∧ t₂.Alone ∧
      ∃ K, setup.config.counts? length = .ok (t₂.state.trainingBatches, K) := by
  rw [TrainerStep.resolveCounts_eq] at hcounts
  cases hcount : setup.config.counts? length with
  | error e =>
      rw [hcount] at hcounts
      cases hcounts
  | ok counts =>
      rw [hcount] at hcounts
      cases hcounts
      obtain ⟨a, _, hok, hreliable⟩ := TrainerStep.call_succeeds hsetup .trainEpochStart context
        { r.enterEpoch.trainer with state := { r.enterEpoch.trainer.state with
            trainingBatches := counts.1, valCheckBatch := counts.2 } }
        (hr.trainer.reliable.of_eq rfl rfl)
      rw [hcall] at hok
      cases hok
      have hfollows := (TrainerStep.call_keeps setup .trainEpochStart context).of_ok hcall
      have halone : Trainer.Alone { r.enterEpoch.trainer with state :=
          { r.enterEpoch.trainer.state with
            trainingBatches := counts.1, valCheckBatch := counts.2 } } :=
        ⟨hr.trainer.callbacks, hr.trainer.shouldStop, hr.trainer.reliable.of_eq rfl rfl⟩
      exact ⟨rfl, halone.follows hfollows hreliable, counts.2, by rw [hfollows.trainingBatches]⟩

theorem trained_course (hsetup : setup.Reliable) (haccelerator : setup.accelerator = {})
    (hwindow : r.worker.window = max setup.config.accumulateGradBatches 1)
    (hbelow : ∀ most, setup.config.maxSteps = some most → r.progress.globalStep < most)
    {t : Trainer W β} (ht : t.Alone) {K : BatchCount}
    (hcount : setup.config.counts? (data r.currentEpoch).knownLength =
      .ok (t.state.trainingBatches, K))
    {result : Except Error (Option Processed)} {e : EpochRun SyntheticWorker W β}
    (h : (EpochStep.run setup (m.batchLoop β) horizon (data r.currentEpoch)).runOn
      (FitRun.epochRun setup.config { r with trainer := t }) = (result, e)) :
    ∃ ended?, setup.config.epochEnd? m horizon data r.currentEpoch r.progress = .ok ended? ∧
      match ended? with
      | none => result = .ok none
      | some ended => (∃ outputs, result = .ok (some outputs)) ∧ e.progress = ended ∧
          e.worker.window = r.worker.window ∧ e.trainer.Alone := by
  obtain ⟨trained, _, hok, hends⟩ := EpochStep.run_course m horizon (data r.currentEpoch)
    (r := FitRun.epochRun setup.config { r with trainer := t }) hsetup haccelerator ht hbelow
  rw [h] at hok
  cases hok
  refine ⟨_, by rw [Config.epochEnd?, hcount, ← hwindow]; rfl, ?_⟩
  dsimp only [FitRun.epochRun] at hends ⊢
  generalize EpochCourse.ends _ horizon 0 r.progress = ended? at hends ⊢
  cases ended? with
  | none => exact congrArg Except.ok hends
  | some ended =>
      obtain ⟨hsome, hended⟩ := hends
      obtain ⟨outputs, rfl⟩ := Option.isSome_iff_exists.1 hsome
      exact ⟨⟨outputs, rfl⟩, hended⟩

/-- An epoch fails where its counts cannot be resolved. Otherwise it ends with the counters of its
course, or passes the horizon with it. -/
theorem nextEpoch_course (hsetup : setup.Reliable) (haccelerator : setup.accelerator = {})
    (hr : r.Alone setup.config)
    (hbelow : ∀ most, setup.config.maxSteps = some most → r.progress.globalStep < most)
    {result : Except Error (Option Processed)}
    (h : (nextEpoch setup (m.batchLoop β) horizon data).runOn r = (result, r')) :
    match setup.config.epochEnd? m horizon data r.currentEpoch r.progress with
    | .error e => result = .error e
    | .ok none => result = .ok none
    | .ok (some ended) => (∃ outputs, result = .ok (some outputs)) ∧ r'.progress = ended ∧
        r'.currentEpoch = r.currentEpoch + 1 ∧ r'.Alone setup.config := by
  cases nextEpoch_ran h with
  | uncounted hcounts =>
      rw [TrainerStep.resolveCounts_eq] at hcounts
      rw [Config.epochEnd?]
      cases hcount : setup.config.counts? (data r.currentEpoch).knownLength with
      | error e =>
          rw [hcount] at hcounts
          cases hcounts
          rfl
      | ok counts =>
          rw [hcount] at hcounts
          cases hcounts
  | unstarted hcounts hcall =>
      obtain ⟨hok, -⟩ := begins_course hsetup hr hcounts hcall
      cases hok
  | failed hcounts hcall hepoch =>
      obtain ⟨-, ht, K, hcount⟩ := begins_course hsetup hr hcounts hcall
      obtain ⟨_ | ended, -, htrained⟩ :=
        trained_course hsetup haccelerator hr.window hbelow ht hcount hepoch
      · cases htrained
      · obtain ⟨⟨outputs, hok⟩, -⟩ := htrained
        cases hok
  | passed hcounts hcall hepoch =>
      obtain ⟨-, ht, K, hcount⟩ := begins_course hsetup hr hcounts hcall
      obtain ⟨_ | ended, hend, htrained⟩ :=
        trained_course hsetup haccelerator hr.window hbelow ht hcount hepoch
      · rw [hend]
      · obtain ⟨⟨outputs, hok⟩, -⟩ := htrained
        cases hok
  | @closed t₁ t₂ e outputs closed _ _ hcounts hcall hepoch hclose hresult =>
      obtain ⟨-, ht, K, hcount⟩ := begins_course hsetup hr hcounts hcall
      obtain ⟨_ | ended, hend, htrained⟩ :=
        trained_course hsetup haccelerator hr.window hbelow ht hcount hepoch
      · cases htrained
      · obtain ⟨-, hprogress, hwindow, halone⟩ := htrained
        obtain ⟨_, r₁, hclosed, hreliable⟩ := closeEpoch_succeeds hsetup e.counters
          { r with trainer := e.trainer, worker := e.worker, progress := e.progress }
          halone.reliable
        rw [hclose] at hclosed
        cases hclosed
        have hfollows := closeEpoch_follows hclose
        obtain ⟨t₃, t₄, -, -, rfl⟩ := closeEpoch_ok hclose
        rw [hend]
        exact ⟨⟨outputs, hresult⟩, hprogress, rfl, halone.follows hfollows hreliable,
          hwindow.trans hr.window⟩

def tallyEpochs (ended : Except Error (Option (StopReason × Completed)) × FitRun σ W β) :
    Except Error (Option FitTally) :=
  ended.1.map <| Option.map fun (reason, completed) =>
    ⟨completed.epochs, ended.2.progress, ended.2.currentEpoch, reason⟩

def tally (ended : Except Error (Option FitResult) × FitRun σ W β) :
    Except Error (Option FitTally) :=
  ended.1.map <| Option.map fun fit =>
    ⟨fit.epochsCompleted, fit.progress, ended.2.currentEpoch, fit.stopReason⟩

theorem epochs_course (m : SyntheticModel) (horizon : Nat) (data : Nat → Batches β)
    (hsetup : setup.Reliable) (haccelerator : setup.accelerator = {}) (remaining : Nat)
    (completed : Completed) (hr : r.Alone setup.config) :
    tallyEpochs ((epochs setup (m.batchLoop β) horizon data remaining completed).runOn r) =
      (itinerary (setup.config.epochEnd? m horizon data) setup.config.maxSteps
        setup.config.maxEpochs remaining r.currentEpoch r.progress).map
        (Option.map (.after completed.epochs)) := by
  induction remaining generalizing completed r with
  | zero =>
      unfold epochs itinerary
      simp only [Stateful.runOn_get_bind, stopReason?_alone hr]
      cases StopReason.limit? setup.config.maxSteps setup.config.maxEpochs r.currentEpoch
        r.progress <;> rfl
  | succ remaining ih =>
      unfold epochs
      simp only [Stateful.runOn_get_bind, stopReason?_alone hr]
      cases hlimit : StopReason.limit? setup.config.maxSteps setup.config.maxEpochs r.currentEpoch
          r.progress with
      | some reason =>
          rw [itinerary_stopped hlimit]
          rfl
      | none =>
          have hunlimited : r.limitReached? setup.config = none := hlimit
          have hdecline : r.declineStop setup.config = r := by
            rw [FitRun.declineStop, hr.trainer.shouldStop]
            rfl
          rw [itinerary_goes hlimit]
          simp only [Stateful.runOn_modify_bind, hdecline]
          rw [Stateful.runOn_bind]
          cases hnext : (nextEpoch setup (m.batchLoop β) horizon data).runOn r with
          | mk result r₁ =>
              have hcourse := nextEpoch_course hsetup haccelerator hr
                (FitRun.limitReached?_eq_none.1 hunlimited).2 hnext
              match hend : setup.config.epochEnd? m horizon data r.currentEpoch r.progress with
              | .error e =>
                  rw [hend] at hcourse
                  subst hcourse
                  rfl
              | .ok none =>
                  rw [hend] at hcourse
                  subst hcourse
                  rfl
              | .ok (some ended) =>
                  rw [hend] at hcourse
                  obtain ⟨⟨outputs, rfl⟩, rfl, hepoch, hr₁⟩ := hcourse
                  have hrest := ih ⟨completed.epochs + 1, outputs⟩ hr₁
                  rw [hepoch] at hrest
                  dsimp only
                  rw [FitTally.map_after_after]
                  exact hrest

/-- What a run comes to is a function of its settings, its data and the counters from which it
starts. -/
theorem run_course (m : SyntheticModel) (horizon : Nat) (data : Nat → Batches β)
    (hsetup : setup.Reliable) (haccelerator : setup.accelerator = {}) (hr : r.trainer.Alone) :
    tally ((run setup (m.batchLoop β) horizon data).runOn r) =
      match setup.config.check with
      | .error e => .error e
      | .ok _ => itinerary (setup.config.epochEnd? m horizon data) setup.config.maxSteps
          setup.config.maxEpochs (setup.config.maxEpochs - r.currentEpoch) r.currentEpoch
          r.progress := by
  cases hcheck : setup.config.check with
  | error e =>
      rw [run_refused hcheck]
      rfl
  | ok _ =>
      have hbegun : (begun setup (r.worker.withWindow setup.config.accumulateGradBatches) r).Alone
          setup.config := by
        have hfollows := tellCallbacks_follows .trainStart .trainStart
          ((r.trainer.record (.accumulation setup.config.accumulateGradBatches)).context setup
            r.progress 0 none)
          (r.trainer.record (.accumulation setup.config.accumulateGradBatches))
        have halone : (r.trainer.record
            (.accumulation setup.config.accumulateGradBatches)).Alone :=
          ⟨hr.callbacks, hr.shouldStop, hr.reliable.of_eq rfl rfl⟩
        exact ⟨halone.follows hfollows (halone.reliable.tellCallbacks _ _ _), rfl⟩
      have hepochs := epochs_course m horizon data hsetup haccelerator
        (setup.config.maxEpochs - r.currentEpoch) {} hbegun
      rw [FitTally.map_after_zero] at hepochs
      refine Eq.trans ?_ hepochs
      rw [run_eq hcheck rfl]
      rcases (epochs setup (m.batchLoop β) horizon data
        (setup.config.maxEpochs - r.currentEpoch) {}).runOn
          (begun setup (r.worker.withWindow setup.config.accumulateGradBatches) r) with
        ⟨_ | _ | _, r₁⟩ <;> rfl

theorem epochEnd?_returns {L : Nat} (hlimit : setup.config.limitTrainBatches = .batches L)
    (hhorizon : L < horizon) (hresolves : Resolves setup.config data) (epoch : Nat) (p : Progress) :
    ∃ ended, setup.config.epochEnd? m horizon data epoch p = .ok (some ended) := by
  obtain ⟨N, K, hN, hK⟩ := hresolves epoch
  have hcounts : setup.config.counts? (data epoch).knownLength = .ok (N, K) := by
    rw [Config.counts?, hN]
    dsimp only
    rw [hK]
    rfl
  obtain ⟨limit, rfl, hle⟩ : ∃ limit, N = .finite limit ∧ limit ≤ L := by
    rw [hlimit] at hN
    cases hlength : (data epoch).knownLength with
    | none =>
        rw [hlength] at hN
        cases hN
        exact ⟨L, rfl, Nat.le_refl L⟩
    | some length =>
        rw [hlength] at hN
        cases hN
        exact ⟨min L length, rfl, Nat.min_le_left L length⟩
  have hends := EpochCourse.ends_isSome (c := ⟨data epoch, .finite limit,
    max setup.config.accumulateGradBatches 1, m.stopEpochAt, setup.config.maxSteps⟩) (p := p)
    rfl (Nat.zero_le limit) (by omega : limit < 0 + horizon)
  obtain ⟨ended, hended⟩ := Option.isSome_iff_exists.1 hends
  exact ⟨ended, by rw [Config.epochEnd?, hcounts]; exact congrArg Except.ok hended⟩

def newRun (m : SyntheticModel) (t : Trainer W β) (progress : Progress := {})
    (currentEpoch : Nat := 0) : FitRun SyntheticWorker W β :=
  { trainer := t, worker := .ofModel m, progress, currentEpoch }

/-- What a run comes to that is interrupted after `k` epochs and taken up by one with another trainer
and another batch loop, from the counters where the first one ended. -/
def interrupted (setup : Setup W β) (m : SyntheticModel) (horizon : Nat) (data : Nat → Batches β)
    (k n : Nat) (t₁ t₂ : Trainer W β) : Except Error (Option FitTally) :=
  FitTally.takenUp
    (tally ((run (setup.upTo k) (m.batchLoop β) horizon data).runOn (newRun m t₁))) fun first =>
      tally ((run (setup.upTo n) (m.batchLoop β) horizon data).runOn
        (newRun m t₂ first.progress first.currentEpoch))

theorem of_tally {ended : Except Error (Option FitResult) × FitRun σ W β} {t : FitTally}
    (h : tally ended = .ok (some t)) :
    ∃ fit r, ended = (.ok (some fit), r) ∧
      t = ⟨fit.epochsCompleted, fit.progress, r.currentEpoch, fit.stopReason⟩ := by
  rcases ended with ⟨_ | _ | fit, r⟩
  · cases h
  · cases h
  · cases h
    exact ⟨fit, r, rfl, rfl⟩

theorem run_progress {loop : BatchLoop σ β} {r r' : FitRun σ W β} {fit : FitResult}
    (h : (run setup loop horizon data).runOn r = (.ok (some fit), r')) :
    r'.progress = fit.progress := by
  obtain ⟨worker, r₁, reason, completed, -, -, rfl, -, hprogress⟩ := run_returns h
  exact hprogress.symm

/-- An interruption does not show in the counters. A run of at most `k` epochs, taken up from where it
ended by a new run of at most `n`, comes to what one run of at most `n` epochs comes to: it ends with
the same counters, in the same epoch and for the same reason, and the epochs that the two complete
add up; and it fails just where the one run fails. None of them fails, or goes on beyond the horizon,
if the settings pass their check and fit the data, and their limit of the batches is below the
horizon. -/
theorem run_resumed {k n : Nat} {t t₁ t₂ : Trainer W β} (hk : k ≤ n)
    (hleast : setup.config.minEpochs ≤ k) (hsetup : setup.Reliable)
    (haccelerator : setup.accelerator = {}) (ht : t.Alone) (ht₁ : t₁.Alone) (ht₂ : t₂.Alone) :
    interrupted setup m horizon data k n t₁ t₂ =
        tally ((run (setup.upTo n) (m.batchLoop β) horizon data).runOn (newRun m t)) ∧
      (∀ L, setup.config.limitTrainBatches = .batches L → L < horizon →
        (setup.upTo n).config.check = .ok () → Resolves setup.config data →
        ∃ first r₁ second r₂ whole r',
          (run (setup.upTo k) (m.batchLoop β) horizon data).runOn (newRun m t₁) =
            (.ok (some first), r₁) ∧
          (run (setup.upTo n) (m.batchLoop β) horizon data).runOn
            (newRun m t₂ r₁.progress r₁.currentEpoch) = (.ok (some second), r₂) ∧
          (run (setup.upTo n) (m.batchLoop β) horizon data).runOn (newRun m t) =
            (.ok (some whole), r') ∧
          r₂.progress = r'.progress ∧ r₂.currentEpoch = r'.currentEpoch ∧
          second.stopReason = whole.stopReason ∧
          first.epochsCompleted + second.epochsCompleted = whole.epochsCompleted) := by
  have hcourse (bound : Nat) {r : FitRun SyntheticWorker W β} (hr : r.trainer.Alone) :=
    run_course m horizon data (hsetup.upTo bound) haccelerator hr
  have hcheck : (setup.upTo k).config.check = (setup.upTo n).config.check :=
    Config.check_upTo hleast hk
  have hsame : interrupted setup m horizon data k n t₁ t₂ =
      tally ((run (setup.upTo n) (m.batchLoop β) horizon data).runOn (newRun m t)) := by
    have hsecond (first : FitTally) :=
      hcourse n (r := newRun m t₂ first.progress first.currentEpoch) ht₂
    simp only [interrupted, hsecond]
    rw [hcourse k ht₁, hcourse n ht, hcheck]
    cases (setup.upTo n).config.check with
    | error e => rfl
    | ok _ => exact (itinerary_split hk 0 {}).symm
  refine ⟨hsame, ?_⟩
  intro L hlimit hhorizon hfits hresolves
  have hends (epoch : Nat) (p : Progress) :
      ∃ ended, (setup.upTo n).config.epochEnd? m horizon data epoch p = .ok (some ended) :=
    epochEnd?_returns hlimit hhorizon hresolves epoch p
  obtain ⟨total, htotal⟩ := itinerary_returns hends n 0 {}
  have hwhole : tally ((run (setup.upTo n) (m.batchLoop β) horizon data).runOn (newRun m t)) =
      .ok (some total) := by
    rw [hcourse n ht, hfits]
    exact htotal
  obtain ⟨tally₁, tally₂, hfirst, hsecond, rfl⟩ := FitTally.of_takenUp (hsame.trans hwhole)
  obtain ⟨whole, r', hrun, htally⟩ := of_tally hwhole
  obtain ⟨first, r₁, hrun₁, rfl⟩ := of_tally hfirst
  obtain ⟨second, r₂, hrun₂, rfl⟩ := of_tally hsecond
  rw [← run_progress hrun₁] at hrun₂
  obtain ⟨hepochs, hprogress, hcurrent, hreason⟩ := FitTally.mk.inj htally
  refine ⟨first, r₁, second, r₂, whole, r', hrun₁, hrun₂, hrun, ?_, hcurrent, hreason, hepochs⟩
  rw [run_progress hrun₂, run_progress hrun]
  exact hprogress

def sixSteps : Setup Unit Unit :=
  { config :=
      { maxSteps := some 6, limitTrainBatches := .batches 5, valCheckInterval := .batches 1
        accumulateGradBatches := 2 } }

def growing (epoch : Nat) : Batches Unit := .exact (epoch + 3) fun _ => ()

/-- The bound of the steps is reached in the first epoch after the interruption. -/
theorem run_resumed_sixSteps :
    ∃ first r₁ second r₂,
      (run (sixSteps.upTo 2) (SyntheticModel.batchLoop {} Unit) 6 growing).runOn
        (newRun {} (.ofSetup sixSteps ())) = (.ok (some first), r₁) ∧
      (run (sixSteps.upTo 4) (SyntheticModel.batchLoop {} Unit) 6 growing).runOn
        (newRun {} (.ofSetup sixSteps ()) r₁.progress r₁.currentEpoch) =
          (.ok (some second), r₂) ∧
      first.epochsCompleted + second.epochsCompleted = 3 ∧ r₂.progress = ⟨6, 11⟩ ∧
      second.stopReason = .maxSteps := by
  have hsetup : sixSteps.Reliable :=
    { model := ModelHooks.reliable_default
      respond := fun _ world => ⟨(), world, rfl⟩
      evaluator := nofun }
  have halone : (Trainer.ofSetup sixSteps ()).Alone := ⟨rfl, rfl, nofun, nofun⟩
  have hresolves : Resolves sixSteps.config growing := by
    intro epoch
    refine ⟨.finite (min 5 (epoch + 3)), .finite 1, ?_, ?_⟩
    · have hlength : (growing epoch).knownLength = some (epoch + 3) := if_pos rfl
      rw [hlength]
      rfl
    · exact if_neg (by omega)
  obtain ⟨-, hreturns⟩ := @run_resumed Unit Unit sixSteps {} 6 growing 2 4 _ _ _ (by decide)
    (by decide) hsetup rfl halone halone halone
  obtain ⟨first, r₁, second, r₂, whole, r', hrun₁, hrun₂, hrun, hprogress, -, hreason, hepochs⟩ :=
    hreturns 5 rfl (by decide) rfl hresolves
  have htally : tally ((run (sixSteps.upTo 4) (SyntheticModel.batchLoop {} Unit) 6 growing).runOn
      (newRun {} (.ofSetup sixSteps ()))) = .ok (some ⟨3, ⟨6, 11⟩, 3, .maxSteps⟩) :=
    (run_course _ _ _ (hsetup.upTo 4) rfl halone).trans (by rfl)
  rw [hrun] at htally
  obtain ⟨hthree, htotal, -, hbound⟩ :=
    FitTally.mk.inj (Option.some.inj (Except.ok.inj htally))
  exact ⟨first, r₁, second, r₂, hrun₁, hrun₂, hepochs.trans hthree,
    (hprogress.trans (run_progress hrun)).trans htotal, hreason.trans hbound⟩

end

end FitStep

end TrainingLoop
