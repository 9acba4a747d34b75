import Mathlib.Data.ENat.Lattice
import TrainingLoop.Proofs.Output.Kept
import TrainingLoop.Proofs.Run.EpochMetrics
/-!
# The batches that an epoch consumes

An epoch can end in four ways: its limit is reached, the batch just pulled was the last one, there
is none at all, or the batch loop asks for the end. `Consumes` is what holds after a number of
completed batches, whichever way it will be, and `run_consumes` says which batches an epoch has
completed in the end.
-/

namespace TrainingLoop

variable {σ W β : Type}

/-! ## Sizes -/

/-- A count as a number, where data without a length have the greatest one. -/
def BatchCount.size : BatchCount → ℕ∞
  | finite n => n
  | infinite => ⊤

theorem BatchCount.reachedBy_iff {N : BatchCount} {m : ℕ} : N.reachedBy m = true ↔ N.size ≤ m := by
  cases N <;> simp [reachedBy, size]

namespace Batches

variable {B : Batches β} {i : ℕ}

def size (B : Batches β) : ℕ∞ :=
  match B.length with
  | some n => n
  | none => ⊤

def handed (B : Batches β) (i : ℕ) : Handed β := ⟨i, B.item i, B.length == some (i + 1)⟩

theorem get?_eq_none_iff_size : B.get? i = none ↔ B.size ≤ i := by
  rw [get?_eq_none_iff, size]
  cases B.length <;> simp

theorem get?_eq_some {batch : β} (h : B.get? i = some batch) :
    batch = B.item i ∧ (i : ℕ∞) < B.size := by
  refine ⟨?_, lt_of_not_ge fun hle => ?_⟩
  · unfold get? at h
    split at h
    · exact (Option.some.inj h).symm
    · split at h
      · exact (Option.some.inj h).symm
      · cases h
  · rw [get?_eq_none_iff_size.2 hle] at h
    cases h

theorem isNone_get?_succ (h : (i : ℕ∞) < B.size) :
    (B.get? (i + 1)).isNone = (B.length == some (i + 1)) := by
  unfold get?
  unfold size at h
  cases hlength : B.length with
  | none => rfl
  | some n =>
      have hlt : i < n := by simpa [hlength] using h
      by_cases hlast : n = i + 1
      · simp [hlast]
      · have hbehind : i + 1 < n := by omega
        simp [hlast, hbehind]

end Batches

/-! ## The batch loop on its own -/

namespace BatchLoop

variable (loop : BatchLoop σ β) (B : Batches β) (worker : σ)

def through : ℕ → σ
  | 0 => worker
  | i + 1 => ((loop.run (B.item i) i 0).runOn (through i)).2

def outputAt (i : ℕ) : Except Error BatchOutput :=
  ((loop.run (B.item i) i 0).runOn (loop.through B worker i)).1

def resultsAt (i : ℕ) : BatchResults :=
  match loop.outputAt B worker i with
  | .ok output => output.results
  | .error _ => []

def outputsAt (i : ℕ) : Processed := loop.outputs (B.handed i) 0 (loop.through B worker i)

def SignalsAt (i : ℕ) : Prop :=
  ∃ output, loop.outputAt B worker i = .ok output ∧ output.stopsEpoch = true

/-- The first index at which the batch loop asks to end the epoch, as far as there are batches. It
is `⊤` if there is none. -/
structure FirstSignal (j : ℕ∞) : Prop where
  before : ∀ i : ℕ, (i : ℕ∞) < j → (i : ℕ∞) < B.size → ¬ loop.SignalsAt B worker i
  signals : ∀ i : ℕ, j = i → (i : ℕ∞) < B.size → loop.SignalsAt B worker i

end BatchLoop

namespace Trace

def completedAt (setup : Setup W β) (loop : BatchLoop σ β) (B : Batches β) (r : EpochRun σ W β)
    (i : ℕ) : Language (RunEvent β) :=
  ⨆ (globalStep : ℕ) (steps : Bool),
    trained setup r.trainer.callbacks.length ⟨globalStep, r.progress.totalBatches + i + 1⟩
        (B.handed i) 0 (loop.outputsAt B r.worker i) *
      upkeep r.trainer.callbacks.length ⟨globalStep, r.progress.totalBatches + i + 1⟩ steps

/-- The events of the first batches, all completed, in their order. -/
def consumed (setup : Setup W β) (loop : BatchLoop σ β) (B : Batches β) (r : EpochRun σ W β)
    (m : ℕ) : Language (RunEvent β) :=
  ((List.range m).map (completedAt setup loop B r)).prod

end Trace

/-- The feed of an epoch that has come to `r`, after a further batch was asked for, if one is. -/
def EpochRun.lastFeed (loop : BatchLoop σ β) (r : EpochRun σ W β) (feed : Feed β) : Feed β :=
  if r.isDone loop then feed else feed.next.2

namespace EpochStep

open Trainer Stateful Trace

variable {setup : Setup W β} {loop : BatchLoop σ β} {B : Batches β} {m : ℕ}
  {r r₀ r₁ r₂ : EpochRun σ W β} {kept more : KeptOutputs}

structure Underway (r r₀ : EpochRun σ W β) : Prop where
  limit : r₀.trainer.state.trainingBatches = r.trainer.state.trainingBatches
  callbacks : r₀.trainer.callbacks.length = r.trainer.callbacks.length
  bound : r₀.counters.maxSteps = r.counters.maxSteps
  reduces : r₀.modelReduces = r.modelReduces
  unskipped : r₀.counters.skipRemaining = false
  dataloader : r₀.counters.dataloaderIndex = 0

/-- The epoch `r₀` has come from `r` through the first `m` batches, all completed. -/
structure Consumes (setup : Setup W β) (loop : BatchLoop σ β) (B : Batches β) (r : EpochRun σ W β)
    (m : ℕ) (r₀ : EpochRun σ W β) (kept : KeptOutputs) : Prop
    extends r₀.AtBatch B m, Underway r r₀ where
  ran : (batches setup loop m .empty).runOn r = (.ok none, r₀)
  worker : r₀.worker = loop.through B r.worker m
  proceeds : ∀ i < m, ¬ loop.SignalsAt B r.worker i
  withinLimit : (m : ℕ∞) ≤ r.trainer.state.trainingBatches.size
  fresh : m = 0 → r₀.counters.isLastBatch = false
  total : r₀.progress.totalBatches = r.progress.totalBatches + m
  kept : kept = .ofBatches r.modelReduces ((List.range m).map (loop.resultsAt B r.worker))
  events : ∃ new, r₀.trainer.events.toList = r.trainer.events.toList ++ new ∧
    new ∈ consumed setup loop B r m
  metrics : (((List.range m).map (loop.outputsAt B r.worker)).foldl MetricsLog.takeIn
    r.trainer.log).Agrees r₀.trainer.log

/-! ## One batch -/

theorem handed_of_at (hat : r.AtBatch B m) {feed feed' : Feed β} {handed : Handed β}
    (hphase : r.phase = .running feed) (hnext : feed.next = (some handed, feed')) :
    handed = B.handed m ∧ (m : ℕ∞) < B.size ∧ Feed.At B (m + 1) feed' := by
  obtain ⟨f, hf, hfeed⟩ := hat.feed
  obtain rfl : feed = f := EpochPhase.running.inj (hphase.symm.trans hf)
  obtain ⟨hindex, hget, hisLast, hfeed'⟩ := Feed.of_next hfeed hnext
  obtain ⟨hbatch, hlt⟩ := Batches.get?_eq_some hget
  rw [Batches.isNone_get?_succ hlt] at hisLast
  refine ⟨?_, hlt, hfeed'⟩
  obtain ⟨index, batch, isLast⟩ := handed
  simp only at hindex hbatch hisLast
  rw [hindex, hbatch, hisLast, Batches.handed]

theorem batches_completed {k : ℕ} (hgoes : r.isDone loop = false)
    (hadvance : (advance setup loop).runOn r = (.ok (.completed more), r₁))
    (hend : (advanceEnd setup loop).runOn r₁ = (.ok (), r₂)) :
    (batches setup loop (k + 1) kept).runOn r =
      (batches setup loop k (kept.extend more)).runOn r₂ := by
  rw [batches, runOn_get_bind, if_neg (by simp [hgoes]), runOn_bind, hadvance]
  dsimp only
  rw [runOn_bind, hend]

theorem batches_snoc {k : ℕ} (h : (batches setup loop k kept).runOn r = (.ok none, r₀))
    (hgoes : r₀.isDone loop = false)
    (hadvance : (advance setup loop).runOn r₀ = (.ok (.completed more), r₁))
    (hend : (advanceEnd setup loop).runOn r₁ = (.ok (), r₂)) :
    (batches setup loop (k + 1) kept).runOn r = (.ok none, r₂) := by
  induction k generalizing r kept with
  | zero =>
      cases h
      rw [batches_completed hgoes hadvance hend]
      rfl
  | succ k ih =>
      rw [batches, runOn_get_bind] at h
      split at h
      · cases h
      · rename_i hgoes'
        obtain ⟨outcome, r₃, hfirst, hrest⟩ := bind_ok h
        cases outcome with
        | skipped => cases hrest
        | exhausted => cases hrest
        | completed first =>
            obtain ⟨_, r₄, hended, hloop⟩ := bind_ok hrest
            rw [batches_completed (by simpa using hgoes') hfirst hended]
            exact ih hloop

theorem consumed_succ : consumed setup loop B r (m + 1) =
    consumed setup loop B r m * completedAt setup loop B r m := by
  rw [consumed, List.range_succ, List.map_append, List.prod_append, List.map_singleton,
    List.prod_singleton, consumed]

theorem lt_limit_of_goes (hgoes : r.isDone loop = false) :
    (r.counters.batchesSeen : ℕ∞) < r.trainer.state.trainingBatches.size := by
  unfold BatchCount.size
  split
  · rename_i n hlimit
    exact Nat.cast_lt.2 (lt_of_not_done hgoes hlimit)
  · exact ENat.natCast_lt_top _

theorem outputAt_of_run {worker worker' : σ} {output : BatchOutput}
    (hrun : (loop.run (B.handed m).batch (B.handed m).index 0).runOn (loop.through B worker m) =
      (.ok output, worker')) :
    loop.outputAt B worker m = .ok output ∧ worker' = loop.through B worker (m + 1) :=
  ⟨congrArg Prod.fst hrun, (congrArg Prod.snd hrun).symm⟩

theorem Underway.step (h : Underway r r₀)
    (hadvance : (advance setup loop).runOn r₀ = (.ok (.completed more), r₁))
    (hend : (advanceEnd setup loop).runOn r₁ = (.ok (), r₂)) : Underway r r₂ := by
  have hfollows := (advance_follows (advance_ok hadvance)).trans (advanceEnd_follows hend)
  have hlimit := hfollows.trainingBatches.trans h.limit
  have hcallbacks := hfollows.callbacks.trans h.callbacks
  obtain ⟨t₁, t₂, globalStep, -, -, -, -, rfl⟩ := advanceEnd_parts hend
  cases advance_ok hadvance with
  | completed hphase hnext hrun hproceeds htrainer =>
      exact ⟨hlimit, hcallbacks, h.bound, h.reduces, h.unskipped, h.dataloader⟩

namespace Consumes

theorem completed (h : Consumes setup loop B r m r₀ kept)
    (hadvance : (advance setup loop).runOn r₀ = (.ok (.completed more), r₁))
    (hend : (advanceEnd setup loop).runOn r₁ = (.ok (), r₂)) :
    ∃ output, loop.outputAt B r.worker m = .ok output ∧ output.stopsEpoch = false ∧
      more = (KeptOutputs.track r.modelReduces (.ofOptimizers output.results.length)
        output.results).1 ∧
      r₂.worker = loop.through B r.worker (m + 1) ∧
      r₂.progress.totalBatches = r.progress.totalBatches + (m + 1) := by
  obtain ⟨t₁, t₂, globalStep, -, -, -, -, rfl⟩ := advanceEnd_parts hend
  cases advance_ok hadvance with
  | @completed feed feed' handed output worker trainer hphase hnext hrun hproceeds htrainer =>
      obtain ⟨rfl, -, -⟩ := handed_of_at h.toAtBatch hphase hnext
      rw [h.dataloader, h.worker] at hrun
      obtain ⟨houtput, hworker⟩ := outputAt_of_run hrun
      have htotal : r₀.progress.totalBatches + 1 = r.progress.totalBatches + (m + 1) := by
        rw [h.total, Nat.add_assoc]
      exact ⟨output, houtput, hproceeds, by rw [h.reduces], hworker, htotal⟩

theorem traced (h : Consumes setup loop B r m r₀ kept)
    (hadvance : (advance setup loop).runOn r₀ = (.ok (.completed more), r₁))
    (hend : (advanceEnd setup loop).runOn r₁ = (.ok (), r₂)) :
    (∃ new, r₂.trainer.events.toList = r₀.trainer.events.toList ++ new ∧
      new ∈ completedAt setup loop B r m) ∧
      (r₀.trainer.log.takeIn (loop.outputsAt B r.worker m)).Agrees r₂.trainer.log := by
  obtain ⟨feed, hphase, -⟩ := h.feed
  obtain ⟨-, handed, feed', new, hnext, hnew, hword⟩ :=
    batch_traced hphase hadvance hend h.callbacks
  obtain ⟨rfl, -, -⟩ := handed_of_at h.toAtBatch hphase hnext
  have hmetrics := (advance_metrics hadvance hphase hnext).trans (advanceEnd_sameMetrics hend)
  have hpull : r₀.progress.pull =
      ⟨r₀.progress.globalStep, r.progress.totalBatches + m + 1⟩ := by
    rw [Progress.pull, h.total]
  rw [h.dataloader, h.worker] at hword hmetrics
  rw [hpull] at hword
  refine ⟨⟨new, hnew, ?_⟩, hmetrics⟩
  simp only [completedAt, Language.mem_iSup]
  exact ⟨_, _, hword⟩

theorem step (h : Consumes setup loop B r m r₀ kept) (hgoes : r₀.isDone loop = false)
    (hadvance : (advance setup loop).runOn r₀ = (.ok (.completed more), r₁))
    (hend : (advanceEnd setup loop).runOn r₁ = (.ok (), r₂)) :
    Consumes setup loop B r (m + 1) r₂ (kept.extend more) := by
  obtain ⟨output, houtput, hproceeds, hmore, hworker, htotal⟩ := h.completed hadvance hend
  obtain ⟨⟨new, hnew, hword⟩, hmetrics⟩ := h.traced hadvance hend
  obtain ⟨before, hbefore, hconsumed⟩ := h.events
  have hbelow := lt_limit_of_goes hgoes
  rw [h.seen, h.limit] at hbelow
  have hresults : loop.resultsAt B r.worker m = output.results := by
    rw [BatchLoop.resultsAt, houtput]
  refine
    { toAtBatch := step_at h.toAtBatch hadvance hend
      toUnderway := h.toUnderway.step hadvance hend
      ran := batches_snoc h.ran hgoes hadvance hend
      worker := hworker
      proceeds := ?proceeds
      withinLimit := ?within
      fresh := nofun
      total := htotal
      kept := ?kept
      events := ⟨before ++ new, events_trans hbefore hnew, ?events⟩
      metrics := ?metrics }
  case proceeds =>
    intro i hi
    rcases Nat.lt_succ_iff_lt_or_eq.1 hi with hlt | rfl
    · exact h.proceeds i hlt
    · rintro ⟨output', houtput', hstops⟩
      obtain rfl : output' = output := Except.ok.inj (houtput'.symm.trans houtput)
      rw [hproceeds] at hstops
      cases hstops
  case within =>
    rw [Nat.cast_succ]
    exact Order.add_one_le_of_lt hbelow
  case kept =>
    rw [h.kept, hmore, List.range_succ, List.map_append, KeptOutputs.ofBatches,
      KeptOutputs.ofBatches, List.foldl_append, List.map_singleton, hresults]
    rfl
  case events =>
    rw [consumed_succ]
    exact Language.append_mem_mul hconsumed hword
  case metrics =>
    rw [List.range_succ, List.map_append, List.foldl_append]
    exact (h.metrics.takeIn _).trans hmetrics

end Consumes

/-! ## The end of the batches -/

/-- Of the batches pulled in an epoch, `m` were completed: all of them, which reach the limit or the
end of the data, or all but one on which the batch loop asked for the end. -/
inductive Consumption (N D j : ℕ∞) (m : ℕ) : ℕ → Prop
  | whole (hends : min N D = m) (hsignal : (m : ℕ∞) ≤ j) : Consumption N D j m m
  | signalled (hlimit : (m : ℕ∞) < N) (hsize : (m : ℕ∞) < D) (hsignal : j = m) :
      Consumption N D j m (m + 1)

namespace Consumption

variable {N D j : ℕ∞} {pulled : ℕ}

theorem completed_eq (h : Consumption N D j m pulled) : (m : ℕ∞) = min N (min D j) := by
  cases h with
  | whole hends hsignal => rw [← min_assoc, hends, min_eq_left hsignal]
  | signalled hlimit hsize hsignal =>
      rw [hsignal, min_eq_right hsize.le, min_eq_right hlimit.le]

theorem pulled_eq (h : Consumption N D j m pulled) : (pulled : ℕ∞) = min N (min D (j + 1)) := by
  cases h with
  | whole hends hsignal =>
      have hnext : (m : ℕ∞) ≤ j + 1 := hsignal.trans le_self_add
      rw [← min_assoc, hends, min_eq_left hnext]
  | signalled hlimit hsize hsignal =>
      rw [hsignal, min_eq_right (Order.add_one_le_of_lt hsize),
        min_eq_right (Order.add_one_le_of_lt hlimit), Nat.cast_succ]

end Consumption

structure Concludes (loop : BatchLoop σ β) (B : Batches β) (r : EpochRun σ W β) (j : ℕ∞) (m : ℕ)
    (r₀ r₁ : EpochRun σ W β) : Prop where
  pulled : Consumption r.trainer.state.trainingBatches.size B.size j m r₁.counters.batchesSeen
  total : r₁.progress.totalBatches = r.progress.totalBatches + r₁.counters.batchesSeen
  events : ∃ last, r₁.trainer.events.toList = r₀.trainer.events.toList ++ last ∧
    last ∈ if r₁.counters.batchesSeen = m then 1 else skipped (B.handed m) 0
  metrics : r₀.trainer.SameMetrics r₁.trainer
  feed : ∃ feed, r₀.phase = .running feed ∧
    (r₀.lastFeed loop feed).asked ≤ r₁.counters.batchesSeen + 1

namespace Consumes

variable {j : ℕ∞}

theorem le_size (h : Consumes setup loop B r m r₀ kept) : (m : ℕ∞) ≤ B.size := by
  unfold Batches.size
  split
  · rename_i n hlength
    exact Nat.cast_le.2 (h.within n hlength)
  · exact le_top

theorem le_signal (h : Consumes setup loop B r m r₀ kept)
    (hsignal : loop.FirstSignal B r.worker j) : (m : ℕ∞) ≤ j := by
  by_contra hlt
  rw [not_le] at hlt
  obtain ⟨i, rfl⟩ := ENat.ne_top_iff_exists.1 hlt.ne_top
  have hthere : (i : ℕ∞) < B.size := hlt.trans_le h.le_size
  exact h.proceeds i (Nat.cast_lt.1 hlt) (hsignal.signals i rfl hthere)

/-- Unless a stop is requested or the steps are bounded, an epoch is done only at its limit or at
the end of its data. -/
theorem of_done (h : Consumes setup loop B r m r₀ kept) (hbound : r.counters.maxSteps = none)
    (hunasked : r₀.trainer.state.shouldStop = false) (hdone : r₀.isDone loop = true) :
    min r.trainer.state.trainingBatches.size B.size = m := by
  obtain ⟨feed, hphase, -⟩ := h.feed
  have hall : r₀.allBatchesSeen = true := by
    simpa [EpochRun.isDone, hphase, EpochPhase.isDone, h.unskipped, hunasked,
      EpochCounters.maxStepsReached, h.bound, hbound] using hdone
  rcases Bool.or_eq_true_iff.1 hall with hreached | hlast
  · rw [BatchCount.reachedBy_iff, h.limit, h.seen] at hreached
    have hlimit := le_antisymm hreached h.withinLimit
    rw [hlimit, min_eq_left h.le_size]
  · have hpos : 0 < m := by
      apply Nat.pos_of_ne_zero
      intro hzero
      rw [h.fresh hzero] at hlast
      cases hlast
    obtain ⟨-, hisLast⟩ := h.last hpos
    rw [hlast, eq_comm, Option.isNone_iff_eq_none, Batches.get?_eq_none_iff_size] at hisLast
    have hsize := le_antisymm hisLast h.le_size
    rw [hsize, min_eq_right h.withinLimit]

theorem of_exhausted (h : Consumes setup loop B r m r₀ kept) (hnone : B.get? m = none) :
    min r.trainer.state.trainingBatches.size B.size = m := by
  have hsize := le_antisymm (Batches.get?_eq_none_iff_size.1 hnone) h.le_size
  rw [hsize, min_eq_right h.withinLimit]

theorem concludes_of_done (h : Consumes setup loop B r m r₀ kept) (hbound : r.counters.maxSteps = none)
    (hunasked : r₀.trainer.state.shouldStop = false) (hdone : r₀.isDone loop = true)
    (hsignal : loop.FirstSignal B r.worker j) : Concludes loop B r j m r₀ r₀ := by
  obtain ⟨feed, hphase, hfeed⟩ := h.feed
  refine ⟨?_, by rw [h.total, h.seen], ⟨[], (List.append_nil _).symm, ?_⟩, .refl _, feed, hphase, ?_⟩
  · rw [h.seen]
    exact .whole (h.of_done hbound hunasked hdone) (h.le_signal hsignal)
  · rw [if_pos h.seen]
    exact Language.nil_mem_one
  · rw [EpochRun.lastFeed, if_pos hdone, h.seen]
    exact Feed.asked_le hfeed

theorem concludes_of_exhausted (h : Consumes setup loop B r m r₀ kept) (hgoes : r₀.isDone loop = false)
    (hexhausted : (advance setup loop).runOn r₀ = (.ok .exhausted, r₁))
    (hsignal : loop.FirstSignal B r.worker j) : Concludes loop B r j m r₀ r₁ := by
  obtain ⟨feed, hphase, hfeed⟩ := h.feed
  cases advance_ok hexhausted with
  | @exhausted feed' hphase' hnext =>
      obtain rfl : feed' = feed := EpochPhase.running.inj (hphase'.symm.trans hphase)
      have hnone : B.get? m = none := Feed.eq_none_of_next hfeed hnext
      have hseen : { r₀ with phase := .done }.counters.batchesSeen = m := h.seen
      refine ⟨?_, ?_, ⟨[], (List.append_nil _).symm, ?_⟩, .refl _, feed', hphase, ?_⟩
      · rw [hseen]
        exact .whole (h.of_exhausted hnone) (h.le_signal hsignal)
      · rw [hseen]
        exact h.total
      · rw [if_pos hseen]
        exact Language.nil_mem_one
      · rw [EpochRun.lastFeed, if_neg (by simp [hgoes]), Feed.asked_of_none hfeed hnone, hseen]

/-- The batch on which the batch loop asks for the end is pulled, and nothing else comes of it. -/
theorem concludes_of_skipped (h : Consumes setup loop B r m r₀ kept) (hgoes : r₀.isDone loop = false)
    (hskipped : (advance setup loop).runOn r₀ = (.ok .skipped, r₁))
    (hsignal : loop.FirstSignal B r.worker j) : Concludes loop B r j m r₀ r₁ := by
  obtain ⟨feed, hphase, hfeed⟩ := h.feed
  obtain ⟨handed, feed', hnext⟩ := next_of_advance hskipped hphase nofun
  obtain ⟨rfl, hthere, hfeed'⟩ := handed_of_at h.toAtBatch hphase hnext
  obtain ⟨-, new, hnew, hword⟩ := advance_traced hskipped hphase hnext rfl
  have hmetrics := advance_metrics hskipped hphase hnext
  have hbelow := lt_limit_of_goes hgoes
  rw [h.seen, h.limit] at hbelow
  cases advance_ok hskipped with
  | @skipped _ _ _ output worker trainer hphase' hnext' hrun hstops htrainer =>
      obtain ⟨rfl, -, -⟩ := handed_of_at h.toAtBatch hphase' hnext'
      rw [h.dataloader, h.worker] at hrun
      rw [h.dataloader] at hword
      obtain ⟨houtput, -⟩ := outputAt_of_run hrun
      have hfirst : j = m := by
        refine le_antisymm ?_ (h.le_signal hsignal)
        exact le_of_not_gt fun hlt => hsignal.before m hlt hthere ⟨output, houtput, hstops⟩
      have hseen : r₀.counters.batchesSeen + 1 = m + 1 := by rw [h.seen]
      refine ⟨?_, ?_, ⟨new, hnew, ?_⟩, hmetrics, feed, hphase, ?_⟩
      · change Consumption _ _ _ _ (r₀.counters.batchesSeen + 1)
        rw [hseen]
        exact .signalled hbelow hthere hfirst
      · change r₀.progress.totalBatches + 1 = _ + (r₀.counters.batchesSeen + 1)
        rw [h.total, hseen, Nat.add_assoc]
      · change new ∈ if r₀.counters.batchesSeen + 1 = m then 1 else _
        rw [if_neg (by omega)]
        exact hword
      · change _ ≤ r₀.counters.batchesSeen + 1 + 1
        rw [EpochRun.lastFeed, if_neg (by simp [hgoes]), hnext, hseen]
        exact Feed.asked_le hfeed'

theorem concludes (h : Consumes setup loop B r m r₀ kept) (hends : Ends setup loop r₀ r₁)
    (hbound : r.counters.maxSteps = none) (hunasked : r₁.trainer.state.shouldStop = false)
    (hsignal : loop.FirstSignal B r.worker j) : Concludes loop B r j m r₀ r₁ := by
  cases hends with
  | done hdone => exact h.concludes_of_done hbound hunasked hdone hsignal
  | skipped hgoes hskipped => exact h.concludes_of_skipped hgoes hskipped hsignal
  | exhausted hgoes hexhausted => exact h.concludes_of_exhausted hgoes hexhausted hsignal

end Consumes

/-! ## The whole epoch -/

theorem consumes_start (setup : Setup W β) (loop : BatchLoop σ β) (data : Batches β)
    (r : EpochRun σ W β) :
    Consumes setup loop (setup.accelerator.prepare data r.trainer.world).1 (r.start setup data) 0
      (r.start setup data) .empty :=
  { toAtBatch := start_at setup data r
    toUnderway := ⟨rfl, rfl, rfl, rfl, rfl, rfl⟩
    ran := rfl
    worker := rfl
    proceeds := fun i hi => absurd hi (Nat.not_lt_zero i)
    withinLimit := bot_le
    fresh := fun _ => rfl
    total := rfl
    kept := rfl
    events := ⟨[], (List.append_nil _).symm, Language.nil_mem_one⟩
    metrics := .refl _ }

/-- An epoch consumes the right batches, if its steps are not bounded and no stop is requested. Of
its data, `B`, it completes as many batches as its limit, their number and the first signal of the
batch loop allow: the events are those of these batches, in order, and of the one that signals; the
outputs and the averages are made of these batches alone. The data are asked for one batch more than
were pulled at most. Only where all three have no end, or one beyond the horizon, is there no
result. -/
theorem run_consumes {horizon : ℕ} {data : Batches β} {j : ℕ∞}
    {result : Except Error (Option Processed)}
    (h : (run setup loop horizon data).runOn r = (result, r₂))
    (hprepared : (setup.accelerator.prepare data r.trainer.world).1 = B)
    (hsignal : loop.FirstSignal B r.worker j) (hbound : r.counters.maxSteps = none)
    (hunasked : r₂.trainer.state.shouldStop = false) :
    (∀ outputs, result = .ok (some outputs) → ∃ m : ℕ,
      (m : ℕ∞) = min r.trainer.state.trainingBatches.size (min B.size j) ∧
      (r₂.counters.batchesSeen : ℕ∞) =
        min r.trainer.state.trainingBatches.size (min B.size (j + 1)) ∧
      r₂.progress.totalBatches = r.progress.totalBatches + r₂.counters.batchesSeen ∧
      (∃ new, r₂.trainer.events.toList = r.trainer.events.toList ++ new ∧
        new ∈ consumed setup loop B r m *
          ((if r₂.counters.batchesSeen = m then 1 else skipped (B.handed m) 0) *
            epochEnded setup r.trainer.callbacks.length r₂.progress outputs)) ∧
      outputs =
        epochOutputs setup.model.reduces ((List.range m).map (loop.resultsAt B r.worker)) ∧
      (((List.range m).map (loop.outputsAt B r.worker)).foldl MetricsLog.takeIn
        r.trainer.log).closeEpoch.Agrees r₂.trainer.log ∧
      ∃ r₀ feed, (batches setup loop m .empty).runOn (r.start setup data) = (.ok none, r₀) ∧
        r₀.phase = .running feed ∧
        (r₀.lastFeed loop feed).asked ≤ r₂.counters.batchesSeen + 1) ∧
    (result = .ok none →
      (horizon : ℕ∞) ≤ min r.trainer.state.trainingBatches.size (min B.size j)) := by
  subst hprepared
  have hconsumes {result : Except Error (Option KeptOutputs)} {r₁ : EpochRun σ W β}
      (hbatches : (batches setup loop horizon .empty).runOn (r.start setup data) = (result, r₁)) :=
    batches_halt (n := 0) (I := Consumes setup loop _ (r.start setup data))
      (fun _ _ _ _ _ _ => Consumes.step) (consumes_start setup loop data r) hbatches
  refine ⟨?_, ?_⟩
  · rintro outputs rfl
    obtain ⟨kept, r₁, hbatches, hfinish⟩ := run_ok h
    obtain ⟨m, r₀, kept', hconsumed, hhalts, -⟩ := hconsumes hbatches
    cases hhalts with
    | ended hends =>
        obtain ⟨houtputs, trainer, htold, -, rfl⟩ := finish_ok hfinish
        obtain ⟨hpulled, htotal, ⟨last, hlast, hword⟩, hsame, feed, hphase, hasked⟩ :=
          hconsumed.concludes hends hbound (htold.unasked hunasked) hsignal
        obtain ⟨before, hbefore, hcompleted⟩ := hconsumed.events
        have hcallbacks : r₁.trainer.callbacks.length = r.trainer.callbacks.length :=
          (ends_follows hends).callbacks.trans hconsumed.callbacks
        obtain ⟨-, ended, hended, hhooks⟩ :=
          (finish_emits setup kept).of_run hfinish hcallbacks
        have hmetrics := (hconsumed.metrics.trans hsame).closeEpoch.trans (finish_metrics hfinish)
        have hevents := events_trans hbefore (events_trans hlast hended)
        have hall := Language.append_mem_mul hcompleted (Language.append_mem_mul hword hhooks)
        rw [← houtputs] at hall
        rw [hconsumed.kept, KeptOutputs.collapse_of_buckets (KeptOutputs.bucket_ofBatches _ _)]
          at houtputs
        exact ⟨m, hpulled.completed_eq, hpulled.pulled_eq, htotal, ⟨_, hevents, hall⟩, houtputs,
          hmetrics, r₀, feed, hconsumed.ran, hphase, hasked⟩
  · rintro rfl
    obtain ⟨m, r₀, kept, hconsumed, -, hpassed⟩ := hconsumes (run_none h)
    obtain rfl : m = horizon := (hpassed rfl).trans (Nat.zero_add horizon)
    exact le_min hconsumed.withinLimit (le_min hconsumed.le_size (hconsumed.le_signal hsignal))

def quitting : BatchLoop Unit Unit :=
  { run := fun _ index _ => pure (if index = 3 then .stopEpoch else .ofResults [])
    closedWindow := fun _ => true }

theorem quitting_firstSignal (B : Batches Unit) : quitting.FirstSignal B () 3 where
  before i hi _ := by
    rintro ⟨output, houtput, hstops⟩
    have hlt : i < 3 := Nat.cast_lt.1 hi
    obtain rfl : (if i = 3 then .stopEpoch else .ofResults []) = output := Except.ok.inj houtput
    rw [if_neg (by omega)] at hstops
    cases hstops
  signals i hi _ := by
    obtain rfl : 3 = i := Nat.cast_inj.1 hi
    exact ⟨.stopEpoch, rfl, rfl⟩

/-- Of data without an end, in an epoch without a limit, four batches are pulled. -/
theorem run_consumes_endless :
    ∃ (outputs : Processed) (r' : EpochRun Unit Unit Unit),
      (run { config := {} } quitting 4 (.endless fun _ => ())).runOn
        { trainer := .ofSetup { config := {} } (), worker := () } = (.ok (some outputs), r') ∧
      r'.counters.batchesSeen = 4 := by
  let start : EpochRun Unit Unit Unit :=
    { trainer := .ofSetup { config := {} } (), worker := () }
  have hreturns : (returned? (run { config := {} } quitting 4 (.endless fun _ => ()))
      start).isSome = true := by
    decide +kernel
  have hunasked : ((run { config := {} } quitting 4 (.endless fun _ => ())).runOn
      start).2.trainer.state.shouldStop = false := by
    decide +kernel
  obtain ⟨outputs, houtputs⟩ := Option.isSome_iff_exists.1 hreturns
  obtain ⟨r', hrun⟩ := returned?_eq_some houtputs
  rw [hrun] at hunasked
  obtain ⟨m, -, hseen, -⟩ :=
    (run_consumes hrun rfl (quitting_firstSignal _) rfl hunasked).1 outputs rfl
  have hfour : (r'.counters.batchesSeen : ℕ∞) = min ⊤ (min ⊤ (3 + 1)) := hseen
  rw [min_eq_right le_top, min_eq_right le_top] at hfour
  exact ⟨outputs, r', hrun, Nat.cast_inj.1 hfour⟩

end EpochStep

end TrainingLoop
