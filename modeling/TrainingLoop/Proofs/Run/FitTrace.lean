import TrainingLoop.Proofs.Run.EpochTrace
import TrainingLoop.Proofs.Run.Fit
/-!
# The trace of a run

The events of an epoch within a run, from the request for its data to the tick of the epoch
schedules, and those of a whole run (`run_traced`), whether these succeed or not.
-/

namespace TrainingLoop

variable {σ W β : Type}

/-! ## The languages of a run -/

namespace Trace

open Computability

def epochBegun (setup : Setup W β) (n epoch : Nat) (p : Progress) : Language (RunEvent β) :=
  {[.dataRequested epoch]} * called setup n p .trainEpochStart

def epochBegins (setup : Setup W β) (n epoch : Nat) : Language (RunEvent β) :=
  ⨆ p : Progress, epochBegun setup n epoch p

def epochClosed (n : Nat) (p : Progress) : Language (RunEvent β) :=
  (1 + validated n p) * {[.ratesTicked .epoch]}

def epochCloses (n : Nat) : Language (RunEvent β) :=
  ⨆ p : Progress, epochClosed n p

def wholeEpoch (setup : Setup W β) (n epoch : Nat) : Language (RunEvent β) :=
  epochBegins setup n epoch * (epochTrained setup n * epochsEnd setup n * epochCloses n)

def openEpoch (setup : Setup W β) (n epoch : Nat) : Language (RunEvent β) :=
  epochBegins setup n epoch * (completed setup n)∗

def someEpoch (setup : Setup W β) (n : Nat) : Language (RunEvent β) :=
  ⨆ epoch : Fin setup.config.maxEpochs, wholeEpoch setup n epoch

def lastEpoch (setup : Setup W β) (n : Nat) : Language (RunEvent β) :=
  ⨆ epoch : Fin setup.config.maxEpochs, openEpoch setup n epoch

def runBegun (n : Nat) : Language (RunEvent β) :=
  ⨆ (batches : Nat) (p : Progress),
    {[.accumulation batches]} * told n p .trainStart .trainStart

/-- The whole run: its start told once, then epoch after epoch, then its end told once. -/
def wholeRun (setup : Setup W β) (n : Nat) : Language (RunEvent β) :=
  runBegun n * (someEpoch setup n)∗ * ⨆ p : Progress, told n p .trainEnd .trainEnd

theorem le_runBegun (n batches : Nat) (p : Progress) :
    {[.accumulation batches]} * told n p .trainStart .trainStart ≤
      (runBegun n : Language (RunEvent β)) :=
  le_iSup₂ (f := fun (batches : Nat) (p : Progress) =>
    {[.accumulation batches]} * told n p .trainStart .trainStart) batches p

theorem runBegun_nonempty (n : Nat) : ∃ word, word ∈ (runBegun n : Language (RunEvent β)) := by
  obtain ⟨word, hword⟩ := told_nonempty n {} .trainStart .trainStart
  exact ⟨_, le_runBegun n 1 {} (Language.append_mem_mul rfl hword)⟩

theorem le_someEpoch (setup : Setup W β) (n : Nat) {epoch : Nat}
    (h : epoch < setup.config.maxEpochs) : wholeEpoch setup n epoch ≤ someEpoch setup n :=
  le_iSup (fun epoch : Fin setup.config.maxEpochs => wholeEpoch setup n epoch) ⟨epoch, h⟩

theorem le_lastEpoch (setup : Setup W β) (n : Nat) {epoch : Nat}
    (h : epoch < setup.config.maxEpochs) : openEpoch setup n epoch ≤ lastEpoch setup n :=
  le_iSup (fun epoch : Fin setup.config.maxEpochs => openEpoch setup n epoch) ⟨epoch, h⟩

theorem epochCloses_nonempty (n : Nat) : ∃ word, word ∈ (epochCloses n : Language (RunEvent β)) := by
  have hclosed : ∃ word, word ∈ (epochClosed n {} : Language (RunEvent β)) :=
    mul_nonempty (optional_nonempty _) ⟨_, rfl⟩
  obtain ⟨word, hword⟩ := hclosed
  exact ⟨word, le_iSup (epochClosed n) {} hword⟩

theorem epochTrained_nonempty (setup : Setup W β) (n : Nat) :
    ∃ word, word ∈ epochTrained setup n :=
  mul_nonempty ⟨[], Language.nil_mem_kstar _⟩ (optional_nonempty _)

theorem epochRest_nonempty (setup : Setup W β) (n : Nat) :
    ∃ word, word ∈ epochTrained setup n * epochsEnd setup n * epochCloses n :=
  mul_nonempty (mul_nonempty (epochTrained_nonempty _ _) (epochsEnd_nonempty _ _))
    (epochCloses_nonempty _)

end Trace

namespace Only

open Trace Computability

variable {Q : RunEvent β → Prop}

theorem epochBegins (hQ : ∀ event, event.Ordinary → Q event) {epoch : Nat}
    (hasked : Q (.dataRequested epoch)) (setup : Setup W β) (n : Nat) :
    Only Q (epochBegins setup n epoch) :=
  iSup fun p => (single hasked).mul
    ((called setup n p _).mono fun event hquiet => hQ event hquiet.ordinary)

theorem openEpoch (hQ : ∀ event, event.Ordinary → Q event) {epoch : Nat}
    (hasked : Q (.dataRequested epoch)) (setup : Setup W β) (n : Nat) :
    Only Q (openEpoch setup n epoch) :=
  (epochBegins hQ hasked setup n).mul ((completed setup n).mono hQ).kstar

theorem epochClosed (n : Nat) (p : Progress) :
    Only (RunEvent.Quiet p) (epochClosed n p : Language (RunEvent β)) :=
  (validated n p).optional.mul (single trivial)

theorem wholeEpoch (hQ : ∀ event, event.Ordinary → Q event) {epoch : Nat}
    (hasked : Q (.dataRequested epoch)) (setup : Setup W β) (n : Nat) :
    Only Q (wholeEpoch setup n epoch) := by
  have hcloses : Only RunEvent.Ordinary (epochCloses n : Language (RunEvent β)) :=
    iSup fun p => (epochClosed n p).mono fun _ => RunEvent.Quiet.ordinary
  have hrest := ((epochTrained setup n).mul (epochsEnd setup n)).mul hcloses
  exact (epochBegins hQ hasked setup n).mul (hrest.mono hQ)

theorem runBegun (n : Nat) : Only RunEvent.Ordinary (runBegun n : Language (RunEvent β)) :=
  iSup fun _ => iSup fun p =>
    (single trivial).mul ((told n p _ _).mono fun _ => RunEvent.Quiet.ordinary)

variable {setup : Setup W β}

theorem runEpochs (hQ : ∀ event, event.Ordinary → Q event)
    (hasked : ∀ epoch < setup.config.maxEpochs, Q (.dataRequested epoch)) (n : Nat) :
    Only Q (Trace.runBegun n * (someEpoch setup n)∗) := by
  have hepoch : Only Q (someEpoch setup n) :=
    iSup fun epoch => wholeEpoch hQ (hasked epoch epoch.isLt) setup n
  exact ((runBegun n).mono hQ).mul hepoch.kstar

theorem openRun (hQ : ∀ event, event.Ordinary → Q event)
    (hasked : ∀ epoch < setup.config.maxEpochs, Q (.dataRequested epoch)) (n : Nat) :
    Only Q (Trace.runBegun n * (someEpoch setup n)∗ * lastEpoch setup n) := by
  have hlast : Only Q (lastEpoch setup n) :=
    iSup fun epoch => openEpoch hQ (hasked epoch epoch.isLt) setup n
  exact (runEpochs hQ hasked n).mul hlast

theorem wholeRun (hQ : ∀ event, event.Ordinary → Q event)
    (hasked : ∀ epoch < setup.config.maxEpochs, Q (.dataRequested epoch)) (n : Nat) :
    Only Q (wholeRun setup n) := by
  have hend : Only Q (⨆ p : Progress, Trace.told n p .trainEnd .trainEnd) :=
    iSup fun p => (told n p _ _).mono fun event hquiet => hQ event hquiet.ordinary
  exact (runEpochs hQ hasked n).mul hend

end Only

/-! ## The traces of an epoch within a run and of a run -/

namespace FitStep

open Trainer Stateful Trace Computability

variable {n : Nat} {r : FitRun σ W β}

theorem onTrainer_emits {α : Type} {L : Language (RunEvent β)} {action : TrainerStep W β α}
    (h : EmitsAt id n L action r.trainer) :
    EmitsAt FitRun.trainer n L (onTrainer action) r :=
  .onPart (fun _ _ => rfl) h

theorem closeEpoch_emits (setup : Setup W β) (counters : EpochCounters) :
    EmitsAt FitRun.trainer n (epochClosed n r.progress) (closeEpoch setup counters) r := by
  have hevaluate : EmitsAt FitRun.trainer n (1 + validated n r.progress)
      (evaluateEpoch setup counters) r := by
    refine .get_bind ?_
    split
    · exact onTrainer_emits (TrainerStep.evaluate_emits setup r.progress)
    · exact .pure () (.inl Language.nil_mem_one)
  refine .bind ⟨_, rfl⟩ hevaluate fun _ r₁ _ => ?_
  have hticked : EmitsAt FitRun.trainer n ({[.ratesTicked .epoch]} * 1) (do
      onTrainer (TrainerStep.tickRates .epoch)
      modify fun r : FitRun σ W β => { r with currentEpoch := r.currentEpoch + 1 }) r₁ := by
    refine .bind ⟨[], Language.nil_mem_one⟩ (onTrainer_emits (TrainerStep.tickRates_emits _))
      fun _ r₂ _ => ?_
    exact fun hn => ⟨hn, [], (List.append_nil _).symm, Language.nil_mem_one⟩
  rwa [mul_one] at hticked

theorem begins_told {setup : Setup W β} {data : Batches β} {t₁ t₂ : Trainer W β}
    {answered : Except Error Unit}
    (hcounts : (TrainerStep.resolveCounts setup data.knownLength).runOn r.enterEpoch.trainer =
      (.ok (), t₁))
    (hcall : (TrainerStep.call setup .trainEpochStart
      (t₁.context setup r.progress 0 none)).runOn t₁ = (answered, t₂))
    (hn : r.trainer.callbacks.length = n) :
    t₂.callbacks.length = n ∧
      ∃ told, t₂.events.toList =
          r.trainer.events.toList ++ .dataRequested r.currentEpoch :: told ∧
        t₂.state.shouldStop = (r.trainer.state.shouldStop || told.any RunEvent.asksStop) ∧
        Leaves (called setup n r.progress .trainEpochStart) answered told := by
  obtain ⟨N, K, -, -, hresolved⟩ := TrainerStep.resolveCounts_ok hcounts
  have hn₁ : t₁.callbacks.length = n := by rwa [hresolved]
  have hstop : t₁.state.shouldStop = r.trainer.state.shouldStop := by rw [hresolved]; rfl
  have hasked : t₁.events.toList = r.trainer.events.toList ++ [.dataRequested r.currentEpoch] := by
    rw [hresolved]
    exact Journal.toList_push _ _
  obtain ⟨hn₂, told, htold, hleaves⟩ :=
    (TrainerStep.call_emits (p := r.progress) setup .trainEpochStart rfl).of_run hcall hn₁
  have hkeeps := TrainerStep.call_keeps setup .trainEpochStart
    (t₁.context setup r.progress 0 none) t₁
  rw [hcall] at hkeeps
  refine ⟨hn₂, told, events_trans hasked htold, ?_, hleaves⟩
  rw [← hstop]
  exact hkeeps.asked told htold

theorem begins_traced {setup : Setup W β} {data : Batches β} {t₁ t₂ : Trainer W β}
    {answered : Except Error Unit}
    (hcounts : (TrainerStep.resolveCounts setup data.knownLength).runOn r.enterEpoch.trainer =
      (.ok (), t₁))
    (hcall : (TrainerStep.call setup .trainEpochStart
      (t₁.context setup r.progress 0 none)).runOn t₁ = (answered, t₂))
    (hn : r.trainer.callbacks.length = n) :
    t₂.callbacks.length = n ∧
      ∃ new, t₂.events.toList = r.trainer.events.toList ++ new ∧
        Leaves (epochBegun setup n r.currentEpoch r.progress) answered new := by
  obtain ⟨hn₂, told, htold, -, hleaves⟩ := begins_told hcounts hcall hn
  have hword : [.dataRequested r.currentEpoch] ∈
      ({[.dataRequested r.currentEpoch]} : Language (RunEvent β)) := rfl
  exact ⟨hn₂, _, htold, hleaves.append hword⟩

theorem nextEpoch_traced {setup : Setup W β} {loop : BatchLoop σ β} {horizon : Nat}
    {data : Nat → Batches β} {r' : FitRun σ W β} {result : Except Error (Option Processed)}
    (h : (nextEpoch setup loop horizon data).runOn r = (result, r'))
    (hn : r.trainer.callbacks.length = n) :
    r'.trainer.callbacks.length = n ∧
      ∃ new, r'.trainer.events.toList = r.trainer.events.toList ++ new ∧
        LeavesUpTo (wholeEpoch setup n r.currentEpoch) (openEpoch setup n r.currentEpoch)
          result new := by
  have hopens : epochBegun setup n r.currentEpoch r.progress ≤
      epochBegins setup n r.currentEpoch := le_iSup (epochBegun setup n r.currentEpoch) r.progress
  cases nextEpoch_ran h with
  | uncounted hcounts =>
      have hword : [.dataRequested r.currentEpoch] ∈
          ({[.dataRequested r.currentEpoch]} : Language (RunEvent β)) := rfl
      refine ⟨hn, _, Journal.toList_push _ _,
        CutShort.extend (epochRest_nonempty _ _) (.mono hopens ?_)⟩
      exact CutShort.append hword (.nil (called_nonempty setup n r.progress .trainEpochStart))
  | unstarted hcounts hcall =>
      obtain ⟨hn₂, new, hnew, hcut⟩ := begins_traced hcounts hcall hn
      exact ⟨hn₂, new, hnew, CutShort.extend (epochRest_nonempty _ _) (hcut.mono hopens)⟩
  | failed hcounts hcall hepoch =>
      obtain ⟨hn₂, new, hnew, hword⟩ := begins_traced hcounts hcall hn
      obtain ⟨hn', trained, htrained, hcut⟩ := EpochStep.run_traced hepoch hn₂
      exact ⟨hn', new ++ trained, events_trans hnew htrained,
        CutShort.append (hopens hword) (CutShort.extend (epochCloses_nonempty _) hcut)⟩
  | passed hcounts hcall hepoch =>
      obtain ⟨hn₂, new, hnew, hword⟩ := begins_traced hcounts hcall hn
      obtain ⟨hn', trained, htrained, hbatches⟩ := EpochStep.run_traced hepoch hn₂
      exact ⟨hn', new ++ trained, events_trans hnew htrained,
        Language.append_mem_mul (hopens hword) hbatches⟩
  | @closed t₁ t₂ e outputs closed _ _ hcounts hcall hepoch hclose hresult =>
      obtain ⟨hn₂, new, hnew, hword⟩ := begins_traced hcounts hcall hn
      obtain ⟨hn₃, trained, htrained, hends⟩ := EpochStep.run_traced hepoch hn₂
      obtain ⟨hn', ended, hended, hleaves⟩ := (closeEpoch_emits setup e.counters).of_run hclose hn₃
      refine ⟨hn', new ++ (trained ++ ended), events_trans hnew (events_trans htrained hended), ?_⟩
      have hcloses := Leaves.mono (le_iSup (epochClosed n) e.progress) hleaves
      have hall := Leaves.append (hopens hword) (Leaves.append hends hcloses)
      rw [hresult]
      cases closed with
      | error e => exact hall
      | ok _ => exact hall

theorem declineStop_events (config : Config) (r : FitRun σ W β) :
    (r.declineStop config).trainer.events = r.trainer.events ∧
      (r.declineStop config).trainer.callbacks = r.trainer.callbacks := by
  unfold FitRun.declineStop
  split
  · exact ⟨rfl, rfl⟩
  · exact ⟨rfl, rfl⟩

theorem begun_traced (setup : Setup W β) (worker : σ) (hn : r.trainer.callbacks.length = n) :
    (begun setup worker r).trainer.callbacks.length = n ∧
      ∃ new, (begun setup worker r).trainer.events.toList = r.trainer.events.toList ++ new ∧
        new ∈ {[.accumulation setup.config.accumulateGradBatches]} *
          Trace.told n r.progress .trainStart .trainStart := by
  let batches := setup.config.accumulateGradBatches
  let t := r.trainer.record (.accumulation batches)
  have hset : t.events.toList = r.trainer.events.toList ++ [.accumulation batches] :=
    Journal.toList_push _ _
  have hcontext : (t.context setup r.progress 0 none).progress = r.progress := rfl
  obtain ⟨hn', told, htold, hword⟩ :=
    tellCallbacks_traced (t := t) .trainStart .trainStart hcontext hn
  have hbegun : [.accumulation batches] ++ told ∈
      {[.accumulation batches]} * Trace.told n r.progress .trainStart .trainStart :=
    Language.append_mem_mul rfl hword
  exact ⟨hn', _, events_trans hset htold, hbegun⟩

theorem Ran.traced {setup : Setup W β} {loop : BatchLoop σ β} {horizon : Nat}
    {data : Nat → Batches β} {r' : FitRun σ W β} {c c' : Completed}
    (h : Ran setup loop horizon data r c r' c') (hn : r.trainer.callbacks.length = n) :
    r'.trainer.callbacks.length = n ∧
      ∃ new, r'.trainer.events.toList = r.trainer.events.toList ++ new ∧
        new ∈ (someEpoch setup n)∗ := by
  refine h.preserves (J := fun r₀ _ => r₀.trainer.callbacks.length = n ∧
    ∃ new, r₀.trainer.events.toList = r.trainer.events.toList ++ new ∧
      new ∈ (someEpoch setup n)∗) ?_
    ⟨hn, [], (List.append_nil _).symm, Language.nil_mem_kstar _⟩
  rintro r₀ c outputs r₁ ⟨hn₀, new, hnew, hword⟩ hgoes hepoch
  have hstar : (someEpoch setup n)∗ * someEpoch setup n ≤ (someEpoch setup n)∗ :=
    kstar_mul_le_kstar
  obtain ⟨hevents, hcallbacks⟩ := declineStop_events setup.config r₀
  obtain ⟨hlt, -⟩ := FitRun.limitReached?_eq_none.1 (FitRun.stopReason?_eq_none.1 hgoes).1
  rw [← hcallbacks] at hn₀
  rw [← hevents] at hnew
  obtain ⟨hn₁, more, hmore, hleaves⟩ := nextEpoch_traced hepoch hn₀
  rw [declineStop_currentEpoch] at hleaves
  exact ⟨hn₁, new ++ more, events_trans hnew hmore,
    hstar (Language.append_mem_mul hword (le_someEpoch setup n hlt hleaves))⟩

def EpochsFrom (P : Nat → List (RunEvent β) → Prop) (first : Nat)
    (epochs : List (List (RunEvent β))) : Prop :=
  ∀ i events, epochs[i]? = some events → P (first + i) events

theorem indexed_snoc {α : Type} {P : Nat → α → Prop} {items : List α} {item : α}
    (h : ∀ i x, items[i]? = some x → P i x) (hitem : P items.length item) :
    ∀ i x, (items ++ [item])[i]? = some x → P i x := by
  intro i x hi
  by_cases hlt : i < items.length
  · rw [List.getElem?_append_left hlt] at hi
    exact h i x hi
  · rw [List.getElem?_append_right (Nat.not_lt.1 hlt), List.getElem?_singleton] at hi
    split at hi
    · obtain rfl : i = items.length := by omega
      cases hi
      exact hitem
    · cases hi

theorem EpochsFrom.snoc {P : Nat → List (RunEvent β) → Prop} {first : Nat}
    {epochs : List (List (RunEvent β))} {new : List (RunEvent β)} (h : EpochsFrom P first epochs)
    (hnew : P (first + epochs.length) new) : EpochsFrom P first (epochs ++ [new]) :=
  indexed_snoc h hnew

/-- The completed epochs of a run leave their events one after another. What an epoch preserves,
together with the events of all epochs so far, holds in the end. -/
theorem Ran.epochwise {setup : Setup W β} {loop : BatchLoop σ β} {horizon : Nat}
    {data : Nat → Batches β} {J : FitRun σ W β → List (List (RunEvent β)) → Prop}
    {r r' : FitRun σ W β} {c c' : Completed} (h : Ran setup loop horizon data r c r' c')
    (hepoch : ∀ r₀ epochs outputs r₁ new, J r₀ epochs →
      r₀.currentEpoch = r.currentEpoch + epochs.length →
      (nextEpoch setup loop horizon data).runOn (r₀.declineStop setup.config) =
        (.ok (some outputs), r₁) →
      r₁.trainer.events.toList = r₀.trainer.events.toList ++ new →
      new ∈ wholeEpoch setup r.trainer.callbacks.length r₀.currentEpoch →
      J r₁ (epochs ++ [new]))
    (hJ : J r []) :
    ∃ epochs : List (List (RunEvent β)),
      r'.trainer.events.toList = r.trainer.events.toList ++ epochs.flatten ∧
      c'.epochs = c.epochs + epochs.length ∧ J r' epochs := by
  have hall := h.preserves (J := fun r₀ c₀ => ∃ epochs : List (List (RunEvent β)),
    r₀.trainer.events.toList = r.trainer.events.toList ++ epochs.flatten ∧
    r₀.trainer.callbacks.length = r.trainer.callbacks.length ∧
    r₀.currentEpoch = r.currentEpoch + epochs.length ∧
    c₀.epochs = c.epochs + epochs.length ∧ J r₀ epochs) ?_
    ⟨[], (List.append_nil _).symm, rfl, rfl, rfl, hJ⟩
  · obtain ⟨epochs, hevents, -, -, hcount, hJ'⟩ := hall
    exact ⟨epochs, hevents, hcount, hJ'⟩
  rintro r₀ c₀ outputs r₁ ⟨epochs, hevents, hn, hcurrent, hcount, hJ₀⟩ hgoes hnext
  obtain ⟨hdeclined, hcallbacks⟩ := declineStop_events setup.config r₀
  have hindex := nextEpoch_currentEpoch hnext
  rw [← hcallbacks] at hn
  obtain ⟨hn₁, new, hnew, hword⟩ := nextEpoch_traced hnext hn
  rw [declineStop_currentEpoch] at hindex hword
  rw [hdeclined] at hnew
  have hlength : (epochs ++ [new]).length = epochs.length + 1 := List.length_append
  refine ⟨epochs ++ [new], ?_, hn₁, ?_, ?_, ?_⟩
  · rw [List.flatten_append, List.flatten_singleton]
    exact events_trans hevents hnew
  · rw [hindex, hcurrent, hlength, Nat.add_assoc]
  · rw [hlength, ← Nat.add_assoc, ← hcount]
  · exact hepoch r₀ epochs outputs r₁ new hJ₀ hcurrent hnext hnew hword

theorem tellEnd_traced (setup : Setup W β) (reason : StopReason) (completed : Completed)
    (r : FitRun σ W β) :
    ∃ told, (r.tellEnd setup reason completed).trainer.events.toList =
        r.trainer.events.toList ++ told ∧
      told ∈ (Trace.told r.trainer.callbacks.length r.progress .trainEnd .trainEnd :
        Language (RunEvent β)) := by
  have hcontext : (r.trainer.context setup r.progress 0 none).progress = r.progress := rfl
  obtain ⟨-, told, htold, hend⟩ :=
    tellCallbacks_traced (t := r.trainer) .trainEnd .trainEnd hcontext rfl
  exact ⟨told, htold, hend⟩

theorem halts_traced {setup : Setup W β} {loop : BatchLoop σ β} {horizon : Nat}
    {data : Nat → Batches β} {c : Completed} {ended : Except Error (Option (StopReason × Completed))}
    {r' : FitRun σ W β} (h : Halts setup loop horizon data r c ended r')
    (hn : r.trainer.callbacks.length = n) :
    r'.trainer.callbacks.length = n ∧
      ∃ new, r'.trainer.events.toList = r.trainer.events.toList ++ new ∧
        match ended with
        | .error e => CutShort (someEpoch setup n) e new
        | .ok none => new ∈ lastEpoch setup n
        | .ok (some _) => new = [] := by
  obtain ⟨hevents, hcallbacks⟩ := declineStop_events setup.config r
  rw [← hcallbacks] at hn
  rw [← hevents]
  cases h with
  | stopped hreason => exact ⟨hcallbacks ▸ hn, [], by rw [hevents, List.append_nil], rfl⟩
  | passed hgoes hepoch =>
      obtain ⟨hlt, -⟩ := FitRun.limitReached?_eq_none.1 (FitRun.stopReason?_eq_none.1 hgoes).1
      obtain ⟨hn', new, hnew, hleaves⟩ := nextEpoch_traced hepoch hn
      rw [declineStop_currentEpoch] at hleaves
      exact ⟨hn', new, hnew, le_lastEpoch setup n hlt hleaves⟩
  | failed hgoes hepoch =>
      obtain ⟨hlt, -⟩ := FitRun.limitReached?_eq_none.1 (FitRun.stopReason?_eq_none.1 hgoes).1
      obtain ⟨hn', new, hnew, hleaves⟩ := nextEpoch_traced hepoch hn
      rw [declineStop_currentEpoch] at hleaves
      exact ⟨hn', new, hnew, CutShort.mono (le_someEpoch setup n hlt) hleaves⟩

/-- What a run has done at the end of an epoch, it has still done in the end. -/
theorem Ran.rest {setup : Setup W β} {loop : BatchLoop σ β} {horizon : Nat}
    {data : Nat → Batches β} {worker : σ} {r r₁ r' : FitRun σ W β} {c : Completed}
    {result : Except Error (Option FitResult)} (hcheck : setup.config.check = .ok ())
    (hset : (loop.setAccumulation setup.config.accumulateGradBatches).runOn r.worker =
      (.ok (), worker))
    (hran : Ran setup loop horizon data (begun setup worker r) {} r₁ c)
    (h : (run setup loop horizon data).runOn r = (result, r')) :
    ∃ rest, r'.trainer.events.toList = r₁.trainer.events.toList ++ rest := by
  cases run_ended h with
  | refused hcheck' => simp [hcheck] at hcheck'
  | unset hcheck' hset' => simp [hset] at hset'
  | @halted worker' r₂ r₃ _ c₂ ended _ hcheck' hset' hran' hhalts hreports =>
      rw [hset] at hset'
      cases hset'
      obtain ⟨-, new, hnew, -⟩ := (hran.resume hran' hhalts.final).traced rfl
      obtain ⟨-, last, hlast, -⟩ := halts_traced hhalts rfl
      have hboth := events_trans hnew hlast
      match ended with
      | .error e =>
          obtain ⟨-, rfl⟩ := hreports
          exact ⟨_, hboth⟩
      | .ok none =>
          obtain ⟨-, rfl⟩ := hreports
          exact ⟨_, hboth⟩
      | .ok (some (reason, completed)) =>
          obtain ⟨rfl, -⟩ := hreports
          obtain ⟨told, htold, -⟩ := tellEnd_traced setup reason completed r₃
          exact ⟨_, events_trans hboth htold⟩

/-- A batch loop that does not take the width of the windows ends a run at once. -/
theorem accumulation_failed (n batches : Nat) (e : Error) :
    CutShort (runBegun n : Language (RunEvent β)) e [.accumulation batches, .failed e] := by
  have hfailed : CutShort ({[.accumulation batches]} : Language (RunEvent β)) e
      [.accumulation batches, .failed e] :=
    .failed rfl rfl
  exact (hfailed.extend (told_nonempty n {} .trainStart .trainStart)).mono (le_runBegun n batches {})

theorem run_traced {setup : Setup W β} {loop : BatchLoop σ β} {horizon : Nat}
    {data : Nat → Batches β} {r' : FitRun σ W β} {result : Except Error (Option FitResult)}
    (h : (run setup loop horizon data).runOn r = (result, r'))
    (hn : r.trainer.callbacks.length = n) :
    ∃ new, r'.trainer.events.toList = r.trainer.events.toList ++ new ∧
      (∀ fit, result = .ok (some fit) → new ∈ wholeRun setup n) ∧
      (result = .ok none →
        new ∈ runBegun n * (someEpoch setup n)∗ * lastEpoch setup n) ∧
      ∀ e, result = .error e → CutShort (runBegun n * (someEpoch setup n)∗) e new := by
  cases run_ended h with
  | refused hcheck =>
      exact ⟨[], (List.append_nil _).symm, nofun, nofun, fun _ _ => .nil
        (mul_nonempty (runBegun_nonempty n) ⟨[], Language.nil_mem_kstar _⟩)⟩
  | @unset e worker hcheck hset =>
      refine ⟨_, toList_record_record _ _ _, nofun, nofun, fun _ he => ?_⟩
      cases he
      exact (accumulation_failed n _ e).extend ⟨[], Language.nil_mem_kstar _⟩
  | @halted worker r₁ r₂ _ c ended _ hcheck hset hran hhalts hreports =>
      obtain ⟨hn₀, begun, hbegun, hword⟩ := begun_traced setup worker hn
      have hstarted : begun ∈ runBegun n := le_runBegun n _ r.progress hword
      obtain ⟨hn₁, ran, hran, hepochs⟩ := hran.traced hn₀
      obtain ⟨hn₂, last, hlast, hends⟩ := halts_traced hhalts hn₁
      have hall : begun ++ ran ∈ runBegun n * (someEpoch setup n)∗ :=
        Language.append_mem_mul hstarted hepochs
      have hnew := events_trans (events_trans hbegun hran) hlast
      match ended with
      | .error e =>
          obtain ⟨rfl, rfl⟩ := hreports
          refine ⟨_, hnew, nofun, nofun, fun e he => ?_⟩
          cases he
          refine (CutShort.append hall hends).mono ?_
          rw [mul_assoc]
          exact mul_le_mul_right kstar_mul_le_kstar _
      | .ok none =>
          obtain ⟨rfl, rfl⟩ := hreports
          exact ⟨_, hnew, nofun, fun _ => Language.append_mem_mul hall hends, nofun⟩
      | .ok (some (reason, completed)) =>
          obtain ⟨rfl, rfl⟩ := hreports
          obtain rfl : last = [] := hends
          obtain ⟨told, htold, hend⟩ := tellEnd_traced setup reason completed r₂
          rw [hn₂] at hend
          rw [List.append_nil] at hnew
          refine ⟨_, events_trans hnew htold, fun _ _ => Language.append_mem_mul hall ?_, nofun,
            nofun⟩
          exact le_iSup (fun p : Progress => Trace.told n p .trainEnd .trainEnd) r₂.progress hend

end FitStep

end TrainingLoop
