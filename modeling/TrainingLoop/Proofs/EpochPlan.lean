import Mathlib.Tactic.ByContra
import TrainingLoop.State
/-!
# The counters of planned epochs

A plan fixes how the epochs of a run go by themselves: their batches, the width of the accumulation
windows, and the batch at which the batch loop ends an epoch early. Here is what the counters come
to then, for one epoch (`after`) and for a whole run (`ClosedForm`), as plain arithmetic.
-/

namespace TrainingLoop

/-- How every epoch of a run goes, unless a bound of the run cuts it short. -/
structure EpochPlan where
  batches : Nat
  /-- Batches to one optimizer step. -/
  window : Nat
  /-- The index of the batch at which the batch loop ends the epoch. -/
  stopAt : Option Nat

namespace EpochPlan

/-- The optimizer steps after so many completed batches. The last batch of an epoch closes its
window early. -/
def stepsAfter (p : EpochPlan) (completed : Nat) : Nat :=
  if completed < p.batches then completed / p.window else (p.batches + p.window - 1) / p.window

def earlyEnd? (p : EpochPlan) : Option Nat := p.stopAt.filter (· < p.batches)

/-- The batches pulled in an epoch. The one that ends it early is counted. -/
def pulled (p : EpochPlan) : Nat :=
  match p.earlyEnd? with
  | some index => index + 1
  | none => p.batches

def steps (p : EpochPlan) : Nat :=
  match p.earlyEnd? with
  | some index => index / p.window
  | none => (p.batches + p.window - 1) / p.window

def afterWhole (p : EpochPlan) (start : Progress) : Progress :=
  ⟨start.globalStep + p.steps, start.totalBatches + p.pulled⟩

/-- The counters after an epoch that starts below the bound of the global step. -/
def after (p : EpochPlan) (maxSteps : Option Nat) (start : Progress) : Progress :=
  match maxSteps with
  | none => p.afterWhole start
  | some most =>
    if most ≤ start.globalStep + p.steps then
      ⟨most, start.totalBatches + min ((most - start.globalStep) * p.window) p.batches⟩
    else p.afterWhole start

/-! ## Windows -/

theorem ceil_le_iff {n a k : Nat} (ha : 0 < a) : (n + a - 1) / a ≤ k ↔ n ≤ k * a := by
  rw [Nat.div_le_iff_le_mul_add_pred ha, Nat.mul_comm a k]
  omega

theorem stepsAfter_of_lt {p : EpochPlan} {b : Nat} (h : b < p.batches) :
    p.stepsAfter b = b / p.window := by
  rw [stepsAfter, if_pos h]

theorem stepsAfter_all (p : EpochPlan) :
    p.stepsAfter p.batches = (p.batches + p.window - 1) / p.window := by
  rw [stepsAfter, if_neg (Nat.lt_irrefl _)]

/-- A batch ends with an optimizer step if it fills a window or is the last one. -/
theorem stepsAfter_succ {p : EpochPlan} {b : Nat} (hwindow : 0 < p.window) (h : b < p.batches) :
    p.stepsAfter (b + 1) =
      p.stepsAfter b + if p.window ∣ b + 1 ∨ b + 1 = p.batches then 1 else 0 := by
  rw [stepsAfter_of_lt h]
  by_cases hlast : b + 1 = p.batches
  · have hceil : b + 1 + p.window - 1 = b + p.window := by omega
    rw [hlast, stepsAfter_all, if_pos (.inr rfl), ← hlast, hceil, Nat.add_div_right b hwindow]
  · rw [stepsAfter_of_lt (by omega), Nat.succ_div]
    simp [hlast]

/-! ## One epoch -/

section

variable {p : EpochPlan} {maxSteps : Option Nat} {g t b : Nat}

theorem earlyEnd?_eq_none (h : ∀ index, p.stopAt = some index → p.batches ≤ index) :
    p.earlyEnd? = none := by
  rw [earlyEnd?, Option.filter_eq_none_iff]
  intro index hindex
  have := h index hindex
  simpa using this

theorem earlyEnd?_eq_some (hstop : p.stopAt = some b) (h : b < p.batches) :
    p.earlyEnd? = some b := by
  rw [earlyEnd?, hstop]
  simpa using h

theorem after_all (hwindow : 0 < p.window)
    (hstop : ∀ index, p.stopAt = some index → p.batches ≤ index)
    (hbound : ∀ most, maxSteps = some most → p.batches ≤ (most - g) * p.window ∧ g < most) :
    p.after maxSteps ⟨g, t⟩ = ⟨g + p.stepsAfter p.batches, t + p.batches⟩ := by
  have hsteps : p.steps = p.stepsAfter p.batches := by
    rw [steps, earlyEnd?_eq_none hstop, stepsAfter_all]
  have hpulled : p.pulled = p.batches := by
    rw [pulled, earlyEnd?_eq_none hstop]
  have hwhole : p.afterWhole ⟨g, t⟩ = ⟨g + p.stepsAfter p.batches, t + p.batches⟩ := by
    rw [afterWhole, hsteps, hpulled]
  cases maxSteps with
  | none => exact hwhole
  | some most =>
      obtain ⟨hle, hlt⟩ := hbound most rfl
      have hceil : p.stepsAfter p.batches ≤ most - g := by
        rw [stepsAfter_all]
        exact (ceil_le_iff hwindow).2 hle
      rw [after]
      split
      · rename_i hreached
        rw [hsteps] at hreached
        dsimp only at hreached ⊢
        have hmost : most = g + p.stepsAfter p.batches := by omega
        rw [Nat.min_eq_right hle, ← hmost]
      · exact hwhole

theorem after_skipped (hwindow : 0 < p.window) (hstop : p.stopAt = some b) (h : b < p.batches)
    (hbound : ∀ most, maxSteps = some most → b < (most - g) * p.window) :
    p.after maxSteps ⟨g, t⟩ = ⟨g + p.stepsAfter b, t + (b + 1)⟩ := by
  have hsteps : p.steps = p.stepsAfter b := by
    rw [steps, earlyEnd?_eq_some hstop h, stepsAfter_of_lt h]
  have hpulled : p.pulled = b + 1 := by
    rw [pulled, earlyEnd?_eq_some hstop h]
  have hwhole : p.afterWhole ⟨g, t⟩ = ⟨g + p.stepsAfter b, t + (b + 1)⟩ := by
    rw [afterWhole, hsteps, hpulled]
  cases maxSteps with
  | none => exact hwhole
  | some most =>
      have hlt : p.stepsAfter b < most - g := by
        rw [stepsAfter_of_lt h]
        exact (Nat.div_lt_iff_lt_mul hwindow).2 (hbound most rfl)
      rw [after, hsteps, if_neg (by dsimp only; omega)]
      exact hwhole

theorem after_reached {most : Nat} (hwindow : 0 < p.window) (hlt : g < most)
    (hstop : ∀ index, p.stopAt = some index → b ≤ index) (hb : b ≤ p.batches)
    (hclosed : p.window ∣ b) (hreached : most ≤ g + p.stepsAfter b)
    (hbound : b ≤ (most - g) * p.window) :
    p.after (some most) ⟨g, t⟩ = ⟨g + p.stepsAfter b, t + b⟩ := by
  rcases Nat.lt_or_eq_of_le hb with hinside | rfl
  · -- The batches are just those of the steps that were left.
    obtain ⟨k, rfl⟩ := hclosed
    have hquotient : p.stepsAfter (p.window * k) = k := by
      rw [stepsAfter_of_lt hinside, Nat.mul_div_cancel_left k hwindow]
    have hk : k = most - g := by
      rw [Nat.mul_comm] at hbound
      have := Nat.le_of_mul_le_mul_right hbound hwindow
      omega
    have hsteps : k ≤ p.steps := by
      unfold steps
      split
      · rename_i index hindex
        obtain ⟨hstopAt, -⟩ := Option.filter_eq_some_iff.1 hindex
        rw [Nat.le_div_iff_mul_le hwindow, Nat.mul_comm]
        exact hstop index hstopAt
      · rw [Nat.le_div_iff_mul_le hwindow, Nat.mul_comm]
        omega
    rw [after, hquotient, hk]
    dsimp only
    rw [if_pos (by omega), ← hk, Nat.mul_comm k, Nat.min_eq_left hb]
    congr 1
    omega
  · exact after_all hwindow hstop fun most' heq => by
      cases heq
      exact ⟨hbound, hlt⟩

end

/-! ## All epochs -/

def afterEpochs (p : EpochPlan) (maxSteps : Option Nat) : Nat → Progress
  | 0 => {}
  | epochs + 1 => p.after maxSteps (p.afterEpochs maxSteps epochs)

theorem afterEpochs_below {p : EpochPlan} {maxSteps : Option Nat} {epochs : Nat}
    (h : ∀ most, maxSteps = some most → epochs * p.steps < most) :
    p.afterEpochs maxSteps epochs = ⟨epochs * p.steps, epochs * p.pulled⟩ := by
  induction epochs with
  | zero => simp [afterEpochs]
  | succ k ih =>
      have hk : ∀ most, maxSteps = some most → k * p.steps < most := by
        intro most hmost
        have := h most hmost
        rw [Nat.succ_mul] at this
        omega
      have hwhole : p.afterWhole ⟨k * p.steps, k * p.pulled⟩ =
          ⟨(k + 1) * p.steps, (k + 1) * p.pulled⟩ := by
        rw [afterWhole, Nat.succ_mul, Nat.succ_mul]
      rw [afterEpochs, ih hk]
      cases maxSteps with
      | none => exact hwhole
      | some most =>
          have hlt := h most rfl
          rw [Nat.succ_mul] at hlt
          rw [after, if_neg (by dsimp only; omega)]
          exact hwhole

theorem afterEpochs_reaching {p : EpochPlan} {most k : Nat} (hbelow : k * p.steps < most)
    (hreached : most ≤ (k + 1) * p.steps) :
    p.afterEpochs (some most) (k + 1) =
      ⟨most, k * p.pulled + min ((most - k * p.steps) * p.window) p.batches⟩ := by
  rw [Nat.succ_mul] at hreached
  rw [afterEpochs, afterEpochs_below fun most' heq => by cases heq; exact hbelow]
  rw [after, if_pos hreached]

/-- What a run of at most `maxEpochs` epochs comes to, in closed form. Either all epochs run whole,
or there is no step to take, or the bound of the global step is reached within an epoch. -/
structure ClosedForm (p : EpochPlan) (maxEpochs : Nat) (maxSteps : Option Nat) (epochs : Nat)
    (progress : Progress) (reason : StopReason) : Prop where
  whole : (∀ most, maxSteps = some most → maxEpochs * p.steps < most) →
    epochs = maxEpochs ∧ reason = .maxEpochs ∧
      progress.globalStep = maxEpochs * p.steps ∧ progress.totalBatches = maxEpochs * p.pulled
  nothing : maxSteps = some 0 →
    epochs = 0 ∧ reason = .maxSteps ∧ progress.globalStep = 0 ∧ progress.totalBatches = 0
  reached : ∀ most last, maxSteps = some most → 1 ≤ most → most ≤ maxEpochs * p.steps →
    last = (most + p.steps - 1) / p.steps →
    epochs = last ∧ (reason = if last < maxEpochs then .maxSteps else .maxEpochs) ∧
      progress.globalStep = most ∧
      progress.totalBatches = (last - 1) * p.pulled +
        min ((most - (last - 1) * p.steps) * p.window) p.batches

/-- A run that enters its epochs below the bounds, and goes on until it is at one of them. -/
structure Ended (p : EpochPlan) (maxEpochs : Nat) (maxSteps : Option Nat) (epochs : Nat)
    (reason : StopReason) : Prop where
  le : epochs ≤ maxEpochs
  entered : ∀ most k, maxSteps = some most → k < epochs →
    (p.afterEpochs maxSteps k).globalStep < most
  reason : reason = if maxEpochs ≤ epochs then .maxEpochs else .maxSteps
  reached : epochs < maxEpochs →
    ∃ most, maxSteps = some most ∧ most ≤ (p.afterEpochs maxSteps epochs).globalStep

/-- As long as whole epochs stay below the bound, only the number of epochs ends the run. -/
theorem Ended.le_of_below {p : EpochPlan} {maxEpochs epochs : Nat} {maxSteps : Option Nat}
    {reason : StopReason} (h : p.Ended maxEpochs maxSteps epochs reason)
    (hbelow : ∀ most, maxSteps = some most → epochs * p.steps < most) : maxEpochs ≤ epochs := by
  by_contra hlt
  obtain ⟨most, hmost, hreached⟩ := h.reached (by omega)
  rw [afterEpochs_below hbelow] at hreached
  have := hbelow most hmost
  dsimp only at hreached
  omega

theorem Ended.closedForm {p : EpochPlan} {maxEpochs epochs : Nat} {maxSteps : Option Nat}
    {reason : StopReason} (hpos : 1 ≤ maxEpochs) (h : p.Ended maxEpochs maxSteps epochs reason) :
    p.ClosedForm maxEpochs maxSteps epochs (p.afterEpochs maxSteps epochs) reason := by
  have hmono : epochs * p.steps ≤ maxEpochs * p.steps := Nat.mul_le_mul_right _ h.le
  refine ⟨?_, ?_, ?_⟩
  · intro hbelow
    have hwithin : ∀ most, maxSteps = some most → epochs * p.steps < most := fun most hmost =>
      Nat.lt_of_le_of_lt hmono (hbelow most hmost)
    have heq : epochs = maxEpochs := Nat.le_antisymm h.le (h.le_of_below hwithin)
    rw [afterEpochs_below hwithin, h.reason, heq]
    simp
  · intro hzero
    have hnone : epochs = 0 := by
      by_contra hsome
      have := h.entered 0 0 hzero (by omega)
      omega
    rw [h.reason, hnone, if_neg (by omega)]
    exact ⟨rfl, rfl, rfl, rfl⟩
  · rintro most last rfl hone hmost rfl
    have hsteps : 0 < p.steps := by
      by_contra hzero
      rw [Nat.eq_zero_of_not_pos hzero] at hmost
      omega
    -- The bound lies in the epoch of number `k + 1`.
    obtain ⟨k, hk⟩ : ∃ k, (most + p.steps - 1) / p.steps = k + 1 := by
      refine ⟨(most - 1) / p.steps, ?_⟩
      rw [← Nat.add_div_right _ hsteps]
      congr 1
      omega
    have hreached : most ≤ (k + 1) * p.steps := (ceil_le_iff hsteps).1 (Nat.le_of_eq hk)
    have hbelow : k * p.steps < most := by
      by_contra hle
      have := (ceil_le_iff (n := most) (k := k) hsteps).2 (by omega)
      omega
    have hlast : k + 1 ≤ maxEpochs := by
      rw [← hk]
      exact (ceil_le_iff hsteps).2 hmost
    have hepochs : epochs = k + 1 := by
      rcases Nat.lt_trichotomy epochs (k + 1) with hlt | heq | hgt
      · have hle := h.le_of_below fun most' heq => by
          cases heq
          exact Nat.lt_of_le_of_lt (Nat.mul_le_mul_right _ (by omega)) hbelow
        omega
      · exact heq
      · have hentered := h.entered most (k + 1) rfl hgt
        rw [afterEpochs_reaching hbelow hreached] at hentered
        dsimp only at hentered
        omega
    rw [hk, hepochs, afterEpochs_reaching hbelow hreached, h.reason, hepochs]
    refine ⟨rfl, ?_, rfl, ?_⟩
    · split <;> split <;> first | rfl | omega
    · rw [Nat.add_sub_cancel]

end EpochPlan

end TrainingLoop
