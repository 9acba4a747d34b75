import TrainingLoop.Proofs.Number.Powers
import TrainingLoop.Proofs.Rate.Ticks
/-!
# Step decay

The rate of a step decay is the initial one times a power of its factor, and the exponent is the
number of decays so far. Of that number 32 bits are kept, with a sign: from `2 ^ 31` decays on the
exponent is negative, and the rate is divided by the power. So a factor below one keeps the rate
from rising above the initial one for good just where so many steps stand between two decays that
a counter of 64 bits never comes to `2 ^ 31` of them (`decayed_le_initial_iff`).
-/

namespace TrainingLoop

/-! ## Exponents -/

namespace Single

theorem exponentOfCount_eq_bmod (n : Nat) : exponentOfCount n = Int.bmod n (2 ^ 32 : Nat) := rfl

theorem exponentOfCount_nonneg_iff (n : Nat) :
    0 ≤ exponentOfCount n ↔ n % 2 ^ 32 < 2 ^ 31 := by
  rw [exponentOfCount_eq_bmod, Int.bmod_def]
  split <;> omega

theorem exponentOfCount_eq_iff (n : Nat) : exponentOfCount n = n ↔ n < 2 ^ 31 := by
  rw [exponentOfCount_eq_bmod, Int.bmod_def]
  split <;> omega

end Single

namespace StepDecaySchedule

variable {s : StepDecaySchedule}

def decays (s : StepDecaySchedule) : Nat := s.steps / s.stepSize

theorem rate_eq (hsize : 1 ≤ s.stepSize) :
    s.rate = s.initial * Single.power s.gamma (Single.exponentOfCount s.decays) :=
  if_neg (Nat.one_le_iff_ne_zero.1 hsize)

theorem advanceAll_stepDecay (calls : List (Option Float32)) :
    (Schedule.stepDecay s).advanceAll calls = (Schedule.stepDecay s).stepMany calls.length := by
  induction calls generalizing s with
  | nil => rfl
  | cons call rest ih =>
      have hcall : (Schedule.stepDecay s).advance call =
          .stepDecay { s with steps := s.steps + 1 } := by
        cases call <;> rfl
      rw [Schedule.advanceAll, List.foldl_cons, hcall]
      refine ih.trans ?_
      rw [Schedule.stepMany, Schedule.stepMany, List.length_cons, Nat.add_assoc,
        Nat.add_comm 1]

/-! ## Rates -/

section Rates

variable (hsize : 1 ≤ s.stepSize) (hgamma : Single.isFraction s.gamma = true)
include hsize hgamma

theorem rate_le_initial (hinitial : Single.IsAmount s.initial)
    (hexponent : 0 ≤ Single.exponentOfCount s.decays) : s.rate ≤ s.initial := by
  obtain ⟨hproduct, hle⟩ := hinitial.mul_fraction (Single.power_isFraction hgamma hexponent)
  rw [rate_eq hsize]
  exact (Single.le_iff_value hproduct.finite hinitial.finite).2 hle

theorem rate_le_initial_of_one (hinitial : Single.IsAmount s.initial) (hone : 1.0 ≤ s.gamma) :
    s.rate ≤ s.initial := by
  have hpower := Single.number_power_of_one (Single.number_of_one_le hgamma hone)
    (Single.exponentOfCount s.decays)
  rw [rate_eq hsize, Single.le_iff, Single.number_mul_of_one hpower, ← Single.le_iff]
  exact (Single.le_iff_value hinitial.finite hinitial.finite).2 (le_refl _)

/-- After `2 ^ 31` decays by a factor below one the rate is infinite. -/
theorem number_rate_of_decays (hpositive : 0.0 < s.initial) (hbelow : ¬ 1.0 ≤ s.gamma)
    (hdecays : s.decays = 2 ^ 31) : Single.number s.rate = .infinity .positive := by
  have hexponent : Single.exponentOfCount (2 ^ 31) = -2 ^ 31 := by decide +kernel
  rw [rate_eq hsize, hdecays, hexponent, Single.number_mul,
    Single.number_power_least hgamma hbelow]
  rcases Single.number_of_pos hpositive with hnumber | ⟨m, e, h, hnumber⟩
  · rw [hnumber]
    exact Unpacked.stored_infinity .positive
  · rw [hnumber]
    exact Unpacked.stored_infinity .positive

end Rates

/-- The rate of a fresh step decay after any calls is the initial one times a power of its factor.
The exponent is the number of decays just as long as that is below `2 ^ 31`, and where it is not
negative the rate is at most the initial one. That is so after any calls that a counter of 64 bits
can count just where the factor is one or the decays are at least `2 ^ 33` steps apart. -/
theorem decayed_le_initial_iff (hfresh : s.steps = 0) (hfinite : Single.isFinite s.initial = true)
    (hpositive : 0.0 < s.initial) (hgamma0 : 0.0 < s.gamma) (hgamma1 : s.gamma ≤ 1.0)
    (hsize : 1 ≤ s.stepSize) :
    (∀ calls : List (Option Float32),
      let rate := ((Schedule.stepDecay s).advanceAll calls).rate
      let decays := calls.length / s.stepSize
      let exponent := Single.exponentOfCount decays
      rate = s.initial * Single.power s.gamma exponent ∧
      (exponent = decays ↔ decays < 2 ^ 31) ∧ (0 ≤ exponent ↔ decays % 2 ^ 32 < 2 ^ 31) ∧
      (0 ≤ exponent → rate ≤ s.initial)) ∧
    ((∀ calls : List (Option Float32), calls.length < 2 ^ 64 →
        ((Schedule.stepDecay s).advanceAll calls).rate ≤ s.initial) ↔
      1.0 ≤ s.gamma ∨ 2 ^ 33 ≤ s.stepSize) := by
  have hgamma : Single.isFraction s.gamma = true := by
    rw [Single.isFraction, Bool.and_eq_true, decide_eq_true_iff, decide_eq_true_iff]
    exact ⟨Single.zero_le_of_pos hgamma0, hgamma1⟩
  have hnumber := (Single.isFinite_iff s.initial).1 hfinite
  have hinitial : Single.IsAmount s.initial :=
    ⟨hnumber, (Single.zero_le_iff_value hnumber).1 (Single.zero_le_of_pos hpositive)⟩
  -- the schedule after `t` steps
  let after (t : Nat) : StepDecaySchedule := { s with steps := s.steps + t }
  have hafter (calls : List (Option Float32)) :
      ((Schedule.stepDecay s).advanceAll calls).rate = (after calls.length).rate := by
    rw [advanceAll_stepDecay]
    rfl
  have hdecays (t : Nat) : (after t).decays = t / s.stepSize := by
    change (s.steps + t) / s.stepSize = _
    rw [hfresh, Nat.zero_add]
  constructor
  · intro calls
    have hrate := rate_eq (s := after calls.length) hsize
    rw [hdecays, ← hafter] at hrate
    refine ⟨hrate, Single.exponentOfCount_eq_iff _, Single.exponentOfCount_nonneg_iff _,
      fun hexponent => ?_⟩
    rw [← hdecays] at hexponent
    rw [hafter]
    exact rate_le_initial (s := after calls.length) hsize hgamma hinitial hexponent
  · constructor
    · intro hkept
      by_contra hnot
      obtain ⟨hbelow, hclose⟩ := not_or.1 hnot
      have hlast := hkept (List.replicate (2 ^ 31 * s.stepSize) none)
        (by rw [List.length_replicate]; omega)
      have hcount : (after (2 ^ 31 * s.stepSize)).decays = 2 ^ 31 := by
        rw [hdecays, Nat.mul_div_cancel _ hsize]
      rw [hafter, List.length_replicate, Single.le_iff,
        number_rate_of_decays (s := after _) hsize hgamma hpositive hbelow hcount] at hlast
      exact hnumber.not_infinity_le hlast
    · intro hor calls hlength
      rw [hafter]
      rcases hor with hone | hfar
      · exact rate_le_initial_of_one (s := after calls.length) hsize hgamma hinitial hone
      · refine rate_le_initial (s := after calls.length) hsize hgamma hinitial ?_
        have hfew : calls.length / s.stepSize < 2 ^ 31 := Nat.div_lt_of_lt_mul (by omega)
        rw [hdecays, Single.exponentOfCount_nonneg_iff]
        exact (Nat.mod_le _ _).trans_lt hfew

def seldomHalved : StepDecaySchedule := { initial := 0.1, gamma := 0.5, stepSize := 2 ^ 33 }

theorem decayed_le_initial_seldomHalved :
    seldomHalved.steps = 0 ∧ Single.isFinite seldomHalved.initial = true ∧
    0.0 < seldomHalved.initial ∧ 0.0 < seldomHalved.gamma ∧ seldomHalved.gamma ≤ 1.0 ∧
    1 ≤ seldomHalved.stepSize ∧
    ∀ calls : List (Option Float32), calls.length < 2 ^ 64 →
      ((Schedule.stepDecay seldomHalved).advanceAll calls).rate ≤ seldomHalved.initial := by
  have hfinite : Single.isFinite seldomHalved.initial = true := by decide +kernel
  have hpositive : 0.0 < seldomHalved.initial := by decide +kernel
  have hgamma0 : 0.0 < seldomHalved.gamma := by decide +kernel
  have hgamma1 : seldomHalved.gamma ≤ 1.0 := by decide +kernel
  have hsize : 1 ≤ seldomHalved.stepSize := by decide
  exact ⟨rfl, hfinite, hpositive, hgamma0, hgamma1, hsize,
    (decayed_le_initial_iff rfl hfinite hpositive hgamma0 hgamma1 hsize).2.2
      (.inr (Nat.le_refl _))⟩

def everyStepHalved : StepDecaySchedule := { initial := 1.0, gamma := 0.5, stepSize := 1 }

/-- The exponent after `2 ^ 31` steps is negative, and the rate infinite. -/
theorem everyStepHalved_rises :
    Single.isFinite everyStepHalved.initial = true ∧ 0.0 < everyStepHalved.initial ∧
    0.0 < everyStepHalved.gamma ∧ everyStepHalved.gamma ≤ 1.0 ∧ 1 ≤ everyStepHalved.stepSize ∧
    ∃ calls : List (Option Float32), calls.length = 2 ^ 31 ∧
      Single.exponentOfCount (calls.length / everyStepHalved.stepSize) = -2 ^ 31 ∧
      ((Schedule.stepDecay everyStepHalved).advanceAll calls).rate = 1.0 / 0.0 ∧
      ¬ ((Schedule.stepDecay everyStepHalved).advanceAll calls).rate ≤
        everyStepHalved.initial := by
  refine ⟨by decide +kernel, by decide +kernel, by decide +kernel, by decide +kernel, by decide,
    List.replicate (2 ^ 31) none, List.length_replicate, ?_⟩
  rw [advanceAll_stepDecay, List.length_replicate]
  exact ⟨by decide +kernel, by decide +kernel, by decide +kernel⟩

end StepDecaySchedule

end TrainingLoop
