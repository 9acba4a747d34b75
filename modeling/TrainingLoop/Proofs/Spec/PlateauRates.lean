import TrainingLoop.Proofs.Number.Products
import TrainingLoop.Proofs.Rate.Plateau
import TrainingLoop.Proofs.Spec.Parameters
/-!
# Rates of plateau schedules

A cut leaves the product with the factor or the lowest rate, whichever is larger, and neither has to
be below the rate that is cut. Validation looks at neither of them. Here it is settled which of the
accepted schedules never raise their rate (`plateau_neverRaises_iff`).
-/

namespace TrainingLoop

open Unpacked (IsFinite)

/-- No observation leaves a rate above the one before it. -/
def Schedule.NeverRaises (s : Schedule) : Prop :=
  ∀ (metrics : List Float32) (metric : Float32),
    (s.advanceAll ((metrics ++ [metric]).map some)).rate ≤ (s.advanceAll (metrics.map some)).rate

namespace PlateauSchedule

variable {s : PlateauSchedule}

/-! ## The rates are those of a row of cuts -/

section Cuts

variable (hbest : s.best = 1.0 / 0.0) (hfresh : s.stale = 0)
include hbest hfresh

theorem after_snoc_rate (past : List (Option Float32)) (call : Option Float32) :
    (s.after (past ++ [call])).rate = s.cutTo (s.after past).rate ∨
      (s.after (past ++ [call])).rate = (s.after past).rate := by
  have hrate := (recalls_after hbest hfresh past).meet_rate call
  have hafter : s.after (past ++ [call]) = (s.after past).meet call := after_append
  rw [hafter, hrate]
  by_cases hcut : s.outcome (s.outcomes past) call = .cut
  · exact .inl (if_pos hcut)
  · exact .inr (if_neg hcut)

theorem exists_cuts (calls : List (Option Float32)) :
    ∃ n, (s.after calls).rate = s.cutTo^[n] s.rate := by
  induction calls using List.reverseRecOn with
  | nil => exact ⟨0, rfl⟩
  | append_singleton past call ih =>
      obtain ⟨n, hn⟩ := ih
      rcases after_snoc_rate hbest hfresh past call with hcut | hsame
      · refine ⟨n + 1, ?_⟩
        rw [hcut, hn, Function.iterate_succ_apply']
      · exact ⟨n, hsame.trans hn⟩

/-- NaN never improves on anything, so a row of it cuts as often as its length allows. -/
theorem after_nans (length : Nat) :
    (s.after ((List.replicate length (0.0 / 0.0)).map some)).rate =
      s.cutTo^[length / (s.patience + 1)] s.rate := by
  have hstale : ∀ metric ∈ List.replicate length (0.0 / 0.0 : Float32),
      ¬ metric < bestOf (s.outcomes []) - s.minDelta := by
    intro metric hmetric
    rw [List.eq_of_mem_replicate hmetric]
    exact Single.not_nan_lt _
  obtain ⟨cuts, hrow⟩ := row_of_stale hbest hfresh hstale
  rw [List.length_replicate] at hrow
  obtain rfl := hrow.cuts_eq (recalls_after hbest hfresh _).patient rfl
  exact hrow.rate

theorem neverRaises_iff : (Schedule.plateau s).NeverRaises ↔
    ∀ n, s.cutTo^[n + 1] s.rate ≤ s.cutTo^[n] s.rate := by
  unfold Schedule.NeverRaises
  simp only [advanceAll_plateau, Schedule.rate]
  constructor
  · intro h n
    have hlast := h (List.replicate (n * (s.patience + 1) + s.patience) (0.0 / 0.0)) (0.0 / 0.0)
    have hbefore : (n * (s.patience + 1) + s.patience) / (s.patience + 1) = n := by
      rw [Nat.add_comm, Nat.add_mul_div_right _ _ (Nat.succ_pos _),
        Nat.div_eq_of_lt (Nat.lt_succ_self _), Nat.zero_add]
    have hafter : (n * (s.patience + 1) + s.patience + 1) / (s.patience + 1) = n + 1 := by
      rw [Nat.add_assoc, ← Nat.succ_mul, Nat.mul_div_cancel _ (Nat.succ_pos _)]
    rw [← List.replicate_succ', after_nans hbest hfresh, after_nans hbest hfresh, hbefore,
      hafter] at hlast
    exact hlast
  · intro h metrics metric
    obtain ⟨n, hn⟩ := exists_cuts hbest hfresh (metrics.map some)
    have hnext := h n
    rw [Function.iterate_succ_apply', ← hn] at hnext
    rw [List.map_append]
    rcases after_snoc_rate hbest hfresh (metrics.map some) (some metric) with hcut | hsame
    · rw [List.map_singleton, hcut]
      exact hnext
    · rw [List.map_singleton, hsame]
      exact Single.le_self (Single.not_nan_of_le hnext).2

end Cuts

/-! ## One cut decides -/

structure Lowers (s : PlateauSchedule) (rate : Float32) : Prop where
  amount : Single.IsAmount rate
  nonneg : 0.0 ≤ s.cutTo rate
  le : s.cutTo rate ≤ rate

variable {rate : Float32}

theorem Lowers.cut_amount (h : s.Lowers rate) : Single.IsAmount (s.cutTo rate) :=
  Single.isAmount_of_between h.nonneg h.le h.amount.finite

section FiniteFactor

variable (hfactor : IsFinite .binary32 (Single.number s.factor))
include hfactor

theorem Lowers.bounds (h : s.Lowers rate) :
    rate * s.factor ≤ s.cutTo rate ∧ (s.lowest.isNaN = true ∨ s.lowest ≤ s.cutTo rate) := by
  have hnumber := (Single.not_nan_of_le h.le).1
  exact (Single.larger_le_iff (Single.mul_not_nan h.amount.finite hfactor)).1
    (Single.le_self hnumber)

theorem Lowers.cut_of_nonneg (hfactor0 : 0 ≤ Single.value s.factor) (h : s.Lowers rate) :
    s.Lowers (s.cutTo rate) := by
  obtain ⟨hproduct, hlowest⟩ := h.bounds hfactor
  have hamount := h.cut_amount
  have hnumber := Single.mul_not_nan hamount.finite hfactor
  refine ⟨hamount, ?_, ?_⟩
  · apply (Single.le_larger_iff hnumber).2
    exact .inl (Single.zero_le_mul hamount.finite hfactor (mul_nonneg hamount.nonneg hfactor0))
  · apply (Single.larger_le_iff hnumber).2
    have hproducts := Single.mul_le_mul hamount h.amount ⟨hfactor, hfactor0⟩ h.le
    exact ⟨Single.le_trans hproducts hproduct, hlowest⟩

theorem Lowers.cut_of_nonpos (hfactor0 : Single.value s.factor ≤ 0) (h : s.Lowers rate) :
    s.Lowers (s.cutTo rate) := by
  obtain ⟨-, hlowest⟩ := h.bounds hfactor
  have hamount := h.cut_amount
  have hnumber := Single.mul_not_nan hamount.finite hfactor
  refine ⟨hamount, ?_, ?_⟩
  · apply (Single.le_larger_iff hnumber).2
    by_cases hbelow : 0.0 ≤ s.lowest
    · exact .inr hbelow
    · -- then the first product is zero, and so is the second one
      have hzero : s.cutTo rate ≤ 0.0 := by
        apply (Single.larger_le_iff (Single.mul_not_nan h.amount.finite hfactor)).2
        refine ⟨Single.mul_le_zero h.amount.finite hfactor
          (mul_nonpos_of_nonneg_of_nonpos h.amount.nonneg hfactor0), ?_⟩
        by_cases hnan : s.lowest.isNaN = true
        · exact .inl hnan
        · exact .inr (Single.le_of_not_le (by decide) hnan hbelow)
      rw [Single.le_zero_iff_value hamount.finite] at hzero
      exact .inl (Single.zero_le_mul hamount.finite hfactor
        (mul_nonneg_of_nonpos_of_nonpos hzero hfactor0))
  · apply (Single.larger_le_iff hnumber).2
    have hproduct := Single.mul_le_zero hamount.finite hfactor
      (mul_nonpos_of_nonneg_of_nonpos hamount.nonneg hfactor0)
    exact ⟨Single.le_trans hproduct h.nonneg, hlowest⟩

theorem Lowers.cut (h : s.Lowers rate) : s.Lowers (s.cutTo rate) := by
  rcases le_total 0 (Single.value s.factor) with hfactor0 | hfactor0
  · exact h.cut_of_nonneg hfactor hfactor0
  · exact h.cut_of_nonpos hfactor hfactor0

theorem Lowers.cuts (h : s.Lowers rate) (n : Nat) : s.Lowers (s.cutTo^[n] rate) := by
  induction n with
  | zero => exact h
  | succ n ih =>
      rw [Function.iterate_succ_apply']
      exact ih.cut hfactor

/-- A cut to a rate below zero, which only a factor below zero can leave, is undone by the next. -/
theorem cutTo_nonneg (hrate : Single.IsAmount rate) (hfirst : s.cutTo rate ≤ rate)
    (hsecond : s.cutTo (s.cutTo rate) ≤ s.cutTo rate) : 0.0 ≤ s.cutTo rate := by
  rcases le_or_gt 0 (Single.value s.factor) with hfactor0 | hfactor0
  · apply (Single.le_larger_iff (Single.mul_not_nan hrate.finite hfactor)).2
    exact .inl (Single.zero_le_mul hrate.finite hfactor (mul_nonneg hrate.nonneg hfactor0))
  · by_contra hbelow
    have hnumber := (Single.not_nan_of_le hfirst).1
    have hproduct := Single.zero_le_mul_of_neg hnumber hbelow hfactor hfactor0
    have hnumber' := (Single.not_nan_of_le hproduct).2
    have hback := ((Single.larger_le_iff hnumber').1 hsecond).1
    exact hbelow (Single.le_trans hproduct hback)

theorem cuts_lower_iff (hrate : Single.IsAmount rate) :
    (∀ n, s.cutTo^[n + 1] rate ≤ s.cutTo^[n] rate) ↔
      0.0 ≤ s.cutTo rate ∧ s.cutTo rate ≤ rate := by
  constructor
  · intro h
    exact ⟨cutTo_nonneg hfactor hrate (h 0) (h 1), h 0⟩
  · rintro ⟨hnonneg, hle⟩ n
    rw [Function.iterate_succ_apply']
    exact (Lowers.cuts hfactor ⟨hrate, hnonneg, hle⟩ n).le

end FiniteFactor

/-- A factor from zero to one leaves no product above the rate, so that the lowest rate decides. -/
theorem cutTo_fraction_iff (hrate : Single.IsAmount rate)
    (hfactor : Single.isFraction s.factor = true) :
    0.0 ≤ s.cutTo rate ∧ s.cutTo rate ≤ rate ↔ s.lowest.isNaN = true ∨ s.lowest ≤ rate := by
  have hamount := ((Single.isFraction_iff_value s.factor).1 hfactor).1
  obtain ⟨hproduct, hle⟩ := hrate.mul_fraction hfactor
  have hnumber := Single.mul_not_nan hrate.finite hamount.finite
  have hnonneg : 0.0 ≤ s.cutTo rate := (Single.le_larger_iff hnumber).2
    (.inl ((Single.zero_le_iff_value hproduct.finite).2 hproduct.nonneg))
  have hbelow : rate * s.factor ≤ rate :=
    (Single.le_iff_value hproduct.finite hrate.finite).2 hle
  rw [and_iff_right hnonneg, cutTo, Single.larger_le_iff hnumber, and_iff_right hbelow]

end PlateauSchedule

/-! ## Accepted schedules -/

namespace ScheduleSpec

def cutTo (s : ScheduleSpec) (rate : Float32) : Float32 :=
  Single.larger (rate * s.single "factor" 0.1) (s.single "lr_min" 0.0)

def plateau (s : ScheduleSpec) : PlateauSchedule :=
  { rate := s.rate
    lowest := s.single "lr_min" 0.0
    factor := s.single "factor" 0.1
    patience := s.natural "patience" 10
    minDelta := s.single "min_delta" 0.0 }

theorem build_plateau {s : ScheduleSpec} (hname : lowercase s.name = "plateau") :
    ∃ built, s.build = .ok built ∧ built.schedule = .plateau s.plateau := by
  have hkind : s.kind? = some .plateau := ScheduleKind.ofName?_eq_some_iff.2 hname
  exact build_of_kind hkind

theorem isAmount_of_check {s : ScheduleSpec} (hcheck : s.check = .ok ())
    (hfinite : Single.isFinite s.rate = true) : Single.IsAmount s.rate := by
  obtain ⟨kind, hs⟩ := check_eq_ok_iff.1 hcheck
  have hrate := (Single.isFinite_iff s.rate).1 hfinite
  have hpositive := (Single.not_le_zero_iff s.rate).2 hs.rate
  rw [Single.le_zero_iff_value hrate] at hpositive
  exact ⟨hrate, (lt_of_not_ge hpositive).le⟩

end ScheduleSpec

/-- A plateau schedule of an accepted specification never raises its rate just if none of its cuts
would. Where its rate and its factor are finite, that is so just if its first cut leaves a rate from
zero to the initial one, and for a factor from zero to one just if the lowest rate is not above the
initial one. -/
theorem LoopSpec.plateau_neverRaises_iff {l : LoopSpec} {s : ScheduleSpec}
    (hcheck : l.check = .ok ()) (hs : s ∈ l.schedules) (hname : lowercase s.name = "plateau") :
    ∃ built, s.build = .ok built ∧
      (built.schedule.NeverRaises ↔ ∀ n, s.cutTo^[n + 1] s.rate ≤ s.cutTo^[n] s.rate) ∧
      (Single.isFinite s.rate = true → Single.isFinite (s.single "factor" 0.1) = true →
        (built.schedule.NeverRaises ↔ 0.0 ≤ s.cutTo s.rate ∧ s.cutTo s.rate ≤ s.rate)) ∧
      (Single.isFinite s.rate = true → Single.isFraction (s.single "factor" 0.1) = true →
        (built.schedule.NeverRaises ↔
          (s.single "lr_min" 0.0).isNaN = true ∨ s.single "lr_min" 0.0 ≤ s.rate)) := by
  obtain ⟨built, hbuild, hschedule⟩ := ScheduleSpec.build_plateau hname
  have hcuts : built.schedule.NeverRaises ↔
      ∀ n, s.cutTo^[n + 1] s.rate ≤ s.cutTo^[n] s.rate := by
    rw [hschedule]
    exact PlateauSchedule.neverRaises_iff (s := s.plateau) rfl rfl
  have hlower : Single.isFinite s.rate = true → Single.isFinite (s.single "factor" 0.1) = true →
      (built.schedule.NeverRaises ↔ 0.0 ≤ s.cutTo s.rate ∧ s.cutTo s.rate ≤ s.rate) := by
    intro hrate hfactor
    have hamount := ScheduleSpec.isAmount_of_check ((check_eq_ok_iff.1 hcheck).2.1 s hs) hrate
    exact hcuts.trans (PlateauSchedule.cuts_lower_iff (s := s.plateau)
      ((Single.isFinite_iff _).1 hfactor) hamount)
  refine ⟨built, hbuild, hcuts, hlower, fun hrate hfactor => ?_⟩
  have hamount := ScheduleSpec.isAmount_of_check ((check_eq_ok_iff.1 hcheck).2.1 s hs) hrate
  have hfinite := ((Single.isFraction_iff_value _).1 hfactor).1.finite
  exact (hlower hrate ((Single.isFinite_iff _).2 hfinite)).trans
    (PlateauSchedule.cutTo_fraction_iff (s := s.plateau) hamount hfactor)

namespace LoopSpec

def fallingRate : LoopSpec :=
  { schedules := [{ name := "Plateau", rate := 0.5, monitor := some "loss",
                    parameters := [("factor", .real 0.5), ("lr_min", .real 0.1)] }] }

theorem plateau_neverRaises_fallingRate :
    fallingRate.check = .ok () ∧ ∃ s ∈ fallingRate.schedules, lowercase s.name = "plateau" ∧
      Single.isFinite s.rate = true ∧ Single.isFraction (s.single "factor" 0.1) = true ∧
      ∃ built, s.build = .ok built ∧ built.schedule.NeverRaises := by
  have hcheck : fallingRate.check = .ok () := by rfl
  have hname : lowercase "Plateau" = "plateau" := by decide +kernel
  have hrate : Single.isFinite 0.5 = true := by decide +kernel
  refine ⟨hcheck, _, List.mem_cons_self, hname, hrate, by decide +kernel, ?_⟩
  obtain ⟨built, hbuild, -, -, hiff⟩ :=
    plateau_neverRaises_iff hcheck List.mem_cons_self hname
  exact ⟨built, hbuild, (hiff hrate (by decide +kernel)).2 (.inr (by decide +kernel))⟩

def risingRate : LoopSpec :=
  { schedules := [{ name := "plateau", rate := 0.5, monitor := some "loss",
                    parameters := [("patience", .natural 0), ("lr_min", .real 1.0)] }] }

/-- The first observation improves, the second one cuts the rate from a half to one. -/
theorem plateau_risingRate_raises :
    risingRate.check = .ok () ∧ ∃ s ∈ risingRate.schedules, lowercase s.name = "plateau" ∧
      ∃ built, s.build = .ok built ∧
        (built.schedule.advanceAll [some 1.0]).rate = 0.5 ∧
        (built.schedule.advanceAll [some 1.0, some 1.0]).rate = 1.0 ∧
        ¬ (built.schedule.advanceAll [some 1.0, some 1.0]).rate ≤
          (built.schedule.advanceAll [some 1.0]).rate := by
  have hname : lowercase "plateau" = "plateau" := by decide +kernel
  exact ⟨by rfl, _, List.mem_cons_self, hname, _, rfl, by decide +kernel, by decide +kernel,
    by decide +kernel⟩

end LoopSpec

end TrainingLoop
