import TrainingLoop.Proofs.Number.Single
/-!
# The order of the numbers

`≤` on 32-bit numbers holds of no NaN, and takes the two zeros for equal. Among the other numbers it
is a total order, that of their levels, at the ends of which stand the infinities.
-/

namespace TrainingLoop

open Float.Model (Format UnpackedFloat)
open Float.Model.UnpackedFloat

namespace Unpacked

variable {S : Format} {u v : UnpackedFloat}

/-! ## The ends of the order -/

theorem not_le_notANumber (u : UnpackedFloat) : ¬ u.le .notANumber = true := by
  cases u <;> exact nofun

theorem not_notANumber_le (u : UnpackedFloat) : ¬ UnpackedFloat.notANumber.le u = true := nofun

theorem le_infinity (hu : u ≠ .notANumber) : u.le (.infinity .positive) = true := by
  cases u with
  | notANumber => exact absurd rfl hu
  | infinity s => cases s <;> rfl
  | zero s => rfl
  | finite s m e h => cases s <;> rfl

theorem negative_infinity_le (hu : u ≠ .notANumber) :
    (UnpackedFloat.infinity .negative).le u = true := by
  cases u with
  | notANumber => exact absurd rfl hu
  | infinity s => cases s <;> rfl
  | zero s => rfl
  | finite s m e h => cases s <;> rfl

/-! ## Levels -/

/-- Where a number stands among all numbers. NaN stands nowhere, and is given the level of zero. -/
noncomputable def level : UnpackedFloat → EReal
  | .infinity .positive => ⊤
  | .infinity .negative => ⊥
  | u => ((value u : ℝ) : EReal)

theorem IsFinite.level_eq (hu : IsFinite S u) : level u = ((value u : ℝ) : EReal) := by
  cases hu <;> rfl

theorem IsFinite.ne_notANumber (hu : IsFinite S u) : u ≠ .notANumber := by
  cases hu <;> nofun

theorem finite_or (hu : Unpacked S u) :
    u = .notANumber ∨ u = .infinity .positive ∨ u = .infinity .negative ∨ IsFinite S u := by
  cases hu with
  | notANumber => exact .inl rfl
  | infinity s =>
      cases s with
      | positive => exact .inr (.inl rfl)
      | negative => exact .inr (.inr (.inl rfl))
  | zero s => exact .inr (.inr (.inr (.zero s)))
  | finite s h hle => exact .inr (.inr (.inr (.finite s h hle)))

theorem le_iff_level (hu : Unpacked S u) (hv : Unpacked S v) (hu' : u ≠ .notANumber)
    (hv' : v ≠ .notANumber) : u.le v = true ↔ level u ≤ level v := by
  rcases hu.finite_or with rfl | rfl | rfl | hu
  · exact absurd rfl hu'
  · rcases hv.finite_or with rfl | rfl | rfl | hv
    · exact absurd rfl hv'
    · exact ⟨fun _ => le_refl _, fun _ => rfl⟩
    · exact ⟨nofun, fun hle => absurd hle (not_le_of_gt bot_lt_top)⟩
    · rw [hv.level_eq]
      constructor
      · intro hle
        cases hv <;> exact absurd hle nofun
      · intro hle
        exact absurd hle (not_le_of_gt (EReal.coe_lt_top _))
  · exact ⟨fun _ => bot_le, fun _ => negative_infinity_le hv'⟩
  · rcases hv.finite_or with rfl | rfl | rfl | hv
    · exact absurd rfl hv'
    · exact ⟨fun _ => le_top, fun _ => le_infinity hu'⟩
    · rw [hu.level_eq]
      constructor
      · intro hle
        cases hu with
        | zero s => exact absurd hle nofun
        | finite s h hbound => cases s <;> exact absurd hle nofun
      · intro hle
        exact absurd hle (not_le_of_gt (EReal.bot_lt_coe _))
    · rw [hu.le_iff hv, hu.level_eq, hv.level_eq, EReal.coe_le_coe_iff, Rat.cast_le]

end Unpacked

namespace Single

open Unpacked

noncomputable def level (x : Float32) : EReal := Unpacked.level (number x)

theorem isNaN_iff (x : Float32) : x.isNaN = true ↔ number x = .notANumber := by
  change (number x).isNaN = true ↔ _
  cases number x <;> simp [UnpackedFloat.isNaN]

/-- NaN is in no order, and the other numbers are ordered by their levels. -/
theorem le_iff_level (x y : Float32) :
    x ≤ y ↔ ¬ x.isNaN = true ∧ ¬ y.isNaN = true ∧ level x ≤ level y := by
  rw [le_iff, isNaN_iff, isNaN_iff]
  constructor
  · intro hle
    have hx : number x ≠ .notANumber := fun hnan =>
      not_notANumber_le _ (hnan ▸ hle)
    have hy : number y ≠ .notANumber := fun hnan =>
      not_le_notANumber _ (hnan ▸ hle)
    exact ⟨hx, hy, (Unpacked.le_iff_level (unpacked x) (unpacked y) hx hy).1 hle⟩
  · rintro ⟨hx, hy, hle⟩
    exact (Unpacked.le_iff_level (unpacked x) (unpacked y) hx hy).2 hle

section Order

variable {x y z : Float32}

theorem not_nan_of_le (hle : x ≤ y) : ¬ x.isNaN = true ∧ ¬ y.isNaN = true := by
  obtain ⟨hx, hy, -⟩ := (le_iff_level x y).1 hle
  exact ⟨hx, hy⟩

theorem le_self (hx : ¬ x.isNaN = true) : x ≤ x :=
  (le_iff_level x x).2 ⟨hx, hx, le_refl _⟩

theorem le_trans (hxy : x ≤ y) (hyz : y ≤ z) : x ≤ z := by
  obtain ⟨hx, -, hlow⟩ := (le_iff_level x y).1 hxy
  obtain ⟨-, hz, hhigh⟩ := (le_iff_level y z).1 hyz
  exact (le_iff_level x z).2 ⟨hx, hz, hlow.trans hhigh⟩

theorem le_of_not_le (hx : ¬ x.isNaN = true) (hy : ¬ y.isNaN = true) (hnot : ¬ x ≤ y) : y ≤ x := by
  refine (le_iff_level y x).2 ⟨hy, hx, ?_⟩
  rcases le_total (level x) (level y) with hle | hle
  · exact absurd ((le_iff_level x y).2 ⟨hx, hy, hle⟩) hnot
  · exact hle

theorem not_nan_lt (x : Float32) : ¬ (0.0 / 0.0 : Float32) < x := by
  have hnan : number (0.0 / 0.0) = .notANumber := by rfl
  intro hlt
  have hless : (number (0.0 / 0.0)).lt (number x) = true := of_decide_eq_true hlt
  rw [hnan] at hless
  exact absurd hless nofun

/-! ## The larger of two numbers -/

theorem larger_eq (x y : Float32) : larger x y = if x.isNaN = true ∨ x ≤ y then y else x := by
  simp only [larger, Bool.or_eq_true, decide_eq_true_iff, ge_iff_le]

theorem larger_le_iff (hx : ¬ x.isNaN = true) :
    larger x y ≤ z ↔ x ≤ z ∧ (y.isNaN = true ∨ y ≤ z) := by
  rw [larger_eq]
  by_cases hxy : x ≤ y
  · rw [if_pos (.inr hxy)]
    constructor
    · intro hyz
      exact ⟨le_trans hxy hyz, .inr hyz⟩
    · rintro ⟨-, hnan | hyz⟩
      · exact absurd hnan (not_nan_of_le hxy).2
      · exact hyz
  · rw [if_neg fun hor => hor.elim hx hxy]
    refine ⟨fun hxz => ⟨hxz, ?_⟩, And.left⟩
    by_cases hnan : y.isNaN = true
    · exact .inl hnan
    · exact .inr (le_trans (le_of_not_le hx hnan hxy) hxz)

theorem le_larger_iff (hx : ¬ x.isNaN = true) : z ≤ larger x y ↔ z ≤ x ∨ z ≤ y := by
  rw [larger_eq]
  by_cases hxy : x ≤ y
  · rw [if_pos (.inr hxy)]
    exact ⟨.inr, fun hor => hor.elim (fun hzx => le_trans hzx hxy) id⟩
  · rw [if_neg fun hor => hor.elim hx hxy]
    refine ⟨.inl, fun hor => hor.elim id fun hzy => ?_⟩
    have hy := (not_nan_of_le hzy).2
    exact le_trans hzy (le_of_not_le hx hy hxy)

end Order

end Single

end TrainingLoop
