import TrainingLoop.Proofs.Number.Order
/-!
# Products of numbers

A product of finite numbers is rounded, and then stored, as an infinity if it is past the end of the
format. Both keep the order and the sign, so that products do.
-/

namespace TrainingLoop

open Float.Model (Format UnpackedFloat totalExponent)
open Float.Model.UnpackedFloat

namespace Unpacked

variable {S : Format} {u v w : UnpackedFloat}

/-! ## Storing -/

/-- What rounding gives: a number of the format but for its exponent, which may be too large. -/
inductive IsRounded (S : Format) : UnpackedFloat → Prop
  | zero (s : Sign) : IsRounded S (.zero s)
  | finite (s : Sign) {m : Nat} {e : Int} (h : IsCanonical S m e) :
      IsRounded S (.finite s m e h.positive)

def stored (S : Format) (u : UnpackedFloat) : UnpackedFloat := unpack S (pack S u)

theorem stored_zero (s : Sign) : stored S (.zero s) = .zero s := unpack_packedZero

theorem stored_infinity (s : Sign) : stored S (.infinity s) = .infinity s := unpack_packedInfinity s

theorem stored_of_le {s : Sign} {m : Nat} {e : Int} (h : IsCanonical S m e)
    (hle : e ≤ greatestExponent S) :
    stored S (.finite s m e h.positive) = .finite s m e h.positive :=
  unpack_pack (.finite s h hle)

theorem stored_of_gt {s : Sign} {m : Nat} {e : Int} (hm : 0 < m) (hgt : greatestExponent S < e) :
    stored S (.finite s m e hm) = .infinity s := by
  have hbias := exponentBias_succ S
  have hover : 2 ^ S.exponentBits ≤
      (e + S.exponentBias + S.mantissaBitsWithoutImplicit).toNat + 1 := by
    unfold greatestExponent at hgt
    omega
  have hpack : pack S (.finite s m e hm) = packedInfinity S s := by
    simp only [pack, hover, if_true]
  rw [stored, hpack, unpack_packedInfinity]

/-- A rounded number is stored as it is, or as the infinity that it is past. -/
theorem IsRounded.stored_cases (hu : IsRounded S u) :
    IsFinite S u ∧ stored S u = u ∨
    ∃ s m e, ∃ h : IsCanonical S m e, greatestExponent S < e ∧ u = .finite s m e h.positive ∧
      stored S u = .infinity s := by
  cases hu with
  | zero s => exact .inl ⟨.zero s, stored_zero s⟩
  | @finite s m e h =>
      rcases le_or_gt e (greatestExponent S) with hle | hgt
      · exact .inl ⟨.finite s h hle, stored_of_le h hle⟩
      · exact .inr ⟨s, m, e, h, hgt, rfl, stored_of_gt h.positive hgt⟩

/-- What does not fit into the format is larger than what does. -/
theorem IsFinite.lt_of_gt {m : Nat} {e : Int} (hu : IsFinite S u) (h : IsCanonical S m e)
    (hgt : greatestExponent S < e) : |value u| < m * 2 ^ e := by
  cases hu with
  | zero s =>
      rw [value_zero, abs_zero]
      exact magnitude_pos h.positive
  | finite s h' hle =>
      rw [abs_value_finite]
      exact h'.lt_of_exponent h (lt_of_le_of_lt hle hgt)

theorem IsRounded.isFinite_of_le (hu : IsRounded S u) (hv : IsFinite S v)
    (hle : |value u| ≤ |value v|) : IsFinite S u := by
  cases hu with
  | zero s => exact .zero s
  | finite s h =>
      rw [abs_value_finite] at hle
      exact .finite s h (le_of_not_gt fun hgt => (hv.lt_of_gt h hgt).not_ge hle)

theorem IsFinite.le_stored {t : Sign} {m : Nat} {e : Int} (hu : IsFinite S u)
    (h : IsCanonical S m e) (hgt : greatestExponent S < e)
    (hle : value u ≤ value (.finite t m e h.positive)) : u.le (.infinity t) = true := by
  have hlarge := hu.lt_of_gt h hgt
  cases t with
  | positive => exact le_infinity hu.ne_notANumber
  | negative =>
      rw [value_negative] at hle
      have := neg_abs_le (value u)
      linarith

theorem IsFinite.stored_le {s : Sign} {m : Nat} {e : Int} (hv : IsFinite S v)
    (h : IsCanonical S m e) (hgt : greatestExponent S < e)
    (hle : value (.finite s m e h.positive) ≤ value v) :
    (UnpackedFloat.infinity s).le v = true := by
  have hlarge := hv.lt_of_gt h hgt
  cases s with
  | negative => exact negative_infinity_le hv.ne_notANumber
  | positive =>
      rw [value_positive] at hle
      have := le_abs_self (value v)
      linarith

theorem IsRounded.stored_mono (hu : IsRounded S u) (hv : IsRounded S v)
    (hle : value u ≤ value v) : (stored S u).le (stored S v) = true := by
  rcases hu.stored_cases with ⟨hfinite, hsame⟩ | ⟨s, m, e, h, hgt, rfl, hinfinite⟩
  · rcases hv.stored_cases with ⟨hfinite', hsame'⟩ | ⟨t, m', e', h', hgt', rfl, hinfinite'⟩
    · rw [hsame, hsame']
      exact (hfinite.le_iff hfinite').2 hle
    · rw [hsame, hinfinite']
      exact hfinite.le_stored h' hgt' hle
  · rcases hv.stored_cases with ⟨hfinite', hsame'⟩ | ⟨t, m', e', h', hgt', rfl, hinfinite'⟩
    · rw [hinfinite, hsame']
      exact hfinite'.stored_le h hgt hle
    · rw [hinfinite, hinfinite']
      have hpos := magnitude_pos (e := e) h.positive
      have hpos' := magnitude_pos (e := e') h'.positive
      cases s with
      | negative => exact negative_infinity_le nofun
      | positive =>
          cases t with
          | positive => rfl
          | negative =>
              rw [value_positive, value_negative] at hle
              linarith

/-! ## Rounded products -/

theorem magnitude_mul (m m' : Nat) (e e' : Int) :
    ((m * m' : ℕ) : ℚ) * 2 ^ (e + e') = m * 2 ^ e * (m' * 2 ^ e') := by
  rw [zpow_add₀ two_ne_zero]
  push_cast
  ring

theorem value_finite (s : Sign) {m : Nat} {e : Int} (hm : 0 < m) :
    value (.finite s m e hm) = (s.apply 1 : ℤ) * (m * 2 ^ e) := by
  cases s with
  | positive =>
      rw [value_positive]
      exact (one_mul _).symm
  | negative =>
      rw [value_negative]
      exact (neg_one_mul _).symm

theorem apply_mul (s t : Sign) :
    (((s * t).apply 1 : ℤ) : ℚ) = (s.apply 1 : ℤ) * (t.apply 1 : ℤ) := by
  cases s <;> cases t <;> decide +kernel

theorem abs_apply (s : Sign) : |((s.apply 1 : ℤ) : ℚ)| = 1 := by
  cases s <;> decide +kernel

theorem round_value (s : Sign) {m : Nat} {e : Int} (hm : 0 < m)
    (he : e ≤ S.targetExponent (totalExponent m e)) :
    IsRounded S (roundWithAccuracy S s m e .exact) ∧
      value (roundWithAccuracy S s m e .exact) = (s.apply 1 : ℤ) * roundedValue S m e := by
  rcases roundWithAccuracy_exact s hm he with ⟨hnone, hzero⟩ | ⟨k, x, hk, hfinite, hc, hvalue⟩
  · rw [hzero, roundedValue, hnone, Nat.cast_zero, zero_mul, mul_zero]
    exact ⟨.zero s, rfl⟩
  · rw [hfinite, value_finite, hvalue]
    exact ⟨.finite s hc, rfl⟩

theorem mul_value {m m' : Nat} {e e' : Int} (s t : Sign) (h : IsCanonical S m e)
    (h' : IsCanonical S m' e') :
    IsRounded S (UnpackedFloat.mul S (.finite s m e h.positive) (.finite t m' e' h'.positive)) ∧
      value (UnpackedFloat.mul S (.finite s m e h.positive) (.finite t m' e' h'.positive)) =
        (s.apply 1 : ℤ) * (t.apply 1 : ℤ) * roundedValue S (m * m') (e + e') := by
  rw [← apply_mul]
  exact round_value (s * t) (Nat.mul_pos h.positive h'.positive) (h.mul_exponent_le h')

theorem IsFinite.mul_isRounded (hu : IsFinite S u) (hv : IsFinite S v) :
    IsRounded S (UnpackedFloat.mul S u v) := by
  cases hu with
  | zero s => cases hv <;> exact .zero _
  | finite s h hle =>
      cases hv with
      | zero t => exact .zero _
      | finite t h' hle' => exact (mul_value s t h h').1

theorem IsFinite.mul_value_eq (hu : IsFinite S u) (hv : IsFinite S v) :
    ∃ c : ℚ, 0 ≤ c ∧ value (UnpackedFloat.mul S u v) = c * (value u * value v) := by
  cases hu with
  | zero s => cases hv <;> exact ⟨0, le_refl _, (zero_mul _).symm⟩
  | @finite s m e h hle =>
      cases hv with
      | zero t => exact ⟨0, le_refl _, (zero_mul _).symm⟩
      | @finite t m' e' h' hle' =>
          have hpos : (0 : ℚ) < m * 2 ^ e * (m' * 2 ^ e') :=
            mul_pos (magnitude_pos h.positive) (magnitude_pos h'.positive)
          refine ⟨roundedValue S (m * m') (e + e') / (m * 2 ^ e * (m' * 2 ^ e')),
            div_nonneg (roundedValue_nonneg _ _ _) hpos.le, ?_⟩
          rw [(mul_value s t h h').2, value_finite, value_finite]
          calc (s.apply 1 : ℤ) * (t.apply 1 : ℤ) * roundedValue S (m * m') (e + e')
            _ = (s.apply 1 : ℤ) * (t.apply 1 : ℤ) *
                (roundedValue S (m * m') (e + e') / (m * 2 ^ e * (m' * 2 ^ e')) *
                  (m * 2 ^ e * (m' * 2 ^ e'))) := by rw [div_mul_cancel₀ _ hpos.ne']
            _ = roundedValue S (m * m') (e + e') / (m * 2 ^ e * (m' * 2 ^ e')) *
                ((s.apply 1 : ℤ) * (m * 2 ^ e) * ((t.apply 1 : ℤ) * (m' * 2 ^ e'))) := by ring

theorem IsFinite.mul_value_nonneg (hu : IsFinite S u) (hv : IsFinite S v)
    (hsign : 0 ≤ value u * value v) : 0 ≤ value (UnpackedFloat.mul S u v) := by
  obtain ⟨c, hc, hvalue⟩ := hu.mul_value_eq hv
  rw [hvalue]
  exact Rat.mul_nonneg hc hsign

theorem IsFinite.mul_value_nonpos (hu : IsFinite S u) (hv : IsFinite S v)
    (hsign : value u * value v ≤ 0) : value (UnpackedFloat.mul S u v) ≤ 0 := by
  obtain ⟨c, hc, hvalue⟩ := hu.mul_value_eq hv
  rw [hvalue]
  exact mul_nonpos_of_nonneg_of_nonpos hc hsign

theorem IsFinite.mul_value_mono (hu : IsFinite S u) (hv : IsFinite S v) (hw : IsFinite S w)
    (hu0 : 0 ≤ value u) (hw0 : 0 ≤ value w) (hle : value u ≤ value v) :
    value (UnpackedFloat.mul S u w) ≤ value (UnpackedFloat.mul S v w) := by
  have hv0 : 0 ≤ value v := hu0.trans hle
  have hnonneg := hv.mul_value_nonneg hw (Rat.mul_nonneg hv0 hw0)
  cases hw with
  | zero r => cases hu <;> exact hnonneg
  | @finite r n d hr hrle =>
      obtain rfl := (value_finite_nonneg _).1 hw0
      cases hu with
      | zero s => exact hnonneg
      | @finite s m e h hsle =>
          obtain rfl := (value_finite_nonneg _).1 hu0
          cases hv with
          | zero t =>
              rw [value_positive, value_zero] at hle
              exact absurd hle (magnitude_pos h.positive).not_ge
          | @finite t m' e' h' htle =>
              obtain rfl := (value_finite_nonneg _).1 hv0
              have hexact : ((m * n : ℕ) : ℚ) * 2 ^ (e + d) ≤ (m' * n : ℕ) * 2 ^ (e' + d) := by
                rw [magnitude_mul, magnitude_mul]
                exact mul_le_mul_of_nonneg_right hle (magnitude_pos hr.positive).le
              rw [(mul_value _ _ h hr).2, (mul_value _ _ h' hr).2]
              refine mul_le_mul_of_nonneg_left ?_ (by decide +kernel)
              exact roundedValue_mono (Nat.mul_pos h.positive hr.positive)
                (Nat.mul_pos h'.positive hr.positive) (h.mul_exponent_le hr)
                (h'.mul_exponent_le hr) hexact

/-- A product with a number of magnitude one or less is a number of no larger magnitude. -/
theorem IsFinite.mul (hu : IsFinite S u) (hv : IsFinite S v) (hle : |value v| ≤ 1) :
    IsFinite S (mul S u v) ∧ |value (mul S u v)| ≤ |value u| := by
  have hbound : |value (UnpackedFloat.mul S u v)| ≤ |value u| := by
    cases hu with
    | zero s => cases hv <;> exact le_refl _
    | @finite s m e h hbound =>
        cases hv with
        | zero t => exact abs_zero (α := ℚ) ▸ abs_nonneg _
        | @finite t m' e' h' hbound' =>
            rw [abs_value_finite] at hle ⊢
            have hexact : ((m * m' : ℕ) : ℚ) * 2 ^ (e + e') ≤ m * 2 ^ e := by
              rw [magnitude_mul]
              exact mul_le_of_le_one_right (magnitude_pos h.positive).le hle
            rw [(mul_value s t h h').2, abs_mul, abs_mul, abs_apply, abs_apply, one_mul, one_mul,
              abs_of_nonneg (roundedValue_nonneg _ _ _), ← h.roundedValue_eq]
            exact roundedValue_mono (Nat.mul_pos h.positive h'.positive) h.positive
              (h.mul_exponent_le h') h.target.ge hexact
  exact ⟨(hu.mul_isRounded hv).isFinite_of_le hu hbound, hbound⟩

theorem mul_positive (s : Sign) : s * .positive = s := by
  cases s <;> rfl

theorem mul_one_eq (hu : Unpacked S u) : UnpackedFloat.mul S u (one S) = u := by
  cases hu with
  | notANumber => rfl
  | infinity s => exact congrArg UnpackedFloat.infinity (mul_positive s)
  | zero s => exact congrArg UnpackedFloat.zero (mul_positive s)
  | finite s h hle =>
    rw [one, UnpackedFloat.mul, mul_positive]
    exact h.roundWithAccuracy_eq s S.mantissaBitsWithoutImplicit

end Unpacked

/-! ## Products of 32-bit numbers -/

namespace Single

open Unpacked

variable {x y f : Float32}

theorem isFinite_iff (x : Float32) : isFinite x = true ↔ IsFinite .binary32 (number x) := by
  change (number x).isFinite = true ↔ _
  have hx := unpacked x
  generalize number x = u at hx ⊢
  cases hx with
  | notANumber => exact ⟨nofun, nofun⟩
  | infinity s => exact ⟨nofun, nofun⟩
  | zero s => exact ⟨fun _ => .zero s, fun _ => rfl⟩
  | finite s h hle => exact ⟨fun _ => .finite s h hle, fun _ => rfl⟩

theorem number_mul (x y : Float32) :
    number (x * y) = stored .binary32 (mul .binary32 (number x) (number y)) := rfl

theorem mul_le_mul (hx : IsAmount x) (hy : IsAmount y) (hf : IsAmount f) (hle : x ≤ y) :
    x * f ≤ y * f := by
  rw [le_iff_value hx.finite hy.finite] at hle
  rw [le_iff, number_mul, number_mul]
  refine (hx.finite.mul_isRounded hf.finite).stored_mono (hy.finite.mul_isRounded hf.finite) ?_
  exact hx.finite.mul_value_mono hy.finite hf.finite hx.nonneg hf.nonneg hle

theorem zero_le_mul (hx : IsFinite .binary32 (number x)) (hf : IsFinite .binary32 (number f))
    (hsign : 0 ≤ value x * value f) : 0.0 ≤ x * f := by
  rw [le_iff, number_mul, number_zero, ← stored_zero]
  exact (IsRounded.zero _).stored_mono (hx.mul_isRounded hf) (hx.mul_value_nonneg hf hsign)

theorem mul_le_zero (hx : IsFinite .binary32 (number x)) (hf : IsFinite .binary32 (number f))
    (hsign : value x * value f ≤ 0) : x * f ≤ 0.0 := by
  rw [le_iff, number_mul, number_zero, ← stored_zero]
  exact (hx.mul_isRounded hf).stored_mono (IsRounded.zero _) (hx.mul_value_nonpos hf hsign)

theorem mul_not_nan (hx : IsFinite .binary32 (number x)) (hf : IsFinite .binary32 (number f)) :
    ¬ (x * f).isNaN = true := by
  rcases le_total 0 (value x * value f) with hsign | hsign
  · exact (not_nan_of_le (zero_le_mul hx hf hsign)).2
  · exact (not_nan_of_le (mul_le_zero hx hf hsign)).1

/-- A product of two numbers below zero is not below zero, also where one of them is infinite. -/
theorem zero_le_mul_of_neg (hx : ¬ x.isNaN = true) (hbelow : ¬ 0.0 ≤ x)
    (hf : IsFinite .binary32 (number f)) (hf0 : value f < 0) : 0.0 ≤ x * f := by
  rcases (unpacked x).finite_or with hnumber | hnumber | hnumber | hfinite
  · exact absurd ((isNaN_iff x).2 hnumber) hx
  · rw [le_iff, number_zero, hnumber] at hbelow
    exact absurd rfl hbelow
  · rw [le_iff, number_mul, hnumber, number_zero]
    unfold value at hf0
    generalize number f = v at hf hf0 ⊢
    cases hf with
    | zero s => exact absurd hf0 (lt_irrefl _)
    | finite s h hle =>
        cases s with
        | positive => exact absurd hf0 (magnitude_pos h.positive).not_gt
        | negative =>
            change (UnpackedFloat.zero .positive).le (stored .binary32 (.infinity .positive)) = true
            rw [stored_infinity]
            rfl
  · refine zero_le_mul hfinite hf ?_
    rw [zero_le_iff_value hfinite] at hbelow
    exact mul_nonneg_of_nonpos_of_nonpos (lt_of_not_ge hbelow).le hf0.le

/-- A fraction of an amount is an amount and no more. -/
theorem IsAmount.mul_fraction {x f : Float32} (hx : IsAmount x) (hf : isFraction f = true) :
    IsAmount (x * f) ∧ value (x * f) ≤ value x := by
  obtain ⟨hamount, hle⟩ := (isFraction_iff_value f).1 hf
  have hbound : |Unpacked.value (number f)| ≤ 1 := hamount.abs_eq.trans_le hle
  obtain ⟨hfinite, hsmaller⟩ := hx.finite.mul hamount.finite hbound
  have hnonneg := hx.finite.mul_value_nonneg hamount.finite
    (mul_nonneg hx.nonneg hamount.nonneg)
  obtain ⟨hproduct, hvalue⟩ := isAmount_pack hfinite hnonneg
  rw [abs_of_nonneg hnonneg, hx.abs_eq] at hsmaller
  exact ⟨hproduct, hvalue.trans_le hsmaller⟩

theorem number_mul_one (x : Float32) : number (x * 1.0) = number x := by
  change number (.ofModel (.pack (mul .binary32 (number x) (number 1.0)))) = _
  rw [number_one, Unpacked.mul_one_eq (unpacked x), number_pack (unpacked x)]

theorem IsAmount.mul_one {x : Float32} (hx : IsAmount x) :
    IsAmount (x * 1.0) ∧ value (x * 1.0) = value x := by
  have hnumber := number_mul_one x
  have hvalue : value (x * 1.0) = value x := congrArg Unpacked.value hnumber
  exact ⟨⟨hnumber.symm ▸ hx.finite, hvalue.symm ▸ hx.nonneg⟩, hvalue⟩

end Single

end TrainingLoop
