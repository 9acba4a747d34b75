import TrainingLoop.Proofs.Number.Products
/-!
# Powers of fractions

A number from zero to one stays there under repeated squaring, so a power of it with an exponent
from zero on never raises what it is multiplied with. A negative exponent gives the reciprocal of
such a power. At `-2 ^ 31` that is infinite for every fraction below one, since 31 squarings of the
largest of them come to zero.
-/

namespace TrainingLoop

open Float.Model (Format UnpackedFloat)
open Float.Model.UnpackedFloat

namespace Unpacked

variable {S : Format} {u v : UnpackedFloat}

theorem mul_comm_of_finite (hu : IsFinite S u) (hv : IsFinite S v) :
    UnpackedFloat.mul S u v = UnpackedFloat.mul S v u := by
  have hsign (s t : Sign) : s * t = t * s := by cases s <;> cases t <;> rfl
  cases hu with
  | zero s => cases hv <;> exact congrArg UnpackedFloat.zero (hsign _ _)
  | @finite s m e h hle =>
      cases hv with
      | zero t => exact congrArg UnpackedFloat.zero (hsign _ _)
      | @finite t m' e' h' hle' =>
          simp only [UnpackedFloat.mul]
          rw [hsign s t, Nat.mul_comm m m', Int.add_comm e e']

theorem IsFinite.not_infinity_le (hu : IsFinite S u) :
    ¬ (UnpackedFloat.infinity .positive).le u = true := by
  cases hu <;> nofun

theorem IsFinite.square_eq_zero (hu : IsFinite S u) (hzero : value (UnpackedFloat.mul S u u) = 0) :
    UnpackedFloat.mul S u u = .zero .positive := by
  have hsign (s : Sign) : s * s = .positive := by cases s <;> rfl
  cases hu with
  | zero s => exact congrArg UnpackedFloat.zero (hsign s)
  | @finite s m e h hle =>
      rw [UnpackedFloat.mul, hsign] at hzero ⊢
      rcases roundWithAccuracy_exact .positive (Nat.mul_pos h.positive h.positive)
        (h.mul_exponent_le h) with ⟨-, hround⟩ | ⟨m', e', hm', hround, -⟩
      · exact hround
      · rw [hround, value_positive] at hzero
        exact absurd hzero (magnitude_pos hm').ne'

end Unpacked

namespace Single

open Unpacked

variable {x y base acc : Float32}

/-- What holds of the base and of what is gathered so far, and passes to products, holds of the
whole power. -/
theorem powerLoop_closed {P : Float32 → Prop} (hmul : ∀ {x y}, P x → P y → P (x * y))
    (fuel n : Nat) (hbase : P base) (hacc : P acc) : P (powerLoop fuel n base acc) := by
  induction fuel generalizing n base acc with
  | zero => exact hacc
  | succ fuel ih =>
      have hnext : P (if n % 2 = 1 then acc * base else acc) := by
        split
        · exact hmul hacc hbase
        · exact hacc
      rw [powerLoop]
      split
      · exact hnext
      · exact ih _ (hmul hbase hbase) hnext

/-! ## Fractions -/

theorem isFraction_mul (hx : isFraction x = true) (hy : isFraction y = true) :
    isFraction (x * y) = true := by
  obtain ⟨hamount, hle⟩ := (isFraction_iff_value x).1 hx
  obtain ⟨hproduct, hless⟩ := hamount.mul_fraction hy
  exact (isFraction_iff_value _).2 ⟨hproduct, hless.trans hle⟩

theorem power_isFraction {n : Int} (hx : isFraction x = true) (hn : 0 ≤ n) :
    isFraction (power x n) = true := by
  rw [power, if_neg hn.not_gt]
  exact powerLoop_closed (P := fun y => isFraction y = true) isFraction_mul _ _ hx isFraction_one

/-! ## Powers of one -/

theorem number_mul_of_one (hy : number y = one .binary32) : number (x * y) = number x := by
  rw [number_mul, hy, mul_one_eq (unpacked x)]
  exact unpack_pack (unpacked x)

theorem number_div (x y : Float32) :
    number (x / y) = stored .binary32 (div .binary32 (number x) (number y)) := rfl

theorem number_power_of_one (hx : number x = one .binary32) (n : Int) :
    number (power x n) = one .binary32 := by
  have hloop : number (powerLoop (n.natAbs + 1) n.natAbs x 1.0) = one .binary32 :=
    powerLoop_closed (P := fun y => number y = one .binary32)
      (fun hy hz => (number_mul_of_one hz).trans hy) _ _ hx number_one
  rw [power]
  split
  · rw [number_div, number_one, hloop]
    rfl
  · exact hloop

theorem isCanonical_one : IsCanonical .binary32 (2 ^ 23) (-23) :=
  ⟨by decide, by decide, by decide, .inl (by decide)⟩

theorem IsAmount.zero_or_positive (hx : IsAmount x) :
    (∃ s, number x = .zero s) ∨
      ∃ m e, ∃ h : IsCanonical .binary32 m e, number x = .finite .positive m e h.positive := by
  obtain ⟨hfinite, hnonneg⟩ := hx
  rw [value] at hnonneg
  generalize number x = u at hfinite hnonneg ⊢
  cases hfinite with
  | zero s => exact .inl ⟨s, rfl⟩
  | @finite s m e h hle =>
      obtain rfl := (value_finite_nonneg _).1 hnonneg
      exact .inr ⟨m, e, h, rfl⟩

theorem number_of_pos (hpos : 0.0 < x) : number x = .infinity .positive ∨
    ∃ m e, ∃ h : IsCanonical .binary32 m e, number x = .finite .positive m e h.positive := by
  have hlt : (UnpackedFloat.zero .positive).lt (number x) = true :=
    number_zero ▸ of_decide_eq_true hpos
  have hx := unpacked x
  generalize number x = u at hlt hx ⊢
  cases hx with
  | notANumber => exact absurd hlt nofun
  | zero s => cases s <;> exact absurd hlt nofun
  | infinity s =>
      cases s with
      | negative => exact absurd hlt nofun
      | positive => exact .inl rfl
  | @finite s m e h hle =>
      cases s with
      | negative => exact absurd hlt nofun
      | positive => exact .inr ⟨m, e, h, rfl⟩

theorem zero_le_of_pos (hpos : 0.0 < x) : 0.0 ≤ x := by
  rw [le_iff, number_zero]
  rcases number_of_pos hpos with hnumber | ⟨m, e, h, hnumber⟩ <;> rw [hnumber] <;> rfl

theorem number_of_one_le (hx : isFraction x = true) (hone : 1.0 ≤ x) :
    number x = one .binary32 := by
  obtain ⟨hamount, hle⟩ := (isFraction_iff_value x).1 hx
  rw [le_iff_value (number_one ▸ isFinite_one) hamount.finite, value, number_one,
    value_one] at hone
  have hvalue : Unpacked.value (number x) = 1 := le_antisymm hle hone
  rcases hamount.zero_or_positive with ⟨s, hnumber⟩ | ⟨m, e, h, hnumber⟩
  · rw [hnumber, value_zero] at hvalue
    exact absurd hvalue zero_ne_one
  · have hsame : (m : ℚ) * 2 ^ e = (2 ^ 23 : ℕ) * 2 ^ (-23 : ℤ) := by
      rw [← value_positive h.positive, ← hnumber, hvalue]
      norm_num
    obtain ⟨rfl, rfl⟩ := h.unique isCanonical_one hsame
    exact hnumber

/-! ## Squares -/

def square (x : Float32) : Float32 := x * x

/-- A power of two as the exponent: squares, and one product at the end. -/
theorem powerLoop_two_pow {fuel k : Nat} (hfuel : k < fuel) :
    powerLoop fuel (2 ^ k) base acc = acc * square^[k] base := by
  induction k generalizing fuel base with
  | zero =>
      obtain ⟨fuel, rfl⟩ := Nat.exists_eq_add_one_of_ne_zero hfuel.ne_zero
      rfl
  | succ k ih =>
      obtain ⟨fuel, rfl⟩ := Nat.exists_eq_add_one_of_ne_zero hfuel.ne_zero
      have heven : 2 ^ (k + 1) % 2 = 0 := by rw [Nat.pow_succ, Nat.mul_mod_left]
      have hhalf : 2 ^ (k + 1) / 2 = 2 ^ k := by
        rw [Nat.pow_succ, Nat.mul_div_cancel _ Nat.two_pos]
      rw [powerLoop, heven, hhalf]
      rw [if_neg Nat.zero_ne_one, if_neg (Nat.two_pow_pos k).ne', ih (Nat.lt_of_succ_lt_succ hfuel),
        Function.iterate_succ_apply]
      rfl

theorem isFraction_iterate_square (hx : isFraction x = true) (k : Nat) :
    isFraction (square^[k] x) = true := by
  induction k with
  | zero => exact hx
  | succ k ih =>
      rw [Function.iterate_succ_apply']
      exact isFraction_mul ih ih

theorem square_le_square (hx : IsAmount x) (hy : IsAmount y) (hle : x ≤ y) :
    square x ≤ square y := by
  have hcomm : number (y * x) = number (x * y) := by
    rw [number_mul, number_mul, mul_comm_of_finite hy.finite hx.finite]
  have hfirst : x * x ≤ x * y := by
    rw [le_iff, ← hcomm, ← le_iff]
    exact mul_le_mul hx hy hx hle
  exact le_trans hfirst (mul_le_mul hx hy hy hle)

theorem iterate_square_le (hx : isFraction x = true) (hy : isFraction y = true) (hle : x ≤ y)
    (k : Nat) : square^[k] x ≤ square^[k] y := by
  induction k with
  | zero => exact hle
  | succ k ih =>
      rw [Function.iterate_succ_apply', Function.iterate_succ_apply']
      have hx' := (isFraction_iff_value _).1 (isFraction_iterate_square hx k)
      have hy' := (isFraction_iff_value _).1 (isFraction_iterate_square hy k)
      exact square_le_square hx'.1 hy'.1 ih

/-! ## Far below one -/

/-- The largest number below one, `1 - 2 ^ -24`. -/
def belowOne : Float32 := Float32.ofBits 0x3F7FFFFF

theorem isCanonical_belowOne : IsCanonical .binary32 (2 ^ 24 - 1) (-24) :=
  ⟨by decide, by decide, by decide, .inl (by decide)⟩

theorem number_belowOne :
    number belowOne = .finite .positive (2 ^ 24 - 1) (-24) isCanonical_belowOne.positive := by
  rfl

theorem le_belowOne (hx : isFraction x = true) (hbelow : ¬ 1.0 ≤ x) : x ≤ belowOne := by
  obtain ⟨hamount, -⟩ := (isFraction_iff_value x).1 hx
  have hlimit : IsFinite .binary32 (number belowOne) :=
    number_belowOne ▸ .finite _ isCanonical_belowOne (by decide)
  rw [le_iff_value hamount.finite hlimit, value, value, number_belowOne, value_positive]
  rw [le_iff_value (number_one ▸ isFinite_one) hamount.finite, value, number_one, one,
    value_positive, value] at hbelow
  rcases hamount.zero_or_positive with ⟨s, hnumber⟩ | ⟨m, e, h, hnumber⟩
  · rw [hnumber, value_zero]
    positivity
  · rw [hnumber, value_positive] at hbelow ⊢
    rw [h.le_iff isCanonical_belowOne]
    -- with the exponent of one the mantissa would lack bits
    have hless := (isCanonical_one.le_iff h).not.1 hbelow
    have hbounded : m < 2 ^ 24 := h.bounded
    have hnormal : 2 ^ 23 ≤ m ∨ e = -149 := h.normal
    omega

theorem iterate_square_belowOne : square^[31] belowOne = 0.0 := by decide +kernel

/-- The squares of a fraction below one come to zero. -/
theorem number_iterate_square (hx : isFraction x = true) (hbelow : ¬ 1.0 ≤ x) :
    number (square^[31] x) = .zero .positive := by
  have hlimit : isFraction belowOne = true := by decide +kernel
  have hle := iterate_square_le hx hlimit (le_belowOne hx hbelow) 31
  rw [iterate_square_belowOne] at hle
  obtain ⟨hlast, -⟩ := (isFraction_iff_value _).1 (isFraction_iterate_square hx 31)
  obtain ⟨hbefore, hone⟩ := (isFraction_iff_value _).1 (isFraction_iterate_square hx 30)
  rw [le_zero_iff_value hlast.finite] at hle
  have hzero := le_antisymm hle hlast.nonneg
  rw [Function.iterate_succ_apply', square, value, number_mul] at hzero
  rw [Function.iterate_succ_apply', square, number_mul]
  have hsmall : |Unpacked.value (number (square^[30] x))| ≤ 1 := hbefore.abs_eq.trans_le hone
  have hproduct := (hbefore.finite.mul hbefore.finite hsmall).1
  rw [show stored .binary32 _ = _ from unpack_pack hproduct.unpacked] at hzero ⊢
  exact hbefore.finite.square_eq_zero hzero

/-- A fraction below one, to the power of `-2 ^ 31`. -/
theorem number_power_least (hx : isFraction x = true) (hbelow : ¬ 1.0 ≤ x) :
    number (power x (-2 ^ 31)) = .infinity .positive := by
  have habs : Int.natAbs (-2 ^ 31) = 2 ^ 31 := by decide
  rw [power, habs, powerLoop_two_pow (by decide), if_pos (by decide), number_div, number_mul,
    number_iterate_square hx hbelow]
  rfl

end Single

end TrainingLoop
