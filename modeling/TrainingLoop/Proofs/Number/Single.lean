import TrainingLoop.Proofs.Number.Packing
/-!
# Values of numbers

The rational number that a pattern stands for, the order of the finite numbers by it, and what the
whole part of a number comes to.
-/

namespace TrainingLoop

open Float.Model (Format UnpackedFloat)
open Float.Model.UnpackedFloat

/-! ## Unpacked numbers -/

namespace Unpacked

/-- The value of a number, zero for infinities and NaN. -/
def value : UnpackedFloat → ℚ
  | .finite s m e _ => (s.apply m : ℤ) * 2 ^ e
  | _ => 0

inductive IsFinite (S : Format) : UnpackedFloat → Prop
  | zero (s : Sign) : IsFinite S (.zero s)
  | finite (s : Sign) {m : Nat} {e : Int} (h : IsCanonical S m e) (hle : e ≤ greatestExponent S) :
      IsFinite S (.finite s m e h.positive)

variable {S : Format} {u v w : UnpackedFloat}

theorem IsFinite.unpacked (hu : IsFinite S u) : Unpacked S u := by
  cases hu with
  | zero s => exact .zero s
  | finite s h hle => exact .finite s h hle

theorem value_zero (s : Sign) : value (.zero s) = 0 := rfl

theorem value_positive {m : Nat} {e : Int} (hm : 0 < m) :
    value (.finite .positive m e hm) = m * 2 ^ e := rfl

theorem value_negative {m : Nat} {e : Int} (hm : 0 < m) :
    value (.finite .negative m e hm) = -(m * 2 ^ e) := by
  change ((-(m : ℤ) : ℤ) : ℚ) * 2 ^ e = _
  push_cast
  ring

theorem magnitude_pos {m : Nat} {e : Int} (hm : 0 < m) : (0 : ℚ) < m * 2 ^ e := by
  positivity

theorem abs_value_finite (s : Sign) {m : Nat} {e : Int} (hm : 0 < m) :
    |value (.finite s m e hm)| = m * 2 ^ e := by
  cases s with
  | positive => rw [value_positive, abs_of_pos (magnitude_pos hm)]
  | negative => rw [value_negative, abs_neg, abs_of_pos (magnitude_pos hm)]

theorem isLE_then_compare (m m' : Nat) (e e' : Int) :
    ((compare e e').then (compare m m')).isLE = true ↔ e < e' ∨ e = e' ∧ m ≤ m' := by
  rw [Ordering.isLE_then_iff_or, Std.compare_eq_lt, Std.compare_eq_iff_eq, Std.isLE_compare]

theorem swap_then_compare (m m' : Nat) (e e' : Int) :
    ((compare e e').then (compare m m')).swap = (compare e' e).then (compare m' m) := by
  rw [Ordering.swap_then, ← Std.OrientedOrd.eq_swap, ← Std.OrientedOrd.eq_swap]

theorem zero_le_finite_iff {s t : Sign} {m : Nat} {e : Int} (hm : 0 < m) :
    (UnpackedFloat.zero s).le (.finite t m e hm) = true ↔ 0 ≤ value (.finite t m e hm) := by
  have hpos := magnitude_pos (e := e) hm
  cases t with
  | positive => exact ⟨fun _ => hpos.le, fun _ => rfl⟩
  | negative =>
    rw [value_negative]
    exact ⟨nofun, fun hle => absurd hle (by linarith)⟩

theorem finite_le_zero_iff {s t : Sign} {m : Nat} {e : Int} (hm : 0 < m) :
    (UnpackedFloat.finite t m e hm).le (.zero s) = true ↔ value (.finite t m e hm) ≤ 0 := by
  have hpos := magnitude_pos (e := e) hm
  cases t with
  | positive => exact ⟨nofun, fun hle => absurd hle hpos.not_ge⟩
  | negative =>
    rw [value_negative]
    exact ⟨fun _ => by linarith, fun _ => rfl⟩

theorem IsFinite.le_iff (hu : IsFinite S u) (hv : IsFinite S v) :
    u.le v = true ↔ value u ≤ value v := by
  cases hu with
  | zero s =>
    cases hv with
    | zero t => exact ⟨fun _ => le_refl _, fun _ => rfl⟩
    | finite t h' hle' => exact zero_le_finite_iff h'.positive
  | finite s h hle =>
    rename_i m e
    have hpos := magnitude_pos (e := e) h.positive
    cases hv with
    | zero t => exact finite_le_zero_iff h.positive
    | finite t h' hle' =>
      rename_i m' e'
      have hpos' := magnitude_pos (e := e') h'.positive
      cases s with
      | positive =>
        cases t with
        | positive => exact (isLE_then_compare m m' e e').trans (h.le_iff h').symm
        | negative =>
          rw [value_positive, value_negative]
          exact ⟨nofun, fun hvalues => absurd hvalues (by linarith)⟩
      | negative =>
        cases t with
        | positive =>
          rw [value_positive, value_negative]
          exact ⟨fun _ => by linarith, fun _ => rfl⟩
        | negative =>
          rw [value_negative, value_negative, neg_le_neg_iff, h'.le_iff h,
            ← isLE_then_compare, ← swap_then_compare]
          rfl

theorem IsFinite.of_between (hu : IsFinite S u) (hv : IsFinite S v) (hw : Unpacked S w)
    (hlow : u.le w = true) (hhigh : w.le v = true) : IsFinite S w := by
  cases hw with
  | notANumber => cases hv <;> exact absurd hhigh nofun
  | zero s => exact .zero s
  | finite s h hle => exact .finite s h hle
  | infinity s =>
    cases s with
    | positive => cases hv <;> exact absurd hhigh nofun
    | negative => cases hu <;> exact absurd hlow nofun

theorem value_finite_nonneg {s : Sign} {m : Nat} {e : Int} (hm : 0 < m) :
    0 ≤ value (.finite s m e hm) ↔ s = .positive := by
  have hpos := magnitude_pos (e := e) hm
  cases s with
  | positive => exact ⟨fun _ => rfl, fun _ => hpos.le⟩
  | negative =>
    rw [value_negative]
    exact ⟨fun hle => absurd hle (by linarith), nofun⟩

def one (S : Format) : UnpackedFloat :=
  .finite .positive (2 ^ S.mantissaBitsWithoutImplicit) (-S.mantissaBitsWithoutImplicit)
    (Nat.two_pow_pos _)

/-! ## Whole parts -/

theorem floor_magnitude (m : Nat) (e : Int) :
    ⌊(m : ℚ) * 2 ^ e⌋₊ = m * 2 ^ e.toNat / 2 ^ (-e).toNat := by
  have hexponent : e = (e.toNat : ℤ) - ((-e).toNat : ℤ) := by omega
  have hquotient : (m : ℚ) * 2 ^ e = ((m * 2 ^ e.toNat : ℕ) : ℚ) / ((2 ^ (-e).toNat : ℕ) : ℚ) := by
    conv_lhs => rw [hexponent, zpow_sub₀ two_ne_zero, zpow_natCast, zpow_natCast]
    push_cast
    ring
  rw [hquotient, Nat.floor_div_eq_div]

theorem roundToInt_positive (m : Nat) (e : Int) :
    roundToInt .positive m e = ⌊(m : ℚ) * 2 ^ e⌋₊ := by
  have hshift : (0 - (e - ((e - 0).toNat : Int))).toNat = (-e).toNat := by omega
  rw [floor_magnitude]
  dsimp only [roundToInt, decreaseExponent, shiftToExponent, Sign.apply]
  rw [hshift, shiftRight_exact, Nat.shiftLeft_eq, sub_zero]

theorem IsFinite.toInt_eq (hu : IsFinite S u) (hu0 : 0 ≤ value u) (low high : Int) :
    u.toInt low high = ⌊value u⌋₊ := by
  cases hu with
  | zero s => rw [value_zero, Nat.floor_zero]; rfl
  | finite s h hle =>
    obtain rfl := (value_finite_nonneg _).1 hu0
    exact roundToInt_positive _ _

end Unpacked

/-! ## 32-bit numbers -/

namespace Single

open Unpacked

def number (x : Float32) : UnpackedFloat := x.toModel.unpack

def value (x : Float32) : ℚ := Unpacked.value (number x)

/-- A finite number that is not below zero. -/
structure IsAmount (x : Float32) : Prop where
  finite : IsFinite .binary32 (number x)
  nonneg : 0 ≤ value x

theorem unpacked (x : Float32) : Unpacked .binary32 (number x) :=
  unpack_unpacked (Nat.le_of_ble_eq_true rfl) _

theorem number_pack {u : UnpackedFloat} (hu : Unpacked .binary32 u) :
    number (.ofModel (.pack u)) = u :=
  unpack_pack hu

theorem le_iff (x y : Float32) : x ≤ y ↔ (number x).le (number y) = true := decide_eq_true_iff

theorem IsAmount.abs_eq {x : Float32} (hx : IsAmount x) : |Unpacked.value (number x)| = value x :=
  abs_of_nonneg hx.nonneg

theorem number_zero : number 0.0 = .zero .positive := by
  rfl

theorem number_one : number 1.0 = one .binary32 := by
  rfl

theorem isAmount_pack {u : UnpackedFloat} (hu : IsFinite .binary32 u) (hu0 : 0 ≤ Unpacked.value u) :
    IsAmount (.ofModel (.pack u)) ∧ value (.ofModel (.pack u)) = Unpacked.value u := by
  have hnumber := number_pack hu.unpacked
  rw [value, hnumber]
  exact ⟨⟨hnumber.symm ▸ hu, by rwa [value, hnumber]⟩, rfl⟩

theorem isFinite_one : IsFinite .binary32 (one .binary32) :=
  .finite _ ⟨by decide, by decide, by decide, .inl (by decide)⟩ (by decide)

theorem value_one : Unpacked.value (one .binary32) = 1 := by
  rw [one, value_positive]
  norm_num

theorem isFinite_zero : IsFinite .binary32 (number 0.0) := number_zero ▸ .zero _

theorem le_iff_value {x y : Float32} (hx : IsFinite .binary32 (number x))
    (hy : IsFinite .binary32 (number y)) : x ≤ y ↔ value x ≤ value y :=
  (le_iff x y).trans (hx.le_iff hy)

theorem zero_le_iff_value {x : Float32} (hx : IsFinite .binary32 (number x)) :
    0.0 ≤ x ↔ 0 ≤ value x := by
  rw [le_iff_value isFinite_zero hx, value, number_zero, value_zero]

theorem le_zero_iff_value {x : Float32} (hx : IsFinite .binary32 (number x)) :
    x ≤ 0.0 ↔ value x ≤ 0 := by
  rw [le_iff_value hx isFinite_zero, value, value, number_zero, value_zero]

theorem isAmount_of_between {x y : Float32} (hlow : 0.0 ≤ x) (hhigh : x ≤ y)
    (hy : IsFinite .binary32 (number y)) : IsAmount x := by
  have hx : IsFinite .binary32 (number x) :=
    isFinite_zero.of_between hy (unpacked x) ((le_iff _ _).1 hlow) ((le_iff _ _).1 hhigh)
  exact ⟨hx, (zero_le_iff_value hx).1 hlow⟩

theorem isFraction_iff_value (f : Float32) : isFraction f = true ↔ IsAmount f ∧ value f ≤ 1 := by
  have hone : IsFinite .binary32 (number 1.0) := number_one ▸ isFinite_one
  have hvalue : value 1.0 = 1 := by rw [value, number_one, value_one]
  rw [isFraction, Bool.and_eq_true, decide_eq_true_iff, decide_eq_true_iff]
  constructor
  · rintro ⟨hlow, hhigh⟩
    have hf := isAmount_of_between hlow hhigh hone
    rw [le_iff_value hf.finite hone, hvalue] at hhigh
    exact ⟨hf, hhigh⟩
  · rintro ⟨hf, hhigh⟩
    rw [zero_le_iff_value hf.finite, le_iff_value hf.finite hone, hvalue]
    exact ⟨hf.nonneg, hhigh⟩

theorem isFraction_one : isFraction 1.0 = true := by
  decide +kernel

/-- The whole part of an amount, as far as it fits into 64 bits. -/
theorem IsAmount.toCount_eq {x : Float32} (hx : IsAmount x) :
    toCount x = min (2 ^ 64 - 1) ⌊value x⌋₊ := by
  have hclamp (n : Nat) : (UInt64.ofNatClamp n).toNat = min (2 ^ 64 - 1) n := by
    unfold UInt64.ofNatClamp
    split
    · rename_i hlt
      change n < 2 ^ 64 at hlt
      rw [UInt64.toNat_ofNatLT]
      omega
    · rename_i hge
      change ¬ n < 2 ^ 64 at hge
      rw [UInt64.toNat_ofNatLT, UInt64.size]
      omega
  change (UInt64.ofNatClamp ((number x).toInt 0 (UInt64.size - 1)).toNat).toNat = _
  rw [hclamp, hx.finite.toInt_eq hx.nonneg, Int.toNat_natCast]
  rfl

end Single

end TrainingLoop
