import TrainingLoop.Proofs.Number.Products
/-!
# Counts as 32-bit numbers

A count has 24 significant bits as a number. `nearestCount` is the count that is left of it, and the
counts that come back as they were are those that have no more bits.
-/

namespace TrainingLoop

open Float.Model (Format UnpackedFloat)
open Float.Model.UnpackedFloat
open Unpacked

/-- The nearest count of at most 24 significant bits, ties to even. -/
def nearestCount (n : Nat) : Nat :=
  Nat.divNearest n (2 ^ (n.log2 - 23)) * 2 ^ (n.log2 - 23)

theorem divNearest_log2_le (n : Nat) : Nat.divNearest n (2 ^ (n.log2 - 23)) ≤ 2 ^ 24 := by
  refine Nat.divNearest_le (Nat.two_pow_pos _) (Nat.le_of_lt ?_)
  rw [← Nat.pow_add]
  exact Nat.lt_of_lt_of_le Nat.lt_log2_self (Nat.pow_le_pow_right (by decide) (by omega))

theorem nearestCount_of_lt {n : Nat} (hn : n < 2 ^ 24) : nearestCount n = n := by
  have hlog : n.log2 - 23 = 0 := by
    rcases Nat.eq_zero_or_pos n with rfl | hpos
    · rfl
    · have := (Nat.log2_lt hpos.ne').2 hn
      omega
  rw [nearestCount, hlog, Nat.pow_zero, Nat.mul_one, Nat.divNearest_of_dvd (by decide) (one_dvd n),
    Nat.div_one]

theorem nearestCount_le {n : Nat} (hn : n < 2 ^ 64) : nearestCount n ≤ 2 ^ 64 := by
  have hlog : n.log2 ≤ 63 := by
    rcases Nat.eq_zero_or_pos n with rfl | hpos
    · decide
    · have := (Nat.log2_lt hpos.ne').2 hn
      omega
  calc nearestCount n
    _ ≤ 2 ^ 24 * 2 ^ 40 := Nat.mul_le_mul (divNearest_log2_le n)
      (Nat.pow_le_pow_right (by decide) (by omega))
    _ = 2 ^ 64 := by decide

/-- The counts that stay as they are have no more than 24 significant bits. -/
theorem nearestCount_eq_iff (n : Nat) :
    nearestCount n = n ↔ ∃ m e, m < 2 ^ 24 ∧ n = m * 2 ^ e := by
  constructor
  · intro hsame
    rcases Nat.lt_or_eq_of_le (divNearest_log2_le n) with hlt | hcarry
    · exact ⟨_, _, hlt, hsame.symm⟩
    · refine ⟨1, 24 + (n.log2 - 23), by decide, ?_⟩
      rw [Nat.one_mul, Nat.pow_add, ← hcarry]
      exact hsame.symm
  · rintro ⟨m, e, hm, rfl⟩
    have hlog : (m * 2 ^ e).log2 - 23 ≤ e := by
      rcases Nat.eq_zero_or_pos m with rfl | hpos
      · rw [Nat.zero_mul, Nat.log2_zero]
        omega
      · have hbits : (m * 2 ^ e).log2 < 24 + e := by
          rw [Nat.log2_lt (Nat.mul_pos hpos (Nat.two_pow_pos e)).ne', Nat.pow_add]
          exact Nat.mul_lt_mul_of_pos_right hm (Nat.two_pow_pos e)
        omega
    have hdvd : 2 ^ ((m * 2 ^ e).log2 - 23) ∣ m * 2 ^ e :=
      (Nat.pow_dvd_pow 2 hlog).trans (Nat.dvd_mul_left _ _)
    rw [nearestCount, Nat.divNearest_of_dvd (Nat.two_pow_pos _) hdvd, Nat.div_mul_cancel hdvd]

/-! ## The number of a count -/

theorem isCanonical_count {n : Nat} (hn : 0 < n) (hlt : n < 2 ^ 24) :
    IsCanonical .binary32 (n * 2 ^ (23 - n.log2)) (-(23 - n.log2 : Nat)) := by
  have hlog : n.log2 < 24 := (Nat.log2_lt hn.ne').2 hlt
  have hlow : 2 ^ n.log2 * 2 ^ (23 - n.log2) = 2 ^ 23 := by
    rw [← Nat.pow_add, Nat.add_sub_cancel' (by omega)]
  have hhigh : 2 ^ (n.log2 + 1) * 2 ^ (23 - n.log2) = 2 ^ 24 := by
    rw [← Nat.pow_add]
    congr 1
    omega
  refine ⟨Nat.mul_pos hn (Nat.two_pow_pos _), ?_, ?_, .inl ?_⟩
  · exact (Nat.mul_lt_mul_of_pos_right Nat.lt_log2_self (Nat.two_pow_pos _)).trans_eq hhigh
  · change (-149 : Int) ≤ _
    omega
  · exact hlow.symm.trans_le (Nat.mul_le_mul_right _ (Nat.log2_self_le hn.ne'))

theorem round_count {n : Nat} (hn : 0 < n) (hlt : n < 2 ^ 24) :
    UnpackedFloat.ofNat .binary32 n =
      .finite .positive (n * 2 ^ (23 - n.log2)) (-(23 - n.log2 : Nat))
        (isCanonical_count hn hlt).positive := by
  have hlog : n.log2 < 24 := (Nat.log2_lt hn.ne').2 hlt
  have hshift : (0 - Format.targetExponent .binary32 (Float.Model.totalExponent n 0)).toNat =
      23 - n.log2 := by
    change (0 - max ((n.log2 : Int) + 1 + 0 - 24) (-149)).toNat = _
    omega
  have hpos : compare (n : Int) 0 = .gt := by
    rw [Std.compare_eq_gt]
    exact_mod_cast hn
  have hexact := (isCanonical_count hn hlt).roundWithAccuracy_eq .positive 0
  rw [UnpackedFloat.ofNat, ofInt, UnpackedFloat.normalize, hpos]
  dsimp only [UnpackedFloat.round, decreaseExponent]
  rw [Int.toNat_natCast, hshift, Nat.shiftLeft_eq]
  simpa using hexact

namespace Single

theorem ofCount_small {n : Nat} (hlt : n < 2 ^ 23) :
    ofCount n = .ofModel (.pack (UnpackedFloat.ofNat .binary32 n)) * 1.0 := by
  have hfast : n < 2 ^ 23 ∧ 0 ≤ 10 := ⟨hlt, by decide⟩
  change Float32.ofScientific n false 0 = _
  rw [Float32.ofScientific, dif_pos hfast]
  change Float32.ofModel (.pack (UnpackedFloat.ofNat .binary32 n.toUInt64.toNat)) * _ = _
  have hword : n.toUInt64.toNat = n := UInt64.toNat_ofNat_of_lt (hlt.trans (by decide))
  rw [hword]
  rfl

theorem ofCount_large {n : Nat} (hge : 2 ^ 23 ≤ n) :
    ofCount n = .ofModel (.pack
      (roundWithAccuracy .binary32 .positive (n * 2 ^ 24) (-24) .exact)) := by
  have hslow : ¬ (n < 2 ^ 23 ∧ 0 ≤ 10) := by omega
  have hn : n ≠ 0 := by omega
  change Float32.ofScientific n false 0 = _
  rw [Float32.ofScientific, dif_neg hslow]
  change Float32.ofModel (.pack (ofScientific .binary32 n 0)) = _
  have hlow : ¬ (0 : Int) < -((2 ^ 8 : Int) + n.log2) := by omega
  rw [ofScientific, dif_neg hn, if_neg (by decide), if_neg hlow, if_pos (Int.le_refl 0),
    UnpackedFloat.mul, Nat.shiftLeft_eq, Int.toNat_zero, Nat.pow_zero, Nat.mul_one]
  rfl

theorem roundedMantissa_count {n : Nat} (hge : 2 ^ 23 ≤ n) :
    Format.targetExponent .binary32 (Float.Model.totalExponent (n * 2 ^ 24) (-24)) =
        (n.log2 - 23 : Nat) ∧
      roundedMantissa .binary32 (n * 2 ^ 24) (-24) = Nat.divNearest n (2 ^ (n.log2 - 23)) := by
  have hpos : 0 < n := by omega
  have hlog : 23 ≤ n.log2 := (Nat.le_log2 hpos.ne').2 hge
  have htarget : Format.targetExponent .binary32 (Float.Model.totalExponent (n * 2 ^ 24) (-24)) =
      (n.log2 - 23 : Nat) := by
    have hsame : ((n * 2 ^ 24 : ℕ) : ℚ) * 2 ^ (-24 : ℤ) = n * 2 ^ (0 : ℤ) := cast_mul_two_pow n 24 _
    rw [targetExponent_congr (Nat.mul_pos hpos (Nat.two_pow_pos _)) hpos hsame]
    change max ((n.log2 : Int) + 1 + 0 - 24) (-149) = _
    omega
  have hshift : (((n.log2 - 23 : Nat) : Int) - -24).toNat = n.log2 - 23 + 24 := by omega
  rw [roundedMantissa, htarget, hshift, Nat.pow_add, Nat.divNearest_mul_mul (Nat.two_pow_pos _)]
  exact ⟨rfl, rfl⟩

theorem ofCount_of_lt {n : Nat} (hlt : n < 2 ^ 23) :
    IsAmount (ofCount n) ∧ value (ofCount n) = n := by
  rcases Nat.eq_zero_or_pos n with rfl | hpos
  · have hzero : number (ofCount 0) = .zero .positive := rfl
    rw [value, hzero, value_zero]
    exact ⟨⟨hzero ▸ .zero _, by rw [value, hzero, value_zero]⟩, Nat.cast_zero.symm⟩
  · have hcanonical := isCanonical_count hpos (hlt.trans (by decide))
    have hbound : (-(23 - n.log2 : Nat) : Int) ≤ greatestExponent .binary32 := by
      change _ ≤ (104 : Int)
      omega
    obtain ⟨hamount, hvalue⟩ := isAmount_pack (.finite .positive hcanonical hbound)
      (magnitude_pos hcanonical.positive).le
    rw [value_positive, cast_mul_two_pow, neg_add_cancel, zpow_zero, mul_one] at hvalue
    rw [ofCount_small hlt, round_count hpos (hlt.trans (by decide)), ← hvalue]
    exact hamount.mul_one

theorem exponent_le_of_le {m : Nat} {e : Int} (h : IsCanonical .binary32 m e)
    (hle : (m : ℚ) * 2 ^ e ≤ 2 ^ 64) : e ≤ greatestExponent .binary32 := by
  have hlargest : IsCanonical .binary32 (2 ^ 23) 41 :=
    ⟨by decide, by decide, by decide, .inl (by decide)⟩
  have hvalue : ((2 ^ 23 : ℕ) : ℚ) * 2 ^ (41 : ℤ) = 2 ^ 64 := by norm_num
  have := (h.le_iff hlargest).1 (hvalue ▸ hle)
  change _ ≤ (104 : Int)
  omega

theorem ofCount_of_ge {n : Nat} (hge : 2 ^ 23 ≤ n) (hn : n < 2 ^ 64) :
    IsAmount (ofCount n) ∧ value (ofCount n) = nearestCount n := by
  obtain ⟨htarget, hmantissa⟩ := roundedMantissa_count hge
  have hpos : 0 < n := by omega
  have hexponent : (-24 : Int) ≤
      Format.targetExponent .binary32 (Float.Model.totalExponent (n * 2 ^ 24) (-24)) := by
    omega
  have hnonzero : 1 ≤ Nat.divNearest n (2 ^ (n.log2 - 23)) := by
    refine Nat.le_divNearest (Nat.two_pow_pos _) ?_
    rw [Nat.one_mul]
    exact (Nat.pow_le_pow_right (by decide) (Nat.sub_le _ _)).trans (Nat.log2_self_le hpos.ne')
  have hrounds :=
    roundWithAccuracy_exact .positive (Nat.mul_pos hpos (Nat.two_pow_pos 24)) hexponent
  rw [htarget, hmantissa] at hrounds
  obtain ⟨hzero, -⟩ | ⟨m, e, hm, hfinite, hcanonical, hvalue⟩ := hrounds
  · omega
  · have hnearest : (m : ℚ) * 2 ^ e = nearestCount n := by
      rw [hvalue, zpow_natCast, nearestCount]
      push_cast
      rfl
    have hbound : (m : ℚ) * 2 ^ e ≤ 2 ^ 64 := by
      rw [hnearest]
      exact_mod_cast nearestCount_le hn
    rw [ofCount_large hge, hfinite, ← hnearest]
    exact isAmount_pack (.finite _ hcanonical (exponent_le_of_le hcanonical hbound))
      (magnitude_pos hm).le

theorem ofCount_isAmount {n : Nat} (hn : n < 2 ^ 64) :
    IsAmount (ofCount n) ∧ value (ofCount n) = nearestCount n := by
  rcases Nat.lt_or_ge n (2 ^ 23) with hlt | hge
  · rw [nearestCount_of_lt (hlt.trans (by decide))]
    exact ofCount_of_lt hlt
  · exact ofCount_of_ge hge hn

end Single

end TrainingLoop
