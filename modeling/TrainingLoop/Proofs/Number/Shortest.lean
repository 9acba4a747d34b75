import Mathlib.Algebra.Order.Field.Power
import Mathlib.Algebra.Order.Ring.Nat
import Mathlib.Tactic.GCongr
import Mathlib.Tactic.Linarith
import Mathlib.Tactic.NormNum
import Mathlib.Tactic.Positivity
import Mathlib.Tactic.Ring
import TrainingLoop.Number.Shortest
/-!
# Digits of shortest decimals

The point of a decimal is looked for from an estimate by binary logarithms. For a 32-bit number the
estimate is close enough, so that the point is the right one, and a shortest decimal has as many
digits as it says (`shortest_isNormal`).
-/

namespace TrainingLoop

/-- The decimal has as many digits as it says, and no zero in front. -/
structure Decimal.IsNormal (d : Decimal) : Prop where
  count : 1 ≤ d.count
  low : 10 ^ (d.count - 1) ≤ d.digits
  high : d.digits < 10 ^ d.count

/-! ## Integer exponents -/

theorem zpow_mul_toNat {c : Nat} (hc : 0 < c) (k : Int) :
    (c : ℚ) ^ k * c ^ (-k).toNat = c ^ k.toNat := by
  have hc' : (c : ℚ) ≠ 0 := by exact_mod_cast hc.ne'
  rw [← zpow_natCast, ← zpow_natCast, ← zpow_add₀ hc']
  congr 1
  omega

theorem zpow_le_zpow_iff {a b : Nat} (ha : 0 < a) (hb : 0 < b) (i j : Int) :
    (a : ℚ) ^ i ≤ b ^ j ↔ a ^ i.toNat * b ^ (-j).toNat ≤ b ^ j.toNat * a ^ (-i).toNat := by
  have hscale : (0 : ℚ) < a ^ (-i).toNat * b ^ (-j).toNat := by positivity
  have hleft : (a : ℚ) ^ i * (a ^ (-i).toNat * b ^ (-j).toNat) = a ^ i.toNat * b ^ (-j).toNat := by
    rw [← mul_assoc, zpow_mul_toNat ha]
  have hright : (b : ℚ) ^ j * (a ^ (-i).toNat * b ^ (-j).toNat) = b ^ j.toNat * a ^ (-i).toNat := by
    rw [mul_left_comm, zpow_mul_toNat hb, mul_comm]
  rw [← mul_le_mul_iff_left₀ hscale, hleft, hright]
  exact_mod_cast Iff.rfl

namespace RoundingInterval

variable {r : RoundingInterval}

def quotient (r : RoundingInterval) : ℚ := r.value / r.denominator

theorem lt_quotient_iff (hden : 0 < r.denominator) (c : Nat) (i : Int) :
    r.quotient < c * 10 ^ i ↔
      r.value * 10 ^ (-i).toNat < c * (r.denominator * 10 ^ i.toNat) := by
  have hden' : (0 : ℚ) < r.denominator := by exact_mod_cast hden
  have hpow : (0 : ℚ) < 10 ^ (-i).toNat := by positivity
  have hright : (c : ℚ) * 10 ^ i * r.denominator * 10 ^ (-i).toNat =
      c * (r.denominator * 10 ^ i.toNat) := by
    have hsplit := zpow_mul_toNat (c := 10) (by decide) i
    push_cast at hsplit
    rw [← hsplit]
    ring
  rw [quotient, div_lt_iff₀ hden', ← mul_lt_mul_iff_left₀ hpow, hright]
  exact_mod_cast Iff.rfl

theorem le_quotient_iff (hden : 0 < r.denominator) (c : Nat) (i : Int) :
    c * 10 ^ i ≤ r.quotient ↔
      c * (r.denominator * 10 ^ i.toNat) ≤ r.value * 10 ^ (-i).toNat := by
  rw [← not_lt, lt_quotient_iff hden, not_lt]

/-! ## The point -/

/-- The first digit of the value stands right behind the point. -/
structure HasPoint (r : RoundingInterval) (p : Int) : Prop where
  low : (10 : ℚ) ^ (p - 1) ≤ r.quotient
  high : r.quotient < 10 ^ p

/-- The search finds the point if it starts at most one behind it, and has tries enough. -/
theorem pointFrom_hasPoint (hden : 0 < r.denominator) {tries : Nat} {start : Int}
    (hlow : (10 : ℚ) ^ (start - 1) ≤ r.quotient) (hhigh : r.quotient < 10 ^ (start + tries)) :
    r.HasPoint (r.pointFrom tries start) := by
  induction tries generalizing start with
  | zero =>
      rw [Nat.cast_zero, add_zero] at hhigh
      exact ⟨hlow, hhigh⟩
  | succ tries ih =>
      have htest := lt_quotient_iff hden 1 start
      rw [Nat.cast_one, one_mul, one_mul, Nat.mul_comm r.denominator] at htest
      rw [pointFrom]
      split
      · rename_i hbelow
        exact ⟨hlow, htest.2 hbelow⟩
      · rename_i habove
        refine ih ?_ ?_
        · rw [add_sub_cancel_right]
          exact not_lt.1 fun hlt => habove (htest.1 hlt)
        · push_cast at hhigh
          rwa [add_assoc, add_comm 1 (tries : ℤ)]

/-- How far the estimate is from the powers of two around a 32-bit number. -/
theorem estimate_bounds {b : Int} (hlow : -150 ≤ b) (hhigh : b < 128) :
    (10 : ℚ) ^ (b * 30103 / 100000 - 1) ≤ 2 ^ b ∧
      (2 : ℚ) ^ (b + 2) ≤ 10 ^ (b * 30103 / 100000 + 4) := by
  have hall : ∀ k : Nat, k < 278 →
      let i := ((k : Int) - 150) * 30103 / 100000
      10 ^ (i - 1).toNat * 2 ^ (-((k : Int) - 150)).toNat ≤
          2 ^ ((k : Int) - 150).toNat * 10 ^ (-(i - 1)).toNat ∧
        2 ^ ((k : Int) - 150 + 2).toNat * 10 ^ (-(i + 4)).toNat ≤
          10 ^ (i + 4).toNat * 2 ^ (-((k : Int) - 150 + 2)).toNat := by
    decide +kernel
  obtain ⟨k, rfl⟩ : ∃ k : Nat, b = k - 150 := ⟨(b + 150).toNat, by omega⟩
  obtain ⟨hfirst, hsecond⟩ := hall k (by omega)
  constructor
  · exact (zpow_le_zpow_iff (a := 10) (b := 2) (by decide) (by decide) _ _).2 hfirst
  · exact (zpow_le_zpow_iff (a := 2) (b := 10) (by decide) (by decide) _ _).2 hsecond

theorem quotient_bounds (hvalue : 0 < r.value) (hden : 0 < r.denominator) :
    let b : Int := Nat.log2 r.value - Nat.log2 r.denominator - 1
    (2 : ℚ) ^ b ≤ r.quotient ∧ r.quotient < 2 ^ (b + 2) := by
  intro b
  have hden' : (0 : ℚ) < r.denominator := by exact_mod_cast hden
  have hvalueLow : (2 : ℚ) ^ (r.value.log2 : ℤ) ≤ r.value := by
    exact_mod_cast Nat.log2_self_le hvalue.ne'
  have hvalueHigh : (r.value : ℚ) < 2 ^ (r.value.log2 + 1 : ℤ) := by
    exact_mod_cast Nat.lt_log2_self
  have hdenLow : (2 : ℚ) ^ (r.denominator.log2 : ℤ) ≤ r.denominator := by
    exact_mod_cast Nat.log2_self_le hden.ne'
  have hdenHigh : (r.denominator : ℚ) < 2 ^ (r.denominator.log2 + 1 : ℤ) := by
    exact_mod_cast Nat.lt_log2_self
  rw [quotient, le_div_iff₀ hden', div_lt_iff₀ hden']
  constructor
  · calc (2 : ℚ) ^ b * r.denominator
      _ ≤ 2 ^ b * 2 ^ (r.denominator.log2 + 1 : ℤ) := by gcongr
      _ = 2 ^ (r.value.log2 : ℤ) := by
          rw [← zpow_add₀ two_ne_zero]
          congr 1
          omega
      _ ≤ r.value := hvalueLow
  · calc (r.value : ℚ)
      _ < 2 ^ (r.value.log2 + 1 : ℤ) := hvalueHigh
      _ = 2 ^ (b + 2) * 2 ^ (r.denominator.log2 : ℤ) := by
          rw [← zpow_add₀ two_ne_zero]
          congr 1
          omega
      _ ≤ 2 ^ (b + 2) * r.denominator := by gcongr

theorem point_hasPoint (hvalue : 0 < r.value) (hden : 0 < r.denominator)
    (hlow : (2 : ℚ) ^ (-149 : ℤ) ≤ r.quotient) (hhigh : r.quotient < 2 ^ (128 : ℤ)) :
    r.HasPoint r.point := by
  obtain ⟨hb, hb'⟩ := quotient_bounds hvalue hden
  have hupper := (zpow_lt_zpow_iff_right₀ (one_lt_two (α := ℚ))).1 (hb.trans_lt hhigh)
  have hlower := (zpow_lt_zpow_iff_right₀ (one_lt_two (α := ℚ))).1 (hlow.trans_lt hb')
  obtain ⟨hestimate, hestimate'⟩ := estimate_bounds (by omega) hupper
  exact pointFrom_hasPoint hden (hestimate.trans hb) (hb'.trans_le hestimate')

/-! ## Digits -/

/-- The last point at or before the value on the grid of so many digits. -/
def gridFloor (r : RoundingInterval) (p : Int) (count : Nat) : Nat :=
  r.value * 10 ^ (count - p).toNat / (r.denominator * 10 ^ (p - count).toNat)

/-- A decimal is one of the two neighbours of the value on the grid. -/
theorem eq_of_decimal? {tie : TieRule} {p : Int} {count : Nat} {d : Decimal}
    (hd : r.decimal? tie p count = some d) :
    ∃ c, (c = r.gridFloor p count ∨ c = r.gridFloor p count + 1) ∧
      d = if c = 10 ^ count then ⟨1, 1, p + 1⟩ else ⟨c, count, p⟩ := by
  obtain ⟨c, hchosen, rfl⟩ := Option.map_eq_some_iff.1 hd
  refine ⟨c, ?_, rfl⟩
  revert hchosen
  split
  · dsimp only
    split
    · rintro ⟨⟩
      exact .inr rfl
    · rintro ⟨⟩
      exact .inl rfl
  · rintro ⟨⟩
    exact .inl rfl
  · rintro ⟨⟩
    exact .inr rfl
  · nofun

theorem isSome_decimal? {tie : TieRule} {p : Int} {count : Nat}
    (hlow : r.low * 10 ^ (count - p).toNat <
      (r.gridFloor p count + 1) * (r.denominator * 10 ^ (p - count).toNat))
    (hhigh : (r.gridFloor p count + 1) * (r.denominator * 10 ^ (p - count).toNat) <
      r.high * 10 ^ (count - p).toNat) :
    (r.decimal? tie p count).isSome = true := by
  rw [decimal?, Option.isSome_map]
  split
  · dsimp only
    split <;> rfl
  · rfl
  · rfl
  · rename_i hnext
    exfalso
    refine Bool.false_ne_true (hnext.symm.trans ?_)
    dsimp only
    split
    · rw [Bool.and_eq_true, decide_eq_true_iff, decide_eq_true_iff]
      exact ⟨hlow.le, hhigh.le⟩
    · rw [Bool.and_eq_true, decide_eq_true_iff, decide_eq_true_iff]
      exact ⟨hlow, hhigh⟩

theorem gridFloor_bounds {p : Int} {count : Nat} (hden : 0 < r.denominator)
    (hpoint : r.HasPoint p) (hcount : 1 ≤ count) :
    10 ^ (count - 1) ≤ r.gridFloor p count ∧ r.gridFloor p count < 10 ^ count := by
  have hstep : 0 < r.denominator * 10 ^ (p - count).toNat :=
    Nat.mul_pos hden (Nat.pow_pos (by decide))
  have hscale (k : Nat) : ((10 ^ k : ℕ) : ℚ) * 10 ^ (p - count : ℤ) = 10 ^ (p - count + k : ℤ) := by
    rw [zpow_add₀ (by norm_num), zpow_natCast, mul_comm]
    push_cast
    rfl
  have hlow := le_quotient_iff hden (10 ^ (count - 1)) (p - count)
  have hhigh := lt_quotient_iff hden (10 ^ count) (p - count)
  rw [hscale, neg_sub] at hlow hhigh
  constructor
  · refine (Nat.le_div_iff_mul_le hstep).2 (hlow.1 ?_)
    rw [Nat.cast_sub hcount, Nat.cast_one, sub_add_sub_cancel]
    exact hpoint.low
  · refine (Nat.div_lt_iff_lt_mul hstep).2 (hhigh.1 ?_)
    rw [sub_add_cancel]
    exact hpoint.high

theorem decimal?_isNormal {tie : TieRule} {p : Int} {count : Nat} {d : Decimal}
    (hden : 0 < r.denominator) (hpoint : r.HasPoint p) (hcount : 1 ≤ count)
    (hd : r.decimal? tie p count = some d) : d.IsNormal := by
  obtain ⟨hlow, hhigh⟩ := gridFloor_bounds hden hpoint hcount
  obtain ⟨c, hc, rfl⟩ := eq_of_decimal? hd
  have hbounds : 10 ^ (count - 1) ≤ c ∧ c ≤ 10 ^ count := by omega
  split
  · exact ⟨Nat.le_refl 1, Nat.le_refl 1, (by decide : 1 < 10 ^ 1)⟩
  · rename_i hne
    exact ⟨hcount, hbounds.1, lt_of_le_of_ne hbounds.2 hne⟩

theorem shortestFrom_isNormal {tie : TieRule} {p : Int} {tries count : Nat}
    (hden : 0 < r.denominator) (hpoint : r.HasPoint p) (hcount : 1 ≤ count)
    (hlast : (r.decimal? tie p (count + tries)).isSome = true) :
    (r.shortestFrom tie p tries count).IsNormal := by
  induction tries generalizing count with
  | zero =>
      obtain ⟨d, hd⟩ := Option.isSome_iff_exists.1 hlast
      rw [shortestFrom, show r.decimal? tie p count = some d from hd]
      exact decimal?_isNormal hden hpoint hcount hd
  | succ tries ih =>
      rw [shortestFrom]
      split
      · rename_i hd
        exact decimal?_isNormal hden hpoint hcount hd
      · refine ih (Nat.le_add_left 1 count) ?_
        rwa [Nat.add_assoc, Nat.add_comm 1 tries]

/-! ## Numbers of 32 bits -/

variable {f : BinaryFormat} {m : Nat} {q : Int}

theorem of_denominator_pos : 0 < (of f m q).denominator := Nat.two_pow_pos _

theorem unit_quotient (q : Int) :
    ((2 ^ (q - 2).toNat : ℕ) : ℚ) / (2 ^ (2 - q).toNat : ℕ) = 2 ^ (q - 2) := by
  have hsplit := zpow_mul_toNat (c := 2) (by decide) (q - 2)
  rw [neg_sub] at hsplit
  push_cast at hsplit ⊢
  rw [← hsplit, mul_div_cancel_right₀ _ (by positivity)]

theorem of_quotient : (of f m q).quotient = m * 2 ^ q := by
  have hunits : (of f m q).quotient =
      4 * m * (((2 ^ (q - 2).toNat : ℕ) : ℚ) / (2 ^ (2 - q).toNat : ℕ)) := by
    rw [quotient, of]
    simp only [Nat.pow_eq]
    push_cast
    ring
  rw [hunits, unit_quotient, zpow_sub₀ two_ne_zero]
  norm_num
  ring

/-- Seventeen digits reach the interval of every number of at most 24 bits. -/
theorem isSome_decimal?_of {p : Int} (tie : TieRule) (hbits : m < 2 ^ 24)
    (hpoint : (of f m q).HasPoint p) : ((of f m q).decimal? tie p (17 : Nat)).isSome = true := by
  have hstep : 0 < (of f m q).denominator * 10 ^ (p - (17 : Nat)).toNat :=
    Nat.mul_pos of_denominator_pos (Nat.pow_pos (by decide))
  have hbelow : (of f m q).value * 10 ^ ((17 : Nat) - p).toNat <
      ((of f m q).gridFloor p 17 + 1) * ((of f m q).denominator * 10 ^ (p - (17 : Nat)).toNat) := by
    rw [Nat.mul_comm (_ + 1)]
    exact Nat.lt_mul_div_succ _ hstep
  have habove : (of f m q).gridFloor p 17 *
        ((of f m q).denominator * 10 ^ (p - (17 : Nat)).toNat) ≤
      (of f m q).value * 10 ^ ((17 : Nat) - p).toNat :=
    Nat.div_mul_le_self _ _
  -- a step of the grid is at most one unit of the interval
  have hgrid : (10 : ℚ) ^ (p - (17 : Nat)) ≤ 2 ^ (q - 2) := by
    have hm : (m : ℚ) ≤ 2 ^ 24 := by exact_mod_cast hbits.le
    calc (10 : ℚ) ^ (p - (17 : Nat))
      _ = 10 ^ (p - 1) / 10 ^ 16 := by
          rw [← zpow_natCast, ← zpow_sub₀ (by norm_num)]
          congr 1
          omega
      _ ≤ m * 2 ^ q / 10 ^ 16 := by
          gcongr
          exact of_quotient (f := f) ▸ hpoint.low
      _ ≤ 2 ^ 24 * 2 ^ q / 10 ^ 16 := by gcongr
      _ ≤ 2 ^ q / 4 := by
          have : (0 : ℚ) < 2 ^ q := by positivity
          linarith
      _ = 2 ^ (q - 2) := by
          rw [zpow_sub₀ two_ne_zero]
          norm_num
  have hunit : (of f m q).denominator * 10 ^ (p - (17 : Nat)).toNat ≤
      2 ^ (q - 2).toNat * 10 ^ ((17 : Nat) - p).toNat := by
    have hcompare := le_quotient_iff (r := { of f m q with value := 2 ^ (q - 2).toNat })
      (of_denominator_pos (f := f) (m := m) (q := q)) 1 (p - (17 : Nat))
    rw [Nat.cast_one, one_mul, one_mul, neg_sub] at hcompare
    exact hcompare.1 (hgrid.trans (unit_quotient q).ge)
  have hpos : 0 < 2 ^ (q - 2).toNat * 10 ^ ((17 : Nat) - p).toNat := by positivity
  apply isSome_decimal?
  · refine lt_of_le_of_lt (Nat.mul_le_mul_right _ ?_) hbelow
    exact Nat.mul_le_mul_right _ (Nat.sub_le _ _)
  · have hhigh : (of f m q).high * 10 ^ ((17 : Nat) - p).toNat =
        (of f m q).value * 10 ^ ((17 : Nat) - p).toNat +
          2 * (2 ^ (q - 2).toNat * 10 ^ ((17 : Nat) - p).toNat) := by
      simp only [of, Nat.pow_eq]
      ring
    rw [hhigh, Nat.add_mul, one_mul]
    change _ + (of f m q).denominator * _ < _
    omega

end RoundingInterval

theorem shortest_isNormal {m : Nat} {q : Int} (tie : TieRule) (hm : 0 < m) (hbits : m < 2 ^ 24)
    (hlow : -149 ≤ q) (hhigh : q ≤ 104) : (BinaryFormat.single.shortest tie m q).IsNormal := by
  have hone : (1 : ℚ) ≤ m := by exact_mod_cast hm
  have hm' : (m : ℚ) < 2 ^ 24 := by exact_mod_cast hbits
  have hvalue : 0 < (RoundingInterval.of .single m q).value := by
    have := Nat.two_pow_pos (q - 2).toNat
    exact Nat.mul_pos (by omega) this
  have hpoint := RoundingInterval.point_hasPoint hvalue RoundingInterval.of_denominator_pos
    (r := .of .single m q)
    (by
      rw [RoundingInterval.of_quotient]
      calc (2 : ℚ) ^ (-149 : ℤ)
        _ ≤ 2 ^ q := zpow_le_zpow_right₀ one_le_two hlow
        _ ≤ m * 2 ^ q := le_mul_of_one_le_left (by positivity) hone)
    (by
      rw [RoundingInterval.of_quotient]
      calc (m : ℚ) * 2 ^ q
        _ < 2 ^ 24 * 2 ^ q := by gcongr
        _ ≤ 2 ^ 24 * 2 ^ (104 : ℤ) := by
            gcongr
            norm_num
        _ = 2 ^ (128 : ℤ) := by norm_num)
  exact RoundingInterval.shortestFrom_isNormal RoundingInterval.of_denominator_pos hpoint
    (Nat.le_refl 1) (RoundingInterval.isSome_decimal?_of tie hbits hpoint)

end TrainingLoop
