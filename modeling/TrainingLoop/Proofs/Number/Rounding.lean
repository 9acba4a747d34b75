import Mathlib
import TrainingLoop.Number.Single
/-!
# Rounding to a binary format

Rounding drops the lowest bits of a mantissa and keeps two bits that tell where the rest lies. It
gives the quotient to the nearest natural, so that it keeps the order of what is rounded, and leaves
the numbers of the format as they are.
-/

namespace TrainingLoop

open Float.Model Float.Model.UnpackedFloat

/-! ## Quotients to the nearest -/

section Quotients

variable {n d k : Nat}

theorem Nat.div_le_divNearest : n / d ≤ Nat.divNearest n d := by
  unfold Nat.divNearest
  dsimp only
  split <;> omega

theorem Nat.divNearest_le_succ : Nat.divNearest n d ≤ n / d + 1 := by
  unfold Nat.divNearest
  dsimp only
  split <;> omega

theorem Nat.divNearest_of_dvd (hd : 0 < d) (h : d ∣ n) : Nat.divNearest n d = n / d := by
  unfold Nat.divNearest
  dsimp only
  rw [Nat.mod_eq_zero_of_dvd h, Nat.mul_zero, decide_eq_true hd, Bool.true_or, if_pos rfl]

theorem Nat.divNearest_le (hd : 0 < d) (h : n ≤ k * d) : Nat.divNearest n d ≤ k := by
  have hfloor : n / d ≤ k := Nat.div_le_of_le_mul (by rwa [Nat.mul_comm])
  rcases Nat.lt_or_eq_of_le hfloor with hbelow | hsame
  · have hsucc := Nat.divNearest_le_succ (n := n) (d := d)
    omega
  · -- nothing is left over, so nothing is rounded up
    have hrest : n % d = 0 := by
      have hsplit := Nat.div_add_mod n d
      rw [hsame, Nat.mul_comm] at hsplit
      omega
    rw [Nat.divNearest_of_dvd hd (Nat.dvd_of_mod_eq_zero hrest)]
    exact hfloor

theorem Nat.le_divNearest (hd : 0 < d) (h : k * d ≤ n) : k ≤ Nat.divNearest n d :=
  Nat.le_trans ((Nat.le_div_iff_mul_le hd).2 h) Nat.div_le_divNearest

theorem Nat.divNearest_mono {n' : Nat} (h : n ≤ n') : Nat.divNearest n d ≤ Nat.divNearest n' d := by
  have hfloor : n / d ≤ n' / d := Nat.div_le_div_right h
  rcases Nat.lt_or_eq_of_le hfloor with hbelow | hsame
  · have hsucc := Nat.divNearest_le_succ (n := n) (d := d)
    have hdiv := Nat.div_le_divNearest (n := n') (d := d)
    omega
  · -- with the same quotient, what is left over of the smaller one is no more
    have hsplit := Nat.div_add_mod n d
    have hsplit' := Nat.div_add_mod n' d
    rw [hsame] at hsplit
    have hrest : n % d ≤ n' % d := by omega
    unfold Nat.divNearest
    simp only [hsame, Bool.or_eq_true, Bool.and_eq_true, decide_eq_true_eq, beq_iff_eq]
    split <;> split <;> omega

theorem Nat.divNearest_mul (hd : 0 < d) : Nat.divNearest (k * d) d = k := by
  rw [Nat.divNearest_of_dvd hd (Nat.dvd_mul_left d k), Nat.mul_div_cancel _ hd]

theorem Nat.divNearest_mul_mul (hk : 0 < k) :
    Nat.divNearest (n * k) (d * k) = Nat.divNearest n d := by
  have hlt : 2 * (n % d * k) < d * k ↔ 2 * (n % d) < d := by
    rw [← Nat.mul_assoc, Nat.mul_lt_mul_right hk]
  have heq : (2 * (n % d * k) == d * k) = (2 * (n % d) == d) := by
    rw [← Nat.mul_assoc, Bool.eq_iff_iff, beq_iff_eq, beq_iff_eq, Nat.mul_left_inj hk.ne']
  unfold Nat.divNearest
  simp only [Nat.mul_div_mul_right _ _ hk, Nat.mul_mod_mul_right, hlt, heq]

end Quotients

/-! ## Dropping bits -/

/-- The two bits behind a mantissa: whether the rest is at least half a unit, and whether it is
neither none nor half. -/
theorem shiftRight_exact (m k : Nat) :
    ExtendedMantissa.ofMantissaAndAccuracy m .exact >>> k =
      ⟨m / 2 ^ k, decide (2 ^ k ≤ 2 * (m % 2 ^ k)),
        decide (2 * (m % 2 ^ k) ≠ 0 ∧ 2 * (m % 2 ^ k) ≠ 2 ^ k)⟩ := by
  change k.repeat ExtendedMantissa.shiftRightOne _ = _
  induction k with
  | zero =>
      rw [Nat.repeat, Nat.pow_zero, Nat.div_one, Nat.mod_one]
      rfl
  | succ k ih =>
      rw [Nat.repeat, ih, ExtendedMantissa.shiftRightOne]
      have hrest : m % 2 ^ k < 2 ^ k := Nat.mod_lt _ (Nat.two_pow_pos k)
      have hsplit : m % 2 ^ (k + 1) = m % 2 ^ k + 2 ^ k * (m / 2 ^ k % 2) := by
        rw [Nat.pow_succ, Nat.mod_mul]
      have hpow : 2 ^ (k + 1) = 2 * 2 ^ k := by rw [Nat.pow_succ, Nat.mul_comm]
      rw [Nat.div_div_eq_div_mul, ← Nat.pow_succ, hsplit, hpow]
      congr 1
      · rcases Nat.mod_two_eq_zero_or_one (m / 2 ^ k) with hbit | hbit <;> rw [hbit]
        · have : ¬ 2 * 2 ^ k ≤ 2 * (m % 2 ^ k + 2 ^ k * 0) := by omega
          rw [decide_eq_false this]
          rfl
        · have : 2 * 2 ^ k ≤ 2 * (m % 2 ^ k + 2 ^ k * 1) := by omega
          rw [decide_eq_true this]
          rfl
      · rcases Nat.mod_two_eq_zero_or_one (m / 2 ^ k) with hbit | hbit <;> rw [hbit] <;>
          simp only [Bool.or_eq_decide] <;> grind

theorem roundedMantissa_shiftRight (m k : Nat) :
    (ExtendedMantissa.ofMantissaAndAccuracy m .exact >>> k).roundedMantissa =
      Nat.divNearest m (2 ^ k) := by
  rw [shiftRight_exact]
  unfold ExtendedMantissa.roundedMantissa Nat.divNearest
  dsimp only
  have hpow : 0 < 2 ^ k := Nat.two_pow_pos k
  rcases Nat.lt_trichotomy (2 * (m % 2 ^ k)) (2 ^ k) with hbelow | hhalf | habove
  · rw [decide_eq_false (Nat.not_le_of_lt hbelow), decide_eq_true hbelow, Bool.true_or, if_pos rfl]
    by_cases hzero : 2 * (m % 2 ^ k) = 0
    · rw [decide_eq_false fun h => h.1 hzero]
      rfl
    · rw [decide_eq_true ⟨hzero, Nat.ne_of_lt hbelow⟩]
      rfl
  · -- half a unit goes to the even neighbour
    rw [decide_eq_true (Nat.le_of_eq hhalf.symm), decide_eq_false fun h => h.2 hhalf,
      decide_eq_false (Nat.not_lt_of_le (Nat.le_of_eq hhalf.symm)), hhalf, beq_self_eq_true,
      Bool.false_or, Bool.true_and]
    change m / 2 ^ k + m / 2 ^ k % 2 = _
    rcases Nat.mod_two_eq_zero_or_one (m / 2 ^ k) with hbit | hbit <;> rw [hbit] <;> rfl
  · have hrest : 2 * (m % 2 ^ k) ≠ 0 ∧ 2 * (m % 2 ^ k) ≠ 2 ^ k := by omega
    rw [decide_eq_true (Nat.le_of_lt habove), decide_eq_true hrest,
      decide_eq_false (Nat.not_lt_of_lt habove), beq_false_of_ne hrest.2]
    rfl

/-! ## Numbers of a format -/

/-- A positive mantissa and an exponent as the format has them: as many bits as there are, unless
the exponent is the least one. -/
structure IsCanonical (S : Format) (m : Nat) (e : Int) : Prop where
  positive : 0 < m
  bounded : m < 2 ^ S.mantissaBits
  least : S.minExponent ≤ e
  normal : 2 ^ S.mantissaBitsWithoutImplicit ≤ m ∨ e = S.minExponent

theorem cast_mul_two_pow (m k : Nat) (e : Int) :
    ((m * 2 ^ k : ℕ) : ℚ) * 2 ^ e = m * 2 ^ (e + k) := by
  rw [zpow_add₀ two_ne_zero, zpow_natCast]
  push_cast
  ring

section Canonical

variable {S : Format} {m m' : Nat} {e e' : Int}

theorem mantissaBits_pow : 2 ^ S.mantissaBits = 2 * 2 ^ S.mantissaBitsWithoutImplicit := by
  rw [Format.mantissaBits, Nat.pow_add, Nat.pow_one]

theorem IsCanonical.target (h : IsCanonical S m e) :
    S.targetExponent (totalExponent m e) = e := by
  have hlog : m.log2 < S.mantissaBits := (Nat.log2_lt h.positive.ne').2 h.bounded
  have hleast := h.least
  unfold Format.targetExponent totalExponent
  rcases h.normal with hnormal | hleast'
  · have hlog' : S.mantissaBitsWithoutImplicit ≤ m.log2 := (Nat.le_log2 h.positive.ne').2 hnormal
    unfold Format.mantissaBits at *
    omega
  · omega

theorem IsCanonical.lt_of_exponent (h : IsCanonical S m e) (h' : IsCanonical S m' e')
    (hlt : e < e') : (m : ℚ) * 2 ^ e < m' * 2 ^ e' := by
  have hnormal : 2 ^ S.mantissaBitsWithoutImplicit ≤ m' := by
    refine h'.normal.resolve_right fun hleast => ?_
    have := h.least
    omega
  have hm : m + 1 ≤ 2 * m' := by
    have hbounded := h.bounded
    rw [mantissaBits_pow] at hbounded
    omega
  have hm' : (m : ℚ) < 2 * m' := by exact_mod_cast hm
  calc (m : ℚ) * 2 ^ e
    _ < 2 * m' * 2 ^ e := by gcongr
    _ = m' * 2 ^ (e + 1) := by rw [zpow_add_one₀ two_ne_zero]; ring
    _ ≤ m' * 2 ^ e' := by gcongr <;> [norm_num; omega]

theorem IsCanonical.le_iff (h : IsCanonical S m e) (h' : IsCanonical S m' e') :
    (m : ℚ) * 2 ^ e ≤ m' * 2 ^ e' ↔ e < e' ∨ e = e' ∧ m ≤ m' := by
  rcases lt_trichotomy e e' with hlt | rfl | hgt
  · exact ⟨fun _ => .inl hlt, fun _ => (h.lt_of_exponent h' hlt).le⟩
  · have hpos : (0 : ℚ) < 2 ^ e := by positivity
    rw [mul_le_mul_iff_left₀ hpos, Nat.cast_le]
    exact ⟨fun hle => .inr ⟨rfl, hle⟩, fun hor => hor.elim (fun hlt => absurd hlt (lt_irrefl e))
      fun hand => hand.2⟩
  · have hlarger := h'.lt_of_exponent h hgt
    constructor
    · intro hle
      exact absurd hlarger hle.not_gt
    · intro hor
      omega

/-- A number has one mantissa and one exponent. -/
theorem IsCanonical.unique (h : IsCanonical S m e) (h' : IsCanonical S m' e')
    (hsame : (m : ℚ) * 2 ^ e = m' * 2 ^ e') : m = m' ∧ e = e' := by
  have hle := (h.le_iff h').1 hsame.le
  have hge := (h'.le_iff h).1 hsame.ge
  omega

/-! ## The rounded value -/

theorem targetExponent_mono (hm : 0 < m) (hle : (m : ℚ) * 2 ^ e ≤ m' * 2 ^ e') :
    S.targetExponent (totalExponent m e) ≤ S.targetExponent (totalExponent m' e') := by
  have hlower : (2 : ℚ) ^ ((m.log2 : ℤ) + e) ≤ m * 2 ^ e := by
    rw [zpow_add₀ two_ne_zero, zpow_natCast]
    have hlog : ((2 ^ m.log2 : ℕ) : ℚ) ≤ m := Nat.cast_le.2 (Nat.log2_self_le hm.ne')
    push_cast at hlog
    gcongr
  have hupper : (m' : ℚ) * 2 ^ e' < 2 ^ (((m'.log2 + 1 : ℕ) : ℤ) + e') := by
    rw [zpow_add₀ two_ne_zero, zpow_natCast]
    have hlog : (m' : ℚ) < ((2 ^ (m'.log2 + 1) : ℕ) : ℚ) := Nat.cast_lt.2 Nat.lt_log2_self
    push_cast at hlog
    gcongr
  have hexponents : (m.log2 : ℤ) + e < ((m'.log2 + 1 : ℕ) : ℤ) + e' :=
    (zpow_lt_zpow_iff_right₀ one_lt_two).1 (hlower.trans_lt (hle.trans_lt hupper))
  unfold Format.targetExponent totalExponent
  push_cast at hexponents
  omega

theorem targetExponent_congr (hm : 0 < m) (hm' : 0 < m')
    (hsame : (m : ℚ) * 2 ^ e = m' * 2 ^ e') :
    S.targetExponent (totalExponent m e) = S.targetExponent (totalExponent m' e') :=
  le_antisymm (targetExponent_mono hm hsame.le) (targetExponent_mono hm' hsame.ge)

/-- The mantissa that rounding to the target leaves, before a carry is moved on. -/
def roundedMantissa (S : Format) (m : Nat) (e : Int) : Nat :=
  Nat.divNearest m (2 ^ (S.targetExponent (totalExponent m e) - e).toNat)

theorem roundedMantissa_le (he : e ≤ S.targetExponent (totalExponent m e)) :
    roundedMantissa S m e ≤ 2 ^ S.mantissaBits := by
  refine Nat.divNearest_le (Nat.two_pow_pos _) ?_
  rw [← Nat.pow_add]
  have hbits : m.log2 + 1 ≤
      S.mantissaBits + (S.targetExponent (totalExponent m e) - e).toNat := by
    unfold Format.targetExponent totalExponent at *
    omega
  exact Nat.le_of_lt
    (Nat.lt_of_lt_of_le Nat.lt_log2_self (Nat.pow_le_pow_right (by decide) hbits))

theorem roundedMantissa_normal (hm : 0 < m) (he : e ≤ S.targetExponent (totalExponent m e)) :
    2 ^ S.mantissaBitsWithoutImplicit ≤ roundedMantissa S m e ∨
      S.targetExponent (totalExponent m e) = S.minExponent := by
  by_cases hleast : S.targetExponent (totalExponent m e) = S.minExponent
  · exact .inr hleast
  · refine .inl (Nat.le_divNearest (Nat.two_pow_pos _) ?_)
    rw [← Nat.pow_add]
    have hbits : S.mantissaBitsWithoutImplicit +
        (S.targetExponent (totalExponent m e) - e).toNat = m.log2 := by
      unfold Format.targetExponent totalExponent Format.mantissaBits at *
      omega
    rw [hbits]
    exact Nat.log2_self_le hm.ne'

theorem shiftToTargetExponent_of_lt (hm : m < 2 ^ S.mantissaBits) (he : S.minExponent ≤ e) :
    (shiftToTargetExponent S m e .exact).1.mantissa = m ∧
      (shiftToTargetExponent S m e .exact).2 = e := by
  have hlog : m.log2 < S.mantissaBits := by
    rcases Nat.eq_zero_or_pos m with rfl | hpos
    · rw [Nat.log2_zero, Format.mantissaBits]
      omega
    · exact (Nat.log2_lt hpos.ne').2 hm
  have hshift : (S.targetExponent (totalExponent m e) - e).toNat = 0 := by
    unfold Format.targetExponent totalExponent
    omega
  dsimp only [shiftToTargetExponent, shiftToExponent]
  rw [hshift, shiftRight_exact]
  exact ⟨Nat.div_one m, by omega⟩

/-- A mantissa that was rounded up to the next power of two moves its carry on. -/
theorem shiftToTargetExponent_carry (he : S.minExponent ≤ e) :
    (shiftToTargetExponent S (2 ^ S.mantissaBits) e .exact).1.mantissa =
        2 ^ S.mantissaBitsWithoutImplicit ∧
      (shiftToTargetExponent S (2 ^ S.mantissaBits) e .exact).2 = e + 1 := by
  have hshift :
      (S.targetExponent (totalExponent (2 ^ S.mantissaBits) e) - e).toNat = 1 := by
    unfold Format.targetExponent totalExponent
    rw [Nat.log2_two_pow]
    omega
  dsimp only [shiftToTargetExponent, shiftToExponent]
  rw [hshift, shiftRight_exact, mantissaBits_pow, Nat.pow_one,
    Nat.mul_div_cancel_left _ Nat.two_pos]
  exact ⟨rfl, rfl⟩

/-- Rounding a number that has no bits to spare below the target gives a number of the format, of
the value that the rounded mantissa has at the target. -/
theorem roundWithAccuracy_exact (s : Sign) (hm : 0 < m)
    (he : e ≤ S.targetExponent (totalExponent m e)) :
    (roundedMantissa S m e = 0 ∧ roundWithAccuracy S s m e .exact = .zero s) ∨
    ∃ m' e', ∃ h : 0 < m', roundWithAccuracy S s m e .exact = .finite s m' e' h ∧
      IsCanonical S m' e' ∧
      (m' : ℚ) * 2 ^ e' =
        roundedMantissa S m e * 2 ^ S.targetExponent (totalExponent m e) := by
  have hexponent : e + ((S.targetExponent (totalExponent m e) - e).toNat : Int) =
      S.targetExponent (totalExponent m e) := by omega
  have hrounds : roundWithAccuracy S s m e .exact =
      (if h : (shiftToTargetExponent S (roundedMantissa S m e)
          (S.targetExponent (totalExponent m e)) .exact).1.mantissa = 0 then .zero s
        else .finite s _ (shiftToTargetExponent S (roundedMantissa S m e)
          (S.targetExponent (totalExponent m e)) .exact).2 (Nat.pos_of_ne_zero h)) := by
    unfold roundWithAccuracy
    dsimp only [shiftToTargetExponent, shiftToExponent]
    simp only [roundedMantissa_shiftRight, hexponent]
    rfl
  have hleast : S.minExponent ≤ S.targetExponent (totalExponent m e) := le_max_right _ _
  have hnormal := roundedMantissa_normal hm he
  rw [hrounds]
  rcases Nat.lt_or_eq_of_le (roundedMantissa_le he) with hfits | hcarry
  · obtain ⟨hmantissa, hsame⟩ := shiftToTargetExponent_of_lt hfits hleast
    simp only [hmantissa, hsame]
    split
    · rename_i hzero
      exact .inl ⟨hzero, rfl⟩
    · rename_i hnonzero
      have hpos := Nat.pos_of_ne_zero hnonzero
      exact .inr ⟨_, _, hpos, rfl, ⟨hpos, hfits, hleast, hnormal⟩, rfl⟩
  · obtain ⟨hmantissa, hnext⟩ := shiftToTargetExponent_carry hleast
    rw [hcarry]
    simp only [hmantissa, hnext, (Nat.two_pow_pos _).ne', dite_false]
    refine .inr ⟨_, _, Nat.two_pow_pos _, rfl,
      ⟨Nat.two_pow_pos _, ?_, by omega, .inl (Nat.le_refl _)⟩, ?_⟩
    · rw [mantissaBits_pow]
      have := Nat.two_pow_pos S.mantissaBitsWithoutImplicit
      omega
    · rw [mantissaBits_pow, zpow_add_one₀ two_ne_zero]
      push_cast
      ring

/-- A number of the format is rounded to itself, however it is written. -/
theorem IsCanonical.roundWithAccuracy_eq (h : IsCanonical S m e) (s : Sign) (k : Nat) :
    roundWithAccuracy S s (m * 2 ^ k) (e - k) .exact = .finite s m e h.positive := by
  have hpos : 0 < m * 2 ^ k := Nat.mul_pos h.positive (Nat.two_pow_pos k)
  have hsame : ((m * 2 ^ k : ℕ) : ℚ) * 2 ^ (e - k) = m * 2 ^ e := by
    rw [cast_mul_two_pow, sub_add_cancel]
  have htarget : S.targetExponent (totalExponent (m * 2 ^ k) (e - k)) = e := by
    rw [targetExponent_congr hpos h.positive hsame, h.target]
  have hrounded : roundedMantissa S (m * 2 ^ k) (e - k) = m := by
    have hshift : (e - (e - (k : Int))).toNat = k := by omega
    rw [roundedMantissa, htarget, hshift, Nat.divNearest_mul (Nat.two_pow_pos k)]
  have hrounds := roundWithAccuracy_exact s hpos (S := S) (e := e - k) (by rw [htarget]; omega)
  rw [hrounded, htarget] at hrounds
  obtain ⟨hzero, -⟩ | ⟨m', e', hpos', hfinite, hcanonical, hvalue⟩ := hrounds
  · exact absurd hzero h.positive.ne'
  · obtain ⟨rfl, rfl⟩ := hcanonical.unique h hvalue
    exact hfinite

/-- A mantissa that is written at a lower exponent is rounded to the same. -/
theorem divNearest_shift {l t : Int} (hlow : l ≤ e) (hhigh : e ≤ t) :
    Nat.divNearest (m * 2 ^ (e - l).toNat) (2 ^ (t - l).toNat) =
      Nat.divNearest m (2 ^ (t - e).toNat) := by
  have hsplit : (t - l).toNat = (t - e).toNat + (e - l).toNat := by omega
  rw [hsplit, Nat.pow_add, Nat.divNearest_mul_mul (Nat.two_pow_pos _)]

theorem divNearest_mono_of_le {t : Int} (he : e ≤ t) (he' : e' ≤ t)
    (hle : (m : ℚ) * 2 ^ e ≤ m' * 2 ^ e') :
    Nat.divNearest m (2 ^ (t - e).toNat) ≤ Nat.divNearest m' (2 ^ (t - e').toNat) := by
  have hexact : ((m * 2 ^ (e - min e e').toNat : ℕ) : ℚ) * 2 ^ min e e' ≤
      ((m' * 2 ^ (e' - min e e').toNat : ℕ) : ℚ) * 2 ^ min e e' := by
    rw [cast_mul_two_pow, cast_mul_two_pow, Int.toNat_of_nonneg (by omega),
      Int.toNat_of_nonneg (by omega), add_sub_cancel, add_sub_cancel]
    exact hle
  have hpow : (0 : ℚ) < 2 ^ min e e' := by positivity
  rw [mul_le_mul_iff_left₀ hpow, Nat.cast_le] at hexact
  rw [← divNearest_shift (Int.min_le_left e e') he, ← divNearest_shift (Int.min_le_right e e') he']
  exact Nat.divNearest_mono hexact

def roundedValue (S : Format) (m : Nat) (e : Int) : ℚ :=
  roundedMantissa S m e * 2 ^ S.targetExponent (totalExponent m e)

theorem roundedValue_nonneg (S : Format) (m : Nat) (e : Int) : 0 ≤ roundedValue S m e := by
  unfold roundedValue
  positivity

theorem IsCanonical.roundedValue_eq (h : IsCanonical S m e) : roundedValue S m e = m * 2 ^ e := by
  rw [roundedValue, roundedMantissa, h.target, Int.sub_self, Int.toNat_zero, Nat.pow_zero,
    Nat.divNearest_of_dvd Nat.one_pos (Nat.one_dvd m), Nat.div_one]

theorem roundedValue_mono (hm : 0 < m) (hm' : 0 < m')
    (he : e ≤ S.targetExponent (totalExponent m e))
    (he' : e' ≤ S.targetExponent (totalExponent m' e'))
    (hle : (m : ℚ) * 2 ^ e ≤ m' * 2 ^ e') : roundedValue S m e ≤ roundedValue S m' e' := by
  have hbelow := roundedMantissa_le he
  have habove := roundedMantissa_normal hm' he'
  have hleast : S.minExponent ≤ S.targetExponent (totalExponent m e) := le_max_right _ _
  unfold roundedValue
  rcases (targetExponent_mono (S := S) hm hle).lt_or_eq with hlt | hsame
  · -- a power of two lies between them
    have hnormal := habove.resolve_right (by omega)
    calc (roundedMantissa S m e : ℚ) * 2 ^ S.targetExponent (totalExponent m e)
      _ ≤ (2 ^ S.mantissaBits : ℕ) * 2 ^ S.targetExponent (totalExponent m e) := by gcongr
      _ = (2 ^ S.mantissaBitsWithoutImplicit : ℕ) *
          2 ^ (S.targetExponent (totalExponent m e) + 1) := by
        rw [mantissaBits_pow, zpow_add_one₀ two_ne_zero]
        push_cast
        ring
      _ ≤ roundedMantissa S m' e' * 2 ^ S.targetExponent (totalExponent m' e') := by
        gcongr <;> [norm_num; omega]
  · have hpow : (0 : ℚ) < 2 ^ S.targetExponent (totalExponent m' e') := by positivity
    rw [hsame] at he
    rw [roundedMantissa, roundedMantissa, hsame, mul_le_mul_iff_left₀ hpow, Nat.cast_le]
    exact divNearest_mono_of_le he he' hle

/-- A product of numbers of the format has no bits to spare below its target. -/
theorem IsCanonical.mul_exponent_le (h : IsCanonical S m e) (h' : IsCanonical S m' e') :
    e + e' ≤ S.targetExponent (totalExponent (m * m') (e + e')) := by
  have hpos : m * m' ≠ 0 := (Nat.mul_pos h.positive h'.positive).ne'
  by_cases hnormal : 2 ^ S.mantissaBitsWithoutImplicit ≤ m * m'
  · have hlog := (Nat.le_log2 hpos).2 hnormal
    unfold Format.targetExponent totalExponent Format.mantissaBits
    omega
  · -- then neither factor is large, so both have the least exponent
    have hleast : e = S.minExponent := h.normal.resolve_left fun hm =>
      hnormal (hm.trans (Nat.le_mul_of_pos_right m h'.positive))
    have hleast' : e' = S.minExponent := h'.normal.resolve_left fun hm =>
      hnormal (hm.trans (Nat.le_mul_of_pos_left m' h.positive))
    have hnonpos : S.minExponent ≤ 0 := by
      have hbits := S.hm
      have hpow := Nat.one_le_two_pow (n := S.exponentBits - 1)
      have hpow' : (1 : Int) ≤ 2 ^ (S.exponentBits - 1) := by exact_mod_cast hpow
      unfold Format.minExponent Format.mantissaBits
      omega
    unfold Format.targetExponent
    omega

end Canonical

end TrainingLoop
