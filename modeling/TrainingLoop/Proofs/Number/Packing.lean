import TrainingLoop.Proofs.Number.Rounding
/-!
# Packing and unpacking

What unpacking a pattern can give (`Unpacked`), and that packing keeps those numbers: unpacking a
packed one gives it back.
-/

namespace TrainingLoop

open Float.Model (Format UnpackedFloat)
open Float.Model.UnpackedFloat

variable {S : Format}

/-! ## What unpacking gives -/

def greatestExponent (S : Format) : Int := S.exponentBias - S.mantissaBitsWithoutImplicit

inductive Unpacked (S : Format) : UnpackedFloat → Prop
  | notANumber : Unpacked S .notANumber
  | infinity (s : Sign) : Unpacked S (.infinity s)
  | zero (s : Sign) : Unpacked S (.zero s)
  | finite (s : Sign) {m : Nat} {e : Int} (h : IsCanonical S m e) (hle : e ≤ greatestExponent S) :
      Unpacked S (.finite s m e h.positive)

/-- The format has exponents besides those of its subnormal numbers and of its infinities. -/
def HasNormal (S : Format) : Prop := 2 ≤ S.exponentBits

theorem exponentBias_succ (S : Format) : 2 * S.exponentBias + 2 = 2 ^ S.exponentBits := by
  have hpow := Nat.one_le_two_pow (n := S.exponentBits - 1)
  have hsplit : S.exponentBits = S.exponentBits - 1 + 1 := by
    have he := S.he
    omega
  rw [hsplit, Nat.pow_succ, Format.exponentBias]
  omega

theorem minExponent_eq (S : Format) :
    S.minExponent = 1 - (S.exponentBias : Int) - S.mantissaBitsWithoutImplicit := by
  have hpow := Nat.one_le_two_pow (n := S.exponentBits - 1)
  unfold Format.minExponent Format.exponentBias Format.mantissaBits
  push_cast [hpow]
  omega

theorem toNat_allOnes (w : Nat) : (-1#w).toNat = 2 ^ w - 1 := by
  rw [BitVec.neg_one_eq_allOnes, BitVec.toNat_allOnes]

theorem toNat_implicit {w : Nat} (m : BitVec w) : (1#1 ++ m).toNat = 2 ^ w + m.toNat := by
  rw [BitVec.toNat_append, ← Nat.shiftLeft_add_eq_or_of_lt m.isLt, Nat.shiftLeft_eq]
  simp

theorem unpack_unpacked (hS : HasNormal S) (b : BitVec S.numBits) : Unpacked S (unpack S b) := by
  have hbias := exponentBias_succ S
  have hleast := minExponent_eq S
  have hgreatest : greatestExponent S = S.exponentBias - S.mantissaBitsWithoutImplicit := rfl
  have hbits := mantissaBits_pow (S := S)
  have hwide : 2 ^ 2 ≤ 2 ^ S.exponentBits := Nat.pow_le_pow_right (by decide) hS
  have hmantissa := (unpackMantissa b).isLt
  have hexponent := (unpackExponent b).isLt
  unfold unpack
  dsimp only
  split
  · split
    · exact .infinity _
    · exact .notANumber
  · rename_i hfinite
    have hbelow : (unpackExponent b).toNat ≠ 2 ^ S.exponentBits - 1 := fun hsame =>
      hfinite (BitVec.eq_of_toNat_eq (hsame.trans (toNat_allOnes _).symm))
    split
    · rename_i hzero
      split
      · exact .zero _
      · rename_i hnonzero
        have hpos : 0 < (unpackMantissa b).toNat :=
          Nat.pos_of_ne_zero fun hsame => hnonzero (BitVec.eq_of_toNat_eq hsame)
        rw [hzero, BitVec.toNat_zero]
        exact .finite _ ⟨hpos, by omega, by omega, .inr (by omega)⟩ (by omega)
    · rename_i hnonzero
      have hpos : (unpackExponent b).toNat ≠ 0 := fun hsame =>
        hnonzero (BitVec.eq_of_toNat_eq hsame)
      have himplicit := toNat_implicit (unpackMantissa b)
      exact .finite _ ⟨by omega, by omega, by omega, .inl (by omega)⟩ (by omega)

theorem zero_ne_allOnes (S : Format) : (0#S.exponentBits) ≠ -1#_ := by
  intro hsame
  have hpow : 2 ^ 1 ≤ 2 ^ S.exponentBits := Nat.pow_le_pow_right (by decide) S.he
  have htoNat := congrArg BitVec.toNat hsame
  rw [toNat_allOnes, BitVec.toNat_zero] at htoNat
  omega

section Fields

variable (s : Sign) {e : BitVec S.exponentBits} (m : BitVec S.mantissaBitsWithoutImplicit)

theorem unpack_packedInfinity : unpack S (packedInfinity S s) = .infinity s := by
  unfold unpack packedInfinity
  simp only [unpackMantissa_packComponents, unpackExponent_packComponents,
    unpackSign_packComponents, Sign.ofBitVec_toBitVec, if_true]
  rfl

theorem unpack_subnormal (hm : 0 < m.toNat) :
    unpack S (packComponents S s 0#_ m) = .finite s m.toNat S.minExponent hm := by
  have hnonzero : m ≠ 0#_ := by
    rintro rfl
    exact absurd hm (by rw [BitVec.toNat_zero]; exact Nat.lt_irrefl 0)
  have hexponent : (((0#S.exponentBits).toNat : Int) -
      (S.exponentBias + S.mantissaBitsWithoutImplicit) + 1) = S.minExponent := by
    rw [BitVec.toNat_zero, minExponent_eq]
    omega
  unfold unpack
  simp only [unpackMantissa_packComponents, unpackExponent_packComponents,
    unpackSign_packComponents, Sign.ofBitVec_toBitVec, zero_ne_allOnes, hnonzero, hexponent,
    if_true, if_false, dite_false]

theorem unpack_normal (hfinite : e ≠ -1#_) (hpos : e ≠ 0#_) :
    unpack S (packComponents S s e m) =
      .finite s (2 ^ S.mantissaBitsWithoutImplicit + m.toNat)
        (e.toNat - (S.exponentBias + S.mantissaBitsWithoutImplicit))
        (Nat.add_pos_left (Nat.two_pow_pos _) _) := by
  unfold unpack
  simp only [unpackMantissa_packComponents, unpackExponent_packComponents,
    unpackSign_packComponents, Sign.ofBitVec_toBitVec, hfinite, hpos, if_false, toNat_implicit]

end Fields

def storedExponent (S : Format) (e : Int) : Nat :=
  (e + S.exponentBias + S.mantissaBitsWithoutImplicit).toNat

theorem IsCanonical.stored_bounds {m : Nat} {e : Int} (h : IsCanonical S m e)
    (hle : e ≤ greatestExponent S) :
    1 ≤ storedExponent S e ∧ storedExponent S e + 1 < 2 ^ S.exponentBits ∧
      (storedExponent S e : Int) - (S.exponentBias + S.mantissaBitsWithoutImplicit) = e := by
  have hbias := exponentBias_succ S
  have hleast := minExponent_eq S
  have hlow := h.least
  unfold greatestExponent at hle
  unfold storedExponent
  omega

theorem IsCanonical.pack_eq {m : Nat} {e : Int} (h : IsCanonical S m e)
    (hle : e ≤ greatestExponent S) (s : Sign) :
    pack S (.finite s m e h.positive) =
      if 2 ^ S.mantissaBitsWithoutImplicit ≤ m then
        packComponents S s (BitVec.ofNat _ (storedExponent S e)) (BitVec.ofNat _ m)
      else packComponents S s 0#_ (BitVec.ofNat _ m) := by
  obtain ⟨-, hbelow, -⟩ := h.stored_bounds hle
  have hlog : m.log2 < S.mantissaBits := (Nat.log2_lt h.positive.ne').2 h.bounded
  have hnormal : m.log2 + 1 = S.mantissaBits ↔ 2 ^ S.mantissaBitsWithoutImplicit ≤ m := by
    rw [← Nat.le_log2 h.positive.ne']
    unfold Format.mantissaBits at *
    omega
  unfold storedExponent at *
  simp only [pack, hnormal, Nat.not_le_of_lt hbelow, if_false]

theorem unpack_pack {x : UnpackedFloat} (hx : Unpacked S x) : unpack S (pack S x) = x := by
  cases hx with
  | notANumber => exact unpack_packedNaN
  | infinity s => exact unpack_packedInfinity s
  | zero s => exact unpack_packedZero
  | @finite s m e h hle =>
    obtain ⟨hpos, hbelow, hback⟩ := h.stored_bounds hle
    have hbits := h.bounded
    rw [mantissaBits_pow] at hbits
    rw [h.pack_eq hle]
    split
    · rename_i hnormal
      have hmantissa :
          (BitVec.ofNat S.mantissaBitsWithoutImplicit m).toNat =
            m - 2 ^ S.mantissaBitsWithoutImplicit := by
        rw [BitVec.toNat_ofNat, Nat.mod_eq_sub_mod hnormal, Nat.mod_eq_of_lt (by omega)]
      have hexponent :
          (BitVec.ofNat S.exponentBits (storedExponent S e)).toNat = storedExponent S e := by
        rw [BitVec.toNat_ofNat, Nat.mod_eq_of_lt (by omega)]
      rw [unpack_normal]
      · simp only [hmantissa, hexponent, hback, Nat.add_sub_cancel' hnormal]
      · intro hones
        rw [hones, toNat_allOnes] at hexponent
        omega
      · intro hzero
        rw [hzero, BitVec.toNat_zero] at hexponent
        omega
    · rename_i hsubnormal
      have hmantissa : (BitVec.ofNat S.mantissaBitsWithoutImplicit m).toNat = m := by
        rw [BitVec.toNat_ofNat, Nat.mod_eq_of_lt (by omega)]
      have hleast := h.normal.resolve_left hsubnormal
      rw [unpack_subnormal s _ (hmantissa.symm ▸ h.positive)]
      simp only [hmantissa, hleast]

end TrainingLoop
