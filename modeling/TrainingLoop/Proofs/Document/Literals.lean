import TrainingLoop.Proofs.Document.Visible
import TrainingLoop.Proofs.Number.Packing
import TrainingLoop.Proofs.Number.Shortest
/-!
# Plain literals

The scan takes a plain literal as a whole, whatever comes after it, as long as that does not go on
with the literal (`scan?_text`). The literals of 32-bit numbers are plain.
-/

namespace TrainingLoop

namespace NumberLiteral

/-- A literal as the scan gives it: no part lacks its digits, and no zero stands in front. -/
structure IsPlain (l : NumberLiteral) : Prop extends l.InDigits where
  whole_ne_nil : l.whole ≠ []
  leading : l.whole.head? = some '0' → l.whole.length = 1
  fraction_ne_nil : l.fraction ≠ some []
  exponent_ne_nil : ∀ sign, l.exponent ≠ some (sign, [])

/-! ## Scanning -/

theorem isDigit_eq (c : Char) : isDigit c = c.isDigit := rfl

def NoDigitAhead (rest : List Char) : Prop := ∀ c ∈ rest.head?, c.isDigit = false

structure EndsLiteral (rest : List Char) : Prop where
  digit : NoDigitAhead rest
  point : '.' ∉ rest.head?
  small : 'e' ∉ rest.head?
  capital : 'E' ∉ rest.head?

theorem takeDigits_append {digits rest : List Char} (hdigits : AllDigits digits)
    (hrest : NoDigitAhead rest) : takeDigits (digits ++ rest) = (digits, rest) := by
  have htake : rest.takeWhile isDigit = [] := by
    cases rest with
    | nil => rfl
    | cons c rest => exact List.takeWhile_cons_of_neg (by rw [isDigit_eq, hrest c rfl]; decide)
  have hdrop : rest.dropWhile isDigit = rest := by
    cases rest with
    | nil => rfl
    | cons c rest => exact List.dropWhile_cons_of_neg (by rw [isDigit_eq, hrest c rfl]; decide)
  have hall : ∀ c ∈ digits, isDigit c = true := hdigits
  rw [takeDigits, List.takeWhile_append_of_pos hall, List.dropWhile_append_of_pos hall, htake,
    hdrop, List.append_nil]

def fractionText : Option (List Char) → List Char
  | none => []
  | some digits => '.' :: digits

def exponentText : Option (ExponentSign × List Char) → List Char
  | none => []
  | some (sign, digits) => 'e' :: ExponentSign.text sign ++ digits

theorem text_eq (l : NumberLiteral) :
    l.text = (if l.negative then ['-'] else []) ++ l.whole ++ fractionText l.fraction ++
      exponentText l.exponent := by
  obtain ⟨negative, whole, fraction, exponent⟩ := l
  cases fraction <;> rcases exponent with - | ⟨sign, digits⟩ <;> rfl

theorem scanExponent_append {exponent : Option (ExponentSign × List Char)} {rest : List Char}
    (hdigits : ∀ sign digits, exponent = some (sign, digits) → AllDigits digits)
    (hne : ∀ sign, exponent ≠ some (sign, [])) (hrest : EndsLiteral rest) :
    scanExponent (exponentText exponent ++ rest) = some (exponent, rest) := by
  match exponent with
  | none =>
      cases rest with
      | nil => rfl
      | cons c rest =>
          have hc : ¬ (c = 'e' ∨ c = 'E') := by
            rintro (rfl | rfl)
            · exact hrest.small rfl
            · exact hrest.capital rfl
          exact if_neg hc
  | some (sign, []) => exact absurd rfl (hne sign)
  | some (sign, first :: digits) =>
      have htake := takeDigits_append (hdigits sign _ rfl) hrest.digit
      have hfirst : first.isDigit = true := hdigits sign _ rfl first List.mem_cons_self
      have hsign : first ≠ '+' ∧ first ≠ '-' := by
        constructor <;>
        · rintro rfl
          exact absurd hfirst (by decide)
      rw [List.cons_append] at htake
      cases sign <;> simp [scanExponent, exponentText, ExponentSign.text, htake, hsign]

theorem scanFraction_append {fraction : Option (List Char)} {rest : List Char}
    (hdigits : ∀ digits, fraction = some digits → AllDigits digits) (hne : fraction ≠ some [])
    (hdigit : NoDigitAhead rest) (hpoint : '.' ∉ rest.head?) :
    scanFraction (fractionText fraction ++ rest) = some (fraction, rest) := by
  match fraction with
  | none =>
      cases rest with
      | nil => rfl
      | cons c rest =>
          have hc : c ≠ '.' := fun hsame => hpoint (congrArg some hsame)
          simp [scanFraction, fractionText, hc]
  | some [] => exact absurd rfl hne
  | some (first :: digits) =>
      have htake := takeDigits_append (hdigits _ rfl) hdigit
      rw [List.cons_append] at htake
      simp [scanFraction, fractionText, htake]

theorem exponentText_ahead (exponent : Option (ExponentSign × List Char)) {rest : List Char}
    (hrest : EndsLiteral rest) :
    NoDigitAhead (exponentText exponent ++ rest) ∧ '.' ∉ (exponentText exponent ++ rest).head? := by
  cases exponent with
  | none => exact ⟨hrest.digit, hrest.point⟩
  | some entry =>
      constructor
      · rintro c ⟨⟩
        rfl
      · nofun

theorem fractionText_ahead (fraction : Option (List Char)) {rest : List Char}
    (hrest : NoDigitAhead rest) : NoDigitAhead (fractionText fraction ++ rest) := by
  cases fraction with
  | none => exact hrest
  | some digits =>
      rintro c ⟨⟩
      rfl

theorem scan?_text {l : NumberLiteral} (hl : l.IsPlain) {rest : List Char}
    (hrest : EndsLiteral rest) : scan? (l.text ++ rest) = some (l, rest) := by
  obtain ⟨negative, whole, fraction, exponent⟩ := l
  obtain ⟨hdigit, hpoint⟩ := exponentText_ahead exponent hrest
  have htake : takeDigits (whole ++ (fractionText fraction ++ (exponentText exponent ++ rest))) =
      (whole, fractionText fraction ++ (exponentText exponent ++ rest)) :=
    takeDigits_append hl.whole (fractionText_ahead fraction hdigit)
  have hfraction := scanFraction_append hl.fraction hl.fraction_ne_nil hdigit hpoint
  have hexponent := scanExponent_append hl.exponent hl.exponent_ne_nil hrest
  match whole with
  | [] => exact absurd rfl hl.whole_ne_nil
  | first :: digits =>
      have hfirst : first ≠ '-' := by
        rintro rfl
        exact absurd (hl.whole '-' List.mem_cons_self) (by decide)
      have hleading : first = '0' → digits = [] := fun hzero =>
        List.length_eq_zero_iff.1 (Nat.succ.inj (hl.leading (congrArg some hzero)))
      rw [List.cons_append] at htake
      cases negative <;>
        simp [scan?, text_eq, htake, hfraction, hexponent, hfirst] <;> exact hleading

end NumberLiteral

/-! ## Layouts -/

namespace NumberLayout

open NumberLiteral

theorem natDigits_ne_nil (n : Nat) : natDigits n ≠ [] := Nat.toDigits_ne_nil

theorem take_natDigits_ne_nil (n : Nat) {k : Nat} (hk : k ≠ 0) : (natDigits n).take k ≠ [] := by
  rw [Ne, List.take_eq_nil_iff, not_or]
  exact ⟨hk, natDigits_ne_nil n⟩

theorem head?_natDigits {n : Nat} (hn : 0 < n) : (natDigits n).head? ≠ some '0' := by
  induction n using Nat.strongRecOn with
  | _ n ih =>
      by_cases hlt : n < 10
      · have hchar : ∀ k < 10, 0 < k → Nat.digitChar k ≠ '0' := by decide
        rw [natDigits, Nat.toDigits_of_lt_base hlt]
        exact fun hsame => hchar n hlt hn (Option.some.inj hsame)
      · have hquotient := ih (n / 10) (by omega) (by omega)
        rw [natDigits, Nat.toDigits_of_base_le (by decide) (by omega),
          List.head?_append_of_ne_nil _ Nat.toDigits_ne_nil]
        exact hquotient

theorem length_natDigits {d : Decimal} (hd : d.IsNormal) :
    (natDigits d.digits).length = d.count := by
  have hcount := hd.count
  have hle := (Nat.length_toDigits_le_iff (n := d.digits) (b := 10) (by decide) hcount).2 hd.high
  have hpos : 0 < (natDigits d.digits).length := Nat.length_toDigits_pos
  have hge : ¬ (natDigits d.digits).length < d.count := by
    intro hlt
    have hbelow := (Nat.length_toDigits_le_iff (n := d.digits) (b := 10)
      (k := (natDigits d.digits).length) (by decide) hpos).1 (Nat.le_refl _)
    have hpow : 10 ^ (natDigits d.digits).length ≤ 10 ^ (d.count - 1) :=
      Nat.pow_le_pow_right (by decide) (by omega)
    have := hd.low
    omega
  exact le_antisymm hle (by omega)

theorem ofNat_isPlain (n : Nat) : (NumberLiteral.ofNat n).IsPlain := by
  refine ⟨ofNat_inDigits n, natDigits_ne_nil n, fun hzero => ?_, nofun, nofun⟩
  obtain rfl | hn := Nat.eq_zero_or_pos n
  · rfl
  · exact absurd hzero (head?_natDigits hn)

variable {layout : NumberLayout} {negative : Bool} {d : Decimal}

theorem head?_digits (hd : d.IsNormal) : (natDigits d.digits).head? ≠ some '0' :=
  head?_natDigits ((Nat.pow_pos (by decide)).trans_le hd.low)

theorem head?_take_digits (hd : d.IsNormal) {n : Nat} (hn : n ≠ 0) :
    ((natDigits d.digits).take n).head? ≠ some '0' := by
  rw [List.head?_take, if_neg hn]
  exact head?_digits hd

theorem positional_isPlain (hd : d.IsNormal) : (layout.positional negative d).IsPlain := by
  have hdigits : (layout.positional negative d).InDigits := positional_inDigits d
  have hlength := length_natDigits hd
  unfold positional at hdigits ⊢
  dsimp only at hdigits ⊢
  by_cases hsmall : d.point ≤ 0
  · rw [if_pos hsmall] at hdigits ⊢
    refine ⟨hdigits, List.cons_ne_nil _ _, fun _ => rfl, fun hnone => ?_, nofun⟩
    exact natDigits_ne_nil _ (List.append_eq_nil_iff.1 (Option.some.inj hnone)).2
  rw [if_neg hsmall] at hdigits ⊢
  by_cases hwhole : d.count ≤ d.point.toNat
  · rw [if_pos hwhole] at hdigits ⊢
    have hne : natDigits d.digits ≠ [] := natDigits_ne_nil _
    refine ⟨hdigits, List.append_ne_nil_of_left_ne_nil hne _, fun hzero => ?_, ?_, nofun⟩
    · rw [List.head?_append_of_ne_nil _ hne] at hzero
      exact absurd hzero (head?_digits hd)
    · cases layout.keepsFraction <;> nofun
  · rw [if_neg hwhole] at hdigits ⊢
    refine ⟨hdigits, take_natDigits_ne_nil _ (by omega), fun hzero => ?_, fun hnone => ?_, nofun⟩
    · exact absurd hzero (head?_take_digits hd (by omega))
    · have hlong := List.drop_eq_nil_iff.1 (Option.some.inj hnone)
      omega

theorem scientific_isPlain (hd : d.IsNormal) : (layout.scientific negative d).IsPlain := by
  have hdigits : (layout.scientific negative d).InDigits := scientific_inDigits d
  refine ⟨hdigits, take_natDigits_ne_nil _ Nat.one_ne_zero, fun hzero => ?_, fun hnone => ?_,
    fun sign hnone => ?_⟩
  · exact absurd hzero (head?_take_digits hd Nat.one_ne_zero)
  · revert hnone
    change (if ((natDigits d.digits).drop 1).isEmpty = true then none
      else some ((natDigits d.digits).drop 1)) ≠ some []
    split
    · nofun
    · rename_i htail
      exact fun hnone => htail (List.isEmpty_iff.2 (Option.some.inj hnone))
  · exact natDigits_ne_nil _ (congrArg Prod.snd (Option.some.inj hnone))

theorem literal_isPlain {f : BinaryFormat} {m : Nat} {q : Int}
    (hshortest : m ≠ 0 → (f.shortest layout.tie m q).IsNormal) :
    (layout.literal f negative m q).IsPlain := by
  have hdigits : (layout.literal f negative m q).InDigits := literal_inDigits f m q
  unfold literal at hdigits ⊢
  dsimp only at hdigits ⊢
  by_cases hm : m = 0
  · rw [if_pos hm] at hdigits ⊢
    refine ⟨hdigits, List.cons_ne_nil _ _, fun _ => rfl, ?_, nofun⟩
    cases layout.keepsFraction <;> nofun
  · rw [if_neg hm]
    split
    · exact positional_isPlain (hshortest hm)
    · exact scientific_isPlain (hshortest hm)

end NumberLayout

/-! ## 32-bit numbers -/

namespace Single

open Float.Model (Format UnpackedFloat)
open Float.Model.UnpackedFloat

def exponentField (x : Float32) : Nat := x.toBits.toNat / 2 ^ 23 % 2 ^ 8

theorem isFinite_iff_exponentField (x : Float32) : isFinite x = true ↔ exponentField x ≠ 255 := by
  let b : BitVec Format.binary32.numBits := x.toBits.toBitVec
  have hfield : (unpackExponent b).toNat = exponentField x := by
    rw [unpackExponent, BitVec.toNat_cast, BitVec.extractLsb_toNat, Nat.shiftRight_eq_div_pow]
    rfl
  change (unpack .binary32 b).isFinite = true ↔ _
  rw [← hfield]
  unfold unpack
  dsimp only
  split
  · rename_i hones
    have hall : (unpackExponent b).toNat = 255 := by rw [hones]; rfl
    split <;> exact ⟨nofun, fun hne => absurd hall hne⟩
  · rename_i hfinite
    have hbelow : (unpackExponent b).toNat ≠ 255 := fun hsame =>
      hfinite (BitVec.eq_of_toNat_eq hsame)
    refine ⟨fun _ => hbelow, fun _ => ?_⟩
    split
    · split <;> rfl
    · rfl

theorem isFinite_iff_decode (x : Float32) :
    isFinite x = true ↔ ∃ negative m q, decode x = .finite negative m q := by
  rw [isFinite_iff_exponentField, decode, BinaryFormat.decode]
  split
  · rename_i hfield
    have hall : exponentField x = 255 := hfield
    split <;> simp [hall]
  · rename_i hfield
    refine ⟨fun _ => ?_, fun _ => hfield⟩
    split <;> exact ⟨_, _, _, rfl⟩

theorem decode_bounds {x : Float32} {negative : Bool} {m : Nat} {q : Int}
    (hx : decode x = .finite negative m q) : m < 2 ^ 24 ∧ -149 ≤ q ∧ q ≤ 104 := by
  have hleast : BinaryFormat.single.leastExponent = -149 := by decide
  have hfraction : x.toBits.toNat % 2 ^ 23 < 2 ^ 23 := Nat.mod_lt _ (by decide)
  have hbiased : exponentField x < 2 ^ 8 := Nat.mod_lt _ (by decide)
  rw [decode, BinaryFormat.decode, hleast] at hx
  change (if exponentField x = 255 then _ else if exponentField x = 0 then _ else _) = _ at hx
  split at hx
  · split at hx <;> cases hx
  · rename_i hones
    split at hx
    · obtain ⟨-, rfl, rfl⟩ := BinaryValue.finite.inj hx
      change x.toBits.toNat % 2 ^ 23 < _ ∧ _
      omega
    · obtain ⟨-, rfl, rfl⟩ := BinaryValue.finite.inj hx
      change 2 ^ 23 + x.toBits.toNat % 2 ^ 23 < _ ∧ _ ≤ -149 + ((exponentField x - 1 : Nat) : Int) ∧
        -149 + ((exponentField x - 1 : Nat) : Int) ≤ _
      omega

end Single

namespace Document

theorem jsonSingle_eq_number {x : Float32} (hx : Single.isFinite x = true) :
    ∃ l : NumberLiteral, l.IsPlain ∧ jsonSingle x = number l := by
  obtain ⟨negative, m, q, hdecode⟩ := (Single.isFinite_iff_decode x).1 hx
  obtain ⟨hbits, hlow, hhigh⟩ := Single.decode_bounds hdecode
  have hplain : (NumberLayout.jsonSingle.literal .single negative m q).IsPlain :=
    NumberLayout.literal_isPlain fun hm =>
      shortest_isNormal _ (Nat.pos_of_ne_zero hm) hbits hlow hhigh
  refine ⟨_, hplain, ?_⟩
  rw [jsonSingle, hdecode]

theorem jsonSingle_eq_null {x : Float32} (hx : ¬ Single.isFinite x = true) :
    jsonSingle x = null := by
  rw [jsonSingle]
  split
  · rename_i hdecode
    exact absurd ((Single.isFinite_iff_decode x).2 ⟨_, _, _, hdecode⟩) hx
  · rfl

end Document

end TrainingLoop
