import TrainingLoop.Number.Literal
/-!
# Scaled reading of number literals

The reading of numbers in JSON data. Digits are gathered in a 64-bit word for as long as they fit;
an integer that fits is kept exactly, and any other number is that word scaled by a power of ten in
64-bit arithmetic. A number beyond the range of the format is refused.
-/

namespace TrainingLoop

/-- A number as data holds it: `negative n` is `-n`. -/
inductive ScaledNumber where
  | natural (n : Nat)
  | negative (n : Nat)
  | real (x : Float)
  deriving DecidableEq

namespace ScaledNumber

def toSingle : ScaledNumber → Float32
  | natural n => Float32.ofNat n
  | negative n => -(Float32.ofNat n)
  | real x => Double.narrow x

end ScaledNumber

/-- The gathered digits, the power of ten they lack, and whether a digit was left out. -/
structure Significand where
  value : Nat
  exponent : Int
  full : Bool

namespace Significand

def limit : Nat := Nat.pow 2 64 - 1

def digitValue (c : Char) : Nat := c.toNat - '0'.toNat

/-- A digit before the point. From the first that does not fit on, each only raises the power. -/
def pushWhole (s : Significand) (c : Char) : Significand :=
  let next := 10 * s.value + digitValue c
  if s.full || limit < next then ⟨s.value, s.exponent + 1, true⟩ else ⟨next, s.exponent, false⟩

/-- A digit after the point. From the first that does not fit on, all are left out. -/
def pushFraction (s : Significand) (c : Char) : Significand :=
  let next := 10 * s.value + digitValue c
  if s.full || limit < next then { s with full := true } else ⟨next, s.exponent - 1, false⟩

def ofWhole (digits : List Char) : Significand := digits.foldl pushWhole ⟨0, 0, false⟩

/-- The fraction is gathered anew, also after a whole part that was too long. -/
def addFraction (s : Significand) (digits : List Char) : Significand :=
  digits.foldl pushFraction { s with full := false }

/-- `x * 10 ^ exponent` in 64-bit arithmetic. Powers below `10 ^ -308` are divided off in several
steps, which reach zero after the second. -/
def scale : (steps : Nat) → Float → Int → Option Float
  | 0, x, _ => some x
  | steps + 1, x, exponent =>
    if exponent.natAbs ≤ 308 then
      let power := Float.ofScientific 1 false exponent.natAbs
      if 0 ≤ exponent then
        let product := x * power
        if product.isInf then none else some product
      else some (x / power)
    else if x == 0.0 then some x
    else if 0 ≤ exponent then none
    else scale steps (x / 1e308) (exponent + 308)

def toDouble? (s : Significand) : Option Float := scale 4 (Float.ofNat s.value) s.exponent

end Significand

/-- The largest written exponent that is taken into account. -/
def NumberLiteral.exponentLimit : Nat := Nat.pow 2 31 - 1

def NumberLiteral.scaled? (l : NumberLiteral) : Option ScaledNumber :=
  let whole := Significand.ofWhole l.whole
  let signed (x : Float) : ScaledNumber := .real (if l.negative then -x else x)
  match l.fraction, l.exponent with
  | none, none =>
    if whole.full then whole.toDouble?.map signed
    else if !l.negative then some (.natural whole.value)
    else if whole.value = 0 ∨ Nat.pow 2 63 < whole.value then
      some (signed (Float.ofNat whole.value))
    else some (.negative whole.value)
  | fraction, exponent =>
    let s := match fraction with
      | none => whole
      | some digits => whole.addFraction digits
    match exponent with
    | none => s.toDouble?.map signed
    | some (sign, digits) =>
      if exponentLimit < digitsValue digits then
        if s.value ≠ 0 ∧ sign ≠ .minus then none else some (signed 0.0)
      else
        ({ s with exponent := s.exponent + l.exponentValue }).toDouble?.map signed

end TrainingLoop
