import TrainingLoop.Number.Literal
import TrainingLoop.Number.Shortest
/-!
# Number layouts

How the digits of a number are laid out as text: where positional notation ends, whether a whole
number keeps a fraction digit, how an exponent is signed and how the special values are spelled.
Each format that the library writes has one layout value here.
-/

namespace TrainingLoop

/-- The decisions of one number format. -/
structure NumberLayout where
  /-- Exponents of the first digit, from the first up to but not including the second, that are
  written positionally; all of them without a window. -/
  window : Option (Int × Int)
  /-- A whole number in positional notation ends in `.0`. -/
  keepsFraction : Bool
  /-- How a positive exponent is signed. -/
  exponentSign : ExponentSign
  /-- Which of two shortest decimals is written, where they are equally near. -/
  tie : TieRule
  nan : String
  infinity : String
  negativeInfinity : String
  deriving Repr

namespace NumberLayout

def natDigits (n : Nat) : List Char := Nat.toDigits 10 n

/-- Digits around a point: `point` of them stand before it, padded with zeros where needed. -/
def positional (layout : NumberLayout) (negative : Bool) (d : Decimal) : NumberLiteral :=
  let digits := natDigits d.digits
  if d.point ≤ 0 then
    ⟨negative, ['0'], some (List.replicate (-d.point).toNat '0' ++ digits), none⟩
  else if d.count ≤ d.point.toNat then
    ⟨negative, digits ++ List.replicate (d.point.toNat - d.count) '0',
      if layout.keepsFraction then some ['0'] else none, none⟩
  else
    ⟨negative, digits.take d.point.toNat, some (digits.drop d.point.toNat), none⟩

/-- One digit, the others after a point if there are any, and the exponent of the first. -/
def scientific (layout : NumberLayout) (negative : Bool) (d : Decimal) : NumberLiteral :=
  let digits := natDigits d.digits
  let exponent := d.point - 1
  let tail := digits.drop 1
  ⟨negative, digits.take 1, if tail.isEmpty then none else some tail,
    some (if exponent < 0 then .minus else layout.exponentSign, natDigits exponent.natAbs)⟩

def isPositional (layout : NumberLayout) (d : Decimal) : Bool :=
  match layout.window with
  | none => true
  | some (low, high) => low ≤ d.point - 1 && d.point - 1 < high

/-- The literal of `± m * 2 ^ q`, by its shortest decimal. -/
def literal (layout : NumberLayout) (f : BinaryFormat) (negative : Bool) (m : Nat) (q : Int) :
    NumberLiteral :=
  if m = 0 then
    ⟨negative, ['0'], if layout.keepsFraction then some ['0'] else none, none⟩
  else
    let d := f.shortest layout.tie m q
    if layout.isPositional d then layout.positional negative d else layout.scientific negative d

def value (layout : NumberLayout) (f : BinaryFormat) : BinaryValue → String
  | .finite negative m q => String.ofList (layout.literal f negative m q).text
  | .infinite false => layout.infinity
  | .infinite true => layout.negativeInfinity
  | .notANumber => layout.nan

def single (layout : NumberLayout) (x : Float32) : String :=
  layout.value .single (Single.decode x)

def double (layout : NumberLayout) (x : Float) : String :=
  layout.value .double (Double.decode x)

/-- Messages write numbers positionally, and whole numbers without a point. -/
def message : NumberLayout := ⟨none, false, .unsigned, .up, "NaN", "inf", "-inf"⟩

/-- Inspected values are positional from `1e-4` up to `1e16`; a whole number ends in `.0` there. -/
def inspected : NumberLayout := ⟨some (-4, 16), true, .unsigned, .up, "NaN", "inf", "-inf"⟩

/-- JSON documents sign every exponent; a special value has no literal and becomes `null`. -/
def jsonSingle : NumberLayout := ⟨some (-6, 13), true, .plus, .toEven, "null", "null", "null"⟩

/-- As `jsonSingle`, with the positional window of 64-bit numbers. -/
def jsonDouble : NumberLayout := ⟨some (-5, 16), true, .plus, .toEven, "null", "null", "null"⟩

/-- YAML documents have special values and leave a positive exponent unsigned. -/
def yamlSingle : NumberLayout := ⟨some (-6, 13), true, .unsigned, .toEven, ".nan", ".inf", "-.inf"⟩

/-- As `yamlSingle`, with the positional window of 64-bit numbers. -/
def yamlDouble : NumberLayout := ⟨some (-5, 16), true, .unsigned, .toEven, ".nan", ".inf", "-.inf"⟩

/-- A number with a given count of fraction digits, a half going to the even neighbour. -/
def fixedPlaces (places : Nat) : BinaryValue → String
  | .notANumber => message.nan
  | .infinite negative => if negative then message.negativeInfinity else message.infinity
  | .finite negative m q =>
    let scaled := Nat.divNearest (m * Nat.pow 10 places * Nat.pow 2 q.toNat) (Nat.pow 2 (-q).toNat)
    let digits := natDigits scaled
    let padded := List.replicate (places + 1 - digits.length) '0' ++ digits
    let whole := padded.length - places
    String.ofList (NumberLiteral.text ⟨negative, padded.take whole,
      if places = 0 then none else some (padded.drop whole), none⟩)

end NumberLayout

end TrainingLoop
