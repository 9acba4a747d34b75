/-!
# Binary interchange formats

The fields of a binary floating-point number as natural numbers, and the rounding of
`m * 2 ^ q` to such a format, to nearest with ties to even. `Double.narrow` is the rounding
from 64 to 32 bits.
-/

namespace TrainingLoop

/-- The quotient of two naturals to the nearest natural; a half goes to the even neighbour. -/
def Nat.divNearest (n d : Nat) : Nat :=
  let floor := n / d
  let rest := n % d
  if 2 * rest < d || (2 * rest == d && floor % 2 == 0) then floor else floor + 1

/-- A binary interchange format, given by the widths of its stored fields. -/
structure BinaryFormat where
  fractionBits : Nat
  exponentBits : Nat
  deriving DecidableEq, Repr

/-- What a pattern of a binary format stands for; `finite negative m q` is `± m * 2 ^ q`. -/
inductive BinaryValue where
  | finite (negative : Bool) (mantissa : Nat) (exponent : Int)
  | infinite (negative : Bool)
  | notANumber
  deriving DecidableEq, Repr

namespace BinaryFormat

def single : BinaryFormat := ⟨23, 8⟩

def double : BinaryFormat := ⟨52, 11⟩

/-- The exponent of the subnormal numbers, the least one of the format. -/
def leastExponent (f : BinaryFormat) : Int :=
  2 - (Nat.pow 2 (f.exponentBits - 1) : Int) - f.fractionBits

def infinityBits (f : BinaryFormat) : Nat :=
  (Nat.pow 2 f.exponentBits - 1) * Nat.pow 2 f.fractionBits

def signBit (f : BinaryFormat) : Nat :=
  Nat.pow 2 (f.fractionBits + f.exponentBits)

def decode (f : BinaryFormat) (bits : Nat) : BinaryValue :=
  let fraction := bits % Nat.pow 2 f.fractionBits
  let biased := bits / Nat.pow 2 f.fractionBits % Nat.pow 2 f.exponentBits
  let negative := bits / f.signBit % 2 == 1
  if biased = Nat.pow 2 f.exponentBits - 1 then
    if fraction = 0 then .infinite negative else .notANumber
  else if biased = 0 then
    .finite negative fraction f.leastExponent
  else
    .finite negative (Nat.pow 2 f.fractionBits + fraction) (f.leastExponent + (biased - 1 : Nat))

/-- The pattern of the value of the format nearest to `m * 2 ^ q`, ties to even, infinity past
the largest finite value. A mantissa that rounds up to the next power of two carries into the
exponent field, which is then the right one. -/
def roundMagnitude (f : BinaryFormat) (m : Nat) (q : Int) : Nat :=
  if m = 0 then 0
  else
    let exponent := max f.leastExponent (q + Nat.log2 m - f.fractionBits)
    let mantissa :=
      if exponent ≤ q then m * Nat.pow 2 (q - exponent).toNat
      else Nat.divNearest m (Nat.pow 2 (exponent - q).toNat)
    min f.infinityBits ((exponent - f.leastExponent).toNat * Nat.pow 2 f.fractionBits + mantissa)

def encode (f : BinaryFormat) : BinaryValue → Nat
  | .finite negative m q => (if negative then f.signBit else 0) + f.roundMagnitude m q
  | .infinite negative => (if negative then f.signBit else 0) + f.infinityBits
  | .notANumber => f.infinityBits + Nat.pow 2 (f.fractionBits - 1)

end BinaryFormat

def Single.decode (x : Float32) : BinaryValue :=
  BinaryFormat.single.decode x.toBits.toNat

def Double.decode (x : Float) : BinaryValue :=
  BinaryFormat.double.decode x.toBits.toNat

/-- The 32-bit number nearest to a 64-bit one, ties to even. -/
def Double.narrow (x : Float) : Float32 :=
  Float32.ofBits (BinaryFormat.single.encode (Double.decode x)).toUInt32

end TrainingLoop
