import TrainingLoop.Number.Binary
/-!
# Arithmetic on 32-bit numbers

The operations of the loop's arithmetic beyond `+ - * /`: powers with an integer exponent,
conversions between counts and numbers, sums and means in list order, and the total order used to
find a least one.
-/

namespace TrainingLoop.Single

def isFinite (x : Float32) : Bool := x.isFinite

def ofCount (n : Nat) : Float32 := Float32.ofNat n

/-- The whole part of a number as a count: zero for negative numbers and for NaN, and at most
`2 ^ 64 - 1`. -/
def toCount (x : Float32) : Nat := x.toUInt64.toNat

/-- The signed reading of the low 32 bits of a count. -/
def exponentOfCount (n : Nat) : Int := Int.bmod n (Nat.pow 2 32)

/-- Repeated squaring: `base` holds the square for the lowest bit of `n`, and `acc` the product of
those already used. The fuel is at least the number of bits of `n`. -/
def powerLoop : (fuel n : Nat) → (base acc : Float32) → Float32
  | 0, _, _, acc => acc
  | fuel + 1, n, base, acc =>
    let acc := if n % 2 = 1 then acc * base else acc
    if n / 2 = 0 then acc else powerLoop fuel (n / 2) (base * base) acc

/-- `x ^ n` by repeated squaring; a negative exponent gives the reciprocal of the positive one. -/
def power (x : Float32) (n : Int) : Float32 :=
  let r := powerLoop (n.natAbs + 1) n.natAbs x 1.0
  if n < 0 then 1.0 / r else r

/-- The larger of two numbers. A NaN is passed over, and of equals the second is taken. -/
def larger (a b : Float32) : Float32 := if a.isNaN || b ≥ a then b else a

/-- The smaller of two numbers. A NaN is passed over, and of equals the second is taken. -/
def smaller (a b : Float32) : Float32 := if a.isNaN || b ≤ a then b else a

/-- Between zero and one, both included; false for NaN. -/
def isFraction (x : Float32) : Bool := 0.0 ≤ x && x ≤ 1.0

/-- The sum in list order, from negative zero, which is neutral for every number. -/
def sum (xs : List Float32) : Float32 := xs.foldl (· + ·) (-0.0)

def mean (xs : List Float32) : Float32 := sum xs / ofCount xs.length

/-- A rank that orders all numbers: negative ones by falling magnitude, then positive ones, with
`-0 < 0` and NaN last. -/
def rank (x : Float32) : Int :=
  let bits := x.toBits.toNat
  if bits < Nat.pow 2 31 then bits else -(bits - Nat.pow 2 31 : Nat) - 1

end TrainingLoop.Single
