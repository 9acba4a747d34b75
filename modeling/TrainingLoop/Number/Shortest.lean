import TrainingLoop.Number.Binary
/-!
# The shortest decimal of a binary number

Among the decimals that lie in the interval of reals which round to a given binary value, the one
with the fewest digits, and of those the one nearest to the value. Which of two equally near ones
it is, is for the caller to say. All arithmetic is on naturals.

If a point of a decimal grid lies in the interval, so does one of the value's two neighbours on
that grid, so only these two are tested.
-/

namespace TrainingLoop

/-- A positive decimal `0.d₁…dₖ * 10 ^ point`, its digits read as one number. -/
structure Decimal where
  digits : Nat
  count : Nat
  point : Int
  deriving DecidableEq, Repr

/-- Which of two neighbours stands for the point halfway between them. -/
inductive TieRule where
  | toEven
  | up
  deriving DecidableEq, Repr

/-- The upper neighbour stands for the halfway point, given the lower one. -/
def TieRule.takesUpper (rule : TieRule) (lower : Nat) : Bool :=
  match rule with
  | toEven => lower % 2 == 1
  | up => true

/-- A positive rational with the two ends of the interval that rounds to it, over one
denominator. -/
structure RoundingInterval where
  low : Nat
  value : Nat
  high : Nat
  denominator : Nat
  closed : Bool

namespace RoundingInterval

/-- The interval of `m * 2 ^ q`. Its ends belong to it iff `m` is even, and the gap below a power
of two is half as wide as the one above, except at the least exponent. -/
def of (f : BinaryFormat) (m : Nat) (q : Int) : RoundingInterval :=
  let below := if m = Nat.pow 2 f.fractionBits ∧ q ≠ f.leastExponent then 1 else 2
  let scale := Nat.pow 2 (q - 2).toNat
  { low := (4 * m - below) * scale
    value := 4 * m * scale
    high := (4 * m + 2) * scale
    denominator := Nat.pow 2 (2 - q).toNat
    closed := m % 2 == 0 }

/-- The least `p ≥ start` with `value < 10 ^ p`, looked for in `tries` steps. -/
def pointFrom (r : RoundingInterval) : (tries : Nat) → (start : Int) → Int
  | 0, start => start
  | tries + 1, start =>
    if r.value * Nat.pow 10 (-start).toNat < Nat.pow 10 start.toNat * r.denominator then start
    else r.pointFrom tries (start + 1)

/-- The `p` with `10 ^ (p - 1) ≤ value < 10 ^ p`: the search starts from an estimate by binary
logarithms that is at most two too low. -/
def point (r : RoundingInterval) : Int :=
  let binary : Int := Nat.log2 r.value - Nat.log2 r.denominator - 1
  r.pointFrom 4 (binary * 30103 / 100000)

/-- The decimal of `count` digits in the interval that is nearest to the value, if one is there. -/
def decimal? (r : RoundingInterval) (tie : TieRule) (point : Int) (count : Nat) :
    Option Decimal :=
  let up := Nat.pow 10 (count - point).toNat
  let step := r.denominator * Nat.pow 10 (point - count).toNat
  let inside (c : Nat) : Bool :=
    if r.closed then r.low * up ≤ c * step && c * step ≤ r.high * up
    else r.low * up < c * step && c * step < r.high * up
  let floor := r.value * up / step
  let chosen :=
    match inside floor, inside (floor + 1) with
    | true, true =>
      let rest := r.value * up % step
      if step < 2 * rest || (2 * rest == step && tie.takesUpper floor) then some (floor + 1)
      else some floor
    | true, false => some floor
    | false, true => some (floor + 1)
    | false, false => none
  chosen.map fun c =>
    if c = Nat.pow 10 count then ⟨1, 1, point + 1⟩ else ⟨c, count, point⟩

/-- The first count of digits, from `count` on, that reaches the interval. -/
def shortestFrom (r : RoundingInterval) (tie : TieRule) (point : Int) :
    (tries count : Nat) → Decimal
  | 0, count => (r.decimal? tie point count).getD ⟨0, 1, 0⟩
  | tries + 1, count =>
    match r.decimal? tie point count with
    | some d => d
    | none => r.shortestFrom tie point tries (count + 1)

/-- Seventeen digits tell all values of 64 bits and fewer apart. -/
def shortest (r : RoundingInterval) (tie : TieRule) : Decimal :=
  r.shortestFrom tie r.point 16 1

end RoundingInterval

/-- The shortest decimal that reads back to `m * 2 ^ q` in the format. -/
def BinaryFormat.shortest (f : BinaryFormat) (tie : TieRule) (m : Nat) (q : Int) : Decimal :=
  (RoundingInterval.of f m q).shortest tie

end TrainingLoop
