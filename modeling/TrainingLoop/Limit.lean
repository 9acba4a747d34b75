import TrainingLoop.Error
import TrainingLoop.Number.Single
/-!
# Batch counts and limits

A count of batches that may have no end, and a limit that is a count or a fraction of the epoch.
`resolveBatches` and `resolveInterval` turn the limits of a configuration into counts once the
length of the epoch's data is known.
-/

namespace TrainingLoop

/-- A number of batches; data without a length have no last one. -/
inductive BatchCount where
  | finite (n : Nat)
  | infinite
  deriving DecidableEq, Repr

namespace BatchCount

instance : Inhabited BatchCount := ⟨finite 0⟩

def isInfinite : BatchCount → Bool
  | finite _ => false
  | infinite => true

def toNat? : BatchCount → Option Nat
  | finite n => some n
  | infinite => none

/-- Nothing is a multiple of zero, and only zero is a multiple of infinity. -/
def divides : BatchCount → Nat → Bool
  | finite 0, _ => false
  | finite k, n => n % k == 0
  | infinite, n => n == 0

/-- So many batches cover the whole count. -/
def reachedBy : BatchCount → Nat → Bool
  | finite k, n => k ≤ n
  | infinite, _ => false

def text : BatchCount → String
  | finite n => toString n
  | infinite => "inf"

def inspect : BatchCount → String
  | finite n => Inspect.variant "Finite" (Inspect.count n)
  | infinite => "Infinite"

end BatchCount

/-- A number of batches or a fraction of the epoch. -/
inductive BatchLimit where
  | batches (n : Nat)
  | fraction (f : Float32)
  deriving DecidableEq

namespace BatchLimit

def whole : BatchLimit := fraction 1.0

instance : Inhabited BatchLimit := ⟨whole⟩

/-- The whole part of a fraction of a count, computed in 32-bit arithmetic. -/
def share (f : Float32) (n : Nat) : Nat := Single.toCount (Single.ofCount n * f)

/-- The number of training batches of an epoch, given the length of its data. -/
def resolveBatches : BatchLimit → Option Nat → Except Error BatchCount
  | batches k, some n => .ok (.finite (min k n))
  | batches k, none => .ok (.finite k)
  | fraction f, some n => .ok (.finite (share f n))
  | fraction f, none =>
    if f == 1.0 then .ok .infinite else .error (.misconfiguration (.limitNeedsLength f))

/-- The number of batches between two validations, given the number of training batches. -/
def resolveInterval : BatchLimit → BatchCount → Except Error BatchCount
  | batches k, .finite n =>
    if n < k then .error (.misconfiguration (.validationBeyondEpoch k n)) else .ok (.finite k)
  | batches k, .infinite => .ok (.finite k)
  | fraction f, .finite n => .ok (.finite (max (share f n) 1))
  | fraction f, .infinite =>
    if f == 1.0 then .ok .infinite else .error (.misconfiguration (.validationNeedsLength f))

def inspect : BatchLimit → String
  | batches n => Inspect.variant "Batches" (Inspect.count n)
  | fraction f => Inspect.variant "Fraction" (Inspect.number f)

end BatchLimit

end TrainingLoop
