import TrainingLoop.KeyMap
import TrainingLoop.Number.Single
/-!
# Samples

The numbers that averages are made of. A NaN that was given ranks above all numbers. One that arose
where infinities of both signs met is undefined, and ranks below all.
-/

namespace TrainingLoop

structure Sample where
  value : Float32
  /-- The value is a NaN that arose and was not given. -/
  undefined : Bool := false
  deriving DecidableEq

namespace Sample

/-- The sum of two samples; of two NaNs the first one is kept. -/
def add (a b : Sample) : Sample :=
  { value := a.value + b.value
    undefined :=
      if a.value.isNaN then a.undefined
      else if b.value.isNaN then b.undefined
      else (a.value + b.value).isNaN }

/-- The sum in list order, from negative zero. -/
def sum (xs : List Sample) : Sample := xs.foldl add ⟨-0.0, false⟩

def dividedBy (s : Sample) (count : Nat) : Sample :=
  { s with value := s.value / Single.ofCount count }

def mean (xs : List Sample) : Sample := (sum xs).dividedBy xs.length

/-- The rank of the value, or one below those of all values. -/
def rank (s : Sample) : Int := if s.undefined then -(Nat.pow 2 32 : Nat) else Single.rank s.value

/-- The value of the first of the samples with the least rank. -/
def least? : List Sample → Option Float32
  | [] => none
  | s :: rest => some (rest.foldl (fun best t => if t.rank < best.rank then t else best) s).value

def values (m : KeyMap Sample) : KeyMap Float32 := m.mapValues value

@[simp] theorem value_add (a b : Sample) : (a.add b).value = a.value + b.value := rfl

theorem value_foldl_add (a : Sample) (xs : List Sample) :
    (xs.foldl add a).value = (xs.map value).foldl (· + ·) a.value := by
  induction xs generalizing a with
  | nil => rfl
  | cons x rest ih => simp [ih]

@[simp] theorem value_sum (xs : List Sample) : (sum xs).value = Single.sum (xs.map value) :=
  value_foldl_add _ xs

@[simp] theorem value_mean (xs : List Sample) : (mean xs).value = Single.mean (xs.map value) := by
  simp [mean, dividedBy, Single.mean]

end Sample

end TrainingLoop
