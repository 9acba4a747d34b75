import TrainingLoop.Notice
import TrainingLoop.Number.Single
/-!
# Learning-rate schedules

A schedule holds the current learning rate and how it goes on. `step` advances it by one, `observe`
by one with the value of a metric. Of the library's own schedules only the plateau looks at the
value, and it alone stays where it is without one; a schedule from outside may do as it likes.
-/

namespace TrainingLoop

/-- From the highest to the lowest rate along half a cosine wave. -/
structure CosineSchedule where
  highest : Float32
  lowest : Float32
  length : Nat
  steps : Nat := 0
  deriving DecidableEq

/-- From zero to the target rate along a line, then constant. -/
structure WarmupSchedule where
  target : Float32
  length : Nat
  steps : Nat := 0
  deriving DecidableEq

/-- A factor at every so many steps. -/
structure StepDecaySchedule where
  initial : Float32
  gamma : Float32
  stepSize : Nat
  steps : Nat := 0
  deriving DecidableEq

/-- A cut whenever a metric has not improved for more than `patience` observations. -/
structure PlateauSchedule where
  rate : Float32
  lowest : Float32 := 0.0
  factor : Float32
  patience : Nat
  minDelta : Float32 := 0.0
  best : Float32 := 1.0 / 0.0
  stale : Nat := 0
  deriving DecidableEq

/-- A schedule from outside the library. All that others see of it is its rate, which hangs on the
calls made so far: steps, and metrics with their values. -/
structure OutsideSchedule where
  rateAfter : List (Option Float32) → Float32
  calls : List (Option Float32) := []

inductive Schedule where
  | cosine (s : CosineSchedule)
  | warmup (s : WarmupSchedule)
  | stepDecay (s : StepDecaySchedule)
  | plateau (s : PlateauSchedule)
  | outside (s : OutsideSchedule)

namespace CosineSchedule

/-- Half a turn, to the nearest 32-bit number. -/
def pi : Float32 := 3.14159274

def rate (s : CosineSchedule) : Float32 :=
  if s.length ≤ s.steps then s.lowest
  else
    let progress := Single.ofCount s.steps / Single.ofCount s.length
    let decay := 0.5 * (1.0 + Float32.cos (pi * progress))
    s.lowest + (s.highest - s.lowest) * decay

end CosineSchedule

namespace WarmupSchedule

def rate (s : WarmupSchedule) : Float32 :=
  if s.length = 0 then s.target
  else s.target * Single.smaller (Single.ofCount s.steps / Single.ofCount s.length) 1.0

end WarmupSchedule

namespace StepDecaySchedule

def rate (s : StepDecaySchedule) : Float32 :=
  if s.stepSize = 0 then s.initial
  else s.initial * Single.power s.gamma (Single.exponentOfCount (s.steps / s.stepSize))

end StepDecaySchedule

namespace PlateauSchedule

/-- The rate after a cut; it stays above the lowest one. -/
def cutRate (s : PlateauSchedule) : Float32 := Single.larger (s.rate * s.factor) s.lowest

/-- The metric is below the best one so far by more than the least difference. -/
def improves (s : PlateauSchedule) (metric : Float32) : Bool := metric < s.best - s.minDelta

def observe (s : PlateauSchedule) (metric : Float32) : PlateauSchedule :=
  if s.improves metric then { s with best := metric, stale := 0 }
  else if s.patience < s.stale + 1 then { s with rate := s.cutRate, stale := 0 }
  else { s with stale := s.stale + 1 }

/-- A cut that lowers the rate is reported. -/
def notices (s : PlateauSchedule) (metric : Float32) : List Notice :=
  if !s.improves metric && s.patience < s.stale + 1 && s.cutRate < s.rate then
    [.info "reducing learning rate" [("from", .number s.rate), ("to", .number s.cutRate)]]
  else []

end PlateauSchedule

namespace OutsideSchedule

def rate (s : OutsideSchedule) : Float32 := s.rateAfter s.calls

def told (calls : List (Option Float32)) (s : OutsideSchedule) : OutsideSchedule :=
  { s with calls := s.calls ++ calls }

end OutsideSchedule

namespace Schedule

def rate : Schedule → Float32
  | cosine s => s.rate
  | warmup s => s.rate
  | stepDecay s => s.rate
  | plateau s => s.rate
  | outside s => s.rate

def step : Schedule → Schedule
  | cosine s => cosine { s with steps := s.steps + 1 }
  | warmup s => warmup { s with steps := s.steps + 1 }
  | stepDecay s => stepDecay { s with steps := s.steps + 1 }
  | plateau s => plateau s
  | outside s => outside (s.told [none])

/-- `n` steps at once. -/
def stepMany (n : Nat) : Schedule → Schedule
  | cosine s => cosine { s with steps := s.steps + n }
  | warmup s => warmup { s with steps := s.steps + n }
  | stepDecay s => stepDecay { s with steps := s.steps + n }
  | plateau s => plateau s
  | outside s => outside (s.told (List.replicate n none))

theorem stepMany_eq_repeat (n : Nat) (s : Schedule) : s.stepMany n = Nat.repeat step n s := by
  induction n with
  | zero =>
    cases s with
    | outside s => simp [stepMany, OutsideSchedule.told, Nat.repeat]
    | _ => rfl
  | succ n ih =>
    rw [Nat.repeat, ← ih]
    cases s with
    | outside s => simp [stepMany, step, OutsideSchedule.told, List.replicate_succ']
    | _ => rfl

def observe (metric : Float32) : Schedule → Schedule
  | plateau s => plateau (s.observe metric)
  | outside s => outside (s.told [some metric])
  | other => other.step

def notices (metric : Float32) : Schedule → List Notice
  | plateau s => s.notices metric
  | _ => []

end Schedule

end TrainingLoop
