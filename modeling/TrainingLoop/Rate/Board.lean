import TrainingLoop.Error
import TrainingLoop.KeyMap
import TrainingLoop.Rate.Schedule
/-!
# The rate board

The schedules of a run, each with the interval on which it ticks. A schedule advances at every
`frequency`-th tick, with the value of the metric that it monitors if it monitors one.
-/

namespace TrainingLoop

/-- What ends a tick: an optimizer step or an epoch. -/
inductive Interval where
  | step
  | epoch
  deriving DecidableEq, Repr

namespace Interval

instance : Inhabited Interval := ⟨epoch⟩

def name : Interval → String
  | step => "step"
  | epoch => "epoch"

def inspect : Interval → String
  | step => "Step"
  | epoch => "Epoch"

end Interval

structure ScheduledRate where
  schedule : Schedule
  interval : Interval
  frequency : Nat := 1
  monitor : Option String := none
  ticks : Nat := 0
  frequency_pos : 0 < frequency := by exact Nat.one_pos

namespace ScheduledRate

/-- The schedule advances at every tick at least once in so many; zero counts as one. -/
def withFrequency (s : ScheduledRate) (frequency : Nat) : ScheduledRate :=
  { s with frequency := max 1 frequency, frequency_pos := Nat.le_max_left 1 frequency }

def withMonitor (s : ScheduledRate) (key : String) : ScheduledRate :=
  { s with monitor := some key }

def rate (s : ScheduledRate) : Float32 := s.schedule.rate

/-- The next tick is one at which the schedule advances. -/
def due (s : ScheduledRate) : Bool := (s.ticks + 1) % s.frequency == 0

structure Tick where
  /-- Whether the schedule advanced, or why it could not. -/
  result : Except Error Bool
  rate : ScheduledRate
  notices : List Notice

/-- One tick. The tick also counts if the monitored metric is missing. -/
def tick (metrics : Metrics) (s : ScheduledRate) : Tick :=
  let ticked := { s with ticks := s.ticks + 1 }
  if s.due then
    match s.monitor with
    | none => ⟨.ok true, { ticked with schedule := s.schedule.step }, []⟩
    | some key =>
      match metrics.get? key with
      | some value =>
        ⟨.ok true, { ticked with schedule := s.schedule.observe value }, s.schedule.notices value⟩
      | none => ⟨.error (.misconfiguration (.metricUnavailable key metrics.keys)), ticked, []⟩
  else ⟨.ok false, ticked, []⟩

def inspect (s : ScheduledRate) : String :=
  Inspect.record "ScheduledLr" [
    ("interval", s.interval.inspect),
    ("frequency", Inspect.count s.frequency),
    ("monitor", Inspect.option Inspect.text s.monitor),
    ("lr", Inspect.number s.rate)]

end ScheduledRate

structure RateBoard where
  rates : List ScheduledRate

namespace RateBoard

def empty : RateBoard := ⟨[]⟩

def add (b : RateBoard) (s : ScheduledRate) : RateBoard := ⟨b.rates ++ [s]⟩

def size (b : RateBoard) : Nat := b.rates.length

def isEmpty (b : RateBoard) : Bool := b.rates.isEmpty

/-- The current learning rates, in the order in which they were added. -/
def current (b : RateBoard) : List Float32 := b.rates.map ScheduledRate.rate

structure Update where
  /-- How many schedules advanced, or why one could not. -/
  result : Except Error Nat
  rates : List ScheduledRate
  notices : List Notice

/-- A tick of every schedule of an interval, in order. Those after a failure do not tick. -/
def tickAll (interval : Interval) (metrics : Metrics) : List ScheduledRate → Update
  | [] => ⟨.ok 0, [], []⟩
  | s :: rest =>
    if s.interval = interval then
      let t := s.tick metrics
      match t.result with
      | .error e => ⟨.error e, t.rate :: rest, t.notices⟩
      | .ok advanced =>
        let u := tickAll interval metrics rest
        ⟨u.result.map (· + advanced.toNat), t.rate :: u.rates, t.notices ++ u.notices⟩
    else
      let u := tickAll interval metrics rest
      ⟨u.result, s :: u.rates, u.notices⟩

def update (interval : Interval) (metrics : Metrics) (b : RateBoard) : Update :=
  tickAll interval metrics b.rates

def inspect (b : RateBoard) : String :=
  Inspect.record "SchedulerConnector"
    [("schedulers", Inspect.list (b.rates.map ScheduledRate.inspect))]

end RateBoard

end TrainingLoop
