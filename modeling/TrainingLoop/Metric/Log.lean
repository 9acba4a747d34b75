import TrainingLoop.Metric.Sample
import TrainingLoop.Metric.Sink
/-!
# The metrics of a run

The latest value of every metric, as callbacks and schedules read it; the step values of the
current epoch, from which its averages are made; the averages of all finished epochs; and when a
logger writes and saves. A logger only receives: nothing of the rest depends on it.
-/

namespace TrainingLoop

def epochSuffix : String := "_epoch"

/-- The sum of some samples, and how many they are. -/
structure Tally where
  sum : Sample := ⟨0.0, false⟩
  count : Nat := 0

namespace Tally

def add (t : Tally) (s : Sample) : Tally := ⟨t.sum.add s, t.count + 1⟩

def mean (t : Tally) : Sample := t.sum.dividedBy t.count

end Tally

namespace Processed

/-- The sample of a number that is reported, where a NaN may have arisen. -/
def sampleOf (nanArises : Bool) (x : Float32) : Sample := ⟨x, nanArises && x.isNaN⟩

/-- Each key averaged over the step mappings of an output that have it. -/
def averages (nanArises : Bool) (p : Processed) : KeyMap Sample :=
  let entries := p.steps.flatMap KeyMap.entries
  let tallies : KeyMap Tally :=
    entries.foldl
      (fun t entry => t.alter entry.1 fun old => (old.getD {}).add (sampleOf nanArises entry.2)) ∅
  tallies.mapValues Tally.mean

def means (p : Processed) : Metrics := Sample.values (p.averages false)

end Processed

structure MetricsLog (W : Type) where
  logEvery : Nat
  flushEvery : Nat
  latest : Metrics := ∅
  /-- The step values of the current epoch. -/
  epochValues : KeyMap (Journal Sample) := ∅
  /-- The averages of the finished epochs that had any. -/
  finished : Journal (KeyMap Sample) := ∅
  /-- A NaN that is reported arose in the arithmetic of the batch loop; else it was given. -/
  nanArises : Bool := false
  sink : Option (Sink W) := none

namespace MetricsLog

variable {W : Type}

/-- Every `n`-th step, counted from zero, is the last of its group; no step is if `n` is zero. -/
def closesGroup (n step : Nat) : Bool := 0 < n && (step + 1) % n == 0

theorem closesGroup_iff {n step : Nat} :
    closesGroup n step = true ↔ 0 < n ∧ n ∣ step + 1 := by
  simp [closesGroup, Nat.dvd_iff_mod_eq_zero]

def history (l : MetricsLog W) : List Metrics :=
  l.finished.toList.map Sample.values

def publish (metrics : Metrics) (l : MetricsLog W) : MetricsLog W :=
  { l with latest := l.latest.merge metrics }

def pushValue (values : KeyMap (Journal Sample)) (entry : String × Sample) :
    KeyMap (Journal Sample) :=
  values.alter entry.1 fun old => (old.getD ∅).push entry.2

/-- The averages of a batch taken in. -/
def observe (samples : KeyMap Sample) (l : MetricsLog W) : MetricsLog W :=
  { l.publish (Sample.values samples) with
    epochValues := samples.entries.foldl pushValue l.epochValues }

/-- The record that a batch gives to the logger, if it gives one: the step closes a group or a stop
was requested, and there is something to log. -/
def due? (outputs : Processed) (step : Nat) (stopRequested : Bool) (l : MetricsLog W) :
    Option LogRecord :=
  if outputs.means.isEmpty then none
  else if closesGroup l.logEvery step || stopRequested then some ⟨step, outputs.means⟩
  else none

/-- A record given to the logger, if there is one. -/
def write (record : LogRecord) (l : MetricsLog W) (world : W) :
    Except Error Unit × MetricsLog W × W :=
  match l.sink with
  | none => (.ok (), l, world)
  | some sink =>
    let (result, sink, world) := sink.log record world
    (result, { l with sink := some sink }, world)

/-- A batch's outputs taken in and, where they are due, logged. -/
def logStep (outputs : Processed) (step : Nat) (stopRequested : Bool) (l : MetricsLog W)
    (world : W) : Except Error Unit × MetricsLog W × W :=
  let observed := if outputs.means.isEmpty then l else l.observe (outputs.averages l.nanArises)
  match l.due? outputs step stopRequested with
  | none => (.ok (), observed, world)
  | some record => observed.write record world

/-- The logger is to be saved at this step. -/
def flushDue (step : Nat) (stopRequested : Bool) (l : MetricsLog W) : Bool :=
  closesGroup l.flushEvery step || stopRequested

def save (l : MetricsLog W) (world : W) : Except Error Unit × MetricsLog W × W :=
  match l.sink with
  | none => (.ok (), l, world)
  | some sink =>
    let (result, sink, world) := sink.save world
    (result, { l with sink := some sink }, world)

def epochAverages (l : MetricsLog W) : KeyMap Sample :=
  KeyMap.ofList (l.epochValues.entries.map fun (key, values) =>
    (key ++ epochSuffix, Sample.mean values.toList))

/-- The epoch is closed: its averages are published and kept, unless there are none. -/
def closeEpoch (l : MetricsLog W) : MetricsLog W :=
  if l.epochAverages.isEmpty then { l with epochValues := ∅ }
  else
    { l.publish (Sample.values l.epochAverages) with
      epochValues := ∅, finished := l.finished.push l.epochAverages }

/-- The least average of a metric over the finished epochs. -/
def best? (key : String) (l : MetricsLog W) : Option Float32 :=
  Sample.least? (l.finished.toList.filterMap (·.get? key))

def inspect (l : MetricsLog W) : String :=
  Inspect.record "LoggerConnector" [
    ("log_every_n_steps", Inspect.count l.logEvery),
    ("flush_logs_every_n_steps", Inspect.count l.flushEvery),
    ("callback_metrics",
      Inspect.map (l.latest.entries.map fun (key, value) => (key, Inspect.number value))),
    ("logger", Inspect.option (fun sink => Inspect.text sink.name) l.sink)]

end MetricsLog

end TrainingLoop
