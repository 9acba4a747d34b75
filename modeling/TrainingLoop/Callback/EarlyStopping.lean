import TrainingLoop.Callback.Context
import TrainingLoop.Notice
/-!
# Early stopping

A callback that asks to stop when a metric has not improved for `patience` checks. It checks at the
end of every training epoch, or after every validation instead.
-/

namespace TrainingLoop

structure EarlyStopping where
  monitor : String
  patience : Nat
  minDelta : Float32
  /-- Check after validations instead of training epochs. -/
  onValidation : Bool := false
  best : Float32 := 1.0 / 0.0
  /-- Checks without improvement since the last one with. -/
  stale : Nat := 0
  deriving DecidableEq

namespace EarlyStopping

def best? (e : EarlyStopping) : Option Float32 := if e.best.isFinite then some e.best else none

def reset (e : EarlyStopping) : EarlyStopping := { e with best := 1.0 / 0.0, stale := 0 }

/-- The value is below the best one so far by more than the least difference. -/
def improves (e : EarlyStopping) (value : Float32) : Bool := value < e.best - e.minDelta

def check (e : EarlyStopping) (value : Float32) : CallbackAction × EarlyStopping :=
  if e.improves value then (.proceed, { e with best := value, stale := 0 })
  else
    (if e.patience ≤ e.stale + 1 then .stop else .proceed, { e with stale := e.stale + 1 })

def checksAt (e : EarlyStopping) : CallbackEvent → Bool
  | .validationEnd => e.onValidation
  | .trainEpochEnd _ => !e.onValidation
  | _ => false

/-- The value to check at an event: none if it does not check then or the metric is missing. -/
def checked? (e : EarlyStopping) (event : CallbackEvent) (context : Context) : Option Float32 :=
  if e.checksAt event then context.metrics.get? e.monitor else none

def respond (e : EarlyStopping) (event : CallbackEvent) (context : Context) :
    CallbackAction × EarlyStopping :=
  match e.checked? event context with
  | none => (.proceed, e)
  | some value => e.check value

/-- A stop is reported with the best value. -/
def notices (e : EarlyStopping) (event : CallbackEvent) (context : Context) : List Notice :=
  if (e.respond event context).1.isStop then
    [.info "early stopping: no improvement"
      [("monitor", .text e.monitor), ("best", .number e.best), ("patience", .count e.patience)]]
  else []

end EarlyStopping

end TrainingLoop
