import TrainingLoop.Callback.EarlyStopping
import TrainingLoop.Callback.Progress
/-!
# Callbacks

A callback is one of the library's own or code from outside, which may read and change the world
`W` that all outside code of a run shares. Every callback hears of every event, in the order in
which they were added, also after another one asked to stop.
-/

namespace TrainingLoop

/-- A callback from outside the library. -/
structure OutsideCallback (W : Type) where
  name : String := "TrainerCallback"
  respond : CallbackEvent → Context → W → CallbackAction × W := fun _ _ world => (.proceed, world)

inductive Callback (W : Type) where
  | earlyStopping (e : EarlyStopping)
  | progress (p : ProgressReport)
  | outside (c : OutsideCallback W)

namespace Callback

variable {W : Type}

def name : Callback W → String
  | earlyStopping _ => "EarlyStopping"
  | progress _ => "ProgressCallback"
  | outside c => c.name

structure Reply (W : Type) where
  action : CallbackAction
  callback : Callback W
  world : W
  notices : List Notice

def answer (event : CallbackEvent) (context : Context) (world : W) : Callback W → Reply W
  | earlyStopping e =>
    let (action, e') := e.respond event context
    ⟨action, earlyStopping e', world, e.notices event context⟩
  | progress p => ⟨.proceed, progress p, world, p.notices event context⟩
  | outside c =>
    let (action, world) := c.respond event context world
    ⟨action, outside c, world, []⟩

/-- The answer as the run takes it: at an event that cannot stop the run no stop is asked for. -/
def notify (event : CallbackEvent) (context : Context) (world : W) (c : Callback W) : Reply W :=
  let reply := c.answer event context world
  if event.mayStop then reply else { reply with action := .proceed }

end Callback

end TrainingLoop
