import TrainingLoop.KeyMap
import TrainingLoop.Text.Inspect
/-!
# Profiling

Which regions of a run are open and how often each was closed. A region is named after its action;
the same name again, while it is open, does not open it twice.
-/

namespace TrainingLoop

structure Profile where
  active : List String := []
  /-- How many regions of a name were closed. -/
  counts : KeyMap Nat := ∅
  deriving DecidableEq

namespace Profile

def isActive (p : Profile) (action : String) : Bool := p.active.contains action

def count (p : Profile) (action : String) : Nat := (p.counts.get? action).getD 0

def start (p : Profile) (action : String) : Profile :=
  if p.isActive action then p else { p with active := action :: p.active }

/-- A region that is not open is not closed. -/
def stop (p : Profile) (action : String) : Profile :=
  if p.isActive action then
    { active := p.active.erase action
      counts := p.counts.alter action fun old => old.getD 0 + 1 }
  else p

def padRight (width : Nat) (s : String) : String :=
  s ++ String.ofList (List.replicate (width - s.length) ' ')

def padLeft (width : Nat) (s : String) : String :=
  String.ofList (List.replicate (width - s.length) ' ') ++ s

def heading : String :=
  padRight 24 "Action" ++ " | " ++ padLeft 8 "Calls" ++ " | " ++ padLeft 14 "Total"

/-- The line of an action, up to the total of its durations. -/
def row (entry : String × Nat) : String :=
  padRight 24 entry.1 ++ " | " ++ padLeft 8 (toString entry.2) ++ " "

def rows (p : Profile) : List String := p.counts.entries.map row

end Profile

inductive Profiler where
  | passThrough
  | recording (p : Profile)
  deriving DecidableEq

namespace Profiler

def start (action : String) : Profiler → Profiler
  | passThrough => passThrough
  | recording p => recording (p.start action)

def stop (action : String) : Profiler → Profiler
  | passThrough => passThrough
  | recording p => recording (p.stop action)

def isActive (action : String) : Profiler → Bool
  | passThrough => false
  | recording p => p.isActive action

def count (action : String) : Profiler → Nat
  | passThrough => 0
  | recording p => p.count action

/-- The heading and the lines of a summary; a profiler that records nothing has none. -/
def summary : Profiler → Option (String × List String)
  | passThrough => none
  | recording p => some (Profile.heading, p.rows)

def inspectRegion (action : String) : String :=
  Inspect.record "ProfileRegion" [("action", Inspect.text action)]

end Profiler

end TrainingLoop
