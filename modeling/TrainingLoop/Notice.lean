import TrainingLoop.Text.Inspect
/-!
# Notices

What a run reports while it runs: a level, a fixed message and named values.
-/

namespace TrainingLoop

inductive Notice.Level where
  | info
  | warn
  deriving DecidableEq, Repr

inductive Notice.Value where
  | count (n : Nat)
  | number (x : Float32)
  | text (s : String)
  deriving DecidableEq

structure Notice where
  level : Notice.Level
  message : String
  fields : List (String × Notice.Value)
  deriving DecidableEq

namespace Notice

def info (message : String) (fields : List (String × Value)) : Notice := ⟨.info, message, fields⟩

def warn (message : String) : Notice := ⟨.warn, message, []⟩

def Level.name : Level → String
  | .info => "INFO"
  | .warn => "WARN"

def Value.shown : Value → String
  | .count n => toString n
  | .number x => NumberLayout.message.single x
  | .text s => s

def line (n : Notice) : String :=
  n.level.name ++ " " ++ n.message ++
    String.join (n.fields.map fun (name, value) => " " ++ name ++ "=" ++ value.shown)

end Notice

end TrainingLoop
