import TrainingLoop.Document.Json
import TrainingLoop.Number.Scaled
import TrainingLoop.Output.Step
/-!
# Processed outputs

The shape in which hooks receive outputs: step mappings, nested in lists. `document` and
`ofDocument?` are its JSON form and back.
-/

namespace TrainingLoop

inductive Processed where
  | step (values : Metrics)
  | list (items : List Processed)

namespace Processed

def nothing : Processed := list []

instance : Inhabited Processed := ⟨nothing⟩

def asStep? : Processed → Option Metrics
  | step values => some values
  | list _ => none

def asList? : Processed → Option (List Processed)
  | step _ => none
  | list items => some items

/-- The number of top-level entries; a bare step counts as one. -/
def size : Processed → Nat
  | step _ => 1
  | list items => items.length

def isEmpty : Processed → Bool
  | step _ => false
  | list items => items.isEmpty

mutual

/-- The nesting of lists; zero for a bare step. -/
def depth : Processed → Nat
  | step _ => 0
  | list items => 1 + depthOfAll items

def depthOfAll : List Processed → Nat
  | [] => 0
  | item :: rest => max (depth item) (depthOfAll rest)

end

mutual

def steps : Processed → List Metrics
  | step values => [values]
  | list items => stepsOfAll items

def stepsOfAll : List Processed → List Metrics
  | [] => []
  | item :: rest => steps item ++ stepsOfAll rest

end

def losses (p : Processed) : List Float32 := p.steps.filterMap (·.get? lossKey)

def metricsDocument (m : Metrics) : Document :=
  .record (m.entries.map fun (key, value) => (key, Document.jsonSingle value))

mutual

def document : Processed → Document
  | step values => metricsDocument values
  | list items => .list (documents items)

def documents : List Processed → List Document
  | [] => []
  | item :: rest => document item :: documents rest

end

/-- A number of a JSON document as a metric value. -/
def metricOfDocument? : Document → Option Float32
  | .number literal => literal.scaled?.map ScaledNumber.toSingle
  | _ => none

def entriesOfFields? : List (String × Document) → Option (List (String × Float32))
  | [] => some []
  | (name, value) :: rest =>
    match metricOfDocument? value, entriesOfFields? rest with
    | some x, some entries => some ((name, x) :: entries)
    | _, _ => none

mutual

/-- The output that a document stands for: a record of numbers is a step mapping, in which the last
value of a name counts, and a list is a list of outputs. -/
def ofDocument? : Document → Option Processed
  | .record fields => (entriesOfFields? fields).map fun entries => step (KeyMap.ofList entries)
  | .list items => (ofDocuments? items).map list
  | _ => none

def ofDocuments? : List Document → Option (List Processed)
  | [] => some []
  | item :: rest =>
    match ofDocument? item, ofDocuments? rest with
    | some p, some ps => some (p :: ps)
    | _, _ => none

end

def ofJson? (s : String) : Option Processed :=
  (Document.parse? s.toList).bind ofDocument?

end Processed

end TrainingLoop
