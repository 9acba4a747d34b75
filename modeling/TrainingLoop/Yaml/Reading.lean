import TrainingLoop.Number.Binary
import TrainingLoop.Yaml.Node
import TrainingLoop.Yaml.Scalar
/-!
# Reading typed values from nodes

What a node gives where a value of a certain type is expected. Numbers and truth values must be
plain, or literal with the tag of their type; a text may be any scalar and is taken as it is
written; a list or a record may be left out.

An alias is followed where its node is read. All reading of one document may follow so many aliases
and no more, so that a short document cannot stand for an endless one.
-/

namespace TrainingLoop.Yaml

/-- Reading of a document with the given named nodes; the state is the number of aliases that may
still be followed. -/
abbrev Reading := ReaderT (List (Nat × Node)) (StateT Nat Option)

/-- How many aliases may be followed for each part of a document. -/
def aliasesPerPart : Nat := 100

namespace Reading

variable {α : Type}

/-- Nothing can be read here. -/
def refuse : Reading α := fun _ _ => none

def require (holds : Bool) : Reading Unit := if holds then pure () else refuse

def ofOption : Option α → Reading α
  | some a => pure a
  | none => refuse

/-- What is read from the root of a document. -/
def run? (read : Node → Reading α) (d : LinkedDocument) : Option α :=
  (read d.root d.named.reverse (aliasesPerPart * d.parts)).map Prod.fst

end Reading

namespace Node

/-- The node itself, or what it points to. -/
def target : Node → Reading Node
  | reference number => do
    match ← get with
    | 0 => .refuse
    | left + 1 =>
      set left
      .ofOption ((← read).lookup number)
  | n => pure n

def text (n : Node) : Reading String := do
  match ← n.target with
  | scalar _ _ s => pure s
  | _ => .refuse

/-- A scalar read by its text, if it may be a value of the type that the tag tells. -/
def plain {α : Type} (tag : TagMeaning) (ofText? : String → Option α) (n : Node) : Reading α := do
  match ← n.target with
  | scalar _ .plain s => .ofOption (ofText? s)
  | scalar own .literal s => if own = some tag then .ofOption (ofText? s) else .refuse
  | _ => .refuse

/-- A natural number of 64 bits. -/
def natural : Node → Reading Nat :=
  plain .integer fun s => ScalarValue.naturalOfText? (Nat.pow 2 64) s.toList

def bool : Node → Reading Bool := plain .bool ScalarValue.boolOfText?

/-- The 32-bit number nearest to a real number. -/
def single : Node → Reading Float32 :=
  plain .real fun s => (ScalarValue.realOfText? s).map Double.narrow

/-- A value that may be null. A plain scalar with a tag is null if the tag says so, and then it must
be written as null. -/
def optional {α : Type} (value : Node → Reading α) (n : Node) : Reading (Option α) := do
  let n ← n.target
  match n with
  | scalar none .plain s => if ScalarValue.isNullText s then pure none else some <$> value n
  | scalar (some .null) .plain s =>
    if s != "" && ScalarValue.isNullText s then pure none else .refuse
  | n => some <$> value n

def isMissing : Node → Bool
  | scalar _ .plain "" => true
  | _ => false

def items (n : Node) : Reading (List Node) := do
  match ← n.target with
  | list _ items => pure items
  | n => if n.isMissing then pure [] else .refuse

/-- The fields of a record: a map with scalar keys. -/
def fields (n : Node) : Reading (List (String × Node)) := do
  match ← n.target with
  | map _ entries => entries.mapM fun (key, value) => do pure (← key.text, value)
  | n => if n.isMissing then pure [] else .refuse

end Node

abbrev Fields := List (String × Node)

namespace Fields

variable {α : Type}

/-- No field of these names is given twice. -/
def once (names : List String) (f : Fields) : Bool :=
  names.all fun name => (f.filter fun field => field.1 == name).length ≤ 1

/-- All fields have one of these names. -/
def within (names : List String) (f : Fields) : Bool := f.all fun field => names.contains field.1

/-- The value of a field that must be given. -/
def required (f : Fields) (name : String) (value : Node → Reading α) : Reading α :=
  match f.lookup name with
  | none => .refuse
  | some node => value node

/-- The value of a field that may be left out. -/
def given (f : Fields) (name : String) (default : α) (value : Node → Reading α) : Reading α :=
  match f.lookup name with
  | none => pure default
  | some node => value node

end Fields

end TrainingLoop.Yaml
