import TrainingLoop.Number.Layout
/-!
# Documents

The tree of values that the library reads from JSON text and writes as JSON or YAML text. Records
keep the order, and any repetition, of their fields.
-/

namespace TrainingLoop

inductive Document where
  | null
  | bool (b : Bool)
  | number (literal : NumberLiteral)
  /-- A number that has no digits, by the word that its format has for it. -/
  | special (word : String)
  | text (s : String)
  | list (items : List Document)
  | record (fields : List (String × Document))

namespace Document

instance : Inhabited Document := ⟨null⟩

def count (n : Nat) : Document := number (NumberLiteral.ofNat n)

def ofOption (f : α → Document) : Option α → Document
  | none => null
  | some a => f a

def field? (d : Document) (name : String) : Option Document :=
  match d with
  | record fields => fields.lookup name
  | _ => none

/-- The value of a field; a field that is missing is the same as one that is null. -/
def get (d : Document) (name : String) : Document := (d.field? name).getD null

def isNull : Document → Bool
  | null => true
  | _ => false

def has (d : Document) (name : String) : Bool := !(d.get name).isNull

def bool? : Document → Option Bool
  | bool b => some b
  | _ => none

def text? : Document → Option String
  | text s => some s
  | _ => none

def natural? : Document → Option Nat
  | number literal => literal.natural?
  | _ => none

def integer? : Document → Option Int
  | number literal => literal.integer?
  | _ => none

/-- The items of a list; nothing else has any. -/
def items : Document → List Document
  | list items => items
  | _ => []

/-- The fields of a record; nothing else has any. -/
def fields : Document → List (String × Document)
  | record fields => fields
  | _ => []

end Document

/-- How 32-bit and 64-bit numbers appear in the documents of a format. -/
structure NumberForm where
  single : Float32 → Document
  double : Float → Document

end TrainingLoop
