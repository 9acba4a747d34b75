import TrainingLoop.Number.Layout
import TrainingLoop.Text.Printable
/-!
# Inspected values

The one-line form in which values are shown for inspection: quoted texts, numbers that show whether
they are whole, lists, maps and named records.
-/

namespace TrainingLoop.Inspect

/-- The lower-case hexadecimal digits of a number. -/
def hex (n : Nat) : List Char := Nat.toDigits 16 n

/-- A character inside quotes: quotes and backslashes get a backslash, and what cannot be printed
is named by an escape or its code point. -/
def quotedChar (c : Char) : List Char :=
  if c = '"' then ['\\', '"']
  else if c = '\\' then ['\\', '\\']
  else if c = '\n' then ['\\', 'n']
  else if c = '\r' then ['\\', 'r']
  else if c = '\t' then ['\\', 't']
  else if c.toNat = 0 then ['\\', '0']
  else if isPrintable c then [c]
  else ['\\', 'u', '\x7b'] ++ hex c.toNat ++ ['\x7d']

def text (s : String) : String :=
  String.ofList ('"' :: s.toList.flatMap quotedChar ++ ['"'])

def number (x : Float32) : String := NumberLayout.inspected.single x

def count (n : Nat) : String := toString n

def bool (b : Bool) : String := if b then "true" else "false"

def variant (name argument : String) : String := name ++ "(" ++ argument ++ ")"

def option (show' : α → String) : Option α → String
  | none => "None"
  | some a => variant "Some" (show' a)

def list (items : List String) : String := "[" ++ ", ".intercalate items ++ "]"

def map (entries : List (String × String)) : String :=
  "\x7b" ++ ", ".intercalate (entries.map fun (k, v) => text k ++ ": " ++ v) ++ "\x7d"

/-- A record with its shown fields between braces. -/
def shownFields (name : String) (fields : List String) : String :=
  name ++ " \x7b " ++ ", ".intercalate fields ++ " \x7d"

def field : String × String → String
  | (name, value) => name ++ ": " ++ value

/-- A record, all of whose fields are shown. -/
def record (name : String) (fields : List (String × String)) : String :=
  shownFields name (fields.map field)

/-- A record with further fields that are not shown. -/
def openRecord (name : String) (fields : List (String × String)) : String :=
  shownFields name (fields.map field ++ [".."])

end TrainingLoop.Inspect
