import TrainingLoop.Document.Basic
/-!
# JSON text

`compact` and `pretty` write a document; `parse?` reads one. A 32-bit number is written by its
shortest decimal, and NaN and the infinities, which JSON lacks, as `null`.
-/

namespace TrainingLoop.Document

def jsonSingle (x : Float32) : Document :=
  match Single.decode x with
  | .finite negative m q => number (NumberLayout.jsonSingle.literal .single negative m q)
  | _ => null

def jsonDouble (x : Float) : Document :=
  match Double.decode x with
  | .finite negative m q => number (NumberLayout.jsonDouble.literal .double negative m q)
  | _ => null

def jsonNumbers : NumberForm := ⟨jsonSingle, jsonDouble⟩

def hexUnit (n : Nat) : List Char :=
  [n / 4096 % 16, n / 256 % 16, n / 16 % 16, n % 16].map Nat.digitChar

/-- A character inside quotes: quotes, backslashes and controls are escaped. -/
def escapedChar (c : Char) : List Char :=
  if c = '"' then ['\\', '"']
  else if c = '\\' then ['\\', '\\']
  else if c = '\n' then ['\\', 'n']
  else if c = '\r' then ['\\', 'r']
  else if c = '\t' then ['\\', 't']
  else if c.toNat = 8 then ['\\', 'b']
  else if c.toNat = 12 then ['\\', 'f']
  else if c.toNat < 32 then '\\' :: 'u' :: hexUnit c.toNat
  else [c]

def quoted (s : List Char) : List Char := '"' :: s.flatMap escapedChar ++ ['"']

mutual

def compact : Document → List Char
  | null => ['n', 'u', 'l', 'l']
  | bool true => ['t', 'r', 'u', 'e']
  | bool false => ['f', 'a', 'l', 's', 'e']
  | number literal => literal.text
  | special _ => ['n', 'u', 'l', 'l']
  | text s => quoted s.toList
  | list items => '[' :: compactItems items ++ [']']
  | record fields => '\x7b' :: compactFields fields ++ ['\x7d']

def compactItems : List Document → List Char
  | [] => []
  | [item] => compact item
  | item :: rest => compact item ++ ',' :: compactItems rest

def compactFields : List (String × Document) → List Char
  | [] => []
  | [(name, value)] => quoted name.toList ++ ':' :: compact value
  | (name, value) :: rest =>
    quoted name.toList ++ ':' :: compact value ++ ',' :: compactFields rest

end

def indentation (depth : Nat) : List Char := List.replicate (2 * depth) ' '

mutual

/-- The text of a document with one item or field a line, indented by two blanks a level. -/
def pretty (depth : Nat) : Document → List Char
  | null => ['n', 'u', 'l', 'l']
  | bool true => ['t', 'r', 'u', 'e']
  | bool false => ['f', 'a', 'l', 's', 'e']
  | number literal => literal.text
  | special _ => ['n', 'u', 'l', 'l']
  | text s => quoted s.toList
  | list [] => ['[', ']']
  | list (item :: rest) =>
    '[' :: '\n' :: prettyItems (depth + 1) (item :: rest) ++ '\n' :: indentation depth ++ [']']
  | record [] => ['\x7b', '\x7d']
  | record (field :: rest) =>
    '\x7b' :: '\n' :: prettyFields (depth + 1) (field :: rest) ++
      '\n' :: indentation depth ++ ['\x7d']

def prettyItems (depth : Nat) : List Document → List Char
  | [] => []
  | [item] => indentation depth ++ pretty depth item
  | item :: rest => indentation depth ++ pretty depth item ++ ',' :: '\n' :: prettyItems depth rest

def prettyFields (depth : Nat) : List (String × Document) → List Char
  | [] => []
  | [(name, value)] => indentation depth ++ quoted name.toList ++ ':' :: ' ' :: pretty depth value
  | (name, value) :: rest =>
    indentation depth ++ quoted name.toList ++ ':' :: ' ' :: pretty depth value ++
      ',' :: '\n' :: prettyFields depth rest

end

def toJson (d : Document) : String := String.ofList d.compact

def toPrettyJson (d : Document) : String := String.ofList (d.pretty 0)

/-! ## Reading -/

def isBlank (c : Char) : Bool := c = ' ' || c = '\n' || c = '\t' || c = '\r'

def skipBlanks (s : List Char) : List Char := s.dropWhile isBlank

def hexValue? (c : Char) : Option Nat :=
  if '0' ≤ c && c ≤ '9' then some (c.toNat - '0'.toNat)
  else if 'a' ≤ c && c ≤ 'f' then some (c.toNat - 'a'.toNat + 10)
  else if 'A' ≤ c && c ≤ 'F' then some (c.toNat - 'A'.toNat + 10)
  else none

def hexUnit? (a b c d : Char) : Option Nat :=
  match hexValue? a, hexValue? b, hexValue? c, hexValue? d with
  | some a, some b, some c, some d => some (4096 * a + 256 * b + 16 * c + d)
  | _, _, _, _ => none

def isHighSurrogate (n : Nat) : Bool := 0xd800 ≤ n && n < 0xdc00

def isLowSurrogate (n : Nat) : Bool := 0xdc00 ≤ n && n < 0xe000

/-- The character of an escape of one letter. -/
def unescape? (c : Char) : Option Char :=
  if c = '"' then some '"'
  else if c = '\\' then some '\\'
  else if c = '/' then some '/'
  else if c = 'b' then some (Char.ofNat 8)
  else if c = 'f' then some (Char.ofNat 12)
  else if c = 'n' then some '\n'
  else if c = 'r' then some '\r'
  else if c = 't' then some '\t'
  else none

/-- The characters up to the closing quote, and what follows it. A surrogate escape needs its
partner next to it, and a control character has to be escaped. -/
def quotedTail? : List Char → Option (List Char × List Char)
  | [] => none
  | '"' :: rest => some ([], rest)
  | '\\' :: 'u' :: a :: b :: c :: d :: rest =>
    match hexUnit? a b c d with
    | none => none
    | some high =>
      if isHighSurrogate high then
        match rest with
        | '\\' :: 'u' :: e :: f :: g :: h :: rest =>
          match hexUnit? e f g h with
          | none => none
          | some low =>
            if isLowSurrogate low then
              (quotedTail? rest).map fun (s, rest) =>
                (Char.ofNat (0x10000 + (high - 0xd800) * 0x400 + (low - 0xdc00)) :: s, rest)
            else none
        | _ => none
      else if isLowSurrogate high then none
      else (quotedTail? rest).map fun (s, rest) => (Char.ofNat high :: s, rest)
  | '\\' :: c :: rest =>
    match unescape? c with
    | none => none
    | some c => (quotedTail? rest).map fun (s, rest) => (c :: s, rest)
  | c :: rest =>
    if c = '\\' ∨ c.toNat < 32 then none
    else (quotedTail? rest).map fun (s, rest) => (c :: s, rest)

mutual

/-- The value at the head of a text, nested at most `depth` deep, and what follows it. The fuel
bounds the number of values and is never short when it exceeds the length of the text. -/
def value? : (fuel depth : Nat) → List Char → Option (Document × List Char)
  | 0, _, _ => none
  | fuel + 1, depth, s =>
    match skipBlanks s with
    | 'n' :: 'u' :: 'l' :: 'l' :: rest => some (.null, rest)
    | 't' :: 'r' :: 'u' :: 'e' :: rest => some (.bool true, rest)
    | 'f' :: 'a' :: 'l' :: 's' :: 'e' :: rest => some (.bool false, rest)
    | '"' :: rest => (quotedTail? rest).map fun (s, rest) => (.text (String.ofList s), rest)
    | '[' :: rest =>
      match depth with
      | 0 => none
      | depth + 1 =>
        match skipBlanks rest with
        | ']' :: rest => some (.list [], rest)
        | rest => (items? fuel depth rest).map fun (items, rest) => (.list items, rest)
    | '\x7b' :: rest =>
      match depth with
      | 0 => none
      | depth + 1 =>
        match skipBlanks rest with
        | '\x7d' :: rest => some (.record [], rest)
        | rest => (fields? fuel depth rest).map fun (fields, rest) => (.record fields, rest)
    | s => (NumberLiteral.scan? s).map fun (literal, rest) => (.number literal, rest)

/-- The items up to the closing bracket; there is at least one. -/
def items? : (fuel depth : Nat) → List Char → Option (List Document × List Char)
  | 0, _, _ => none
  | fuel + 1, depth, s =>
    match value? fuel depth s with
    | none => none
    | some (item, rest) =>
      match skipBlanks rest with
      | ']' :: rest => some ([item], rest)
      | ',' :: rest => (items? fuel depth rest).map fun (items, rest) => (item :: items, rest)
      | _ => none

/-- The fields up to the closing brace; there is at least one. -/
def fields? : (fuel depth : Nat) → List Char → Option (List (String × Document) × List Char)
  | 0, _, _ => none
  | fuel + 1, depth, s =>
    match skipBlanks s with
    | '"' :: rest =>
      match quotedTail? rest with
      | none => none
      | some (name, rest) =>
        match skipBlanks rest with
        | ':' :: rest =>
          match value? fuel depth rest with
          | none => none
          | some (value, rest) =>
            match skipBlanks rest with
            | '\x7d' :: rest => some ([(String.ofList name, value)], rest)
            | ',' :: rest =>
              (fields? fuel depth rest).map fun (fields, rest) =>
                ((String.ofList name, value) :: fields, rest)
            | _ => none
        | _ => none
    | _ => none

end

def depthLimit : Nat := 127

def parse? (s : List Char) : Option Document :=
  match value? (2 * s.length + 2) depthLimit s with
  | some (d, rest) => if (skipBlanks rest).isEmpty then some d else none
  | none => none

end TrainingLoop.Document
