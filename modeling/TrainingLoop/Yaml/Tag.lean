import TrainingLoop.Yaml.Lexeme
/-!
# Tags and directives

A tag is a sequence of octets: those of the characters it is written with, and those that its
escapes give. What it says of a node depends on them alone, once its handle is replaced by what a
directive says the handle stands for.
-/

namespace TrainingLoop.Yaml

/-- A tag as it is written: a handle, which a directive may say the meaning of, and the rest. A tag
that is given in full has an empty handle. -/
structure Tag where
  handle : String
  suffix : List UInt8
  deriving DecidableEq, Repr

/-- The characters that a tag may hold besides escapes; between angle brackets also some that would
end it elsewhere. -/
def isTagChar (bracketed : Bool) (c : Char) : Bool :=
  isNameChar c || ";/?:@&=+$.!~*'()".contains c || (bracketed && ",[]".contains c)

def octets (s : String) : List UInt8 := s.toUTF8.data.toList

/-- A tag ends before a zero octet. -/
def upToZero (tag : List UInt8) : List UInt8 := tag.takeWhile (· ≠ 0)

def octet? : List Mark → Option (UInt8 × List Mark)
  | sign :: high :: low :: rest =>
    if sign.char == '%' then do
      let h ← hexDigit? high.char
      let l ← hexDigit? low.char
      some (UInt8.ofNat (16 * h + l), rest)
    else none
  | _ => none

/-- So many escapes of octets that go on with a character. -/
def furtherOctets? : (count : Nat) → List Mark → Option (List UInt8 × List Mark)
  | 0, s => some ([], s)
  | count + 1, s => do
    let (octet, s) ← octet? s
    if octet / 64 ≠ 2 then none
    let (octets, s) ← furtherOctets? count s
    some (octet :: octets, s)

/-- The escapes for one character at the head of a text. The first octet tells how many follow. -/
def escapedOctets? (s : List Mark) : Option (List UInt8 × List Mark) := do
  let (octet, rest) ← octet? s
  let further (count : Nat) : Option (List UInt8 × List Mark) :=
    (furtherOctets? count rest).map fun (octets, rest) => (octet :: octets, rest)
  if octet < 128 then further 0
  else if octet / 32 = 6 then further 1
  else if octet / 16 = 14 then further 2
  else if octet / 8 = 30 then further 3
  else none

/-- The octets of a tag at the head of a text, which may be none. -/
def tagOctets? (bracketed : Bool) : (fuel : Nat) → List Mark → Option (List UInt8 × List Mark)
  | 0, _ => none
  | fuel + 1, s =>
    if headIs (· == '%') s then do
      let (octets, rest) ← escapedOctets? s
      let (more, rest) ← tagOctets? bracketed fuel rest
      some (octets ++ more, rest)
    else
      match takeChars (isTagChar bracketed) s with
      | ([], _) => some ([], s)
      | (chars, rest) =>
        (tagOctets? bracketed fuel rest).map fun (more, rest) =>
          (octets (String.ofList chars) ++ more, rest)

/-- A tag after its exclamation mark. -/
def tag? (flow : Bool) (s : List Mark) : Option (Tag × List Mark) := do
  let fuel := s.length + 1
  let (tag, rest) ←
    if headIs (· == '<') s then do
      let (suffix, rest) ← tagOctets? true fuel (s.drop 1)
      if suffix.isEmpty || !headIs (· == '>') rest then none
      else some (Tag.mk "" (upToZero suffix), rest.drop 1)
    else do
      let (name, after) := takeChars isNameChar s
      if headIs (· == '!') after then do
        let (suffix, rest) ← tagOctets? false fuel (after.drop 1)
        if suffix.isEmpty then none
        else some (Tag.mk ("!" ++ String.ofList name ++ "!") (upToZero suffix), rest)
      else do
        let (suffix, rest) ← tagOctets? false fuel s
        let suffix := upToZero suffix
        some (if suffix.isEmpty then Tag.mk "" (octets "!") else Tag.mk "!" suffix, rest)
  if atBlank rest || (flow && headIs (· == ',') rest) then some (tag, rest) else none

/-! ## Directives -/

/-- What a directive says: that the stream has a version that can be read, or what a tag handle
stands for. -/
inductive Directive where
  | version
  | tagHandle (handle : String) (expansion : List UInt8)
  deriving DecidableEq, Repr

/-- A part of a version number, of nine digits at most. -/
def versionPart? (s : List Mark) : Option (Nat × List Mark) :=
  let (digits, rest) := takeChars Char.isDigit s
  if digits.isEmpty || 9 < digits.length then none
  else some (digits.foldl (fun n c => 10 * n + (c.toNat - '0'.toNat)) 0, rest)

/-- The version of a stream: 1.1 and 1.2 can be read. -/
def version? (s : List Mark) : Option (Directive × List Mark) := do
  let (major, rest) ← versionPart? (skipBlanks s)
  if !headIs (· == '.') rest then none
  let (minor, rest) ← versionPart? (rest.drop 1)
  if major = 1 && (minor = 1 || minor = 2) then some (.version, rest) else none

def tagHandle? (s : List Mark) : Option (Directive × List Mark) := do
  let s := skipBlanks s
  if !headIs (· == '!') s then none
  let (name, rest) := takeChars isNameChar (s.drop 1)
  let closed := headIs (· == '!') rest
  if !closed && !name.isEmpty then none
  let handle := "!" ++ String.ofList name ++ if closed then "!" else ""
  let rest := if closed then rest.drop 1 else rest
  if !headIs isBlank rest then none
  let (expansion, rest) ← tagOctets? true (rest.length + 1) (skipBlanks rest)
  if expansion.isEmpty || !atBlank rest then none
  some (.tagHandle handle (upToZero expansion), rest)

/-- A directive after its percent sign, with its whole line. -/
def directive? (s : List Mark) : Option (Directive × List Mark) := do
  let (name, rest) := takeChars isNameChar s
  if !atBlank rest then none
  let (directive, rest) ←
    if name == "YAML".toList then version? rest
    else if name == "TAG".toList then tagHandle? rest
    else none
  (restOfLine? rest).map fun rest => (directive, rest)

/-! ## What tags say -/

/-- What a tag says of its node. -/
inductive TagMeaning where
  | null
  | bool
  | integer
  | real
  /-- A type of an application's own. -/
  | own (name : String)
  /-- A type of an application's own with a name that is no text. -/
  | nameless
  /-- Nothing about the type of a scalar. -/
  | other
  deriving DecidableEq, Repr

/-- The meaning of a tag in full. An exclamation mark begins the tags of applications; alone it is
a name itself. -/
def TagMeaning.ofOctets (tag : List UInt8) : TagMeaning :=
  if tag = octets "tag:yaml.org,2002:null" then null
  else if tag = octets "tag:yaml.org,2002:bool" then bool
  else if tag = octets "tag:yaml.org,2002:int" then integer
  else if tag = octets "tag:yaml.org,2002:float" then real
  else if tag = octets "!" then own "!"
  else
    match tag with
    | 0x21 :: name =>
      match String.fromUTF8? ⟨name.toArray⟩ with
      | some name => own name
      | none => nameless
    | _ => other

namespace Tag

/-- The tag handles that no directive need explain. -/
def knownHandles : List (String × List UInt8) :=
  [("!", octets "!"), ("!!", octets "tag:yaml.org,2002:")]

/-- The meaning of a tag; its handle must have one. -/
def meaning? (handles : List (String × List UInt8)) (t : Tag) : Option TagMeaning :=
  if t.handle.isEmpty then some (.ofOctets t.suffix)
  else (handles.lookup t.handle).map fun expansion => .ofOctets (expansion ++ t.suffix)

end Tag

end TrainingLoop.Yaml
