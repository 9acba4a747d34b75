import TrainingLoop.Yaml.Tag
/-!
# Tokens of YAML text

The tokens found so far in a stream, with the structure of its indentation made explicit: a block
list or map is opened where its first entry stands deeper than the block around it, and closed where
the text comes back. A key need not be announced: any node may turn out to be one when a colon
follows it on its line, and the tokens for the key are then put in before it.
-/

namespace TrainingLoop.Yaml

inductive ScalarStyle where
  | plain
  | quoted
  | literal
  | folded
  deriving DecidableEq, Repr

inductive Token where
  | documentStart
  | documentEnd
  | blockListStart
  | blockMapStart
  | blockEnd
  | flowListStart
  | flowListEnd
  | flowMapStart
  | flowMapEnd
  | blockEntry
  | flowEntry
  | key
  | value
  | anchor (name : String)
  | reference (name : String)
  | tag (tag : Tag)
  | directive (d : Directive)
  | scalar (style : ScalarStyle) (text : String)
  deriving DecidableEq, Repr

/-- A place where a node began that may turn out to be a key. -/
structure KeyPlace where
  /-- The number of tokens before it. -/
  position : Nat
  line : Nat
  column : Nat
  octet : Nat
  /-- Nothing but a key can stand there: the map around it has its entries in this column. -/
  required : Bool
  deriving DecidableEq, Repr

/-- The most octets between the start of a key that is not announced and its colon. -/
def keyLimit : Nat := 1024

/-- A key must be followed by its colon on the same line, and within the limit. -/
def KeyPlace.holdsAt (k : KeyPlace) (line octet : Nat) : Bool :=
  k.line == line && octet ≤ k.octet + keyLimit

structure Tokens where
  newestFirst : List Token := []
  count : Nat := 0
  /-- The possible key of the block structure and of each flow collection around the place; the
  innermost one stands first. -/
  keys : List (Option KeyPlace) := [none]
  /-- The columns of the open blocks, the innermost one first. -/
  indents : List Nat := []
  /-- A key may begin here. -/
  keyAllowed : Bool := true

namespace Tokens

def push (t : Token) (s : Tokens) : Tokens :=
  { s with newestFirst := t :: s.newestFirst, count := s.count + 1 }

/-- A token put in with so many tokens before it. -/
def insertAt (position : Nat) (t : Token) (s : Tokens) : Tokens :=
  let later := s.count - position
  { s with
    newestFirst := s.newestFirst.take later ++ t :: s.newestFirst.drop later
    count := s.count + 1 }

def inFlow (s : Tokens) : Bool := 1 < s.keys.length

/-- The column of the innermost block; outside of all blocks it is one before the first. -/
def indent (s : Tokens) : Int :=
  match s.indents with
  | [] => -1
  | column :: _ => column

def allowKey (allowed : Bool) (s : Tokens) : Tokens := { s with keyAllowed := allowed }

/-- A block opened by an entry in a column, if it stands deeper than the one around it. -/
def openBlock (column position : Nat) (t : Token) (s : Tokens) : Tokens :=
  if !s.inFlow && s.indent < column then
    { s.insertAt position t with indents := column :: s.indents }
  else s

def closeBlocksFrom (column : Int) : List Nat → Tokens → Tokens
  | [], s => { s with indents := [] }
  | indent :: rest, s =>
    if column < indent then closeBlocksFrom column rest (s.push .blockEnd)
    else { s with indents := indent :: rest }

/-- The blocks closed that lie deeper than a column. -/
def closeBlocks (column : Int) (s : Tokens) : Tokens :=
  if s.inFlow then s else closeBlocksFrom column s.indents s

/-- The innermost possible key given up; a required one must not be. -/
def dropKey (s : Tokens) : Option Tokens :=
  match s.keys with
  | some k :: rest => if k.required then none else some { s with keys := none :: rest }
  | _ => some s

/-- The possible keys given up that the text has gone past. -/
def dropStaleKeys (line octet : Nat) (s : Tokens) : Option Tokens :=
  let stale (k : Option KeyPlace) : Bool := k.any fun k => !k.holdsAt line octet
  if s.keys.any fun k => stale k && k.any KeyPlace.required then none
  else some { s with keys := s.keys.map fun k => if stale k then none else k }

/-- The node that begins at a place may turn out to be a key. -/
def noteKey (m : Mark) (s : Tokens) : Option Tokens :=
  if s.keyAllowed then do
    let s ← s.dropKey
    let required := !s.inFlow && s.indent == m.column
    let place : KeyPlace := ⟨s.count, m.line, m.column, m.octet, required⟩
    some { s with keys := some place :: s.keys.drop 1 }
  else some s

def openFlow (t : Token) (m : Mark) (s : Tokens) : Option Tokens := do
  let s ← s.noteKey m
  some (({ s with keys := none :: s.keys }.allowKey true).push t)

def closeFlow (t : Token) (s : Tokens) : Option Tokens := do
  let s ← s.dropKey
  let s := if s.inFlow then { s with keys := s.keys.drop 1 } else s
  some ((s.allowKey false).push t)

def addFlowEntry (s : Tokens) : Option Tokens := do
  let s ← s.dropKey
  some ((s.allowKey true).push .flowEntry)

/-- A dash; in a block it must stand where a node may begin. -/
def addBlockEntry (m : Mark) (s : Tokens) : Option Tokens := do
  if !s.inFlow && !s.keyAllowed then none
  let s ← (s.openBlock m.column s.count .blockListStart).dropKey
  some ((s.allowKey true).push .blockEntry)

/-- A question mark that announces a key. -/
def addKey (m : Mark) (s : Tokens) : Option Tokens := do
  if !s.inFlow && !s.keyAllowed then none
  let s ← (s.openBlock m.column s.count .blockMapStart).dropKey
  some ((s.allowKey (!s.inFlow)).push .key)

/-- A colon. The possible key before it is one now; without one it begins an entry with an empty
key, which in a block must stand where a node may begin. -/
def addValue (m : Mark) (s : Tokens) : Option Tokens :=
  match s.keys with
  | some k :: rest =>
    let s := (s.insertAt k.position .key).openBlock k.column k.position .blockMapStart
    some (({ s with keys := none :: rest }.allowKey false).push .value)
  | _ =>
    if !s.inFlow && !s.keyAllowed then none
    else
      let s := s.openBlock m.column s.count .blockMapStart
      some ((s.allowKey (!s.inFlow)).push .value)

def addMarker (t : Token) (s : Tokens) : Option Tokens := do
  let s ← (s.closeBlocks (-1)).dropKey
  some ((s.allowKey false).push t)

end Tokens

end TrainingLoop.Yaml
