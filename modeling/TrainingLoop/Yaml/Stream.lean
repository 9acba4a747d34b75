import TrainingLoop.Yaml.Token
/-!
# From a stream to its tokens

The text is read from its start to its end, one token at a time. What may follow depends on the
tokens before: inside of brackets indentation says nothing, and a key begins only where a node may.
-/

namespace TrainingLoop.Yaml

/-- Blanks, comments and line breaks before a token left out. A line break lets a key begin, except
in a flow collection. Tabs are no blanks where a key may begin. A byte order mark is left out at the
start of a line, where it takes a column. -/
def skipToToken : (fuel : Nat) → Tokens → List Mark → Tokens × List Mark
  | 0, t, s => (t, s)
  | _ + 1, t, [] => (t, [])
  | fuel + 1, t, m :: rest =>
    if m.char == ' ' || (m.char == '\t' && (t.inFlow || !t.keyAllowed)) ||
        (m.char == byteOrderMark && m.column == 0) then
      skipToToken fuel t rest
    else if m.char == '#' then skipToToken fuel t (rest.dropWhile fun m => !isBreak m.char)
    else if isBreak m.char then
      skipToToken fuel (if t.inFlow then t else t.allowKey true) rest
    else (t, m :: rest)

/-- The characters that no plain scalar begins with. A dash, a question mark and a colon may begin
one if something follows them. -/
def indicators : String := "-?:,[]\x7b\x7d#&*!|>'\"%@`"

def beginsPlain (flow : Bool) (m : Mark) (rest : List Mark) : Bool :=
  !(isBlankOrBreak m.char || indicators.contains m.char) ||
    (m.char == '-' && !headIs isBlank rest) ||
    (!flow && (m.char == '?' || m.char == ':') && !atBlank rest)

/-- The token at the head of a text, which is not empty. -/
def nextToken (t : Tokens) (m : Mark) (rest : List Mark) : Option (Tokens × List Mark) :=
  let s := m :: rest
  let single (t : Option Tokens) : Option (Tokens × List Mark) := t.map fun t => (t, rest)
  let marker := (t.inFlow || atBlank rest)
  if m.column == 0 && m.char == '%' then do
    let (d, rest) ← directive? rest
    (t.addMarker (.directive d)).map fun t => (t, rest)
  else if atTriple '-' s then (t.addMarker .documentStart).map fun t => (t, s.drop 3)
  else if atTriple '.' s then (t.addMarker .documentEnd).map fun t => (t, s.drop 3)
  else if m.char == '[' then single (t.openFlow .flowListStart m)
  else if m.char == '\x7b' then single (t.openFlow .flowMapStart m)
  else if m.char == ']' then single (t.closeFlow .flowListEnd)
  else if m.char == '\x7d' then single (t.closeFlow .flowMapEnd)
  else if m.char == ',' then single t.addFlowEntry
  else if m.char == '-' && atBlank rest then single (t.addBlockEntry m)
  else if m.char == '?' && marker then single (t.addKey m)
  else if m.char == ':' && marker then single (t.addValue m)
  else if m.char == '*' then do
    let t ← t.noteKey m
    let (name, rest) ← anchorName? rest
    some ((t.allowKey false).push (.reference name), rest)
  else if m.char == '&' then do
    let t ← t.noteKey m
    let (name, rest) ← anchorName? rest
    some ((t.allowKey false).push (.anchor name), rest)
  else if m.char == '!' then do
    let t ← t.noteKey m
    let (tag, rest) ← tag? t.inFlow rest
    some ((t.allowKey false).push (.tag tag), rest)
  else if (m.char == '|' || m.char == '>') && !t.inFlow then do
    let t ← t.dropKey
    let folded := m.char == '>'
    let (text, rest) ← blockScalar? folded t.indent rest
    let style : ScalarStyle := if folded then .folded else .literal
    some ((t.allowKey true).push (.scalar style (String.ofList text)), rest)
  else if m.char == '\'' || m.char == '"' then do
    let t ← t.noteKey m
    let (text, rest) ← quotedWords (m.char == '"') (rest.length + 1) rest
    some ((t.allowKey false).push (.scalar .quoted (String.ofList text)), rest)
  else if beginsPlain t.inFlow m rest then do
    let t ← t.noteKey m
    let (text, rest, broken) ← plainWords t.inFlow t.indent (s.length + 1) [] s
    some ((t.allowKey broken).push (.scalar .plain (String.ofList text)), rest)
  else none

/-- The tokens of a text after those found so far; the end closes all blocks. -/
def tokensFrom (lastLine : Nat) : (fuel : Nat) → Tokens → List Mark → Option (List Token)
  | 0, _, _ => none
  | fuel + 1, t, s =>
    match skipToToken (s.length + 1) t s with
    | (t, []) => do
      let t ← (← t.dropStaleKeys (lastLine + 1) 0).dropKey
      some (t.closeBlocks (-1)).newestFirst.reverse
    | (t, m :: rest) => do
      let t ← t.dropStaleKeys m.line m.octet
      let (t, rest) ← nextToken (t.closeBlocks m.column) m rest
      tokensFrom lastLine fuel t rest

/-- The tokens of a stream, if it is well formed so far. -/
def tokens? (text : String) : Option (List Token) :=
  (marks? text).bind fun s =>
    tokensFrom ((s.getLast?.map Mark.line).getD 0) (s.length + 1) {} s

end TrainingLoop.Yaml
