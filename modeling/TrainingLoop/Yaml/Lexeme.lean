import TrainingLoop.Yaml.Mark
/-!
# Lexemes of YAML text

What a scalar or a name is at the head of a text. Each reader gives what it read
and the text after it, and nothing if there is no such thing.
-/

namespace TrainingLoop.Yaml

/-- The characters at the head of a text that have a property, and what follows. -/
def takeChars (p : Char → Bool) (s : List Mark) : List Char × List Mark :=
  ((s.takeWhile fun m => p m.char).map Mark.char, s.dropWhile fun m => p m.char)

def skipBlanks (s : List Mark) : List Mark := s.dropWhile fun m => isBlank m.char

/-- Blanks and a comment up to the end of their line, which is left out too. -/
def restOfLine? (s : List Mark) : Option (List Mark) :=
  let s := skipBlanks s
  let s := if headIs (· == '#') s then s.dropWhile fun m => !isBreak m.char else s
  match s with
  | [] => some []
  | m :: rest => if isBreak m.char then some rest else none

/-! ## Plain scalars -/

/-- The characters at the head of a text that belong to a plain scalar, up to a blank. In flow
collections their indicators end it, and a colon must not touch one. -/
def plainWord (flow : Bool) : List Mark → Option (List Char × List Mark)
  | [] => some ([], [])
  | m :: rest =>
    if isBlankOrBreak m.char then some ([], m :: rest)
    else if flow && m.char == ':' && headIs (",?[]\x7b\x7d".contains ·) rest then none
    else if (m.char == ':' && atBlank rest) || (flow && ",[]\x7b\x7d".contains m.char) then
      some ([], m :: rest)
    else (plainWord flow rest).map fun (word, rest) => (m.char :: word, rest)

/-- A tab stands in the indentation of a further line. -/
def tabIndents (column : Int) (blanks : List Mark) : Bool :=
  (blanks.dropWhile fun m => !isBreak m.char).any fun m => m.char == '\t' && m.column < column

/-- A plain scalar with its further words, each after the blanks before it. The last component
tells whether line breaks follow it. -/
def plainWords (flow : Bool) (indent : Int) : (fuel : Nat) → (before : List Mark) → List Mark →
    Option (List Char × List Mark × Bool)
  | 0, _, _ => none
  | fuel + 1, before, s =>
    let ended := some ([], s, before.any fun m => isBreak m.char)
    if atDocumentMarker s || headIs (· == '#') s then ended
    else do
      let (word, after) ← plainWord flow s
      let lead := if word.isEmpty then [] else foldBlanks false before
      let (blanks, rest) := takeBlanks after
      if blanks.isEmpty then
        some (lead ++ word, rest, word.isEmpty && before.any fun m => isBreak m.char)
      else if tabIndents (indent + 1) blanks then none
      else if !flow && rest.head?.any (fun m => m.column < indent + 1) then
        some (lead ++ word, rest, true)
      else
        let (more, rest, broken) ← plainWords flow indent fuel blanks rest
        some (lead ++ word ++ more, rest, broken)

/-! ## Quoted scalars -/

def hexDigit? (c : Char) : Option Nat :=
  if '0' ≤ c && c ≤ '9' then some (c.toNat - '0'.toNat)
  else if 'a' ≤ c && c ≤ 'f' then some (c.toNat - 'a'.toNat + 10)
  else if 'A' ≤ c && c ≤ 'F' then some (c.toNat - 'A'.toNat + 10)
  else none

/-- The character of a code point of so many hexadecimal digits. -/
def codePoint? : (digits : Nat) → (value : Nat) → List Mark → Option (Char × List Mark)
  | 0, value, s => if value.isValidChar then some (Char.ofNat value, s) else none
  | digits + 1, value, m :: rest => do
    let d ← hexDigit? m.char
    codePoint? digits (16 * value + d) rest
  | _ + 1, _, [] => none

def letterEscapes : List (Char × Char) :=
  [('0', '\x00'), ('a', '\x07'), ('b', '\x08'), ('t', '\t'), ('\t', '\t'), ('n', '\n'),
    ('v', '\x0b'), ('f', '\x0c'), ('r', '\r'), ('e', '\x1b'), (' ', ' '), ('"', '"'),
    ('/', '/'), ('\\', '\\'), ('N', '\u0085'), ('_', '\u00a0'), ('L', '\u2028'), ('P', '\u2029')]

/-- The character of an escape, after its backslash. -/
def escape? : List Mark → Option (Char × List Mark)
  | [] => none
  | m :: rest =>
    match m.char with
    | 'x' => codePoint? 2 0 rest
    | 'u' => codePoint? 4 0 rest
    | 'U' => codePoint? 8 0 rest
    | c => (letterEscapes.lookup c).map fun decoded => (decoded, rest)

/-- The characters at the head of a quoted scalar up to a blank or its end. The last component
tells whether an escaped line break ended them. -/
def quotedWord (double : Bool) : (fuel : Nat) → List Mark → Option (List Char × List Mark × Bool)
  | 0, _ => none
  | _ + 1, [] => some ([], [], false)
  | fuel + 1, m :: rest =>
    let keep (c : Char) (rest : List Mark) : Option (List Char × List Mark × Bool) :=
      (quotedWord double fuel rest).map fun (word, rest, escaped) => (c :: word, rest, escaped)
    if isBlankOrBreak m.char then some ([], m :: rest, false)
    else if double then
      if m.char == '"' then some ([], m :: rest, false)
      else if m.char == '\\' then
        if headIs isBreak rest then some ([], rest.drop 1, true)
        else (escape? rest).bind fun (c, rest) => keep c rest
      else keep m.char rest
    else if m.char == '\'' then
      if headIs (· == '\'') rest then keep '\'' (rest.drop 1) else some ([], m :: rest, false)
    else keep m.char rest

/-- The rest of a quoted scalar up to its end, and what follows its closing quote. -/
def quotedWords (double : Bool) : (fuel : Nat) → List Mark → Option (List Char × List Mark)
  | 0, _ => none
  | fuel + 1, s =>
    if atDocumentMarker s then none
    else do
      let (word, rest, escaped) ← quotedWord double (s.length + 1) s
      if headIs (· == if double then '"' else '\'') rest && !escaped then some (word, rest.drop 1)
      else if rest.isEmpty then none
      else
        let (blanks, rest) := takeBlanks rest
        let (more, rest) ← quotedWords double fuel rest
        some (word ++ foldBlanks escaped blanks ++ more, rest)

/-! ## Block scalars -/

/-- Which of the line breaks at the end of a block scalar belong to it: none, the first, or all. -/
inductive Chomping where
  | strip
  | clip
  | keep
  deriving DecidableEq, Repr

def chomping? (s : List Mark) : Option (Chomping × List Mark) :=
  match s with
  | m :: rest =>
    if m.char == '+' then some (.keep, rest)
    else if m.char == '-' then some (.strip, rest)
    else none
  | [] => none

/-- The digit that tells how deep a block scalar stands, or zero if there is none. -/
def depthDigit? (s : List Mark) : Option (Nat × List Mark) :=
  match s with
  | m :: rest =>
    if m.char == '0' then none
    else if m.char.isDigit then some (m.char.toNat - '0'.toNat, rest)
    else some (0, s)
  | [] => some (0, s)

/-- What stands on the line of a block scalar's indicator: its chomping and its depth, in either
order. -/
def blockHeader? (s : List Mark) : Option (Chomping × Nat × List Mark) := do
  let (chomping, depth, rest) ←
    match chomping? s with
    | some (chomping, rest) => (depthDigit? rest).map fun (depth, rest) => (chomping, depth, rest)
    | none =>
      (depthDigit? s).map fun (depth, rest) =>
        match chomping? rest with
        | some (chomping, rest) => (chomping, depth, rest)
        | none => (.clip, depth, rest)
  (restOfLine? rest).map fun rest => (chomping, depth, rest)

/-- The blank lines at the head of a text, and the column that the deepest of them and the line
after them reach with their spaces. Spaces count as far as the given column, and all do if it is
zero; a tab must not take their place. -/
def blankLines? (column : Nat) : (fuel reached : Nat) → List Mark →
    Option (List Char × Nat × List Mark)
  | 0, _, _ => none
  | fuel + 1, reached, s =>
    let inside (m : Mark) : Bool := column == 0 || m.column < column
    match s.dropWhile fun m => inside m && m.char == ' ' with
    | [] => some ([], reached, [])
    | m :: rest =>
      let reached := max reached m.column
      if inside m && m.char == '\t' then none
      else if isBreak m.char then
        (blankLines? column fuel reached rest).map fun (breaks, reached, rest) =>
          (m.char :: breaks, reached, rest)
      else some ([], reached, m :: rest)

/-- What has been read of a block scalar: the text without the break that ended the last line and
without the blank lines after it, and whether that line began with a blank. -/
structure BlockText where
  text : List Char := []
  lineBreak : List Char := []
  blankLines : List Char := []
  afterBlank : Bool := false

namespace BlockText

/-- A further line. In a folded scalar the break before it stands for a space, or for the blank
lines if there are any, unless one of the two lines begins with a blank. -/
def addLine (folded : Bool) (line lineBreak blankLines : List Char) (b : BlockText) : BlockText :=
  let blank := line.head?.any isBlank
  let joint :=
    if folded && b.lineBreak == ['\n'] && !b.afterBlank && !blank then
      if b.blankLines.isEmpty then [' '] else b.blankLines
    else b.lineBreak ++ b.blankLines
  { text := b.text ++ joint ++ line, lineBreak, blankLines, afterBlank := blank }

def close (c : Chomping) (b : BlockText) : List Char :=
  match c with
  | .strip => b.text
  | .clip => b.text ++ b.lineBreak
  | .keep => b.text ++ b.lineBreak ++ b.blankLines

end BlockText

/-- The lines of a block scalar that stand at a column. -/
def blockLines? (folded : Bool) (column : Nat) : (fuel : Nat) → BlockText → List Mark →
    Option (BlockText × List Mark)
  | 0, _, _ => none
  | fuel + 1, b, s =>
    if s.head?.any fun m => m.column == column then do
      let (line, rest) := takeChars (fun c => !isBreak c) s
      let (blankLines, _, after) ← blankLines? column (s.length + 1) 0 (rest.drop 1)
      let b := b.addLine folded line ((rest.take 1).map Mark.char) blankLines
      blockLines? folded column fuel b after
    else some (b, s)

/-- A block scalar after its indicator, in a block of the given column. Its depth is told, or is
that of its first line. -/
def blockScalar? (folded : Bool) (indent : Int) (s : List Mark) :
    Option (List Char × List Mark) := do
  let (chomping, depth, rest) ← blockHeader? s
  let told := if depth = 0 then 0 else (max indent 0).toNat + depth
  let (blankLines, reached, rest) ← blankLines? told (s.length + 1) 0 rest
  let column := if told = 0 then max reached (max (indent + 1) 1).toNat else told
  let (b, rest) ← blockLines? folded column (s.length + 1) { blankLines } rest
  some (b.close chomping, rest)

/-! ## Names -/

/-- The characters of the names of anchors, tag handles and directives. -/
def isNameChar (c : Char) : Bool := c.isAlphanum || c == '_' || c == '-'

/-- The name of an anchor or an alias. -/
def anchorName? (s : List Mark) : Option (String × List Mark) :=
  let (name, rest) := takeChars isNameChar s
  if name.isEmpty || !(atBlank rest || headIs ("?:,]\x7d%@`".contains ·) rest) then none
  else some (String.ofList name, rest)

end TrainingLoop.Yaml
