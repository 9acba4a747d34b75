import TrainingLoop.Document.Basic
import TrainingLoop.Text.Inspect
import TrainingLoop.Yaml.Scalar
/-!
# Writing YAML text

A document in block style. A text is written plain where that reads back as the same text, else in
single quotes, and in double quotes if it holds characters that need an escape; one with line feeds
is written as a literal block. A key that is long or has line breaks is announced by a question
mark.
-/

namespace TrainingLoop.Yaml

def numbers : NumberForm where
  single x :=
    match Single.decode x with
    | .finite negative m q => .number (NumberLayout.yamlSingle.literal .single negative m q)
    | value => .special (NumberLayout.yamlSingle.value .single value)
  double x :=
    match Double.decode x with
    | .finite negative m q => .number (NumberLayout.yamlDouble.literal .double negative m q)
    | value => .special (NumberLayout.yamlDouble.value .double value)

/-- The plain text stands for something else, or looks like a number with a zero put before it. -/
def isAmbiguous (s : String) : Bool :=
  ScalarValue.ofPlain s != .text s ||
    ScalarValue.hasLeadingZero (ScalarValue.withoutSign s.toList)

/-- The characters that are written as they are. -/
def isPrinted (c : Char) : Bool :=
  c = '\n' || (0x20 ≤ c.toNat && c.toNat ≤ 0x7e) || (0xa0 ≤ c.toNat && c.toNat < 0xd800) ||
    (0xe000 ≤ c.toNat && c.toNat ≤ 0xfffd && c ≠ byteOrderMark) || 0x10000 ≤ c.toNat

/-- The plain form of a text would read as something else than a scalar: it begins with an
indicator, or holds a colon before a blank or a number sign after one. -/
def hasIndicator : List Char → Bool
  | [] => false
  | c :: rest =>
    let blankNext (s : List Char) : Bool := s.headD ' ' == ' '
    let rec inside : List Char → Bool
      | [] => false
      | ':' :: rest => blankNext rest || inside rest
      | ' ' :: '#' :: _ => true
      | _ :: rest => inside rest
    "#,[]\x7b\x7d&*!|>'\"%@`".contains c || ("?:-".contains c && blankNext rest) ||
      inside (c :: rest)

/-- A blank or a break stands at either end. -/
def hasBareEnd (s : List Char) : Bool :=
  s.head?.any isBlankOrBreak || s.getLast?.any isBlankOrBreak

def startsLikeMarker (s : String) : Bool := s.startsWith "---" || s.startsWith "..."

/-- A character of one class stands right before one of another. -/
def hasPair (first second : Char → Bool) : List Char → Bool
  | a :: b :: rest => (first a && second b) || hasPair first second (b :: rest)
  | _ => false

/-- A space stands before a line break, which only escapes keep. -/
def hasSpaceBeforeBreak (s : List Char) : Bool := hasPair (· == ' ') isBreak s

/-- A space stands after a line break, where quotes take it for indentation. -/
def hasSpaceAfterBreak (s : List Char) : Bool := hasPair isBreak (· == ' ') s

def escapedChar (c : Char) : List Char :=
  let upperHex (digits : Nat) : List Char :=
    let text := (Nat.toDigits 16 c.toNat).map Char.toUpper
    List.replicate (digits - text.length) '0' ++ text
  let letters : List (Char × Char) :=
    [('\x00', '0'), ('\x07', 'a'), ('\x08', 'b'), ('\t', 't'), ('\n', 'n'), ('\x0b', 'v'),
      ('\x0c', 'f'), ('\r', 'r'), ('\x1b', 'e'), ('"', '"'), ('\\', '\\'), ('\u0085', 'N'),
      ('\u2028', 'L'), ('\u2029', 'P')]
  match letters.lookup c with
  | some letter => ['\\', letter]
  | none =>
    if isPrinted c then [c]
    else if c.toNat ≤ 0xff then '\\' :: 'x' :: upperHex 2
    else if c.toNat ≤ 0xffff then '\\' :: 'u' :: upperHex 4
    else '\\' :: 'U' :: upperHex 8

def doubleQuoted (s : List Char) : List Char := '"' :: s.flatMap escapedChar ++ ['"']

def singleQuoted (s : List Char) : List Char :=
  '\'' :: s.flatMap (fun c => if c = '\'' then ['\'', '\''] else [c]) ++ ['\'']

/-! ## Lines -/

/-- A line with the character that ends it. -/
structure Line where
  text : String
  ending : Char
  deriving DecidableEq, Repr

/-- The lines of a text whose first line goes on with characters after those given, the nearest of
them first. The last line is ended by a line feed that is not part of the text. -/
def linesFrom (before : List Char) : List Char → List Line
  | [] => [⟨String.ofList before.reverse, '\n'⟩]
  | c :: rest =>
    if isBreak c then ⟨String.ofList before.reverse, c⟩ :: linesFrom [] rest
    else linesFrom (c :: before) rest

def splitLines (s : List Char) : List Line := linesFrom [] s

namespace Line

/-- A line moved right; an empty one stays empty. -/
def indented (l : Line) : Line := if l.text.isEmpty then l else { l with text := "  " ++ l.text }

/-- Lines behind a mark, which all but the first stand below. -/
def behind (mark : String) : List Line → List Line
  | [] => [⟨mark, '\n'⟩]
  | first :: more => { first with text := mark ++ " " ++ first.text } :: more.map indented

end Line

/-! ## Texts -/

/-- A text that is no block. -/
def inlineText (isKey : Bool) (s : String) : List Line :=
  let cs := s.toList
  splitLines <|
    if cs.any (fun c => !isPrinted c || c == '\n') || hasSpaceBeforeBreak cs ||
        hasSpaceAfterBreak cs then doubleQuoted cs
    else if isAmbiguous s || hasBareEnd cs || cs.any isBreak || hasIndicator cs ||
        startsLikeMarker s || (isKey && cs.isEmpty) then singleQuoted cs
    else cs

/-- A text with line feeds can be written as a literal block. -/
def fitsLiteral (s : List Char) : Bool :=
  s.contains '\n' && s.all isPrinted && !hasSpaceBeforeBreak s && s.getLast? != some ' '

/-- The heading of a literal block: whether its indentation has to be told, and what becomes of the
breaks at its end. -/
def literalHeading (s : List Char) : String :=
  let indentation := if s.head?.any fun c => c == ' ' || isBreak c then "2" else ""
  let ending :=
    match s.reverse with
    | [] => "-"
    | last :: before =>
      if !isBreak last then "-"
      else if before.head?.all isBreak then "+"
      else ""
  "|" ++ indentation ++ ending

/-- The lines of a literal block. A break at the end of the text ends the last of them. -/
def literalLines (s : List Char) : List Line :=
  if s.getLast?.any isBreak then (splitLines s).dropLast else splitLines s

/-- The lines of a text: a block if it has line feeds. -/
def textLines (s : String) : List Line :=
  if fitsLiteral s.toList then ⟨literalHeading s.toList, '\n'⟩ :: literalLines s.toList
  else inlineText false s

/-! ## Documents -/

/-- The most octets of a key that need not be announced. -/
def simpleKeyLimit : Nat := 128

def isSimpleKey (name : String) : Bool :=
  name.utf8ByteSize ≤ simpleKeyLimit &&
    name.toList.all fun c => !(isBreak c || c == '\r' || c == '\u0085')

/-- The lines of a field with a simple key, from those of its value. A list stands below its key in
the same column, a record two further; of anything else the first line stands behind the key. -/
def simpleFieldLines (name : String) (value : Document) (below : List Line) : List Line :=
  let key := String.join ((inlineText true name).map Line.text) ++ ":"
  match value with
  | .list (_ :: _) => ⟨key, '\n'⟩ :: below
  | .record (_ :: _) => ⟨key, '\n'⟩ :: below.map Line.indented
  | _ => Line.behind key below

def fieldLines (name : String) (value : Document) (below : List Line) : List Line :=
  if isSimpleKey name then simpleFieldLines name value below
  else Line.behind "?" (textLines name) ++ Line.behind ":" below

mutual

def lines : Document → List Line
  | .null => [⟨"null", '\n'⟩]
  | .bool b => [⟨Inspect.bool b, '\n'⟩]
  | .number literal => [⟨String.ofList literal.text, '\n'⟩]
  | .special word => [⟨word, '\n'⟩]
  | .text s => textLines s
  | .list [] => [⟨"[]", '\n'⟩]
  | .list (item :: rest) => listLines (item :: rest)
  | .record [] => [⟨"\x7b\x7d", '\n'⟩]
  | .record (field :: rest) => recordLines (field :: rest)

def listLines : List Document → List Line
  | [] => []
  | item :: rest => Line.behind "-" (lines item) ++ listLines rest

def recordLines : List (String × Document) → List Line
  | [] => []
  | (name, value) :: rest => fieldLines name value (lines value) ++ recordLines rest

end

def print (d : Document) : String := String.join ((lines d).map fun l => l.text.push l.ending)

end TrainingLoop.Yaml
