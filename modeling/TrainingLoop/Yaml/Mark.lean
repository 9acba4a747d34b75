/-!
# Marked characters

The characters of a YAML stream with their places, and the classes that its rules speak of. Line
breaks are single characters here: a carriage return, alone or with its line feed, and the next-line
character count as a line feed.
-/

namespace TrainingLoop.Yaml

/-- A character with its place. -/
structure Mark where
  char : Char
  line : Nat
  /-- The characters before it on its line. -/
  column : Nat
  /-- The octets that these characters take in UTF-8. -/
  octet : Nat
  deriving DecidableEq, Repr

def isAllowed (c : Char) : Bool :=
  c = '\t' || c = '\n' || c = '\r' || (0x20 ≤ c.toNat && c.toNat ≤ 0x7e) || c.toNat = 0x85 ||
    (0xa0 ≤ c.toNat && c.toNat ≤ 0xfffd) || 0x10000 ≤ c.toNat

def byteOrderMark : Char := '\ufeff'

def isBreak (c : Char) : Bool := c = '\n' || c = '\u2028' || c = '\u2029'

def isBlank (c : Char) : Bool := c = ' ' || c = '\t'

def isBlankOrBreak (c : Char) : Bool := isBlank c || isBreak c

/-- All line breaks made single characters. -/
def normalizeBreaks : List Char → List Char
  | [] => []
  | '\r' :: '\n' :: rest => '\n' :: normalizeBreaks rest
  | '\r' :: rest => '\n' :: normalizeBreaks rest
  | '\u0085' :: rest => '\n' :: normalizeBreaks rest
  | c :: rest => c :: normalizeBreaks rest

/-- The places of characters, of which the first has the given one. -/
def marksFrom (line column octet : Nat) : List Char → List Mark
  | [] => []
  | c :: rest =>
    ⟨c, line, column, octet⟩ ::
      (if isBreak c then marksFrom (line + 1) 0 0 rest
      else marksFrom line (column + 1) (octet + c.utf8Size) rest)

/-- The marked characters of a stream; none if it holds a character that it may not hold. -/
def marks? (text : String) : Option (List Mark) :=
  let chars := text.toList
  if chars.all isAllowed then some (marksFrom 0 0 0 (normalizeBreaks chars)) else none

/-- The next character, if there is one, has the property. -/
def headIs (p : Char → Bool) : List Mark → Bool
  | [] => false
  | m :: _ => p m.char

/-- A blank, a line break or the end comes next. -/
def atBlank : List Mark → Bool
  | [] => true
  | m :: _ => isBlankOrBreak m.char

/-- Three times the given character at the start of a line, and nothing joined to them. -/
def atTriple (c : Char) : List Mark → Bool
  | a :: b :: d :: rest =>
    a.column == 0 && a.char == c && b.char == c && d.char == c && atBlank rest
  | _ => false

def atDocumentMarker (s : List Mark) : Bool := atTriple '-' s || atTriple '.' s

/-- The blanks and breaks at the head of a text, and what follows. -/
def takeBlanks (s : List Mark) : List Mark × List Mark :=
  (s.takeWhile fun m => isBlankOrBreak m.char, s.dropWhile fun m => isBlankOrBreak m.char)

/-- The text that blanks inside of a scalar stand for. Blanks on one line stand for themselves.
Around a line break they vanish, and the break stands for a space, or for the further breaks if
there are any. An escaped break stands for nothing. -/
def foldBlanks (escapedBreak : Bool) (blanks : List Mark) : List Char :=
  let breaks := (blanks.map Mark.char).filter isBreak
  if escapedBreak then breaks
  else
    match breaks with
    | [] => blanks.map Mark.char
    | ['\n'] => [' ']
    | '\n' :: more => more
    | breaks => breaks

end TrainingLoop.Yaml
