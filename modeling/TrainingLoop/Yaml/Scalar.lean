import TrainingLoop.Number.Literal
import TrainingLoop.Yaml.Token
/-!
# The meaning of scalars

What the text of a plain scalar stands for: null, a truth value, an integer with a sign and a base,
a real number, or else itself. A scalar of any other style stands for its text, unless a tag says
what it is.
-/

namespace TrainingLoop.Yaml

/-- What a scalar stands for; `negative n` is `-n`, with a positive `n`. -/
inductive ScalarValue where
  | null
  | bool (b : Bool)
  | natural (n : Nat)
  | negative (n : Nat)
  /-- An integer of more than 64 bits and at most 128. -/
  | wide
  | real (x : Float)
  | text (s : String)
  deriving DecidableEq

namespace ScalarValue

def isNullText (s : String) : Bool :=
  s == "" || s == "~" || s == "null" || s == "Null" || s == "NULL"

def boolOfText? (s : String) : Option Bool :=
  if s == "true" || s == "True" || s == "TRUE" then some true
  else if s == "false" || s == "False" || s == "FALSE" then some false
  else none

/-- The number that digits of a base stand for; there must be one at least. -/
def digits? (base : Nat) : List Char → Option Nat
  | [] => none
  | cs => cs.foldl (fun n c => do
      let n ← n
      let d ← hexDigit? c
      if d < base then some (base * n + d) else none) (some 0)

/-- Digits with a leading zero are no decimal number. -/
def hasLeadingZero (digits : List Char) : Bool :=
  1 < digits.length && digits.head? == some '0' && digits.all NumberLiteral.isDigit

/-- A number without a sign: decimal, or of the base that its first two characters tell. -/
def magnitude? (cs : List Char) : Option Nat :=
  match cs with
  | '0' :: 'x' :: rest => digits? 16 rest
  | '0' :: 'o' :: rest => digits? 8 rest
  | '0' :: 'b' :: rest => digits? 2 rest
  | cs => if hasLeadingZero cs then none else digits? 10 cs

def withoutPlus : List Char → List Char
  | '+' :: rest => rest
  | cs => cs

def withoutSign : List Char → List Char
  | '-' :: rest => rest
  | cs => withoutPlus cs

/-- A natural number below a limit, with or without a plus sign. -/
def naturalOfText? (limit : Nat) (cs : List Char) : Option Nat :=
  (magnitude? (withoutPlus cs)).filter (· < limit)

/-- The magnitude of an integer with a minus sign, up to a limit. -/
def negativeOfText? (limit : Nat) : List Char → Option Nat
  | '-' :: rest => (magnitude? rest).filter (· ≤ limit)
  | _ => none

/-- The literal of a real number. Digits may be left out on one side of its point. -/
def literal? (cs : List Char) : Option NumberLiteral :=
  let (minus, cs) : Bool × List Char :=
    match cs with
    | '-' :: rest => (true, rest)
    | cs => (false, cs)
  let (whole, cs) := NumberLiteral.takeDigits cs
  let (fraction, cs) : Option (List Char) × List Char :=
    match cs with
    | '.' :: rest =>
      let (digits, rest) := NumberLiteral.takeDigits rest
      (some digits, rest)
    | cs => (none, cs)
  if whole.isEmpty && (fraction.getD []).isEmpty then none
  else
    match NumberLiteral.scanExponent cs with
    | some (exponent, []) => some ⟨minus, whole, fraction, exponent⟩
    | _ => none

/-- The real number that a text stands for. The special values have words of their own, and a
number beyond the range of the format is none. -/
def realOfText? (s : String) : Option Float :=
  if s == ".nan" || s == ".NaN" || s == ".NAN" then some (0.0 / 0.0)
  else if s == "-.inf" || s == "-.Inf" || s == "-.INF" then some (-1.0 / 0.0)
  else
    let unsigned := withoutPlus s.toList
    if [".inf", ".Inf", ".INF"].contains (String.ofList unsigned) then some (1.0 / 0.0)
    else if s.toList.length != unsigned.length && unsigned.head? == some '-' then none
    else ((literal? unsigned).map NumberLiteral.toDouble).filter Float.isFinite

def integerOfText? (cs : List Char) : Option ScalarValue :=
  match naturalOfText? (Nat.pow 2 64) cs, negativeOfText? (Nat.pow 2 63) cs with
  | some n, _ => some (natural n)
  | none, some 0 => some (natural 0)
  | none, some n => some (negative n)
  | none, none =>
    let isWide := (naturalOfText? (Nat.pow 2 128) cs).isSome ||
      (negativeOfText? (Nat.pow 2 127) cs).isSome
    if isWide then some wide else none

def ofPlain (s : String) : ScalarValue :=
  if isNullText s then null
  else
    let value := ((boolOfText? s).map bool).or (integerOfText? s.toList)
    if hasLeadingZero (withoutSign s.toList) then value.getD (text s)
    else (value.or ((realOfText? s).map real)).getD (text s)

/-- What a scalar stands for. One with a tag must be what the tag says; the types of applications
are none here, and a tag without a name says nothing of a plain scalar. -/
def ofScalar? (tag : Option TagMeaning) (style : ScalarStyle) (s : String) : Option ScalarValue :=
  let untagged := if style = .plain then ofPlain s else text s
  match tag with
  | none => some untagged
  | some .null => if s != "" && isNullText s then some null else none
  | some .bool => (boolOfText? s).map bool
  | some .integer => integerOfText? s.toList
  | some .real => (realOfText? s).map real
  | some (.own _) => none
  | some .nameless => some untagged
  | some .other => some (text s)

end ScalarValue

end TrainingLoop.Yaml
