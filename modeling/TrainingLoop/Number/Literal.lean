import TrainingLoop.Number.Binary
/-!
# Number literals

A decimal number as it is written: digits before and after a point and an exponent. `text` writes
a literal, `scan?` reads the longest one at the head of a text, and `toDouble` is the 64-bit number
nearest to it.
-/

namespace TrainingLoop

inductive ExponentSign where
  | unsigned
  | plus
  | minus
  deriving DecidableEq, Repr

def ExponentSign.text : ExponentSign → List Char
  | .unsigned => []
  | .plus => ['+']
  | .minus => ['-']

structure NumberLiteral where
  negative : Bool
  whole : List Char
  fraction : Option (List Char)
  exponent : Option (ExponentSign × List Char)
  deriving DecidableEq, Repr

namespace NumberLiteral

def text (l : NumberLiteral) : List Char :=
  (if l.negative then ['-'] else []) ++ l.whole ++
    (match l.fraction with
      | none => []
      | some digits => '.' :: digits) ++
    (match l.exponent with
      | none => []
      | some (sign, digits) => 'e' :: ExponentSign.text sign ++ digits)

def ofNat (n : Nat) : NumberLiteral := ⟨false, Nat.toDigits 10 n, none, none⟩

/-- The value of a row of decimal digits. -/
def digitsValue (digits : List Char) : Nat :=
  digits.foldl (fun n c => 10 * n + (c.toNat - '0'.toNat)) 0

def integer? (l : NumberLiteral) : Option Int :=
  if l.fraction.isSome || l.exponent.isSome then none
  else some (if l.negative then -(digitsValue l.whole : Int) else digitsValue l.whole)

def natural? (l : NumberLiteral) : Option Nat :=
  if l.negative || l.fraction.isSome || l.exponent.isSome then none
  else some (digitsValue l.whole)

def exponentValue (l : NumberLiteral) : Int :=
  match l.exponent with
  | none => 0
  | some (.minus, digits) => -(digitsValue digits : Int)
  | some (_, digits) => digitsValue digits

/-- The digits of the literal as one number, and the power of ten that they count. -/
def scientific (l : NumberLiteral) : Nat × Int :=
  let fraction := l.fraction.getD []
  (digitsValue (l.whole ++ fraction), l.exponentValue - fraction.length)

/-- The 64-bit number nearest to `digits * 10 ^ exponent`. Beyond the range of the format the
power is not computed. -/
def nearestDouble (digits : Nat) (exponent : Int) : Float :=
  let point := (Nat.toDigits 10 digits).length + exponent
  if digits = 0 ∨ point < -330 then 0.0
  else if 320 < point then 1.0 / 0.0
  else Float.ofScientific digits (exponent < 0) exponent.natAbs

def toDouble (l : NumberLiteral) : Float :=
  let magnitude := nearestDouble l.scientific.1 l.scientific.2
  if l.negative then -magnitude else magnitude

/-- The 32-bit number nearest to the 64-bit number nearest to a literal. -/
def toSingle (l : NumberLiteral) : Float32 := Double.narrow l.toDouble

def isDigit (c : Char) : Bool := '0' ≤ c && c ≤ '9'

def takeDigits (s : List Char) : List Char × List Char := (s.takeWhile isDigit, s.dropWhile isDigit)

/-- The exponent at the head of a text, if it has one. -/
def scanExponent (s : List Char) : Option (Option (ExponentSign × List Char) × List Char) :=
  match s with
  | c :: rest =>
    if c = 'e' ∨ c = 'E' then
      let (sign, rest) : ExponentSign × List Char :=
        match rest with
        | '+' :: rest => (.plus, rest)
        | '-' :: rest => (.minus, rest)
        | rest => (.unsigned, rest)
      let (digits, rest) := takeDigits rest
      if digits.isEmpty then none else some (some (sign, digits), rest)
    else some (none, s)
  | [] => some (none, [])

/-- The fraction at the head of a text, if it has one; a point needs a digit after it. -/
def scanFraction (s : List Char) : Option (Option (List Char) × List Char) :=
  match s with
  | '.' :: rest =>
    let (digits, rest) := takeDigits rest
    if digits.isEmpty then none else some (some digits, rest)
  | s => some (none, s)

/-- The literal at the head of a text: an optional minus sign, digits without a leading zero, and
optionally a fraction and an exponent. -/
def scan? (s : List Char) : Option (NumberLiteral × List Char) :=
  let (negative, s) : Bool × List Char :=
    match s with
    | '-' :: rest => (true, rest)
    | s => (false, s)
  let (whole, s) := takeDigits s
  if whole.isEmpty || (whole.head? == some '0' && whole.length != 1) then none
  else
    match scanFraction s with
    | none => none
    | some (fraction, s) =>
      match scanExponent s with
      | none => none
      | some (exponent, s) => some (⟨negative, whole, fraction, exponent⟩, s)

end NumberLiteral

end TrainingLoop
