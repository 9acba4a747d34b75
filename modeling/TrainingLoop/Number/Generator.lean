/-!
# The noise generator

A stream of 32-bit words from a 64-bit seed: the ChaCha block function with twelve rounds, its key
expanded from the seed. Words are used in order, and `unit` maps one to the interval `[0, 1)`.
-/

namespace TrainingLoop

abbrev Block := List UInt32

namespace Block

def rotateLeft (x : UInt32) (n : UInt32) : UInt32 := (x <<< n) ||| (x >>> (32 - n))

/-- The mixing of four words. -/
def quarter (a b c d : UInt32) : UInt32 × UInt32 × UInt32 × UInt32 :=
  let a := a + b
  let d := rotateLeft (d ^^^ a) 16
  let c := c + d
  let b := rotateLeft (b ^^^ c) 12
  let a := a + b
  let d := rotateLeft (d ^^^ a) 8
  let c := c + d
  let b := rotateLeft (b ^^^ c) 7
  (a, b, c, d)

/-- Two rounds: the columns of the four by four block, then its diagonals. -/
def doubleRound : Block → Block
  | [x0, x1, x2, x3, x4, x5, x6, x7, x8, x9, x10, x11, x12, x13, x14, x15] =>
    let (x0, x4, x8, x12) := quarter x0 x4 x8 x12
    let (x1, x5, x9, x13) := quarter x1 x5 x9 x13
    let (x2, x6, x10, x14) := quarter x2 x6 x10 x14
    let (x3, x7, x11, x15) := quarter x3 x7 x11 x15
    let (x0, x5, x10, x15) := quarter x0 x5 x10 x15
    let (x1, x6, x11, x12) := quarter x1 x6 x11 x12
    let (x2, x7, x8, x13) := quarter x2 x7 x8 x13
    let (x3, x4, x9, x14) := quarter x3 x4 x9 x14
    [x0, x1, x2, x3, x4, x5, x6, x7, x8, x9, x10, x11, x12, x13, x14, x15]
  | other => other

/-- The block before mixing: four constants, the key, the block number in two words, two zeros. -/
def initial (key : List UInt32) (number : UInt64) : Block :=
  ([0x61707865, 0x3320646e, 0x79622d32, 0x6b206574] : Block) ++ key ++
    [number.toUInt32, (number >>> 32).toUInt32, 0, 0]

/-- A keystream block: six double rounds of the initial block, added to it. -/
def keystream (key : List UInt32) (number : UInt64) : Block :=
  let start := initial key number
  List.zipWith (· + ·) (Nat.repeat doubleRound 6 start) start

end Block

/-- The state of a stream: its key, the number of the next block, and the words of the current
block that are not used yet. -/
structure Generator where
  key : List UInt32
  nextBlock : UInt64
  pending : List UInt32
  deriving DecidableEq, Repr

namespace Generator

/-- One step of the congruential sequence that expands a seed. -/
def expandState (s : UInt64) : UInt64 := s * 6364136223846793005 + 11634580027462260723

/-- The word that a state of that sequence gives: a shifted value rotated by the state's top
bits. -/
def expandWord (s : UInt64) : UInt32 :=
  let x := (((s >>> 18) ^^^ s) >>> 27).toUInt32
  let rotation := (s >>> 59).toUInt32
  (x >>> rotation) ||| (x <<< (32 - rotation))

/-- The given number of key words after a state. -/
def keyWords : Nat → UInt64 → List UInt32
  | 0, _ => []
  | n + 1, s =>
    let s := expandState s
    expandWord s :: keyWords n s

def ofSeed (seed : UInt64) : Generator := ⟨keyWords 8 seed, 0, []⟩

def next (g : Generator) : UInt32 × Generator :=
  match g.pending with
  | word :: rest => (word, { g with pending := rest })
  | [] =>
    match Block.keystream g.key g.nextBlock with
    | word :: rest => (word, { g with nextBlock := g.nextBlock + 1, pending := rest })
    | [] => (0, g)

/-- A number in `[0, 1)`: the top 24 bits of a word, scaled. -/
def unit (g : Generator) : Float32 × Generator :=
  let (word, g) := g.next
  ((word >>> 8).toFloat32 * Float32.ofBits 0x33800000, g)

end Generator

end TrainingLoop
