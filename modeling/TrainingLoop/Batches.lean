/-!
# Training data

The batches of an epoch, which may have no end, and the feed that hands them out one by one. The
feed tells with each batch whether it is the last one, for which it asks for one batch ahead.
-/

namespace TrainingLoop

/-- What data say about their length: at least so many batches, and at most so many if known. -/
structure SizeHint where
  least : Nat
  most : Option Nat
  deriving DecidableEq, Repr

structure Batches (β : Type) where
  /-- The number of batches; none if they have no end. -/
  length : Option Nat
  item : Nat → β
  hint : SizeHint

namespace Batches

variable {β : Type}

def exact (length : Nat) (item : Nat → β) : Batches β := ⟨some length, item, ⟨length, some length⟩⟩

def endless (item : Nat → β) : Batches β := ⟨none, item, ⟨Nat.pow 2 64 - 1, none⟩⟩

/-- The number of batches, if the hint pins it down. -/
def knownLength (b : Batches β) : Option Nat :=
  if b.hint.most = some b.hint.least then some b.hint.least else none

def get? (b : Batches β) (i : Nat) : Option β :=
  match b.length with
  | none => some (b.item i)
  | some n => if i < n then some (b.item i) else none

def take (n : Nat) (b : Batches β) : Batches β :=
  { b with length := some (match b.length with
      | none => n
      | some m => min n m) }

/-- Every `n`-th batch, the first included. -/
def stepBy (n : Nat) (b : Batches β) : Batches β :=
  { b with
    length := b.length.map fun m => (m + n - 1) / n
    item := fun i => b.item (i * n) }

end Batches

structure Feed (β : Type) where
  batches : Batches β
  /-- How often the batches were asked for one. -/
  asked : Nat := 0
  /-- The answer to the question asked ahead, if one was. -/
  ahead : Option (Option β) := none
  handed : Nat := 0

structure Handed (β : Type) where
  index : Nat
  batch : β
  isLast : Bool

namespace Feed

variable {β : Type}

def ofBatches (batches : Batches β) : Feed β := { batches }

/-- The batches asked for the next one. -/
def ask (f : Feed β) : Option β × Feed β :=
  (f.batches.get? f.asked, { f with asked := f.asked + 1 })

/-- The next batch: the one that was looked at ahead, or else one asked for now. -/
def take (f : Feed β) : Option β × Feed β :=
  match f.ahead with
  | some batch => (batch, { f with ahead := none })
  | none => f.ask

/-- The next batch handed out, after a look at the one behind it. -/
def next (f : Feed β) : Option (Handed β) × Feed β :=
  match f.take with
  | (none, f) => (none, f)
  | (some batch, f) =>
    let (behind, f) := f.ask
    (some ⟨f.handed, batch, behind.isNone⟩,
      { f with ahead := some behind, handed := f.handed + 1 })

end Feed

end TrainingLoop
