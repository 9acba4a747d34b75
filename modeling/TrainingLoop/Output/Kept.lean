import TrainingLoop.Output.Tree
/-!
# Kept outputs

The outputs that an epoch keeps for its end. A batch's results are kept where something will use
them: the last split asks for reduction, or the model consumes the epoch's outputs itself. All
others are dropped at once, so a long epoch stays small.
-/

namespace TrainingLoop

/-- For each optimizer the entries kept so far, in batch order. -/
structure KeptOutputs where
  buckets : List (List BatchEntry)
  deriving DecidableEq

namespace KeptOutputs

def empty : KeptOutputs := ⟨[]⟩

def ofOptimizers (count : Nat) : KeptOutputs := ⟨List.replicate count []⟩

/-- An entry added to the bucket of an optimizer; missing buckets are made. -/
def pushBucket (entry : BatchEntry) : (optimizer : Nat) → List (List BatchEntry) →
    List (List BatchEntry)
  | 0, [] => [[entry]]
  | 0, bucket :: rest => (bucket ++ [entry]) :: rest
  | optimizer + 1, [] => [] :: pushBucket entry optimizer []
  | optimizer + 1, bucket :: rest => bucket :: pushBucket entry optimizer rest

def push (k : KeptOutputs) (optimizer : Nat) (entry : BatchEntry) : KeptOutputs :=
  ⟨pushBucket entry optimizer k.buckets⟩

/-- The entries of another batch's buckets added after this one's. -/
def extendFrom (optimizer : Nat) : KeptOutputs → List (List BatchEntry) → KeptOutputs
  | k, [] => k
  | k, entries :: rest =>
    extendFrom (optimizer + 1) (entries.foldl (fun k entry => k.push optimizer entry) k) rest

def extend (k other : KeptOutputs) : KeptOutputs := extendFrom 0 k other.buckets

def bucket (k : KeptOutputs) (optimizer : Nat) : List BatchEntry := k.buckets.getD optimizer []

def size (k : KeptOutputs) : Nat := k.buckets.flatten.length

def isEmpty (k : KeptOutputs) : Bool := k.size == 0

def tree (k : KeptOutputs) : OutputTree := ⟨k.buckets⟩

/-- The entry to keep of one optimizer's results of a batch. A single plain result is kept bare. -/
def entryOf (results : List StepResult) : BatchEntry :=
  match results with
  | [only] => if only.isReducible then .splits results else .single only
  | _ => .splits results

/-- Whether one optimizer's results of a batch are kept. -/
def keeps (modelReduces : Bool) (results : List StepResult) : Bool :=
  match results.getLast? with
  | none => false
  | some last => modelReduces || last.reduces

/-- The results of a batch that are to be kept, from the given optimizer on, and their number. -/
def trackFrom (modelReduces : Bool) (optimizer : Nat) : KeptOutputs → BatchResults →
    KeptOutputs × Nat
  | k, [] => (k, 0)
  | k, results :: rest =>
    if keeps modelReduces results then
      let k := k.push optimizer (entryOf results)
      let (k, count) := trackFrom modelReduces (optimizer + 1) k rest
      (k, count + 1)
    else trackFrom modelReduces (optimizer + 1) k rest

/-- A batch's results taken in; gives the number of entries kept too. -/
def track (modelReduces : Bool) (k : KeptOutputs) (results : BatchResults) : KeptOutputs × Nat :=
  trackFrom modelReduces 0 k results

end KeptOutputs

end TrainingLoop
