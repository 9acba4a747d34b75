/-!
# Journals

Entries in the order in which they were made. Adding an entry takes constant time; `toList` is the
view that statements use.
-/

namespace TrainingLoop

structure Journal (α : Type u) where
  newestFirst : List α
  deriving DecidableEq, Repr

namespace Journal

variable {α : Type u}

def empty : Journal α := ⟨[]⟩

instance : Inhabited (Journal α) := ⟨empty⟩

instance : EmptyCollection (Journal α) := ⟨empty⟩

/-- The entries, oldest first. -/
def toList (j : Journal α) : List α := j.newestFirst.reverse

def push (j : Journal α) (entry : α) : Journal α := ⟨entry :: j.newestFirst⟩

def append (j : Journal α) (entries : List α) : Journal α := ⟨entries.reverse ++ j.newestFirst⟩

def size (j : Journal α) : Nat := j.newestFirst.length

def isEmpty (j : Journal α) : Bool := j.newestFirst.isEmpty

@[simp] theorem toList_empty : (empty : Journal α).toList = [] := rfl

@[simp] theorem toList_push (j : Journal α) (entry : α) :
    (j.push entry).toList = j.toList ++ [entry] := by
  simp [toList, push]

@[simp] theorem length_toList (j : Journal α) : j.toList.length = j.size := by
  simp [toList, size]

end Journal

end TrainingLoop
