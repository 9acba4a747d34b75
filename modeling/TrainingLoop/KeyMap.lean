/-!
# Maps with text keys

A finite map from texts, kept as a list of entries in ascending key order. The order is part of the
type, so two maps with the same look-ups are equal, and the entries come out in the order in which
reports list them.
-/

namespace TrainingLoop

/-- A finite map with text keys; the entries stand in ascending key order. -/
@[ext] structure KeyMap (α : Type u) where
  entries : List (String × α)
  ascending : entries.Pairwise (fun a b => a.1 < b.1)

namespace KeyMap

variable {α : Type u} {β : Type v}

def empty : KeyMap α := ⟨[], .nil⟩

instance : Inhabited (KeyMap α) := ⟨empty⟩

instance : EmptyCollection (KeyMap α) := ⟨empty⟩

instance [DecidableEq α] : DecidableEq (KeyMap α) := fun a b =>
  decidable_of_iff (a.entries = b.entries) ⟨fun h => KeyMap.ext h, fun h => h ▸ rfl⟩

/-- The entries with `key` bound to `value`, at its place in the order. -/
def insertEntry (key : String) (value : α) : List (String × α) → List (String × α)
  | [] => [(key, value)]
  | (k, v) :: rest =>
    if key < k then (key, value) :: (k, v) :: rest
    else if key = k then (key, value) :: rest
    else (k, v) :: insertEntry key value rest

theorem mem_insertEntry {key : String} {value : α} {entry : String × α}
    {entries : List (String × α)} (h : entry ∈ insertEntry key value entries) :
    entry = (key, value) ∨ entry ∈ entries := by
  induction entries with
  | nil => exact .inl (by simpa [insertEntry] using h)
  | cons head rest ih =>
    obtain ⟨k, v⟩ := head
    unfold insertEntry at h
    split at h
    · simpa using h
    · split at h
      · rcases List.mem_cons.1 h with h | h
        · exact .inl h
        · exact .inr (List.mem_cons_of_mem _ h)
      · rcases List.mem_cons.1 h with h | h
        · exact .inr (h ▸ List.mem_cons_self)
        · exact (ih h).imp id (List.mem_cons_of_mem _)

theorem insertEntry_pairwise {key : String} {value : α} {entries : List (String × α)}
    (h : entries.Pairwise (fun a b => a.1 < b.1)) :
    (insertEntry key value entries).Pairwise (fun a b => a.1 < b.1) := by
  induction entries with
  | nil => simp [insertEntry]
  | cons head rest ih =>
    obtain ⟨k, v⟩ := head
    obtain ⟨hk, hrest⟩ := List.pairwise_cons.1 h
    unfold insertEntry
    split
    next lt =>
      refine List.pairwise_cons.2 ⟨fun entry hmem => ?_, h⟩
      rcases List.mem_cons.1 hmem with rfl | hmem
      · exact lt
      · exact String.lt_trans lt (hk entry hmem)
    next notLt =>
      split
      next eq => exact List.pairwise_cons.2 ⟨fun entry hmem => eq ▸ hk entry hmem, hrest⟩
      next ne =>
        refine List.pairwise_cons.2 ⟨fun entry hmem => ?_, ih hrest⟩
        rcases mem_insertEntry hmem with rfl | hmem
        · rcases Std.lt_trichotomy key k with lt | eq | gt
          · exact absurd lt notLt
          · exact absurd eq ne
          · exact gt
        · exact hk entry hmem

def insert (m : KeyMap α) (key : String) (value : α) : KeyMap α :=
  ⟨insertEntry key value m.entries, insertEntry_pairwise m.ascending⟩

def get? (m : KeyMap α) (key : String) : Option α :=
  (m.entries.find? (fun entry => entry.1 == key)).map (·.2)

@[simp] theorem get?_empty (k : String) : (empty : KeyMap α).get? k = none := rfl

theorem find?_insertEntry (key : String) (value : α) (k : String) (entries : List (String × α)) :
    (insertEntry key value entries).find? (fun entry => entry.1 == k) =
      if key = k then some (key, value) else entries.find? (fun entry => entry.1 == k) := by
  induction entries with
  | nil => by_cases h : key = k <;> simp [insertEntry, h]
  | cons head rest ih =>
    obtain ⟨first, v⟩ := head
    unfold insertEntry
    split
    · by_cases h : key = k <;> simp [h]
    · split
      next eq => subst eq; by_cases h : key = k <;> simp [h]
      next ne =>
        by_cases h : first = k
        · subst h; simp [ne]
        · simp [h, ih]

theorem get?_insert (m : KeyMap α) (key : String) (value : α) (k : String) :
    (m.insert key value).get? k = if key = k then some value else m.get? k := by
  unfold get? insert
  rw [find?_insertEntry]
  split <;> rfl

def contains (m : KeyMap α) (key : String) : Bool := (m.get? key).isSome

def erase (m : KeyMap α) (key : String) : KeyMap α :=
  ⟨m.entries.filter (fun entry => entry.1 != key), m.ascending.filter _⟩

/-- The value of a key changed by `f`, which is told what the key holds so far. -/
def alter (m : KeyMap α) (key : String) (f : Option α → α) : KeyMap α :=
  m.insert key (f (m.get? key))

def keys (m : KeyMap α) : List String := m.entries.map (·.1)

def size (m : KeyMap α) : Nat := m.entries.length

def isEmpty (m : KeyMap α) : Bool := m.entries.isEmpty

def insertAll (m : KeyMap α) (entries : List (String × α)) : KeyMap α :=
  entries.foldl (fun m entry => m.insert entry.1 entry.2) m

def ofList (entries : List (String × α)) : KeyMap α := empty.insertAll entries

/-- The second map laid over the first. -/
def merge (m n : KeyMap α) : KeyMap α := m.insertAll n.entries

def mapValues (f : α → β) (m : KeyMap α) : KeyMap β :=
  ⟨m.entries.map fun entry => (entry.1, f entry.2), by
    rw [List.pairwise_map]
    exact m.ascending⟩

end KeyMap

abbrev Metrics := KeyMap Float32

end TrainingLoop
