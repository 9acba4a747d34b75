import Mathlib.Data.List.Sort
import TrainingLoop.KeyMap
/-!
# Look-ups in maps

What a map holds under a key after a fold over a list of entries depends on the values that stand
under the key in that list (`KeyMap.valuesOf`), in their order: the last of them where entries are
inserted, and all of them where they alter the map. A map is known by its look-ups (`ext_get?`).
-/

namespace TrainingLoop

namespace KeyMap

variable {α β γ : Type} {key : String}

theorem isEmpty_insert (m : KeyMap α) (key : String) (value : α) :
    (m.insert key value).isEmpty = false := by
  obtain ⟨entries, hascending⟩ := m
  cases entries with
  | nil => rfl
  | cons head rest =>
      simp only [insert, isEmpty, insertEntry]
      split
      · rfl
      · split <;> rfl

theorem isEmpty_mapValues (f : α → γ) (m : KeyMap α) : (m.mapValues f).isEmpty = m.isEmpty :=
  List.isEmpty_map

theorem isEmpty_foldl_alter {entries : List (String × γ)} {f : String × γ → Option α → α}
    (m : KeyMap α) :
    (entries.foldl (fun m entry => m.alter entry.1 (f entry)) m).isEmpty =
      (m.isEmpty && entries.isEmpty) := by
  induction entries generalizing m with
  | nil => exact (Bool.and_true _).symm
  | cons entry entries ih =>
      rw [List.foldl_cons, ih, alter, isEmpty_insert, List.isEmpty_cons, Bool.false_and,
        Bool.and_false]

/-! ## The values under a key -/

def valuesOf (key : String) (entries : List (String × α)) : List α :=
  entries.filterMap fun entry => if entry.1 = key then some entry.2 else none

theorem valuesOf_cons (key : String) (entry : String × α) (entries : List (String × α)) :
    valuesOf key (entry :: entries) =
      (if entry.1 = key then [entry.2] else []) ++ valuesOf key entries := by
  by_cases h : entry.1 = key <;> simp [valuesOf, h]

theorem valuesOf_eq_nil {entries : List (String × α)} :
    valuesOf key entries = [] ↔ ∀ entry ∈ entries, entry.1 ≠ key := by
  simp [valuesOf, List.filterMap_eq_nil_iff]

theorem valuesOf_entries (key : String) (m : KeyMap α) :
    valuesOf key m.entries = (m.get? key).toList := by
  obtain ⟨entries, hascending⟩ := m
  rw [get?]
  induction entries with
  | nil => rfl
  | cons entry entries ih =>
      obtain ⟨hfirst, hrest⟩ := List.pairwise_cons.1 hascending
      rw [valuesOf_cons]
      by_cases hkey : entry.1 = key
      · have hnone : valuesOf key entries = [] :=
          valuesOf_eq_nil.2 fun other hother heq =>
            String.lt_irrefl key (by simpa [hkey, heq] using hfirst other hother)
        simp [hnone, hkey]
      · rw [ih hrest, if_neg hkey, List.nil_append]
        simp [hkey]

theorem valuesOf_flatMap_entries (key : String) (ms : List (KeyMap α)) :
    valuesOf key (ms.flatMap entries) = ms.filterMap (·.get? key) := by
  induction ms with
  | nil => rfl
  | cons m ms ih =>
      rw [List.flatMap_cons, valuesOf, List.filterMap_append, ← valuesOf, ← valuesOf, ih,
        valuesOf_entries, List.filterMap_cons]
      cases m.get? key <;> rfl

/-! ## Look-ups -/

theorem get?_insertAll (m : KeyMap α) (entries : List (String × α)) (key : String) :
    (m.insertAll entries).get? key = (valuesOf key entries).getLast?.or (m.get? key) := by
  induction entries generalizing m with
  | nil => rfl
  | cons entry entries ih =>
      rw [insertAll, List.foldl_cons, ← insertAll, ih, get?_insert, valuesOf_cons]
      by_cases hkey : entry.1 = key
      · rw [if_pos hkey, if_pos hkey, List.singleton_append, List.getLast?_cons]
        cases (valuesOf key entries).getLast? <;> rfl
      · rw [if_neg hkey, if_neg hkey, List.nil_append]

/-- Of a map laid over another one the entries of the upper map are seen first. -/
theorem get?_merge (m n : KeyMap α) (key : String) :
    (m.merge n).get? key = (n.get? key).or (m.get? key) := by
  rw [merge, get?_insertAll, valuesOf_entries]
  cases n.get? key <;> rfl

theorem get?_ofList (entries : List (String × α)) (key : String) :
    (ofList entries).get? key = (valuesOf key entries).getLast? := by
  rw [ofList, get?_insertAll, get?_empty, Option.or_none]

theorem get?_mapValues (f : α → β) (m : KeyMap α) (key : String) :
    (m.mapValues f).get? key = (m.get? key).map f := by
  rw [get?, mapValues, List.find?_map, Option.map_map, get?, Option.map_map]
  rfl

theorem get?_alter (m : KeyMap α) (changed : String) (f : Option α → α) (key : String) :
    (m.alter changed f).get? key =
      if changed = key then some (f (m.get? key)) else m.get? key := by
  rw [alter, get?_insert]
  by_cases h : changed = key
  · rw [if_pos h, if_pos h, h]
  · rw [if_neg h, if_neg h]

/-- Entries that alter a map change what it holds under their own keys only. -/
theorem get?_foldl_alter {f : γ → Option α → α} (entries : List (String × γ)) (m : KeyMap α)
    (key : String) :
    (entries.foldl (fun m entry => m.alter entry.1 (f entry.2)) m).get? key =
      (valuesOf key entries).foldl (fun old value => some (f value old)) (m.get? key) := by
  induction entries generalizing m with
  | nil => rfl
  | cons entry entries ih =>
      rw [List.foldl_cons, ih, get?_alter, valuesOf_cons, List.foldl_append]
      by_cases hkey : entry.1 = key
      · rw [if_pos hkey, if_pos hkey]
        rfl
      · rw [if_neg hkey, if_neg hkey]
        rfl

theorem isEmpty_iff_get? {m : KeyMap α} : m.isEmpty = true ↔ ∀ key, m.get? key = none := by
  obtain ⟨entries, hascending⟩ := m
  rw [isEmpty, List.isEmpty_iff]
  constructor
  · rintro rfl key
    rfl
  · intro hnone
    cases entries with
    | nil => rfl
    | cons entry entries =>
        have hfirst := hnone entry.1
        simp [get?] at hfirst

/-! ## Equality -/

theorem mem_entries_iff {m : KeyMap α} {entry : String × α} :
    entry ∈ m.entries ↔ m.get? entry.1 = some entry.2 := by
  have hvalues : entry.2 ∈ valuesOf entry.1 m.entries ↔ entry ∈ m.entries := by
    rw [valuesOf, List.mem_filterMap]
    constructor
    · rintro ⟨other, hother, hvalue⟩
      by_cases hkey : other.1 = entry.1
      · rw [if_pos hkey, Option.some.injEq] at hvalue
        rwa [← Prod.ext hkey hvalue]
      · rw [if_neg hkey] at hvalue
        cases hvalue
    · intro hentry
      exact ⟨entry, hentry, if_pos rfl⟩
  rw [← hvalues, valuesOf_entries, Option.mem_toList]

theorem ext_get? {m n : KeyMap α} (hsame : ∀ key, m.get? key = n.get? key) : m = n := by
  have hmem : ∀ entry, entry ∈ m.entries ↔ entry ∈ n.entries := by
    intro entry
    rw [mem_entries_iff, mem_entries_iff, hsame]
  have : Std.Irrefl fun a b : String × α => a.1 < b.1 := ⟨fun a => String.lt_irrefl a.1⟩
  have : Std.Antisymm fun a b : String × α => a.1 < b.1 :=
    ⟨fun a b hlt hgt => absurd hgt (String.lt_asymm hlt)⟩
  exact KeyMap.ext (m.ascending.eq_of_mem_iff n.ascending hmem)

theorem ofList_entries (m : KeyMap α) : ofList m.entries = m := by
  apply ext_get?
  intro key
  rw [get?_ofList, valuesOf_entries]
  cases m.get? key <;> rfl

theorem get?_erase (m : KeyMap α) (erased key : String) :
    (m.erase erased).get? key = if erased = key then none else m.get? key := by
  rw [get?, erase, List.find?_filter, get?]
  split
  · rename_i herased
    subst herased
    rw [List.find?_eq_none.2 fun entry _ => by simp]
    rfl
  · rename_i herased
    congr 2
    funext entry
    by_cases hkey : entry.1 = key
    · simp [hkey, Ne.symm herased]
    · simp [hkey]

theorem insert_erase {m : KeyMap α} {value : α} (hvalue : m.get? key = some value) :
    (m.erase key).insert key value = m := by
  apply ext_get?
  intro other
  rw [get?_insert, get?_erase]
  split
  · rename_i hkey
    rw [← hkey, hvalue]
  · rfl

end KeyMap

end TrainingLoop
