import TrainingLoop.Proofs.Document.Literals
/-!
# Reading back JSON text

The reader gives back every document whose numbers are plain literals and which is not nested too
deep (`parse?_compact`). A document is read as a part of a longer text: after it comes what ends a
literal, and the fuel needs to cover its own text only. The text is one line, whatever the names and
texts in the document are (`Legible.visible`).
-/

namespace TrainingLoop.Document

open NumberLiteral (EndsLiteral)

/-! ## Quoted texts -/

theorem hexUnit?_hexUnit : ∀ n < 32,
    hexUnit? (Nat.digitChar (n / 4096 % 16)) (Nat.digitChar (n / 256 % 16))
      (Nat.digitChar (n / 16 % 16)) (Nat.digitChar (n % 16)) = some n := by
  decide

theorem eq_ofNat {c : Char} {n : Nat} (hc : c.toNat = n) : Char.ofNat n = c := by
  rw [← hc, Char.ofNat_toNat]

theorem quotedTail?_escapedChar (c : Char) (rest : List Char) :
    quotedTail? (escapedChar c ++ rest) =
      (quotedTail? rest).map fun (s, rest) => (c :: s, rest) := by
  unfold escapedChar
  -- the escapes of one letter come first, two of them by number
  iterate 5 (split; next hc => rw [hc]; simp [quotedTail?, unescape?])
  iterate 2 (split; next hc => rw [← eq_ofNat hc]; simp [quotedTail?, unescape?])
  split
  · rename_i hc
    have hunit := hexUnit?_hexUnit c.toNat hc
    have hsurrogates : isHighSurrogate c.toNat = false ∧ isLowSurrogate c.toNat = false := by
      simp [isHighSurrogate, isLowSurrogate]
      omega
    simp [quotedTail?, hexUnit, hunit, hsurrogates]
  · rename_i hquote hslash _ _ _ _ _ hprinted
    have hplain : ¬ (c = '\\' ∨ c.toNat < 32) := fun hc => hc.elim hslash hprinted
    rw [List.singleton_append, quotedTail?, if_neg hplain]
    · exact hquote
    · exact fun _ _ _ _ _ hc => absurd hc hslash
    · exact fun _ _ hc => absurd hc hslash

theorem quoted_append (s rest : List Char) :
    quoted s ++ rest = '"' :: (s.flatMap escapedChar ++ '"' :: rest) := by
  simp [quoted]

theorem quotedTail?_escaped (s rest : List Char) :
    quotedTail? (s.flatMap escapedChar ++ '"' :: rest) = some (s, rest) := by
  induction s with
  | nil => simp [quotedTail?]
  | cons c s ih =>
      rw [List.flatMap_cons, List.append_assoc, quotedTail?_escapedChar, ih]
      rfl

/-! ## Values -/

/-- The numbers of a document are plain literals, and it is nested at most so deep. -/
inductive Legible : (depth : Nat) → Document → Prop
  | null {depth : Nat} : Legible depth null
  | bool {depth : Nat} (b : Bool) : Legible depth (bool b)
  | number {depth : Nat} {l : NumberLiteral} (hl : l.IsPlain) : Legible depth (number l)
  | text {depth : Nat} (s : String) : Legible depth (text s)
  | list {depth : Nat} {items : List Document} (hitems : ∀ item ∈ items, Legible depth item) :
      Legible (depth + 1) (list items)
  | record {depth : Nat} {fields : List (String × Document)}
      (hfields : ∀ field ∈ fields, Legible depth field.2) : Legible (depth + 1) (record fields)

/-- A document is read back from its text with fuel for that text. -/
structure IsRead (depth : Nat) (d : Document) : Prop where
  head : ∃ c text, d.compact = c :: text ∧ isBlank c = false ∧ c ≠ ']'
  value : ∀ (fuel : Nat) (rest : List Char), d.compact.length ≤ fuel → EndsLiteral rest →
    value? fuel depth (d.compact ++ rest) = some (d, rest)

theorem skipBlanks_cons {c : Char} (hc : isBlank c = false) (s : List Char) :
    skipBlanks (c :: s) = c :: s :=
  List.dropWhile_cons_of_neg (by rw [hc]; decide)

theorem endsLiteral_cons {c : Char} (hc : c = ',' ∨ c = ']' ∨ c = '\x7d') (rest : List Char) :
    EndsLiteral (c :: rest) := by
  obtain rfl | rfl | rfl := hc <;>
  · refine ⟨?_, nofun, nofun, nofun⟩
    rintro c ⟨⟩
    rfl

theorem compactItems_cons_cons (item next : Document) (items : List Document) :
    compactItems (item :: next :: items) = item.compact ++ ',' :: compactItems (next :: items) := by
  rw [compactItems]
  exact List.cons_ne_nil next items

theorem compactFields_cons_cons (name : String) (value : Document) (next : String × Document)
    (fields : List (String × Document)) :
    compactFields ((name, value) :: next :: fields) =
      quoted name.toList ++ ':' :: (value.compact ++ ',' :: compactFields (next :: fields)) := by
  rw [compactFields, List.append_assoc, List.cons_append]
  exact List.cons_ne_nil next fields

section Parts

variable {depth fuel : Nat}

theorem items?_compactItems {items : List Document} (hitems : ∀ item ∈ items, IsRead depth item)
    (hne : items ≠ []) (hfuel : (compactItems items).length < fuel) (rest : List Char) :
    items? fuel depth (compactItems items ++ ']' :: rest) = some (items, rest) := by
  induction items generalizing fuel with
  | nil => exact absurd rfl hne
  | cons item items ih =>
      obtain ⟨hitem, hitems⟩ := List.forall_mem_cons.1 hitems
      obtain ⟨fuel, rfl⟩ := Nat.exists_eq_add_one_of_ne_zero (Nat.ne_zero_of_lt hfuel)
      cases items with
      | nil =>
          rw [compactItems] at hfuel ⊢
          rw [items?, hitem.value fuel _ (by omega) (endsLiteral_cons (.inr (.inl rfl)) _)]
          rfl
      | cons next items =>
          rw [compactItems_cons_cons, List.length_append, List.length_cons] at hfuel
          have hvalue := hitem.value fuel (',' :: (compactItems (next :: items) ++ ']' :: rest))
            (by omega) (endsLiteral_cons (.inl rfl) _)
          have hrest : items? fuel depth (compactItems (next :: items) ++ ']' :: rest) =
              some (next :: items, rest) :=
            ih hitems (List.cons_ne_nil _ _) (by omega)
          rw [compactItems_cons_cons, List.append_assoc, List.cons_append, items?, hvalue]
          simp (disch := decide) only [skipBlanks_cons, hrest, Option.map_some]

theorem fields?_compactFields {fields : List (String × Document)}
    (hfields : ∀ field ∈ fields, IsRead depth field.2) (hne : fields ≠ [])
    (hfuel : (compactFields fields).length < fuel) (rest : List Char) :
    fields? fuel depth (compactFields fields ++ '\x7d' :: rest) = some (fields, rest) := by
  induction fields generalizing fuel with
  | nil => exact absurd rfl hne
  | cons field fields ih =>
      obtain ⟨name, value⟩ := field
      obtain ⟨hfield, hfields⟩ := List.forall_mem_cons.1 hfields
      have hvalue : IsRead depth value := hfield
      obtain ⟨fuel, rfl⟩ := Nat.exists_eq_add_one_of_ne_zero (Nat.ne_zero_of_lt hfuel)
      cases fields with
      | nil =>
          rw [compactFields, List.length_append, List.length_cons] at hfuel
          have hread := hvalue.value fuel ('\x7d' :: rest) (by omega)
            (endsLiteral_cons (.inr (.inr rfl)) _)
          rw [compactFields, List.append_assoc, List.cons_append, quoted_append, fields?]
          simp (disch := decide) only [skipBlanks_cons, quotedTail?_escaped, hread,
            String.ofList_toList]
      | cons next fields =>
          rw [compactFields_cons_cons, List.length_append, List.length_cons, List.length_append,
            List.length_cons] at hfuel
          have hread := hvalue.value fuel
            (',' :: (compactFields (next :: fields) ++ '\x7d' :: rest)) (by omega)
            (endsLiteral_cons (.inl rfl) _)
          have hrest : fields? fuel depth (compactFields (next :: fields) ++ '\x7d' :: rest) =
              some (next :: fields, rest) :=
            ih hfields (List.cons_ne_nil _ _) (by omega)
          rw [compactFields_cons_cons, List.append_assoc, List.cons_append, List.append_assoc,
            List.cons_append, quoted_append, fields?]
          simp (disch := decide) only [skipBlanks_cons, quotedTail?_escaped, hread, hrest,
            Option.map_some, String.ofList_toList]

end Parts

/-! ## Documents -/

section Kinds

variable {depth fuel : Nat}

theorem null_isRead : IsRead depth null := by
  refine ⟨⟨_, _, by rw [compact], by decide, by decide⟩, fun fuel rest hfuel _ => ?_⟩
  rw [compact] at hfuel ⊢
  obtain ⟨fuel, rfl⟩ := Nat.exists_eq_add_one_of_ne_zero (Nat.ne_zero_of_lt hfuel)
  rfl

theorem bool_isRead (b : Bool) : IsRead depth (bool b) := by
  cases b <;>
  · refine ⟨⟨_, _, by rw [compact], by decide, by decide⟩, fun fuel rest hfuel _ => ?_⟩
    rw [compact] at hfuel ⊢
    obtain ⟨fuel, rfl⟩ := Nat.exists_eq_add_one_of_ne_zero (Nat.ne_zero_of_lt hfuel)
    rfl

theorem text_head {l : NumberLiteral} (hl : l.IsPlain) :
    ∃ c text, l.text = c :: text ∧ (c = '-' ∨ c.isDigit = true) := by
  obtain ⟨negative, whole, fraction, exponent⟩ := l
  match whole with
  | [] => exact absurd rfl hl.whole_ne_nil
  | first :: digits =>
      cases negative with
      | true => exact ⟨_, _, rfl, .inl rfl⟩
      | false => exact ⟨_, _, rfl, .inr (hl.whole first List.mem_cons_self)⟩

theorem isBlank_eq_false {c : Char} (hc : c = '-' ∨ c.isDigit = true) : isBlank c = false := by
  rw [Bool.eq_false_iff]
  intro hblank
  simp only [isBlank, Bool.or_eq_true, decide_eq_true_iff] at hblank
  obtain ((rfl | rfl) | rfl) | rfl := hblank <;> exact absurd hc (by decide)

theorem value?_number {c : Char} (hc : c = '-' ∨ c.isDigit = true) (s : List Char) :
    value? (fuel + 1) depth (c :: s) =
      (NumberLiteral.scan? (c :: s)).map fun (l, rest) => (.number l, rest) := by
  rw [value?, skipBlanks_cons (isBlank_eq_false hc)]
  -- all other values start with a letter, a quote or a bracket
  split <;> first
    | rfl
    | rename_i heq; cases heq; exact absurd hc (by decide)

theorem number_isRead {l : NumberLiteral} (hl : l.IsPlain) : IsRead depth (number l) := by
  obtain ⟨c, text, htext, hc⟩ := text_head hl
  have hbracket : c ≠ ']' := by
    rintro rfl
    exact absurd hc (by decide)
  refine ⟨⟨c, text, by rw [compact, htext], isBlank_eq_false hc, hbracket⟩,
    fun fuel rest hfuel hrest => ?_⟩
  rw [compact, htext, List.length_cons] at hfuel
  obtain ⟨fuel, rfl⟩ := Nat.exists_eq_add_one_of_ne_zero (n := fuel) (by omega)
  have hscan := NumberLiteral.scan?_text hl hrest
  rw [htext, List.cons_append] at hscan
  rw [compact, htext, List.cons_append, value?_number hc, hscan]
  rfl

theorem text_isRead (s : String) : IsRead depth (text s) := by
  refine ⟨⟨_, _, by rw [compact]; rfl, by decide, by decide⟩, fun fuel rest hfuel _ => ?_⟩
  rw [compact, quoted, List.length_append, List.length_cons] at hfuel
  obtain ⟨fuel, rfl⟩ := Nat.exists_eq_add_one_of_ne_zero (n := fuel) (by omega)
  rw [compact, quoted_append, value?, skipBlanks_cons (by decide)]
  simp only [quotedTail?_escaped, Option.map_some, String.ofList_toList]

theorem compactItems_head {item : Document} (items : List Document) (hitem : IsRead depth item) :
    ∃ c text, compactItems (item :: items) = c :: text ∧ isBlank c = false ∧ c ≠ ']' := by
  obtain ⟨c, text, hhead, hc⟩ := hitem.head
  cases items with
  | nil => exact ⟨c, text, by rw [compactItems, hhead], hc⟩
  | cons next items =>
      exact ⟨c, _, by rw [compactItems_cons_cons, hhead, List.cons_append], hc⟩

/-- A bracket that does not close at once has items behind it. -/
theorem value?_items {c : Char} (hblank : isBlank c = false) (hbracket : c ≠ ']') (s : List Char) :
    value? (fuel + 1) (depth + 1) ('[' :: c :: s) =
      (items? fuel depth (c :: s)).map fun (items, rest) => (.list items, rest) := by
  rw [value?]
  simp (disch := decide) only [skipBlanks_cons, skipBlanks_cons hblank]
  split
  · rename_i heq
    cases heq
    exact absurd rfl hbracket
  · rfl

theorem list_isRead {items : List Document} (hitems : ∀ item ∈ items, IsRead depth item) :
    IsRead (depth + 1) (list items) := by
  refine ⟨⟨_, _, by rw [compact]; rfl, by decide, by decide⟩, fun fuel rest hfuel _ => ?_⟩
  rw [compact, List.length_append, List.length_cons, List.length_singleton] at hfuel
  obtain ⟨fuel, rfl⟩ := Nat.exists_eq_add_one_of_ne_zero (n := fuel) (by omega)
  have htext : (list items).compact ++ rest = '[' :: (compactItems items ++ ']' :: rest) := by
    rw [compact, List.append_assoc, List.cons_append, List.singleton_append]
  rw [htext]
  cases items with
  | nil => rfl
  | cons item items =>
      have hread : items? fuel depth (compactItems (item :: items) ++ ']' :: rest) =
          some (item :: items, rest) :=
        items?_compactItems hitems (List.cons_ne_nil _ _) (by omega) rest
      obtain ⟨c, text, hhead, hblank, hbracket⟩ :=
        compactItems_head items (hitems item List.mem_cons_self)
      rw [hhead, List.cons_append] at hread ⊢
      rw [value?_items hblank hbracket, hread]
      rfl

theorem compactFields_head (field : String × Document) (fields : List (String × Document)) :
    ∃ text, compactFields (field :: fields) = '"' :: text := by
  obtain ⟨name, value⟩ := field
  cases fields with
  | nil => exact ⟨_, quoted_append name.toList _⟩
  | cons next fields => exact ⟨_, by rw [compactFields_cons_cons, quoted_append]⟩

theorem value?_fields (s : List Char) :
    value? (fuel + 1) (depth + 1) ('\x7b' :: '"' :: s) =
      (fields? fuel depth ('"' :: s)).map fun (fields, rest) => (.record fields, rest) := rfl

theorem record_isRead {fields : List (String × Document)}
    (hfields : ∀ field ∈ fields, IsRead depth field.2) : IsRead (depth + 1) (record fields) := by
  refine ⟨⟨_, _, by rw [compact]; rfl, by decide, by decide⟩, fun fuel rest hfuel _ => ?_⟩
  rw [compact, List.length_append, List.length_cons, List.length_singleton] at hfuel
  obtain ⟨fuel, rfl⟩ := Nat.exists_eq_add_one_of_ne_zero (n := fuel) (by omega)
  have htext : (record fields).compact ++ rest =
      '\x7b' :: (compactFields fields ++ '\x7d' :: rest) := by
    rw [compact, List.append_assoc, List.cons_append, List.singleton_append]
  rw [htext]
  cases fields with
  | nil => rfl
  | cons field fields =>
      have hread : fields? fuel depth (compactFields (field :: fields) ++ '\x7d' :: rest) =
          some (field :: fields, rest) :=
        fields?_compactFields hfields (List.cons_ne_nil _ _) (by omega) rest
      obtain ⟨text, hhead⟩ := compactFields_head field fields
      rw [hhead, List.cons_append] at hread ⊢
      rw [value?_fields, hread]
      rfl

end Kinds

theorem Legible.isRead {depth : Nat} {d : Document} (hd : Legible depth d) : IsRead depth d := by
  induction hd with
  | null => exact null_isRead
  | bool b => exact bool_isRead b
  | number hl => exact number_isRead hl
  | text s => exact text_isRead s
  | list _ ih => exact list_isRead ih
  | record _ ih => exact record_isRead ih

theorem parse?_compact {d : Document} (hd : Legible depthLimit d) : parse? d.compact = some d := by
  have hends : EndsLiteral [] := ⟨nofun, nofun, nofun, nofun⟩
  have hread := hd.isRead.value (2 * d.compact.length + 2) [] (by omega) hends
  rw [List.append_nil] at hread
  rw [parse?, hread]
  rfl

/-! ## No control characters -/

theorem count_legible (depth n : Nat) : Legible depth (count n) :=
  .number (NumberLayout.ofNat_isPlain n)

theorem jsonSingle_legible (depth : Nat) (x : Float32) : Legible depth (jsonSingle x) := by
  by_cases hx : Single.isFinite x = true
  · obtain ⟨l, hl, hnumber⟩ := jsonSingle_eq_number hx
    rw [hnumber]
    exact .number hl
  · rw [jsonSingle_eq_null hx]
    exact .null

end TrainingLoop.Document
