import Mathlib.Data.List.Basic
import Mathlib.Tactic.ByContra
import SemanticPass.Proofs.Table.Occurrences
import SemanticPass.Table.Symbol

/-!
# The maps of the symbol table agree

The symbol table asks the map of types whether a key is new, and its store of occurrences asks
the map of lines. The two maps have the same keys, and the oldest key of a name is one of them.
With that, a sighting is one equation on the rows of the table and one on the oldest type of
each name.
-/

namespace SemanticPass

/-- A row with one more line. -/
def SymbolEntry.see (entry : SymbolEntry) (line : LineNumber) : SymbolEntry :=
  { entry with lines := entry.lines ++ [line] }

/-- A key seen on a line, with the type for the key that has none. -/
structure Sighting where
  /-- The key. -/
  key : SymbolKey
  /-- The type that the key gets if it is new. -/
  type : DeclaredType
  /-- The line. -/
  line : LineNumber
  deriving DecidableEq, Repr

namespace SymbolTable

/-- The table after a sighting, or unchanged without one. -/
def sight (table : SymbolTable) : Option Sighting → SymbolTable
  | some seen => (table.record seen.key seen.type seen.line).2
  | none => table

/-- The type of the oldest row of a name. -/
def oldestType? (table : SymbolTable) (name : String) : Option DeclaredType :=
  (table.firstNamed? name).map SymbolEntry.declaredType

/-- The three maps and the list of keys tell of the same keys. -/
structure Coherent (table : SymbolTable) : Prop where
  /-- The list of keys agrees with the map of lines. -/
  occurrences : table.occurrences.Coherent
  /-- A key has a type exactly when it has lines. -/
  typed_iff_seen : ∀ key,
    (table.declaredType? key).isSome ↔ (table.occurrences.lines? key).isSome
  /-- The oldest key of a name has that name, and a type. -/
  oldest_typed : ∀ {name key}, table.firstByName[name]? = some key →
    key.name = name ∧ (table.declaredType? key).isSome
  /-- The name of a key with a type has an oldest key. -/
  oldest_exists : ∀ {key}, (table.declaredType? key).isSome →
    (table.firstByName[key.name]?).isSome

theorem coherent_empty : empty.Coherent where
  occurrences := Occurrences.coherent_empty
  typed_iff_seen := by simp [empty, declaredType?, Occurrences.lines?]
  oldest_typed := by simp [empty]
  oldest_exists := by simp [empty, declaredType?]

@[simp]
theorem declaredType?_empty (key : SymbolKey) : empty.declaredType? key = none := by
  simp [empty, declaredType?]

theorem isSome_declaredType?_record (table : SymbolTable) (key : SymbolKey)
    (type : DeclaredType) (line : LineNumber) (other : SymbolKey) :
    ((table.record key type line).2.declaredType? other).isSome ↔
      key = other ∨ (table.declaredType? other).isSome := by
  rw [declaredType?_record]
  by_cases hk : key = other
  · subst hk
    cases h : table.declaredType? key <;> simp
  · simp [hk]

/-- A sighting keeps the maps in agreement. -/
theorem Coherent.record {table : SymbolTable} (h : table.Coherent) (key : SymbolKey)
    (type : DeclaredType) (line : LineNumber) : (table.record key type line).2.Coherent := by
  constructor
  · rw [occurrences_record]
    exact h.occurrences.record key line
  · intro other
    rw [isSome_declaredType?_record, occurrences_record, Occurrences.isSome_lines?_record,
      h.typed_iff_seen]
  · intro name oldest ho
    rw [isSome_declaredType?_record]
    rw [firstByName_record] at ho
    split at ho
    · rename_i hc
      simp only [Bool.and_eq_true, beq_iff_eq] at hc
      obtain rfl := Option.some.inj ho
      exact ⟨hc.1.2, .inl rfl⟩
    · obtain ⟨hn, ht⟩ := h.oldest_typed ho
      exact ⟨hn, .inr ht⟩
  · intro other ho
    rw [firstByName_record]
    split
    · rfl
    · rename_i hc
      rcases (isSome_declaredType?_record table key type line other).mp ho with rfl | ht
      · -- A key without a type takes the place unless an older key has it.
        cases hd : table.declaredType? key with
        | some previous => exact h.oldest_exists (by simp [hd])
        | none => simpa [hd, Option.isSome_iff_ne_none] using hc
      · exact h.oldest_exists ht

/-! ## Rows -/

theorem key_of_get? {table : SymbolTable} {key : SymbolKey} {row : SymbolEntry}
    (h : table.get? key = some row) : row.key = key := by
  simp only [get?, Option.bind_eq_bind, Option.bind_eq_some_iff, Option.pure_def,
    Option.some.injEq] at h
  obtain ⟨_, _, _, _, rfl⟩ := h
  rfl

/-- The type of a row is the type of its key. -/
theorem Coherent.map_declaredType_get? {table : SymbolTable} (h : table.Coherent)
    (key : SymbolKey) :
    (table.get? key).map SymbolEntry.declaredType = table.declaredType? key := by
  have hs := h.typed_iff_seen key
  unfold get?
  cases hd : table.declaredType? key with
  | none => rfl
  | some type =>
      rw [hd] at hs
      obtain ⟨lines, hl⟩ := Option.isSome_iff_exists.mp (hs.mp rfl)
      simp [hl]

/-- A key has a row exactly when it has a type. -/
theorem Coherent.isSome_get? {table : SymbolTable} (h : table.Coherent) (key : SymbolKey) :
    (table.get? key).isSome = (table.declaredType? key).isSome := by
  rw [← h.map_declaredType_get?, Option.isSome_map]

/-- After a sighting the key's row has one line more, with the given type if the row is new,
and every other row is as it was. -/
theorem Coherent.get?_record {table : SymbolTable} (h : table.Coherent) (key : SymbolKey)
    (type : DeclaredType) (line : LineNumber) (other : SymbolKey) :
    (table.record key type line).2.get? other =
      if key = other then
        some (((table.get? key).map (·.see line)).getD
          { key, declaredType := type, lines := [line] })
      else table.get? other := by
  have hs := h.typed_iff_seen key
  simp only [get?, declaredType?_record, occurrences_record, Occurrences.lines?_record]
  by_cases hk : key = other
  · subst hk
    cases hd : table.declaredType? key with
    | none =>
        have hl : table.occurrences.lines? key = none := by simpa [hd] using hs
        simp [hl]
    | some previous =>
        rw [hd] at hs
        obtain ⟨lines, hl⟩ := Option.isSome_iff_exists.mp (hs.mp rfl)
        simp [hl, SymbolEntry.see]
  · simp [hk]

/-- The rows of the listed keys, in the order of the list. -/
theorem entries_eq_filterMap (table : SymbolTable) :
    table.entries = table.occurrences.order.toList.filterMap table.get? := by
  simp only [entries, Occurrences.entries, List.filterMap_map]
  rfl

/-- A sighting adds its line to the row of its key, or a new row at the end. -/
theorem Coherent.entries_record {table : SymbolTable} (h : table.Coherent) (key : SymbolKey)
    (type : DeclaredType) (line : LineNumber) :
    (table.record key type line).2.entries =
      match table.get? key with
      | some _ => table.entries.map fun row => if row.key = key then row.see line else row
      | none => table.entries ++ [{ key, declaredType := type, lines := [line] }] := by
  have hget := h.get?_record key type line
  have htype := h.map_declaredType_get? key
  rw [entries_eq_filterMap, entries_eq_filterMap, occurrences_record,
    Occurrences.toList_order_record]
  cases hrow : table.get? key with
  | none =>
      have hseen : (table.occurrences.lines? key).isSome = false := by
        rw [hrow] at htype
        simpa [← htype] using (h.typed_iff_seen key).symm
      have hold : ∀ other ∈ table.occurrences.order.toList,
          (table.record key type line).2.get? other = table.get? other := by
        intro other hmem
        rw [hget, if_neg]
        rintro rfl
        simp [(h.occurrences.mem_order_iff key).mp hmem] at hseen
      have hnew : (table.record key type line).2.get? key =
          some { key, declaredType := type, lines := [line] } := by
        rw [hget, if_pos rfl, hrow]
        rfl
      rw [if_neg (by simp [hseen]), List.filterMap_append, List.filterMap_congr hold]
      simp only [List.filterMap_cons, hnew, List.filterMap_nil]
  | some row =>
      have hseen : (table.occurrences.lines? key).isSome = true := by
        rw [hrow] at htype
        exact (h.typed_iff_seen key).mp (by simp [← htype])
      rw [if_pos hseen, List.map_filterMap]
      refine List.filterMap_congr fun other _ => ?_
      rw [hget]
      by_cases hk : key = other
      · subst hk
        simp [hrow, key_of_get? hrow]
      · cases ho : table.get? other with
        | none => simp [hk]
        | some found => simp [hk, key_of_get? ho, Ne.symm hk]

/-- The rows after a sighting: its line stands at the end of the row of its key, or on a new row
at the end of the table, and every other row is as it was. -/
structure Gains (before : SymbolTable) (seen : Sighting) (after : SymbolTable) : Prop where
  /-- The row of the key ends with the line. -/
  row : after.get? seen.key =
    some (((before.get? seen.key).map (·.see seen.line)).getD
      { key := seen.key, declaredType := seen.type, lines := [seen.line] })
  /-- The rows of other keys stay. -/
  others : ∀ key, key ≠ seen.key → after.get? key = before.get? key
  /-- The rows keep their order, and a new row is the last one. -/
  entries : after.entries =
    match before.get? seen.key with
    | some _ => before.entries.map fun row => if row.key = seen.key then row.see seen.line else row
    | none =>
      before.entries ++ [{ key := seen.key, declaredType := seen.type, lines := [seen.line] }]

theorem Coherent.gains {table : SymbolTable} (h : table.Coherent) (seen : Sighting) :
    table.Gains seen (table.sight (some seen)) where
  row := by rw [sight, h.get?_record, if_pos rfl]
  others key hk := by rw [sight, h.get?_record, if_neg (Ne.symm hk)]
  entries := h.entries_record seen.key seen.type seen.line

/-! ## The oldest type of a name -/

@[simp]
theorem oldestType?_empty (name : String) : empty.oldestType? name = none := by
  simp [oldestType?, firstNamed?, empty]

theorem Coherent.oldestType?_eq_bind {table : SymbolTable} (h : table.Coherent) (name : String) :
    table.oldestType? name = table.firstByName[name]?.bind table.declaredType? := by
  rw [oldestType?, firstNamed?, Option.map_bind]
  congr 1
  funext key
  exact h.map_declaredType_get? key

/-- A name has an oldest type when one of its keys has a type. -/
theorem Coherent.isSome_oldestType? {table : SymbolTable} (h : table.Coherent) {key : SymbolKey}
    (hk : (table.declaredType? key).isSome) : (table.oldestType? key.name).isSome := by
  obtain ⟨oldest, ho⟩ := Option.isSome_iff_exists.mp (h.oldest_exists hk)
  rw [h.oldestType?_eq_bind, ho]
  exact (h.oldest_typed ho).2

/-- A name has an oldest type exactly when it has rows. -/
theorem Coherent.isSome_oldestType?_iff {table : SymbolTable} (h : table.Coherent)
    (name : String) :
    (table.oldestType? name).isSome ↔ ∃ row ∈ table.entries, row.key.name = name := by
  simp only [entries_eq_filterMap, List.mem_filterMap]
  constructor
  · intro ho
    rw [h.oldestType?_eq_bind, Option.isSome_iff_exists] at ho
    obtain ⟨type, ho⟩ := ho
    obtain ⟨key, hfirst, hd⟩ := Option.bind_eq_some_iff.mp ho
    have hseen := (h.typed_iff_seen key).mp (Option.isSome_iff_exists.mpr ⟨type, hd⟩)
    obtain ⟨row, hg, _⟩ := Option.map_eq_some_iff.mp ((h.map_declaredType_get? key).trans hd)
    refine ⟨row, ⟨key, (h.occurrences.mem_order_iff key).mpr hseen, hg⟩, ?_⟩
    rw [key_of_get? hg]
    exact (h.oldest_typed hfirst).1
  · rintro ⟨row, ⟨key, _, hg⟩, rfl⟩
    apply h.isSome_oldestType?
    rw [key_of_get? hg, ← h.map_declaredType_get?, hg]
    rfl

/-- The first sighting of a name gives its oldest type, and no later one changes it. -/
theorem Coherent.oldestType?_record {table : SymbolTable} (h : table.Coherent) (key : SymbolKey)
    (type : DeclaredType) (line : LineNumber) (name : String) :
    (table.record key type line).2.oldestType? name =
      if key.name = name then (table.oldestType? name).or (some type)
      else table.oldestType? name := by
  rw [(h.record key type line).oldestType?_eq_bind, h.oldestType?_eq_bind, firstByName_record]
  cases ho : table.firstByName[name]? with
  | some oldest =>
      obtain ⟨previous, hp⟩ := Option.isSome_iff_exists.mp (h.oldest_typed ho).2
      have hstays : (table.record key type line).2.declaredType? oldest = some previous := by
        rw [declaredType?_record]
        by_cases hk : key = oldest
        · simp [hk, hp]
        · simp [hk, hp]
      simp [hp, hstays]
  | none =>
      by_cases hn : key.name = name
      · have hd : table.declaredType? key = none := by
          by_contra hne
          have := h.oldest_exists (Option.isSome_iff_ne_none.mpr hne)
          simp [hn, ho] at this
        simp [hn, hd, declaredType?_record]
      · simp [hn]

end SymbolTable

end SemanticPass
