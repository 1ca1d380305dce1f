import Mathlib.Data.List.Find
import Mathlib.Data.List.Induction
import SemanticPass.Proofs.Table.Symbols

/-!
# The symbol table as a plain list of rows

The symbol table finds its rows through maps. A plain list of rows, in the order in which they
were made, can be searched from its front instead: for the row of a key, and for the first row of
a name. Both give the same answers and have the same rows after any sightings, so the maps are
never seen.
-/

namespace SemanticPass

/-- The row that the first sighting of a key makes. -/
def Sighting.row (seen : Sighting) : SymbolEntry :=
  { key := seen.key, declaredType := seen.type, lines := [seen.line] }

/-! ## The list of rows -/

namespace LinearScan

/-- The row of a key. -/
def get? (rows : List SymbolEntry) (key : SymbolKey) : Option SymbolEntry :=
  rows.find? fun row => row.key == key

/-- The type of the row of a key. -/
def declaredType? (rows : List SymbolEntry) (key : SymbolKey) : Option DeclaredType :=
  (get? rows key).map SymbolEntry.declaredType

/-- The first row of a name. -/
def firstNamed? (rows : List SymbolEntry) (name : String) : Option SymbolEntry :=
  rows.find? fun row => row.key.name == name

/-- Adds the line to the row of the key, or a new row at the end if the key has none. -/
def record : List SymbolEntry → Sighting → Recorded × List SymbolEntry
  | [], seen => (.created, [seen.row])
  | row :: rows, seen =>
    if row.key = seen.key then (.appended, row.see seen.line :: rows)
    else
      let (recorded, rows) := record rows seen
      (recorded, row :: rows)

/-- The rows after sightings, from none. -/
def recordAll (sightings : List Sighting) : List SymbolEntry :=
  sightings.foldl (fun rows seen => (record rows seen).2) []

theorem recordAll_concat (sightings : List Sighting) (seen : Sighting) :
    recordAll (sightings ++ [seen]) = (record (recordAll sightings) seen).2 := List.foldl_append

theorem record_of_new {rows : List SymbolEntry} {seen : Sighting}
    (h : get? rows seen.key = none) : record rows seen = (.created, rows ++ [seen.row]) := by
  induction rows with
  | nil => rfl
  | cons row rows ih =>
      rw [get?, List.find?_cons] at h
      split at h
      · cases h
      · rename_i hk
        rw [record, if_neg (by simpa using hk), ih h]
        rfl

/-- When no key has two rows, the line goes to every row of the key, which is only one. -/
theorem record_of_known {rows : List SymbolEntry} {seen : Sighting}
    (hn : (rows.map SymbolEntry.key).Nodup) (h : (get? rows seen.key).isSome) :
    record rows seen =
      (.appended, rows.map fun row => if row.key = seen.key then row.see seen.line else row) := by
  induction rows with
  | nil => simp [get?] at h
  | cons row rows ih =>
      rw [List.map_cons, List.nodup_cons] at hn
      rw [record, List.map_cons]
      by_cases hk : row.key = seen.key
      · have hothers : ∀ other ∈ rows, other.key ≠ seen.key := by
          intro other hmem heq
          exact hn.1 (hk ▸ heq ▸ List.mem_map_of_mem hmem)
        rw [if_pos hk, if_pos hk, List.map_congr_left fun other hmem => if_neg (hothers other hmem),
          List.map_id']
      · rw [get?, List.find?_cons_of_neg (by simpa using hk)] at h
        rw [if_neg hk, if_neg hk, ih hn.2 h]

end LinearScan

/-! ## The table and the list of its rows -/

namespace SymbolTable

/-- The oldest key of each name is the first one of that name in the list of keys. -/
def OldestFirst (table : SymbolTable) : Prop :=
  ∀ name, table.firstByName[name]? =
    table.occurrences.order.toList.find? fun key => key.name == name

namespace Coherent

variable {table : SymbolTable}

/-- The keys with rows are the listed ones. -/
theorem isSome_get?_iff (h : table.Coherent) (key : SymbolKey) :
    (table.get? key).isSome ↔ key ∈ table.occurrences.order.toList := by
  rw [h.occurrences.mem_order_iff, ← h.typed_iff_seen, h.isSome_get?]

/-- Every listed key has its row in the list of rows, at the same place. -/
theorem map_key_entries (h : table.Coherent) :
    table.entries.map SymbolEntry.key = table.occurrences.order.toList := by
  rw [entries_eq_filterMap, List.map_filterMap]
  have hkeys : ∀ key ∈ table.occurrences.order.toList,
      (table.get? key).map SymbolEntry.key = some key := by
    intro key hmem
    obtain ⟨row, hrow⟩ := Option.isSome_iff_exists.mp ((h.isSome_get?_iff key).mpr hmem)
    rw [hrow, Option.map_some, key_of_get? hrow]
  rw [List.filterMap_congr hkeys]
  exact List.filterMap_some

/-- No key has two rows. -/
theorem nodup_map_key_entries (h : table.Coherent) : (table.entries.map SymbolEntry.key).Nodup := by
  rw [h.map_key_entries]
  exact h.occurrences.nodup

/-- Rows are found by their keys, as the keys are. -/
theorem find?_entries (h : table.Coherent) (p : SymbolKey → Bool) :
    (table.entries.find? fun row => p row.key) =
      (table.occurrences.order.toList.find? p).bind table.get? := by
  rw [entries_eq_filterMap, List.find?_filterMap]
  congr 1
  refine List.find?_congr fun key hmem => ?_
  obtain ⟨row, hrow⟩ := Option.isSome_iff_exists.mp ((h.isSome_get?_iff key).mpr hmem)
  rw [hrow, Option.any_some, key_of_get? hrow]

theorem get?_eq_linearScan (h : table.Coherent) (key : SymbolKey) :
    table.get? key = LinearScan.get? table.entries key := by
  rw [LinearScan.get?, h.find?_entries (· == key)]
  by_cases hmem : key ∈ table.occurrences.order.toList
  · cases hfind : table.occurrences.order.toList.find? (· == key) with
    | none => exact absurd (beq_self_eq_true key) (List.find?_eq_none.mp hfind key hmem)
    | some found =>
        obtain rfl : found = key := by simpa using List.find?_some hfind
        rfl
  · have hfind : table.occurrences.order.toList.find? (· == key) = none := by
      rw [List.find?_eq_none]
      intro found hfound heq
      exact hmem (beq_iff_eq.mp heq ▸ hfound)
    rw [hfind, Option.bind_none, ← Option.not_isSome_iff_eq_none, h.isSome_get?_iff]
    exact hmem

theorem declaredType?_eq_linearScan (h : table.Coherent) (key : SymbolKey) :
    table.declaredType? key = LinearScan.declaredType? table.entries key := by
  rw [LinearScan.declaredType?, ← h.get?_eq_linearScan, h.map_declaredType_get?]

theorem firstNamed?_eq_linearScan (h : table.Coherent) (ho : table.OldestFirst) (name : String) :
    table.firstNamed? name = LinearScan.firstNamed? table.entries name := by
  rw [LinearScan.firstNamed?, h.find?_entries (·.name == name), ← ho, firstNamed?]

theorem isEmpty_eq (h : table.Coherent) : table.isEmpty = table.entries.isEmpty := by
  rw [← List.isEmpty_map (f := SymbolEntry.key), h.map_key_entries, isEmpty, Occurrences.isEmpty]
  exact Array.isEmpty_toList.symm

/-- A sighting does to the rows of the table what it does to the plain list, with the same
answer. -/
theorem record_eq_linearScan (h : table.Coherent) (seen : Sighting) :
    let after := table.record seen.key seen.type seen.line
    (after.1, after.2.entries) = LinearScan.record table.entries seen := by
  intro after
  have hentries := h.entries_record seen.key seen.type seen.line
  have hanswer : after.1 = .created ↔ table.get? seen.key = none := by
    rw [record_recorded, Occurrences.record_eq_created_iff, ← Option.not_isSome_iff_eq_none,
      ← Option.not_isSome_iff_eq_none, h.isSome_get?_iff, h.occurrences.mem_order_iff]
  -- The table makes a row for a key without one, and so does the list.
  cases hrow : table.get? seen.key with
  | none =>
      rw [hrow] at hentries
      rw [LinearScan.record_of_new (by rw [← h.get?_eq_linearScan, hrow]), hanswer.mpr hrow, hentries]
      rfl
  | some row =>
      rw [hrow] at hentries
      have happended : after.1 = .appended := by
        cases ha : after.1 with
        | created => simp [hanswer.mp ha] at hrow
        | appended => rfl
      have hknown : (LinearScan.get? table.entries seen.key).isSome = true := by
        rw [← h.get?_eq_linearScan, hrow]
        rfl
      rw [LinearScan.record_of_known h.nodup_map_key_entries hknown, happended, hentries]

end Coherent

/-- A sighting keeps the oldest key of each name the first one in the list. -/
theorem OldestFirst.record {table : SymbolTable} (ho : table.OldestFirst) (h : table.Coherent)
    (key : SymbolKey) (type : DeclaredType) (line : LineNumber) :
    (table.record key type line).2.OldestFirst := by
  intro name
  rw [firstByName_record, occurrences_record, Occurrences.toList_order_record]
  have htyped := h.typed_iff_seen key
  cases hd : table.declaredType? key with
  | some previous =>
      rw [hd] at htyped
      rw [if_pos (htyped.mp rfl), ← ho]
      simp
  | none =>
      rw [hd] at htyped
      rw [if_neg (mt htyped.mpr (by simp)), List.find?_append, ← ho, List.find?_singleton]
      cases table.firstByName[name]? with
      | some oldest => simp
      | none => simp

/-- The table after sightings, one after the other. -/
def recordAll (table : SymbolTable) (sightings : List Sighting) : SymbolTable :=
  sightings.foldl (fun table seen => (table.record seen.key seen.type seen.line).2) table

theorem recordAll_concat (table : SymbolTable) (sightings : List Sighting) (seen : Sighting) :
    table.recordAll (sightings ++ [seen]) =
      ((table.recordAll sightings).record seen.key seen.type seen.line).2 := List.foldl_append

theorem coherent_recordAll (sightings : List Sighting) :
    (empty.recordAll sightings).Coherent ∧ (empty.recordAll sightings).OldestFirst := by
  induction sightings using List.reverseRecOn with
  | nil => exact ⟨coherent_empty, fun name => by simp [recordAll, empty]⟩
  | append_singleton sightings seen ih =>
      rw [recordAll_concat]
      exact ⟨ih.1.record .., ih.2.record ih.1 seen.key seen.type seen.line⟩

theorem entries_recordAll (sightings : List Sighting) :
    (empty.recordAll sightings).entries = LinearScan.recordAll sightings := by
  induction sightings using List.reverseRecOn with
  | nil => rfl
  | append_singleton sightings seen ih =>
      have hstep := (coherent_recordAll sightings).1.record_eq_linearScan seen
      rw [recordAll_concat, LinearScan.recordAll_concat, ← ih, ← hstep]

theorem occurrences_recordAll (sightings : List Sighting) :
    (empty.recordAll sightings).occurrences =
      Occurrences.empty.recordAll (sightings.map fun seen => (seen.key, seen.line)) := by
  induction sightings using List.reverseRecOn with
  | nil => rfl
  | append_singleton sightings seen ih =>
      rw [recordAll_concat, occurrences_record, ih, List.map_append, List.map_singleton,
        Occurrences.recordAll_concat]

/-- A row has the lines of the sightings of its key, in their order, and at least one. -/
theorem lines_of_mem_entries {sightings : List Sighting} {row : SymbolEntry}
    (h : row ∈ (empty.recordAll sightings).entries) :
    row.lines ≠ [] ∧ row.lines = (sightings.filter (·.key == row.key)).map Sighting.line := by
  rw [entries_eq_filterMap, List.mem_filterMap] at h
  obtain ⟨key, -, hrow⟩ := h
  simp only [get?, Option.bind_eq_bind, Option.bind_eq_some_iff, Option.pure_def,
    Option.some.injEq] at hrow
  obtain ⟨type, -, lines, hlines, rfl⟩ := hrow
  rw [occurrences_recordAll, Occurrences.lines?_recordAll] at hlines
  split at hlines
  · cases hlines
  · rename_i hne
    obtain rfl := Option.some.inj hlines
    refine ⟨hne, ?_⟩
    rw [Occurrences.linesIn, List.filter_map, List.map_map]
    rfl

/-- The names with rows are those of the sightings. -/
theorem isSome_firstNamed?_recordAll (sightings : List Sighting) (name : String) :
    ((empty.recordAll sightings).firstNamed? name).isSome ↔
      ∃ seen ∈ sightings, seen.key.name = name := by
  have hc := (coherent_recordAll sightings).1
  have hkeys : ∀ key, key ∈ (empty.recordAll sightings).entries.map SymbolEntry.key ↔
      key ∈ sightings.map Sighting.key := by
    intro key
    rw [hc.map_key_entries, hc.occurrences.mem_order_iff, occurrences_recordAll,
      Occurrences.isSome_lines?_recordAll, List.contains_iff_mem, List.map_map]
    rfl
  rw [← Option.isSome_map (f := SymbolEntry.declaredType), ← oldestType?, hc.isSome_oldestType?_iff]
  constructor
  · rintro ⟨row, hrow, rfl⟩
    obtain ⟨seen, hseen, hk⟩ := List.mem_map.mp ((hkeys row.key).mp (List.mem_map_of_mem hrow))
    exact ⟨seen, hseen, by rw [hk]⟩
  · rintro ⟨seen, hseen, rfl⟩
    obtain ⟨row, hrow, hk⟩ := List.mem_map.mp ((hkeys seen.key).mpr (List.mem_map_of_mem hseen))
    exact ⟨row, hrow, by rw [hk]⟩

/-- After any sightings the table answers as the plain list of rows does, and has its rows. -/
theorem recordAll_as_linearScan (sightings : List Sighting) :
    let table := empty.recordAll sightings
    let rows := LinearScan.recordAll sightings
    let keys := table.occurrences.order.toList
    (∀ seen, (table.record seen.key seen.type seen.line).1 = (LinearScan.record rows seen).1) ∧
    (∀ key, table.declaredType? key = LinearScan.declaredType? rows key) ∧
    (∀ key, table.get? key = LinearScan.get? rows key) ∧
    (∀ name, table.firstNamed? name = LinearScan.firstNamed? rows name) ∧
    table.isEmpty = rows.isEmpty ∧
    table.entries = rows ∧
    keys.Nodup ∧
    (∀ key, key ∈ keys ↔ table.occurrences.linesByKey.contains key) ∧
    (∀ key, key ∈ keys ↔ table.declaredTypes.contains key) ∧
    (∀ name, table.firstByName[name]? = keys.find? fun key => key.name == name) ∧
    table.entries.map SymbolEntry.key = keys ∧
    (∀ name, (table.firstNamed? name).isSome ↔ ∃ seen ∈ sightings, seen.key.name = name) ∧
    ∀ row ∈ table.entries,
      row.lines ≠ [] ∧ row.lines = (sightings.filter (·.key == row.key)).map Sighting.line := by
  intro table rows keys
  obtain ⟨hc, ho⟩ : table.Coherent ∧ table.OldestFirst := coherent_recordAll sightings
  have hrows : table.entries = rows := entries_recordAll sightings
  have hlines : ∀ key, key ∈ keys ↔ table.occurrences.linesByKey.contains key := by
    intro key
    rw [hc.occurrences.mem_order_iff, Occurrences.contains_eq_isSome_lines?]
  have htypes : ∀ key, key ∈ keys ↔ table.declaredTypes.contains key := by
    intro key
    rw [hc.occurrences.mem_order_iff, ← hc.typed_iff_seen, declaredType?,
      Std.HashMap.contains_eq_isSome_getElem?]
  refine ⟨fun seen => ?_, fun key => ?_, fun key => ?_, fun name => ?_, ?_, hrows,
    hc.occurrences.nodup, hlines, htypes, ho, hc.map_key_entries,
    isSome_firstNamed?_recordAll sightings, fun row => lines_of_mem_entries⟩
  · rw [← hrows, ← hc.record_eq_linearScan seen]
  · rw [← hrows, hc.declaredType?_eq_linearScan]
  · rw [← hrows, hc.get?_eq_linearScan]
  · rw [← hrows, hc.firstNamed?_eq_linearScan ho]
  · rw [← hrows, hc.isEmpty_eq]

end SymbolTable

end SemanticPass
