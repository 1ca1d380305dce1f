import Mathlib.Data.List.Basic
import SemanticPass.Proofs.Table.Grouping
import SemanticPass.Table.Token

/-!
# The maps of the token table agree

The token table keeps the category of a lexeme apart from its lines, and shows a row only for a
lexeme that has both. A lexeme has a category exactly when it has lines, so no row is missing: the
rows are the groups of all classifications by their lexemes, each under the category that came
first.
-/

namespace SemanticPass

namespace TokenTable

/-- The maps and the list of lexemes tell of the same lexemes. -/
structure Coherent (table : TokenTable) : Prop where
  /-- The list of lexemes agrees with the map of lines. -/
  occurrences : table.occurrences.Coherent
  /-- A lexeme has a category exactly when it has lines. -/
  categorized_iff_seen : ∀ lexeme,
    (table.category? lexeme).isSome ↔ (table.occurrences.lines? lexeme).isSome

theorem coherent_empty : empty.Coherent where
  occurrences := Occurrences.coherent_empty
  categorized_iff_seen := by simp [empty, category?, Occurrences.lines?]

/-- A lexeme gets the category of its first sighting. -/
theorem category?_classify (table : TokenTable) (lexeme : String) (category : TokenCategory)
    (line : LineNumber) (other : String) :
    (table.classify lexeme category line).2.category? other =
      if lexeme = other ∧ table.occurrences.lines? lexeme = none then some category
      else table.category? other := by
  have hcreated := table.occurrences.record_eq_created_iff lexeme line
  unfold classify
  split
  · rename_i occurrences hrecord
    rw [hrecord] at hcreated
    rw [hcreated.mp rfl, category?, Std.HashMap.getElem?_insert]
    by_cases hk : lexeme = other <;> simp [hk, category?]
  · rename_i occurrences hrecord
    rw [hrecord] at hcreated
    rw [if_neg fun hnew => Recorded.noConfusion (hcreated.mpr hnew.2)]
    rfl

/-- A sighting keeps the maps in agreement. -/
theorem Coherent.classify {table : TokenTable} (h : table.Coherent) (lexeme : String)
    (category : TokenCategory) (line : LineNumber) :
    (table.classify lexeme category line).2.Coherent := by
  constructor
  · rw [occurrences_classify]
    exact h.occurrences.record lexeme line
  · intro other
    rw [category?_classify, occurrences_classify, Occurrences.isSome_lines?_record,
      ← h.categorized_iff_seen]
    by_cases hk : lexeme = other
    · subst hk
      have hseen := h.categorized_iff_seen lexeme
      cases hl : table.occurrences.lines? lexeme with
      | none => simp
      | some lines => simpa [hl] using hseen
    · simp [hk]

/-- Every row of the store is shown, as it is there. -/
theorem Coherent.map_lines_entries {table : TokenTable} (h : table.Coherent) :
    (table.entries.map fun row => (row.lexeme, row.lines)) = table.occurrences.entries := by
  rw [entries, List.map_filterMap]
  have hrows : ∀ row ∈ table.occurrences.entries,
      ((table.category? row.1).map fun category =>
        TokenEntry.mk row.1 category row.2).map (fun row => (row.lexeme, row.lines)) = some row := by
    intro row hmem
    obtain ⟨lexeme, hlexeme, rfl⟩ := List.mem_map.mp hmem
    have hseen := (h.occurrences.mem_order_iff lexeme).mp hlexeme
    obtain ⟨category, hc⟩ := Option.isSome_iff_exists.mp ((h.categorized_iff_seen lexeme).mpr hseen)
    rw [hc]
    rfl
  exact (List.filterMap_congr hrows).trans List.filterMap_some

/-- Every lexeme that was seen has its row, at its place among the lexemes. -/
theorem Coherent.map_lexeme_entries {table : TokenTable} (h : table.Coherent) :
    table.entries.map TokenEntry.lexeme = table.occurrences.order.toList := by
  calc
    table.entries.map TokenEntry.lexeme =
        (table.entries.map fun row => (row.lexeme, row.lines)).map Prod.fst := by
      rw [List.map_map]
      rfl
    _ = table.occurrences.order.toList := by
      rw [h.map_lines_entries, Occurrences.entries, List.map_map]
      exact List.map_id' _

end TokenTable

/-! ## Classifications one after the other -/

/-- A lexeme seen on a line, with the category for the lexeme that has none. -/
structure Classification where
  /-- The token as written. -/
  lexeme : String
  /-- The category that the lexeme gets if it is new. -/
  category : TokenCategory
  /-- The line. -/
  line : LineNumber
  deriving DecidableEq, Repr

namespace Classification

/-- A classification without its category. -/
def sighting (call : Classification) : String × LineNumber := (call.lexeme, call.line)

/-- The category of a lexeme in the first classification of it, if there is one. -/
def firstCategory? (calls : List Classification) (lexeme : String) : Option TokenCategory :=
  (calls.find? fun call => call.lexeme == lexeme).map category

theorem firstCategory?_concat (calls : List Classification) (call : Classification)
    (lexeme : String) :
    firstCategory? (calls ++ [call]) lexeme =
      (firstCategory? calls lexeme <|>
        if call.lexeme = lexeme then some call.category else none) := by
  rw [firstCategory?, firstCategory?, List.find?_append]
  cases calls.find? fun call => call.lexeme == lexeme with
  | some first => rfl
  | none => by_cases hl : call.lexeme = lexeme <;> simp [hl]

theorem firstCategory?_eq_none_iff {calls : List Classification} {lexeme : String} :
    firstCategory? calls lexeme = none ↔ lexeme ∉ calls.map Classification.lexeme := by
  rw [firstCategory?, Option.map_eq_none_iff, List.find?_eq_none]
  simp

end Classification

namespace TokenTable

open Classification (firstCategory?)

/-- The table after classifications, one after the other. -/
def classifyAll (table : TokenTable) (calls : List Classification) : TokenTable :=
  calls.foldl (fun table call => (table.classify call.lexeme call.category call.line).2) table

/-- What a table shows of classifications. -/
structure Lists (calls : List Classification) (table : TokenTable) : Prop where
  /-- The lexemes are those of the classifications, in the order in which they were first seen. -/
  lexemes : table.entries.map TokenEntry.lexeme = (calls.map Classification.lexeme).eraseDups
  /-- No lexeme has two rows. -/
  distinct : (table.entries.map TokenEntry.lexeme).Nodup
  /-- A row has the category of the first classification of its lexeme. -/
  category : ∀ row ∈ table.entries, firstCategory? calls row.lexeme = some row.category
  /-- A row has the lines of all classifications of its lexeme, in their order. -/
  lines : ∀ row ∈ table.entries,
    row.lines = (calls.filter (·.lexeme == row.lexeme)).map Classification.line
  /-- No row of the store is hidden. -/
  unfiltered : (table.entries.map fun row => (row.lexeme, row.lines)) = table.occurrences.entries
  /-- A lexeme has the category of its first classification, and none if it has none. -/
  category?_eq : ∀ lexeme, table.category? lexeme = firstCategory? calls lexeme
  /-- The next classification is answered with `created` exactly if its lexeme is new. -/
  created_iff : ∀ lexeme category line, (table.classify lexeme category line).1 = .created ↔
    lexeme ∉ calls.map Classification.lexeme

theorem classifyAll_concat (table : TokenTable) (calls : List Classification)
    (call : Classification) :
    table.classifyAll (calls ++ [call]) =
      ((table.classifyAll calls).classify call.lexeme call.category call.line).2 :=
  List.foldl_append

theorem occurrences_classifyAll (calls : List Classification) :
    (empty.classifyAll calls).occurrences =
      Occurrences.empty.recordAll (calls.map Classification.sighting) := by
  induction calls using List.reverseRecOn with
  | nil => rfl
  | append_singleton calls call ih =>
      rw [classifyAll_concat, occurrences_classify, ih, List.map_append, List.map_singleton,
        Occurrences.recordAll_concat]
      rfl

theorem coherent_classifyAll (calls : List Classification) :
    (empty.classifyAll calls).Coherent := by
  induction calls using List.reverseRecOn with
  | nil => exact coherent_empty
  | append_singleton calls call ih =>
      rw [classifyAll_concat]
      exact ih.classify ..

theorem category?_classifyAll (calls : List Classification) (lexeme : String) :
    (empty.classifyAll calls).category? lexeme = firstCategory? calls lexeme := by
  induction calls using List.reverseRecOn with
  | nil => simp [classifyAll, empty, category?, firstCategory?]
  | append_singleton calls call ih =>
      have hseen := (coherent_classifyAll calls).categorized_iff_seen call.lexeme
      rw [classifyAll_concat, category?_classify, Classification.firstCategory?_concat, ← ih]
      by_cases hl : call.lexeme = lexeme
      · subst hl
        -- A lexeme without a category is one without lines.
        cases hc : (empty.classifyAll calls).category? call.lexeme with
        | none =>
            have hnone : (empty.classifyAll calls).occurrences.lines? call.lexeme = none := by
              rw [← Option.not_isSome_iff_eq_none, ← hseen, hc]
              simp
            simp [hnone]
        | some first =>
            have hsome := hseen.mp (by rw [hc]; rfl)
            rw [if_neg fun hnew => by simp [hnew.2] at hsome]
            rfl
      · simp [hl]

/-- What a table shows after any classifications. -/
theorem lists_classifyAll (calls : List Classification) : Lists calls (empty.classifyAll calls) := by
  have hc := coherent_classifyAll calls
  have hstore := occurrences_classifyAll calls
  have hkeys : (calls.map Classification.sighting).map Prod.fst =
      calls.map Classification.lexeme := by
    rw [List.map_map]
    rfl
  have hrows := Occurrences.isGrouping_recordAll (calls.map Classification.sighting)
  rw [← hstore, ← hc.map_lines_entries] at hrows
  constructor
  case lexemes => rw [hc.map_lexeme_entries, hstore, Occurrences.order_recordAll, hkeys]
  case distinct =>
    rw [hc.map_lexeme_entries]
    exact hc.occurrences.nodup
  case category =>
    intro row hmem
    obtain ⟨⟨lexeme, lines⟩, -, hrow⟩ := List.mem_filterMap.mp hmem
    obtain ⟨category, hcategory, rfl⟩ := Option.map_eq_some_iff.mp hrow
    rw [← category?_classifyAll]
    exact hcategory
  case lines =>
    intro row hmem
    rw [show row.lines = _ from hrows.lines _ (List.mem_map_of_mem hmem), Occurrences.linesIn,
      List.filter_map, List.map_map]
    rfl
  case unfiltered => exact hc.map_lines_entries
  case category?_eq => exact category?_classifyAll calls
  case created_iff =>
    intro lexeme category line
    rw [classify_recorded, hstore, Occurrences.recordAll_record_eq_created_iff, hkeys,
      ← Bool.not_eq_true, List.contains_iff_mem]

end TokenTable

end SemanticPass
