import Mathlib.Data.List.Basic
import SemanticPass.Proofs.Table.Symbols
import SemanticPass.Proofs.Table.Tokens
import SemanticPass.Table.Constant

/-!
# Tables grow line by line

A sighting adds its line to one row of a table, behind the lines that the row has, or makes a new
last row of the line alone. No other row changes or moves. The symbol table and the token table show
the rows of their store with a label, the declared type or the category; a key keeps its label, so
they grow as their store does.
-/

namespace SemanticPass

/-- The rows of a table after one more line about what is fresh. The line stands at the end of the
row with the key of what is fresh, or on a new last row if there is no such row. -/
inductive AddsLine {α κ : Type} (key : α → κ) (fresh : α) (line : LineNumber) :
    List (α × List LineNumber) → List (α × List LineNumber) → Prop
  | appended (before after : List (α × List LineNumber)) (old : α) (lines : List LineNumber)
      (h : key old = key fresh) :
      AddsLine key fresh line (before ++ (old, lines) :: after)
        (before ++ (old, lines ++ [line]) :: after)
  | created (rows : List (α × List LineNumber)) (h : ∀ row ∈ rows, key row.1 ≠ key fresh) :
      AddsLine key fresh line rows (rows ++ [(fresh, [line])])

/-- How many lines all rows have together. -/
def lineCount {α : Type} (rows : List (α × List LineNumber)) : Nat :=
  (rows.flatMap Prod.snd).length

theorem AddsLine.lineCount_eq {α κ : Type} {key : α → κ} {fresh : α} {line : LineNumber}
    {rows grown : List (α × List LineNumber)} (h : AddsLine key fresh line rows grown) :
    lineCount grown = lineCount rows + 1 := by
  cases h with
  | appended before after old lines _ => simp [lineCount]; omega
  | created _ _ => simp [lineCount]

/-! ## Rows with labels -/

section

variable {κ β : Type}

/-- The rows of the keys with a label, under both. -/
def labelled (label? : κ → Option β) (rows : List (κ × List LineNumber)) :
    List ((κ × β) × List LineNumber) :=
  rows.filterMap fun row => (label? row.1).map fun label => ((row.1, label), row.2)

theorem labelled_append (label? : κ → Option β) (rows more : List (κ × List LineNumber)) :
    labelled label? (rows ++ more) = labelled label? rows ++ labelled label? more :=
  List.filterMap_append

theorem labelled_cons {label? : κ → Option β} {key : κ} {label : β} (h : label? key = some label)
    (lines : List LineNumber) (rows : List (κ × List LineNumber)) :
    labelled label? ((key, lines) :: rows) = ((key, label), lines) :: labelled label? rows := by
  simp [labelled, h]

theorem labelled_congr {label? other? : κ → Option β} {rows : List (κ × List LineNumber)}
    (h : ∀ row ∈ rows, other? row.1 = label? row.1) : labelled other? rows = labelled label? rows :=
  List.filterMap_congr fun row hmem => by rw [h row hmem]

/-- A row with a label is a row of its key. -/
theorem exists_of_mem_labelled {label? : κ → Option β} {rows : List (κ × List LineNumber)}
    {row : (κ × β) × List LineNumber} (h : row ∈ labelled label? rows) :
    (row.1.1, row.2) ∈ rows := by
  obtain ⟨⟨key, lines⟩, hmem, hrow⟩ := List.mem_filterMap.mp h
  obtain ⟨label, -, rfl⟩ := Option.map_eq_some_iff.mp hrow
  exact hmem

/-- Rows with labels grow as the rows without them if every key keeps its label. -/
theorem AddsLine.labelled {label? next? : κ → Option β} {key : κ} {label : β} {line : LineNumber}
    {rows grown : List (κ × List LineNumber)} (h : AddsLine id key line rows grown)
    (hkept : ∀ row ∈ rows, next? row.1 = label? row.1)
    (hlabel : ∀ row ∈ rows, (label? row.1).isSome = true)
    (hfresh : (∀ row ∈ rows, row.1 ≠ key) → next? key = some label) :
    AddsLine Prod.fst (key, label) line (labelled label? rows) (labelled next? grown) := by
  cases h with
  | appended before after old lines hold =>
      obtain rfl : old = key := hold
      obtain ⟨kept, hk⟩ := Option.isSome_iff_exists.mp (hlabel (old, lines) (by simp))
      have hk' : next? old = some kept := (hkept (old, lines) (by simp)).trans hk
      rw [labelled_append, labelled_append, labelled_cons hk, labelled_cons hk',
        labelled_congr fun row hmem => hkept row (List.mem_append_left _ hmem),
        labelled_congr fun row hmem =>
          hkept row (List.mem_append_right _ (List.mem_cons_of_mem _ hmem))]
      exact .appended _ _ (old, kept) lines rfl
  | created _ hnew =>
      rw [labelled_append, labelled_congr hkept, labelled_cons (hfresh hnew)]
      exact .created _ fun row hmem => hnew _ (exists_of_mem_labelled hmem)

end

/-! ## Stores -/

/-- A sighting adds its line to the rows of a store. -/
theorem Occurrences.Coherent.addsLine {κ : Type} [BEq κ] [LawfulBEq κ] [Hashable κ]
    {seen : Occurrences κ} (h : seen.Coherent) (key : κ) (line : LineNumber) :
    AddsLine id key line seen.entries (seen.record key line).2.entries := by
  have hothers : ∀ keys : List κ, key ∉ keys →
      (keys.map fun other => (other, ((seen.record key line).2.lines? other).getD [])) =
        keys.map fun other => (other, (seen.lines? other).getD []) := by
    intro keys hnot
    refine List.map_congr_left fun other hmem => ?_
    have hne : key ≠ other := fun heq => hnot (heq ▸ hmem)
    rw [lines?_record, if_neg (by simpa using hne)]
  have hown : (seen.record key line).2.lines? key =
      some ((seen.lines? key).getD [] ++ [line]) := by
    rw [lines?_record, if_pos (beq_self_eq_true key)]
  have hlisted := h.mem_order_iff key
  rw [entries, entries, toList_order_record]
  split
  · rename_i hseen
    -- The key is listed once, so the row between those before and after it is the only one of it.
    obtain ⟨before, after, hsplit⟩ := List.append_of_mem (hlisted.mpr hseen)
    have hnodup := h.nodup
    rw [hsplit] at hnodup ⊢
    obtain ⟨-, hafter, hapart⟩ := List.nodup_append.mp hnodup
    have hbefore : key ∉ before := fun hmem => hapart key hmem key (List.mem_cons_self ..) rfl
    rw [List.map_append, List.map_append, List.map_cons, List.map_cons, hothers before hbefore,
      hothers after (List.nodup_cons.mp hafter).1, hown]
    exact .appended _ _ key _ rfl
  · rename_i hseen
    have hnew : key ∉ seen.order.toList := fun hmem => hseen (hlisted.mp hmem)
    rw [List.map_append, hothers _ hnew, List.map_singleton, hown,
      Option.not_isSome_iff_eq_none.mp hseen]
    refine .created _ fun row hmem => ?_
    obtain ⟨other, hother, rfl⟩ := List.mem_map.mp hmem
    rintro (heq : other = key)
    exact hnew (heq ▸ hother)

/-- A row of a store has the lines of its key. -/
theorem Occurrences.Coherent.lines?_of_mem_entries {κ : Type} [BEq κ] [LawfulBEq κ]
    [Hashable κ] {seen : Occurrences κ} (h : seen.Coherent) {row : κ × List LineNumber}
    (hmem : row ∈ seen.entries) : seen.lines? row.1 = some row.2 := by
  obtain ⟨key, hkey, rfl⟩ := List.mem_map.mp hmem
  obtain ⟨lines, hlines⟩ := Option.isSome_iff_exists.mp ((h.mem_order_iff key).mp hkey)
  rw [hlines, Option.getD_some]

/-! ## Tables -/

namespace SymbolTable

/-- The rows of the table, each a key and its type with the lines. -/
def rows (table : SymbolTable) : List ((SymbolKey × DeclaredType) × List LineNumber) :=
  table.entries.map fun entry => ((entry.key, entry.declaredType), entry.lines)

theorem Coherent.rows_eq_labelled {table : SymbolTable} (h : table.Coherent) :
    table.rows = labelled table.declaredType? table.occurrences.entries := by
  rw [rows, entries, List.map_filterMap, labelled]
  refine List.filterMap_congr fun row hmem => ?_
  have hlines := h.occurrences.lines?_of_mem_entries hmem
  cases hd : table.declaredType? row.1 <;> simp [get?, hd, hlines]

/-- A sighting adds its line to the rows of the table. -/
theorem Coherent.addsLine {table : SymbolTable} (h : table.Coherent) (seen : Sighting) :
    AddsLine Prod.fst (seen.key, seen.type) seen.line table.rows
      (table.sight (some seen)).rows := by
  have hnext : (table.sight (some seen)).Coherent := h.record seen.key seen.type seen.line
  have hlabel : ∀ row ∈ table.occurrences.entries, (table.declaredType? row.1).isSome = true := by
    intro row hmem
    rw [h.typed_iff_seen, h.occurrences.lines?_of_mem_entries hmem]
    rfl
  rw [h.rows_eq_labelled, hnext.rows_eq_labelled, sight, occurrences_record]
  refine (h.occurrences.addsLine seen.key seen.line).labelled ?_ hlabel ?_
  · intro row hmem
    obtain ⟨type, htype⟩ := Option.isSome_iff_exists.mp (hlabel row hmem)
    rw [declaredType?_record]
    by_cases hk : seen.key = row.1 <;> simp [hk, htype]
  · intro hnew
    have hd : table.declaredType? seen.key = none := by
      rw [← Option.not_isSome_iff_eq_none, h.typed_iff_seen, ← h.occurrences.mem_order_iff]
      exact fun hmem => hnew _ (List.mem_map_of_mem hmem) rfl
    rw [declaredType?_record, hd]
    simp

end SymbolTable

namespace TokenTable

/-- The rows of the table, each a lexeme and its category with the lines. -/
def rows (table : TokenTable) : List ((String × TokenCategory) × List LineNumber) :=
  table.entries.map fun entry => ((entry.lexeme, entry.category), entry.lines)

theorem rows_eq_labelled (table : TokenTable) :
    table.rows = labelled table.category? table.occurrences.entries := by
  rw [rows, entries, List.map_filterMap, labelled]
  refine List.filterMap_congr fun row _ => ?_
  cases hc : table.category? row.1 <;> simp [hc]

/-- A sighting adds its line to the rows of the table. -/
theorem Coherent.addsLine {table : TokenTable} (h : table.Coherent) (lexeme : String)
    (category : TokenCategory) (line : LineNumber) :
    AddsLine Prod.fst (lexeme, category) line table.rows
      (table.classify lexeme category line).2.rows := by
  rw [rows_eq_labelled, rows_eq_labelled, occurrences_classify]
  refine (h.occurrences.addsLine lexeme line).labelled ?_ ?_ ?_
  · intro row hmem
    rw [category?_classify, if_neg]
    rintro ⟨rfl, hnone⟩
    simp [h.occurrences.lines?_of_mem_entries hmem] at hnone
  · intro row hmem
    rw [h.categorized_iff_seen, h.occurrences.lines?_of_mem_entries hmem]
    rfl
  · intro hnew
    rw [category?_classify, if_pos]
    refine ⟨rfl, ?_⟩
    rw [← Option.not_isSome_iff_eq_none, ← h.occurrences.mem_order_iff]
    exact fun hmem => hnew _ (List.mem_map_of_mem hmem) rfl

end TokenTable

end SemanticPass
