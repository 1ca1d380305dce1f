import Mathlib.Data.List.Forall2
import SemanticPass.Proofs.Listing.Rows
import SemanticPass.Proofs.Run.Texts
import SemanticPass.Proofs.Table.LinearScan

/-!
# Listings are faithful

The listing of a table is a document. It has the rows of the table after a header line, and a notice
on its only line if there are no rows. What a trace puts into the tables has no line feeds, so each
row stands on one line and the listing of a replayed trace can be read back.
-/

namespace SemanticPass

/-- Every literal has its row, in the order of first sighting. -/
theorem ConstantTable.map_literal_entries (table : ConstantTable) :
    table.entries.map Prod.fst = table.occurrences.order.toList := by
  rw [entries, Occurrences.entries, List.map_map]
  exact List.map_id' _

/-- The maps of the tables agree, and the texts in the tables have no line feeds. -/
structure Session.Listable (session : Session) : Prop where
  /-- Every lexeme has its row. -/
  tokens : session.tokens.Coherent
  /-- Every name has its row. -/
  symbols : session.symbols.Coherent
  /-- Each literal, lexeme and name stands on one line. -/
  oneLine : ∀ text ∈ session.texts, '\n' ∉ text.toList

namespace Session.Listable

variable {session : Session}

theorem literal (h : session.Listable) :
    ∀ entry ∈ session.constants.entries, '\n' ∉ entry.1.toList := by
  intro entry hentry
  have hmem := List.mem_map_of_mem (f := Prod.fst) hentry
  rw [ConstantTable.map_literal_entries] at hmem
  exact h.oneLine entry.1 (List.mem_append_left _ hmem)

theorem lexeme (h : session.Listable) :
    ∀ entry ∈ session.tokens.entries, '\n' ∉ entry.lexeme.toList := by
  intro entry hentry
  have hmem := List.mem_map_of_mem (f := TokenEntry.lexeme) hentry
  rw [h.tokens.map_lexeme_entries] at hmem
  exact h.oneLine entry.lexeme (List.mem_append_right _ (List.mem_append_left _ hmem))

theorem name (h : session.Listable) :
    ∀ entry ∈ session.symbols.entries, '\n' ∉ entry.key.name.toList := by
  intro entry hentry
  have hmem := List.mem_map_of_mem (f := SymbolEntry.key) hentry
  rw [h.symbols.map_key_entries] at hmem
  have hname := List.mem_map_of_mem (f := SymbolKey.name) hmem
  exact h.oneLine entry.key.name (List.mem_append_right _ (List.mem_append_right _ hname))

end Session.Listable

/-- A replay of a trace leaves a session whose listings can be read back. -/
theorem Replay.listable_run (sourceName trace : String) :
    ((start sourceName).run trace).2.session.Listable := by
  obtain ⟨events, hrun, -⟩ := exists_events_of_run (start sourceName) trace
  constructor
  · rw [hrun]
    exact tokens_coherent_after sourceName events
  · rw [hrun]
    exact coherent_after sourceName events
  · exact fun _ => lineFeed_not_mem_texts

namespace Listing

/-! ## The lines of a listing -/

/-- The lines of a listing: a header and the rows, or a notice that there are none. -/
def lines (header notice : String) (rows : List String) : List String :=
  if rows.isEmpty then [notice] else header :: rows

/-- A text lists rows, each on a line of its own, and can be taken for nothing else. -/
structure IsListing (header notice : String) (rows : List String) (text : String) : Prop where
  /-- The text has the lines of a listing, each with its line feed. -/
  eq_document : text = document (lines header notice rows)
  /-- The header is one line. -/
  oneHeader : '\n' ∉ header.toList
  /-- The notice is one line. -/
  oneNotice : '\n' ∉ notice.toList
  /-- The header is not the notice. -/
  header_ne : header ≠ notice
  /-- Each row is one line. -/
  oneRow : ∀ row ∈ rows, '\n' ∉ row.toList

/-- The listing of a table with rows: a header line, and then one line for each row. -/
structure Lists (header notice : String) (rows : List String) (text : String) : Prop where
  /-- The lines are the header and the rows, and a line feed ends each of them. -/
  eq_document : text = document (header :: rows)
  /-- No line contains a line feed. -/
  oneLine : ∀ line ∈ header :: rows, '\n' ∉ line.toList
  /-- The text is not the one that says that there are no rows. -/
  ne_notice : text ≠ notice ++ "\n"

namespace IsListing

variable {header notice text other : String} {rows others : List String}

theorem oneLine (h : IsListing header notice rows text) :
    ∀ line ∈ lines header notice rows, '\n' ∉ line.toList := by
  unfold lines
  split
  · simpa using h.oneNotice
  · exact List.forall_mem_cons.mpr ⟨h.oneHeader, h.oneRow⟩

/-- The rows of a listing are read back from its text. -/
theorem rows_inj (h : IsListing header notice rows text)
    (ho : IsListing header notice others other) (heq : text = other) : rows = others := by
  rw [h.eq_document, ho.eq_document] at heq
  have hlines := document_inj h.oneLine ho.oneLine heq
  cases rows with
  | nil =>
      cases others with
      | nil => rfl
      | cons other others => exact absurd (List.cons.inj hlines).1.symm h.header_ne
  | cons row rows =>
      cases others with
      | nil => exact absurd (List.cons.inj hlines).1 h.header_ne
      | cons other others => exact (List.cons.inj hlines).2

theorem lists (h : IsListing header notice rows text) (hne : rows ≠ []) :
    Lists header notice rows text where
  eq_document := by rw [h.eq_document, lines, if_neg (by simpa using hne)]
  oneLine := List.forall_mem_cons.mpr ⟨h.oneHeader, h.oneRow⟩
  ne_notice := by
    intro hnotice
    -- The notice alone is the listing of no rows.
    have hnone : text = document (lines header notice []) := by
      rw [hnotice]
      simp [document, lines]
    exact hne (h.rows_inj ⟨hnone, h.oneHeader, h.oneNotice, h.header_ne, by simp⟩ rfl)

end IsListing

/-! ## The three tables -/

section

variable {α κ : Type} {entries : List α}

/-- A table without keys has no rows. -/
theorem isEmpty_rows {key : α → κ} {order : Array κ} (row : α → String)
    (h : entries.map key = order.toList) : order.isEmpty = (entries.map row).isEmpty := by
  rw [List.isEmpty_map, ← List.isEmpty_map (f := key), h, Array.isEmpty_toList]

theorem rows_ne_nil {key : α → κ} {order : Array κ} {row : α → String}
    (h : entries.map key = order.toList) (hne : order.isEmpty = false) : entries.map row ≠ [] := by
  rwa [Ne, ← List.isEmpty_iff, Bool.not_eq_true, ← isEmpty_rows row h]

theorem lineFeed_not_mem_rows {row first : α → String} {others : α → List (List Char)}
    (hrow : ∀ entry, (row entry).toList = columns (first entry).toList (others entry))
    (hplain : ∀ entry, ∀ column ∈ others entry, IsPlain column)
    (hfirst : ∀ entry ∈ entries, '\n' ∉ (first entry).toList) :
    ∀ line ∈ entries.map row, '\n' ∉ line.toList := by
  intro line hline
  obtain ⟨entry, hentry, rfl⟩ := List.mem_map.mp hline
  rw [hrow]
  exact lineFeed_not_mem_columns (hfirst entry hentry) (hplain entry)

end

section

variable {session : Session}

theorem isListing_constants (h : session.Listable) :
    IsListing "Value | Line No" "No constant table entries"
      (session.constants.entries.map constantRow) (constants session.constants) where
  eq_document := by
    have hempty := isEmpty_rows constantRow session.constants.map_literal_entries
    rw [constants, lines, ConstantTable.isEmpty, Occurrences.isEmpty, hempty]
    split
    · simp [document]
    · rfl
  oneHeader := by decide
  oneNotice := by decide
  header_ne := by decide
  oneRow := lineFeed_not_mem_rows toList_constantRow isPlain_constantColumns h.literal

theorem isListing_tokens (h : session.Listable) :
    IsListing "Lexeme | Token Type | Line No" "No token table entries"
      (session.tokens.entries.map tokenRow) (tokens session.tokens) where
  eq_document := by
    have hempty := isEmpty_rows tokenRow h.tokens.map_lexeme_entries
    rw [tokens, lines, TokenTable.isEmpty, Occurrences.isEmpty, hempty]
    split
    · simp [document]
    · rfl
  oneHeader := by decide
  oneNotice := by decide
  header_ne := by decide
  oneRow := lineFeed_not_mem_rows toList_tokenRow isPlain_tokenColumns h.lexeme

theorem isListing_symbols (h : session.Listable) :
    IsListing "Lexeme | Type | Line No | Scope | Func No" "No symbol table entries"
      (session.symbols.entries.map symbolRow) (symbols session.symbols) where
  eq_document := by
    have hempty := isEmpty_rows symbolRow h.symbols.map_key_entries
    rw [symbols, lines, SymbolTable.isEmpty, Occurrences.isEmpty, hempty]
    split
    · simp [document]
    · rfl
  oneHeader := by decide
  oneNotice := by decide
  header_ne := by decide
  oneRow := lineFeed_not_mem_rows toList_symbolRow isPlain_symbolColumns h.name

end

/-- Rows of names that read alike, one by one, are alike in all that a listing shows. -/
theorem map_listed_eq {entries others : List SymbolEntry}
    (h : entries.map symbolRow = others.map symbolRow) :
    entries.map SymbolEntry.listed = others.map SymbolEntry.listed := by
  rw [← List.forall₂_eq_eq_eq, List.forall₂_map_left_iff, List.forall₂_map_right_iff] at h ⊢
  exact h.imp fun _ _ => listed_eq_of_symbolRow

end Listing

/-- Whatever two traces were replayed, and however far, tables that are listed alike have the same
rows in the same order, but that a listing of names tells only whether a scope is nested. The
listing of a table with rows has a header line and one line for each of its rows, in the order in
which they were made, and is not the text for a table without rows. -/
theorem Replay.run_listings_faithful (sourceName other trace otherTrace : String) :
    let first : Session := ((start sourceName).run trace).2.session
    let second : Session := ((start other).run otherTrace).2.session
    (Listing.constants first.constants = Listing.constants second.constants →
      first.constants.entries = second.constants.entries) ∧
    (Listing.tokens first.tokens = Listing.tokens second.tokens →
      first.tokens.entries = second.tokens.entries) ∧
    (Listing.symbols first.symbols = Listing.symbols second.symbols →
      first.symbols.entries.map SymbolEntry.listed =
        second.symbols.entries.map SymbolEntry.listed) ∧
    first.constants.entries.map Prod.fst = first.constants.occurrences.order.toList ∧
    first.tokens.entries.map TokenEntry.lexeme = first.tokens.occurrences.order.toList ∧
    first.symbols.entries.map SymbolEntry.key = first.symbols.occurrences.order.toList ∧
    (first.constants.isEmpty = false →
      Listing.Lists "Value | Line No" "No constant table entries"
        (first.constants.entries.map Listing.constantRow) (Listing.constants first.constants)) ∧
    (first.tokens.isEmpty = false →
      Listing.Lists "Lexeme | Token Type | Line No" "No token table entries"
        (first.tokens.entries.map Listing.tokenRow) (Listing.tokens first.tokens)) ∧
    (first.symbols.isEmpty = false →
      Listing.Lists "Lexeme | Type | Line No | Scope | Func No" "No symbol table entries"
        (first.symbols.entries.map Listing.symbolRow) (Listing.symbols first.symbols)) := by
  intro first second
  have hf : first.Listable := listable_run sourceName trace
  have hs : second.Listable := listable_run other otherTrace
  have hconstants := first.constants.map_literal_entries
  have htokens := hf.tokens.map_lexeme_entries
  have hsymbols := hf.symbols.map_key_entries
  refine ⟨?_, ?_, ?_, hconstants, htokens, hsymbols, ?_, ?_, ?_⟩
  · intro h
    have hrows := (Listing.isListing_constants hf).rows_inj (Listing.isListing_constants hs) h
    exact Listing.constantRow_injective.list_map hrows
  · intro h
    have hrows := (Listing.isListing_tokens hf).rows_inj (Listing.isListing_tokens hs) h
    exact Listing.tokenRow_injective.list_map hrows
  · intro h
    have hrows := (Listing.isListing_symbols hf).rows_inj (Listing.isListing_symbols hs) h
    exact Listing.map_listed_eq hrows
  · exact fun hne => (Listing.isListing_constants hf).lists (Listing.rows_ne_nil hconstants hne)
  · exact fun hne => (Listing.isListing_tokens hf).lists (Listing.rows_ne_nil htokens hne)
  · exact fun hne => (Listing.isListing_symbols hf).lists (Listing.rows_ne_nil hsymbols hne)

end SemanticPass
