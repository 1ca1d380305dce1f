import Mathlib.Data.List.Induction
import Std.Data.String.ToNat
import SemanticPass.Listing
import SemanticPass.Proofs.Text.PhysicalLines

/-!
# Rows and what they say

A row puts its columns one after the other, with a bar between blanks from each to the next, and
escapes nothing. The first column may have bars of its own. All others are plain: they consist of
letters, digits and spaces. So a row is read back from its end, and a document from its front, where
each line feed ends a row.
-/

namespace SemanticPass

theorem TokenCategory.eq_of_name {category other : TokenCategory}
    (h : category.name = other.name) : category = other := by
  cases category <;> cases other <;> first | rfl | exact absurd h (by decide)

theorem DeclaredType.eq_of_name {type other : DeclaredType} (h : type.name = other.name) :
    type = other := by
  cases type <;> cases other <;> first | rfl | exact absurd h (by decide)

theorem ScopeKind.eq_of_name {kind other : ScopeKind} (h : kind.name = other.name) :
    kind = other := by
  cases kind <;> cases other <;> first | rfl | exact absurd h (by decide)

/-- What a listing shows of a row of the symbol table: of a scope, only its kind. -/
def SymbolEntry.listed (entry : SymbolEntry) :
    String × DeclaredType × List LineNumber × ScopeKind × FunctionId :=
  (entry.key.name, entry.declaredType, entry.lines, entry.scopeKind, entry.key.function)

namespace Listing

/-! ## Columns -/

/-- What stands between two columns. -/
def separator : List Char := [' ', '|', ' ']

/-- A row of a first column and others after it. -/
def columns (first : List Char) (others : List (List Char)) : List Char :=
  others.foldl (fun row column => row ++ (separator ++ column)) first

/-- A column of letters, digits and spaces. -/
def IsPlain (column : List Char) : Prop := ∀ c ∈ column, c = ' ' ∨ c.isAlphanum = true

theorem isPlain_iff {column : List Char} :
    IsPlain column ↔ (column.all fun c => c == ' ' || c.isAlphanum) = true := by
  simp only [IsPlain, List.all_eq_true, Bool.or_eq_true, beq_iff_eq]

instance (column : List Char) : Decidable (IsPlain column) := decidable_of_iff' _ isPlain_iff

theorem IsPlain.not_mem {column : List Char} (h : IsPlain column) {c : Char}
    (hc : ¬ (c = ' ' ∨ c.isAlphanum = true)) : c ∉ column := fun hmem => hc (h c hmem)

theorem columns_concat (first : List Char) (others : List (List Char)) (column : List Char) :
    columns first (others ++ [column]) = columns first others ++ (separator ++ column) :=
  List.foldl_append

/-- The last separator of a row is the last place of a bar. -/
theorem append_separator_inj {row other column last : List Char} (hc : '|' ∉ column)
    (hl : '|' ∉ last) (h : row ++ (separator ++ column) = other ++ (separator ++ last)) :
    row = other ∧ column = last := by
  -- Read backwards, the row is divided at the first place of a bar.
  have hmirror : ∀ text found : List Char, (text ++ (separator ++ found)).reverse =
      (found.reverse ++ [' ']) ++ '|' :: (' ' :: text.reverse) := by
    intro text found
    simp [separator]
  have hbar : ∀ {found : List Char}, '|' ∉ found → '|' ∉ found.reverse ++ [' '] := by
    intro found hf
    simpa using hf
  have hreverse := congrArg List.reverse h
  rw [hmirror, hmirror] at hreverse
  obtain ⟨hcolumn, hrow⟩ := Text.append_cons_inj (hbar hc) (hbar hl) hreverse
  refine ⟨List.reverse_injective (List.cons.inj hrow).2, ?_⟩
  exact List.reverse_injective (List.append_cancel_right hcolumn)

/-- A row says what its columns are, if all but the first are plain. -/
theorem columns_inj {first other : List Char} {columns' others : List (List Char)}
    (hc : ∀ column ∈ columns', IsPlain column) (ho : ∀ column ∈ others, IsPlain column)
    (hlength : columns'.length = others.length)
    (h : columns first columns' = columns other others) : first = other ∧ columns' = others := by
  -- Columns are taken off the end, because bars in the first column would mislead from the front.
  induction columns' using List.reverseRecOn generalizing others with
  | nil =>
      obtain rfl : others = [] := List.eq_nil_of_length_eq_zero hlength.symm
      exact ⟨h, rfl⟩
  | append_singleton columns' column ih =>
      obtain rfl | ⟨others, last, rfl⟩ := List.eq_nil_or_concat' others
      · simp at hlength
      · rw [columns_concat, columns_concat] at h
        have hbar : ¬ ('|' = ' ' ∨ '|'.isAlphanum = true) := by decide
        obtain ⟨hrow, rfl⟩ := append_separator_inj ((hc column (by simp)).not_mem hbar)
          ((ho last (by simp)).not_mem hbar) h
        obtain ⟨rfl, rfl⟩ := ih (fun found hmem => hc found (List.mem_append_left _ hmem))
          (fun found hmem => ho found (List.mem_append_left _ hmem)) (by simpa using hlength) hrow
        exact ⟨rfl, rfl⟩

/-- A row stands on one line if its first column does and the others are plain. -/
theorem lineFeed_not_mem_columns {first : List Char} {others : List (List Char)}
    (hf : '\n' ∉ first) (ho : ∀ column ∈ others, IsPlain column) :
    '\n' ∉ columns first others := by
  induction others using List.reverseRecOn with
  | nil => exact hf
  | append_singleton others column ih =>
      have hplain := (ho column (by simp)).not_mem (c := '\n') (by decide)
      rw [columns_concat, List.mem_append, List.mem_append]
      rintro (hmem | hmem | hmem)
      · exact ih (fun found hfound => ho found (List.mem_append_left _ hfound)) hmem
      · exact absurd hmem (by decide)
      · exact hplain hmem

/-! ## Numbers -/

theorem isPlain_repr (n : Nat) : IsPlain n.repr.toList := by
  intro c hc
  rw [Nat.toList_repr] at hc
  have hdigit := Nat.isDigit_of_mem_toDigits (by decide) (by decide) hc
  exact .inr (by rw [Char.isAlphanum, hdigit, Bool.or_true])

/-- Digits have no spaces between them. -/
theorem space_not_mem_repr (n : Nat) : ' ' ∉ n.repr.toList := by
  intro hmem
  rw [Nat.toList_repr] at hmem
  exact absurd (Nat.isDigit_of_mem_toDigits (by decide) (by decide) hmem) (by decide)

theorem toList_lineNumbers (lines : List LineNumber) :
    (lineNumbers lines).toList =
      [' '].intercalate (lines.map fun line => line.toNat.repr.toList) := by
  rw [lineNumbers, String.toList_intercalate, List.map_map]
  rfl

theorem isPlain_intercalate {words : List (List Char)} (h : ∀ word ∈ words, IsPlain word) :
    IsPlain ([' '].intercalate words) := by
  induction words with
  | nil => exact fun c hc => by cases hc
  | cons word words ih =>
      have hword := h word (by simp)
      have hwords := ih fun found hmem => h found (by simp [hmem])
      cases words with
      | nil => simpa using hword
      | cons next words =>
          rw [List.intercalate_cons_cons]
          intro c hc
          rcases List.mem_append.mp hc with hc | hc
          · rcases List.mem_append.mp hc with hc | hc
            · exact hword c hc
            · exact .inl (List.mem_singleton.mp hc)
          · exact hwords c hc

theorem isPlain_lineNumbers (lines : List LineNumber) : IsPlain (lineNumbers lines).toList := by
  rw [toList_lineNumbers]
  apply isPlain_intercalate
  intro word hword
  obtain ⟨line, -, rfl⟩ := List.mem_map.mp hword
  exact isPlain_repr line.toNat

theorem eq_nil_of_intercalate {words : List (List Char)} (hw : [] ∉ words)
    (h : [' '].intercalate words = []) : words = [] := by
  cases words with
  | nil => rfl
  | cons word words =>
      cases words with
      | nil =>
          obtain rfl : word = [] := by simpa using h
          simp at hw
      | cons next words =>
          rw [List.intercalate_cons_cons] at h
          simp at h

/-- Words without spaces are read back by splitting them at the spaces. -/
theorem intercalate_inj {words others : List (List Char)} (hw : [] ∉ words) (ho : [] ∉ others)
    (hspace : ∀ word ∈ words, ' ' ∉ word) (hspace' : ∀ word ∈ others, ' ' ∉ word)
    (h : [' '].intercalate words = [' '].intercalate others) : words = others := by
  by_cases hwords : words = []
  · subst hwords
    exact (eq_nil_of_intercalate ho h.symm).symm
  · by_cases hothers : others = []
    · subst hothers
      exact eq_nil_of_intercalate hw h
    · rw [← List.splitOn_intercalate ' ' hspace hwords, h,
        List.splitOn_intercalate ' ' hspace' hothers]

/-- Line numbers are read back from their text. -/
theorem lineNumbers_injective : Function.Injective lineNumbers := by
  intro lines others h
  have htext := congrArg String.toList h
  rw [toList_lineNumbers, toList_lineNumbers] at htext
  have hdigits : Function.Injective fun line : LineNumber => line.toNat.repr.toList := by
    intro line other hline
    exact UInt64.toNat.inj (Nat.repr_inj.mp (String.toList_injective hline))
  have hempty : ∀ numbers : List LineNumber,
      [] ∉ numbers.map fun line => line.toNat.repr.toList := by
    intro numbers hmem
    obtain ⟨line, -, hline⟩ := List.mem_map.mp hmem
    rw [Nat.toList_repr] at hline
    exact Nat.toDigits_ne_nil hline
  have hspace : ∀ numbers : List LineNumber,
      ∀ word ∈ numbers.map fun line => line.toNat.repr.toList, ' ' ∉ word := by
    intro numbers word hword
    obtain ⟨line, -, rfl⟩ := List.mem_map.mp hword
    exact space_not_mem_repr line.toNat
  exact hdigits.list_map
    (intercalate_inj (hempty lines) (hempty others) (hspace lines) (hspace others) htext)

/-! ## Rows -/

theorem isPlain_declaredType (type : DeclaredType) : IsPlain type.name.toList := by
  cases type <;> decide

theorem isPlain_category (category : TokenCategory) : IsPlain category.name.toList := by
  cases category <;> decide

theorem isPlain_scopeKind (kind : ScopeKind) : IsPlain kind.name.toList := by
  cases kind <;> decide

/-- The columns of a constant after the literal. -/
def constantColumns (entry : String × List LineNumber) : List (List Char) :=
  [(lineNumbers entry.2).toList]

/-- The columns of a token after the lexeme. -/
def tokenColumns (entry : TokenEntry) : List (List Char) :=
  [entry.category.name.toList, (lineNumbers entry.lines).toList]

/-- The columns of a name after the name. -/
def symbolColumns (entry : SymbolEntry) : List (List Char) :=
  [entry.declaredType.name.toList, (lineNumbers entry.lines).toList,
    entry.scopeKind.name.toList, entry.key.function.toNat.repr.toList]

theorem toList_constantRow (entry : String × List LineNumber) :
    (constantRow entry).toList = columns entry.1.toList (constantColumns entry) := by
  show (entry.1 ++ " | " ++ lineNumbers entry.2).toList = _
  simp [columns, constantColumns, separator]

theorem toList_tokenRow (entry : TokenEntry) :
    (tokenRow entry).toList = columns entry.lexeme.toList (tokenColumns entry) := by
  show (entry.lexeme ++ " | " ++ entry.category.name ++ " | " ++ lineNumbers entry.lines).toList = _
  simp [columns, tokenColumns, separator]

theorem toList_symbolRow (entry : SymbolEntry) :
    (symbolRow entry).toList = columns entry.key.name.toList (symbolColumns entry) := by
  show (entry.key.name ++ " | " ++ entry.declaredType.name ++ " | " ++ lineNumbers entry.lines ++
    " | " ++ (entry.scopeKind.name ++ " | " ++ entry.key.function.toNat.repr)).toList = _
  simp [columns, symbolColumns, separator]

theorem isPlain_constantColumns (entry : String × List LineNumber) :
    ∀ column ∈ constantColumns entry, IsPlain column := by
  rw [constantColumns, List.forall_mem_singleton]
  exact isPlain_lineNumbers entry.2

theorem isPlain_tokenColumns (entry : TokenEntry) :
    ∀ column ∈ tokenColumns entry, IsPlain column := by
  rw [tokenColumns, List.forall_mem_cons, List.forall_mem_singleton]
  exact ⟨isPlain_category entry.category, isPlain_lineNumbers entry.lines⟩

theorem isPlain_symbolColumns (entry : SymbolEntry) :
    ∀ column ∈ symbolColumns entry, IsPlain column := by
  rw [symbolColumns, List.forall_mem_cons, List.forall_mem_cons, List.forall_mem_cons,
    List.forall_mem_singleton]
  exact ⟨isPlain_declaredType entry.declaredType, isPlain_lineNumbers entry.lines,
    isPlain_scopeKind entry.scopeKind, isPlain_repr entry.key.function.toNat⟩

theorem constantRow_injective : Function.Injective constantRow := by
  intro entry other h
  have hrow := congrArg String.toList h
  rw [toList_constantRow, toList_constantRow] at hrow
  obtain ⟨hliteral, hcolumns⟩ :=
    columns_inj (isPlain_constantColumns entry) (isPlain_constantColumns other) rfl hrow
  simp only [constantColumns, List.cons.injEq, and_true] at hcolumns
  exact Prod.ext (String.toList_injective hliteral)
    (lineNumbers_injective (String.toList_injective hcolumns))

example : constantRow ("a | 1", [2, 3]) = "a | 1 | 2 3" := by decide

theorem tokenRow_injective : Function.Injective tokenRow := by
  intro entry other h
  have hrow := congrArg String.toList h
  rw [toList_tokenRow, toList_tokenRow] at hrow
  obtain ⟨hlexeme, hcolumns⟩ :=
    columns_inj (isPlain_tokenColumns entry) (isPlain_tokenColumns other) rfl hrow
  simp only [tokenColumns, List.cons.injEq, and_true] at hcolumns
  obtain ⟨hcategory, hlines⟩ := hcolumns
  cases entry
  cases other
  rw [TokenEntry.mk.injEq]
  exact ⟨String.toList_injective hlexeme,
    TokenCategory.eq_of_name (String.toList_injective hcategory),
    lineNumbers_injective (String.toList_injective hlines)⟩

/-- Rows of the symbol table that read alike are alike in all that a listing shows. -/
theorem listed_eq_of_symbolRow {entry other : SymbolEntry} (h : symbolRow entry = symbolRow other) :
    entry.listed = other.listed := by
  have hrow := congrArg String.toList h
  rw [toList_symbolRow, toList_symbolRow] at hrow
  obtain ⟨hname, hcolumns⟩ :=
    columns_inj (isPlain_symbolColumns entry) (isPlain_symbolColumns other) rfl hrow
  simp only [symbolColumns, List.cons.injEq, and_true] at hcolumns
  obtain ⟨htype, hlines, hscope, hfunction⟩ := hcolumns
  rw [SymbolEntry.listed, SymbolEntry.listed, Prod.mk.injEq, Prod.mk.injEq, Prod.mk.injEq,
    Prod.mk.injEq]
  exact ⟨String.toList_injective hname, DeclaredType.eq_of_name (String.toList_injective htype),
    lineNumbers_injective (String.toList_injective hlines),
    ScopeKind.eq_of_name (String.toList_injective hscope),
    UInt32.toNat.inj (Nat.repr_inj.mp (String.toList_injective hfunction))⟩

/-! ## Documents -/

theorem toList_document_cons (line : String) (lines : List String) :
    (document (line :: lines)).toList = line.toList ++ '\n' :: (document lines).toList := by
  simp [document]

/-- The lines of a document are read back by splitting it at the line feeds. -/
theorem document_inj {lines others : List String} (hl : ∀ line ∈ lines, '\n' ∉ line.toList)
    (ho : ∀ line ∈ others, '\n' ∉ line.toList) (h : document lines = document others) :
    lines = others := by
  induction lines generalizing others with
  | nil =>
      cases others with
      | nil => rfl
      | cons other others =>
          have htext := congrArg String.toList h
          rw [toList_document_cons] at htext
          simp [document] at htext
  | cons line lines ih =>
      cases others with
      | nil =>
          have htext := congrArg String.toList h
          rw [toList_document_cons] at htext
          simp [document] at htext
      | cons other others =>
          have htext := congrArg String.toList h
          rw [toList_document_cons, toList_document_cons] at htext
          obtain ⟨hline, hrest⟩ :=
            Text.append_cons_inj (hl line (by simp)) (ho other (by simp)) htext
          rw [String.toList_injective hline, ih (fun found hmem => hl found (by simp [hmem]))
            (fun found hmem => ho found (by simp [hmem])) (String.toList_injective hrest)]

end Listing

end SemanticPass
