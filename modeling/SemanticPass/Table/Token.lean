import SemanticPass.Occurrences
import SemanticPass.TokenCategory

/-!
# The token table

Every lexeme with its category and the lines it stands on. The first classification of a lexeme
stands; later ones only add their line.
-/

namespace SemanticPass

/-- The lexemes seen so far, with their lines and their categories. -/
structure TokenTable where
  /-- The sightings of each lexeme. -/
  occurrences : Occurrences String := .empty
  /-- The category each lexeme was first given. -/
  categories : Std.HashMap String TokenCategory := ∅

/-- A row of the token table. -/
structure TokenEntry where
  /-- The token as written. -/
  lexeme : String
  /-- Its category. -/
  category : TokenCategory
  /-- The lines it stands on, in the order they were recorded. -/
  lines : List LineNumber
  deriving DecidableEq, Repr

namespace TokenTable

/-- The table without lexemes. -/
def empty : TokenTable := {}

/-- Adds a sighting of a lexeme; its category is kept only if the lexeme is new. -/
def classify (table : TokenTable) (lexeme : String) (category : TokenCategory)
    (line : LineNumber) : Recorded × TokenTable :=
  match table.occurrences.record lexeme line with
  | (.created, occurrences) =>
    (.created, { occurrences, categories := table.categories.insert lexeme category })
  | (.appended, occurrences) => (.appended, { table with occurrences })

/-- The category of a lexeme, or none if it was not seen. -/
def category? (table : TokenTable) (lexeme : String) : Option TokenCategory :=
  table.categories[lexeme]?

/-- Whether the table has no lexemes. -/
def isEmpty (table : TokenTable) : Bool := table.occurrences.isEmpty

/-- The rows of the table, in the order of first sighting. -/
def entries (table : TokenTable) : List TokenEntry :=
  table.occurrences.entries.filterMap fun (lexeme, lines) =>
    (table.category? lexeme).map fun category => { lexeme, category, lines }

@[simp]
theorem occurrences_classify (table : TokenTable) (lexeme : String) (category : TokenCategory)
    (line : LineNumber) :
    (table.classify lexeme category line).2.occurrences =
      (table.occurrences.record lexeme line).2 := by
  unfold classify
  split <;> simp_all

@[simp]
theorem classify_recorded (table : TokenTable) (lexeme : String) (category : TokenCategory)
    (line : LineNumber) :
    (table.classify lexeme category line).1 = (table.occurrences.record lexeme line).1 := by
  unfold classify
  split <;> simp_all

end TokenTable

end SemanticPass
