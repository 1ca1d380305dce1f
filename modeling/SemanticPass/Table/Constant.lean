import SemanticPass.Occurrences

/-!
# The constant table

Every literal with the lines it stands on. Constants belong to no scope, so the literal alone
is the key.
-/

namespace SemanticPass

/-- The literals seen so far, with their lines. -/
structure ConstantTable where
  /-- The sightings of each literal. -/
  occurrences : Occurrences String := .empty

namespace ConstantTable

/-- The table without literals. -/
def empty : ConstantTable := {}

/-- Adds a sighting of a literal. -/
def add (table : ConstantTable) (literal : String) (line : LineNumber) :
    Recorded × ConstantTable :=
  let (recorded, occurrences) := table.occurrences.record literal line
  (recorded, { occurrences })

/-- Whether the table has no literals. -/
def isEmpty (table : ConstantTable) : Bool := table.occurrences.isEmpty

/-- Every literal with its lines, in the order of first sighting. -/
def entries (table : ConstantTable) : List (String × List LineNumber) := table.occurrences.entries

@[simp]
theorem add_recorded (table : ConstantTable) (literal : String) (line : LineNumber) :
    (table.add literal line).1 = (table.occurrences.record literal line).1 := rfl

end ConstantTable

end SemanticPass
