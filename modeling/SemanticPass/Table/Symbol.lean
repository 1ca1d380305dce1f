import SemanticPass.DeclaredType
import SemanticPass.Occurrences
import SemanticPass.Scope

/-!
# The symbol table

Every name, in its scope and function, with its declared type and the lines it stands on. The
first recording of a key fixes its type. For each name the oldest of its keys is kept, whatever
its scope and function, because a use refers to that one.
-/

namespace SemanticPass

/-- The names recorded so far, with their lines, their types and the oldest key of each name. -/
structure SymbolTable where
  /-- The sightings of each key. -/
  occurrences : Occurrences SymbolKey := .empty
  /-- The type each key was first given. -/
  declaredTypes : Std.HashMap SymbolKey DeclaredType := ∅
  /-- The oldest key of each name. -/
  firstByName : Std.HashMap String SymbolKey := ∅

/-- A row of the symbol table. -/
structure SymbolEntry where
  /-- The name in its scope and function. -/
  key : SymbolKey
  /-- Its declared type. -/
  declaredType : DeclaredType
  /-- The lines it stands on, in the order they were recorded. -/
  lines : List LineNumber
  deriving DecidableEq, Repr

/-- Whether a row belongs to the global scope. -/
def SymbolEntry.scopeKind (entry : SymbolEntry) : ScopeKind := .ofScope entry.key.scope

namespace SymbolTable

/-- The table without names. -/
def empty : SymbolTable := {}

/-- The type a key was declared with, or none if it was not recorded. -/
def declaredType? (table : SymbolTable) (key : SymbolKey) : Option DeclaredType :=
  table.declaredTypes[key]?

/-- Records a sighting of a key; the type is kept only if the key has none. -/
def record (table : SymbolTable) (key : SymbolKey) (declaredType : DeclaredType)
    (line : LineNumber) : Recorded × SymbolTable :=
  let (recorded, occurrences) := table.occurrences.record key line
  if table.declaredTypes.contains key then (recorded, { table with occurrences })
  else
    (recorded, {
      occurrences
      declaredTypes := table.declaredTypes.insert key declaredType
      firstByName := table.firstByName.insertIfNew key.name key })

/-- The row of a key, or none if it was not recorded. -/
def get? (table : SymbolTable) (key : SymbolKey) : Option SymbolEntry := do
  let declaredType ← table.declaredType? key
  let lines ← table.occurrences.lines? key
  return { key, declaredType, lines }

/-- The oldest row of a name, whatever its scope and function. -/
def firstNamed? (table : SymbolTable) (name : String) : Option SymbolEntry :=
  table.firstByName[name]?.bind table.get?

/-- Whether the table has no names. -/
def isEmpty (table : SymbolTable) : Bool := table.occurrences.isEmpty

/-- The rows of the table, in the order of first recording. -/
def entries (table : SymbolTable) : List SymbolEntry :=
  table.occurrences.entries.filterMap fun (key, _) => table.get? key

@[simp]
theorem occurrences_record (table : SymbolTable) (key : SymbolKey) (declaredType : DeclaredType)
    (line : LineNumber) :
    (table.record key declaredType line).2.occurrences =
      (table.occurrences.record key line).2 := by
  unfold record
  dsimp only
  split <;> rfl

@[simp]
theorem record_recorded (table : SymbolTable) (key : SymbolKey) (declaredType : DeclaredType)
    (line : LineNumber) :
    (table.record key declaredType line).1 = (table.occurrences.record key line).1 := by
  unfold record
  dsimp only
  split <;> rfl

/-- A type, once given, stands; recording gives one to the key that has none. -/
theorem declaredType?_record (table : SymbolTable) (key : SymbolKey)
    (declaredType : DeclaredType) (line : LineNumber) (other : SymbolKey) :
    (table.record key declaredType line).2.declaredType? other =
      if key == other && (table.declaredType? key).isNone then some declaredType
      else table.declaredType? other := by
  simp only [declaredType?, record]
  by_cases hk : key ∈ table.declaredTypes
  · simp [hk]
  · have hc : table.declaredTypes.contains key = false := by simpa using hk
    by_cases h : key = other
    · subst h
      simp [hc, hk]
    · simp [hc, h, Std.HashMap.getElem?_insert]

/-- The oldest key of a name stands; a new key becomes it for a name that has none. -/
theorem firstByName_record (table : SymbolTable) (key : SymbolKey) (declaredType : DeclaredType)
    (line : LineNumber) (name : String) :
    (table.record key declaredType line).2.firstByName[name]? =
      if (table.declaredType? key).isNone && key.name == name &&
          table.firstByName[name]?.isNone then some key
      else table.firstByName[name]? := by
  simp only [declaredType?, record]
  by_cases hk : key ∈ table.declaredTypes
  · simp [hk]
  · have hc : table.declaredTypes.contains key = false := by simpa using hk
    simp only [hc, Bool.false_eq_true, if_false, Std.HashMap.getElem?_insertIfNew]
    by_cases hn : key.name = name
    · subst hn
      by_cases hf : key.name ∈ table.firstByName <;> simp [hk, hf]
    · simp [hn]

end SymbolTable

end SemanticPass
