/-!
# Declared types

The four types a declaration can give, the one-letter tag that names each in a trace, and the
code that stands for each in a type check. The code zero stands for "no type to check".
-/

namespace SemanticPass

/-- The code of a type in a type check. -/
abbrev TypeCode := UInt8

/-- The code of an operand whose type is not checked. -/
def TypeCode.unchecked : TypeCode := 0

/-- A type that a declaration gives to a name. -/
inductive DeclaredType where
  | int
  | float
  | void
  | char
  deriving DecidableEq, Repr

namespace DeclaredType

/-- The declared type that a tag names. -/
def ofTag? : Char → Option DeclaredType
  | 'i' => some .int
  | 'f' => some .float
  | 'v' => some .void
  | 'c' => some .char
  | _ => none

/-- The tag that names a declared type. -/
def tag : DeclaredType → Char
  | .int => 'i'
  | .float => 'f'
  | .void => 'v'
  | .char => 'c'

/-- The code of a declared type. -/
def code : DeclaredType → TypeCode
  | .void => 1
  | .char => 2
  | .int => 3
  | .float => 4

/-- The name of a declared type in listings and log lines. -/
def name : DeclaredType → String
  | .int => "INT"
  | .float => "FLOAT"
  | .void => "VOID"
  | .char => "CHAR"

/-- Each tag names one type only. -/
theorem eq_tag_of_ofTag? {c : Char} {type : DeclaredType} (h : ofTag? c = some type) :
    c = type.tag := by
  unfold ofTag? at h
  split at h <;> cases h <;> rfl

/-- A declared type is always checked. -/
theorem code_ne_unchecked (type : DeclaredType) : type.code ≠ TypeCode.unchecked := by
  cases type <;> decide

end DeclaredType

end SemanticPass
