/-!
# Scopes and the names in them

A scope is counted by its nesting depth, zero being the global scope, and a function by the
number of functions entered so far. A name belongs to one scope of one function.
-/

namespace SemanticPass

/-- The depth of a scope; the global scope has depth zero. -/
abbrev ScopeId := UInt32

/-- The number of a function; code before the first function has number zero. -/
abbrev FunctionId := UInt32

/-- Whether a scope is the global one or lies inside it. -/
inductive ScopeKind where
  | global
  | nested
  deriving DecidableEq, Repr

namespace ScopeKind

/-- Only the scope of depth zero is global. -/
def ofScope (scope : ScopeId) : ScopeKind := if scope = 0 then .global else .nested

/-- The name of a kind of scope in listings. -/
def name : ScopeKind → String
  | .global => "GLOBAL"
  | .nested => "NESTED"

theorem ofScope_eq_global_iff (scope : ScopeId) : ofScope scope = .global ↔ scope = 0 := by
  unfold ofScope
  split <;> simp_all

end ScopeKind

/-- A name in one scope of one function. -/
structure SymbolKey where
  /-- The name itself. -/
  name : String
  /-- The scope it belongs to. -/
  scope : ScopeId
  /-- The function that scope lies in. -/
  function : FunctionId
  deriving DecidableEq, Hashable, Repr

end SemanticPass
