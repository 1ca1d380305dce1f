import SemanticPass.Libraries.Toml.Node

/-!
# Blocks of a key file

The lines of a document, taken together as blocks: a header with the members given below it, up to
the next header. The first block has no header, and its members are those of the topmost table.
-/

namespace SemanticPass.Toml

/-- What a line of a document gives. -/
inductive Line where
  /-- Nothing: the line is blank, or a comment. -/
  | blank
  /-- A header, single or doubled. -/
  | header (doubled : Bool) (path : List String)
  /-- A key with its value. -/
  | member (path : List String) (node : Node)

/-- A header, of which the first block has none, and the members below it. -/
structure Block where
  /-- The path of the header. -/
  path : List String := []
  /-- Whether the header is doubled. -/
  doubled : Bool := false
  /-- The members. -/
  members : Branch := []

namespace Branch

/-- Changes the table that a path of headers leads to, making the tables on the way to it. -/
def within? (change : Branch → Option Branch) : List String → Branch → Option Branch
  | [], members => change members
  | key :: keys, members =>
    match members.lookup key with
    | none => do return members ++ [(key, .headed false (← within? change keys []))]
    | some (.headed opened inner) => do
      return put members key (.headed opened (← within? change keys inner))
    | some (.repeated earlier last) => do
      return put members key (.repeated earlier (← within? change keys last))
    | some _ => none

/-- Puts the members below a header into its table, which one header opens. -/
def openTable? (added : Branch) (key : String) (members : Branch) : Option Branch :=
  match members.lookup key with
  | none => some (members ++ [(key, .headed true added)])
  | some (.headed false inner) => some (put members key (.headed true (inner ++ added)))
  | some _ => none

/-- Puts the members below a doubled header into a new table. -/
def addTable? (added : Branch) (key : String) (members : Branch) : Option Branch :=
  match members.lookup key with
  | none => some (members ++ [(key, .repeated [] added)])
  | some (.repeated earlier last) => some (put members key (.repeated (earlier ++ [last]) added))
  | some _ => none

/-- Puts a block into the topmost table. -/
def addBlock? (members : Branch) (block : Block) : Option Branch :=
  match block.path.getLast? with
  | none => some (members ++ block.members)
  | some key =>
    let change := if block.doubled then addTable? else openTable?
    within? (change block.members key) block.path.dropLast members

end Branch

namespace Block

/-- Gathers lines into blocks, of which the first one goes on from what was read of it. -/
def ofLines? (block : Block) : List Line → Option (List Block)
  | [] => some [block]
  | .blank :: lines => ofLines? block lines
  | .header doubled path :: lines => do return block :: (← ofLines? { path, doubled } lines)
  | .member path node :: lines => do
    let members ← block.members.assign? node path
    ofLines? { block with members } lines

/-- The members of the topmost table. If the first block stands for a point in time, the whole
document does; it has no members then, and the blocks below are not looked at. -/
def members? (blocks : List Block) : Option Members := do
  let top ← match blocks with
    | [] => some []
    | first :: _ =>
      if standsForMoment first.members then some first.members
      else blocks.foldlM Branch.addBlock? []
  match ← tableValue? top with
  | .table members => return members
  | _ => return []

end Block

end SemanticPass.Toml
