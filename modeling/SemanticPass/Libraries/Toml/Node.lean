import SemanticPass.Libraries.Toml.Moment
import SemanticPass.Libraries.Toml.Value

/-!
# Trees of a key file

What keys lead to while a document is read. A table grows in one of three ways, which do not mix: by
the dots of keys, by headers, or by doubled headers. Whether every key of a table is given once, and
whether a point in time is one, is looked at in the end, and only where a value is asked for.
-/

namespace SemanticPass.Toml

/-- The members of a table, in the order they were given. -/
abbrev Members := List (String × Value)

/-- What a key of a table leads to while a document is read. -/
inductive Node where
  /-- A text, a number or a truth value. -/
  | scalar (value : Value)
  /-- A point in time, as it is written. -/
  | moment (written : List Char)
  /-- Values in brackets. -/
  | array (items : List Node)
  /-- A table in braces. -/
  | inline (members : List (String × Node))
  /-- A table made by the dots of keys, which more of them extend. -/
  | dotted (members : List (String × Node))
  /-- A table made by headers, which one header opens. -/
  | headed (opened : Bool) (members : List (String × Node))
  /-- Tables made by doubled headers, of which the last one is open. -/
  | repeated (earlier : List (List (String × Node))) (last : List (String × Node))

/-- The members of a table while a document is read. -/
abbrev Branch := List (String × Node)

namespace Node

/-- Whether headers made the tables of a node. -/
def isHeaded : Node → Bool
  | .headed _ _ | .repeated _ _ => true
  | _ => false

/-- The point in time that a node writes as a text. -/
def momentOf? : Node → Option Value
  | .scalar (.text text) => (moment? text.toList).map fun moment => .text (String.ofList moment)
  | _ => none

end Node

/-- A table whose first key is this one stands for the point in time that the key's text writes. -/
def momentKey : String := "$__toml_private_datetime"

/-- Whether a table with these members stands for a point in time. -/
def standsForMoment (members : List (String × Node)) : Bool :=
  (members.head?.map (·.1)) == some momentKey

/-- Whether headers made tables below a table that stands for a point in time. -/
def splitsMoment (members : List (String × Node)) : Bool :=
  standsForMoment members && members.any (·.2.isHeaded)

mutual

/-- The value that a key leads to in the end. -/
def Node.value? : Node → Option Value
  | .scalar value => some value
  | .moment written => (moment? written).map fun moment => .text (String.ofList moment)
  | .array items => (values? items).map .array
  | .inline members | .dotted members => tableValue? members
  | .headed _ members => if splitsMoment members then none else tableValue? members
  | .repeated earlier last => do
    let tables ← tableValues? earlier
    if splitsMoment last then none else return .array (tables ++ [← tableValue? last])

/-- The value of a table. In one that stands for a point in time no other member counts. -/
def tableValue? : List (String × Node) → Option Value
  | [] => some (.table [])
  | (key, node) :: rest =>
    if key = momentKey then node.momentOf?
    else do
      let value ← node.value?
      let members ← memberValues? rest
      if (members.lookup key).isSome then none else return .table ((key, value) :: members)

/-- The values of members, each key of which is given once. -/
def memberValues? : List (String × Node) → Option Members
  | [] => some []
  | (key, node) :: rest => do
    let value ← node.value?
    let members ← memberValues? rest
    if (members.lookup key).isSome then none else return (key, value) :: members

/-- The values of items. -/
def values? : List Node → Option (List Value)
  | [] => some []
  | item :: items => do
    let value ← item.value?
    return value :: (← values? items)

/-- The values of tables made by doubled headers. -/
def tableValues? : List (List (String × Node)) → Option (List Value)
  | [] => some []
  | members :: tables =>
    if splitsMoment members then none
    else do
      let value ← tableValue? members
      return value :: (← tableValues? tables)

end

namespace Branch

/-- The members with another node at a key. -/
def put (members : Branch) (key : String) (node : Node) : Branch :=
  members.map fun member => if member.1 = key then (key, node) else member

/-- Gives a node to the key at the end of a path. The dots of a path lead through tables that were
made by dots only. -/
def assign? (node : Node) : List String → Branch → Option Branch
  | [], _ => none
  | [key], members => some (members ++ [(key, node)])
  | key :: keys, members =>
    match members.lookup key with
    | none => do return members ++ [(key, .dotted (← assign? node keys []))]
    | some (.dotted inner) => do return put members key (.dotted (← assign? node keys inner))
    | some _ => none

end Branch

end SemanticPass.Toml
