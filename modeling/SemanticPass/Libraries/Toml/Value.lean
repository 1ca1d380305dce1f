import SemanticPass.Decimal.Shortest

/-!
# Values of a key file

What a key of a TOML file can hold, and the JSON text of it. The JSON text is compact, with the
members of a table in the order of their keys; characters outside ASCII stand for themselves. A
number that is not finite has no JSON text.
-/

namespace SemanticPass.Toml

/-- A value of a key file. -/
inductive Value where
  | text (text : String)
  | integer (value : Int)
  | float (value : Float)
  | boolean (value : Bool)
  | array (items : List Value)
  | table (members : List (String × Value))

/-- The hexadecimal digits of a control character, of which there are at most two. -/
def hexPair (n : Nat) : List Char := [Nat.digitChar (n / 16), Nat.digitChar (n % 16)]

/-- One character inside a JSON string: quotes, backslashes and control characters are escaped. -/
def jsonChar (c : Char) : List Char :=
  match c with
  | '"' => ['\\', '"']
  | '\\' => ['\\', '\\']
  | '\x08' => ['\\', 'b']
  | '\x0c' => ['\\', 'f']
  | '\n' => ['\\', 'n']
  | '\r' => ['\\', 'r']
  | '\t' => ['\\', 't']
  | c => if c.toNat < 0x20 then ['\\', 'u', '0', '0'] ++ hexPair c.toNat else [c]

/-- A JSON string. -/
def jsonString (text : String) : String :=
  String.ofList ('"' :: text.toList.flatMap jsonChar ++ ['"'])

/-- A double that is no finite number. -/
inductive NonFinite where
  | infinity
  | negativeInfinity
  | notANumber
  deriving DecidableEq, Repr

/-- What a double that is not finite is called. -/
def NonFinite.name : NonFinite → String
  | .infinity => "inf"
  | .negativeInfinity => "-inf"
  | .notANumber => "NaN"

/-- Doubles are written positionally from five places after the point up to sixteen digits
before it. -/
def floatLayout : Decimal.Layout :=
  { leastPositional := -5, greatestPositional := 15, plusSign := true }

/-- A JSON number. -/
def jsonFloat (x : Float) : Except NonFinite String :=
  if x.isFinite then .ok (floatLayout.text x)
  else if x.isNaN then .error .notANumber
  else if x < 0.0 then .error .negativeInfinity
  else .error .infinity

/-- Inserts a member before the first one whose key is not smaller. -/
def insertMember (key text : String) : List (String × String) → List (String × String)
  | [] => [(key, text)]
  | member :: rest =>
    if key ≤ member.1 then (key, text) :: member :: rest
    else member :: insertMember key text rest

/-- A JSON object with its members in the order of their keys. -/
def jsonObject (members : List (String × String)) : String :=
  let texts := members.map fun member => jsonString member.1 ++ ":" ++ member.2
  "\x7b" ++ ",".intercalate texts ++ "\x7d"

mutual

/-- The JSON text of a value. -/
def Value.json : Value → Except NonFinite String
  | .text text => .ok (jsonString text)
  | .integer value => .ok (toString value)
  | .float value => jsonFloat value
  | .boolean value => .ok (if value then "true" else "false")
  | .array items => do return "[" ++ ",".intercalate (← jsonItems items) ++ "]"
  | .table members => do return jsonObject (← jsonMembers members)

/-- The JSON texts of some values. -/
def jsonItems : List Value → Except NonFinite (List String)
  | [] => .ok []
  | item :: items => do
    let text ← item.json
    return text :: (← jsonItems items)

/-- The JSON texts of some members, ordered by their keys. -/
def jsonMembers : List (String × Value) → Except NonFinite (List (String × String))
  | [] => .ok []
  | (key, value) :: members => do
    let text ← value.json
    return insertMember key text (← jsonMembers members)

end

end SemanticPass.Toml
