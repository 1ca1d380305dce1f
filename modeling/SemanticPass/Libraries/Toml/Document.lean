import SemanticPass.Libraries.Toml.Block
import SemanticPass.Libraries.Toml.Quoted

/-!
# Key files

A TOML document gives values to keys, one to a line, in the table that the last header names.
The document is refused as a whole if any line of it is malformed.

All of this, and what the modules on its parts say, is assumed of the library that reads key files.

## Implementation notes

Values nest, so the readers of values take a bound on their recursion. Every two calls consume a
character at least, and the bound is taken from the length of the text.
-/

namespace SemanticPass.Toml

namespace Document

/-- A text without the spaces and tabs it starts with. -/
def skipBlanks (text : List Char) : List Char := text.dropWhile fun c => c = ' ' || c = '\t'

/-- The text after a line end, before which a comment may stand; the end of the text ends a line
too. -/
def lineEnd? (text : List Char) : Option (List Char) :=
  let rest := match skipBlanks text with
    | '#' :: comment => comment.dropWhile fun c => !isLowControl c
    | rest => rest
  match rest with
  | [] => some []
  | '\n' :: rest => some rest
  | '\r' :: '\n' :: rest => some rest
  | _ => none

/-- The text after blanks, line ends and comments; `inComment` says that a comment is open. -/
def skipLines (inComment : Bool) : List Char → Option (List Char)
  | [] => some []
  | '\r' :: '\n' :: rest => skipLines false rest
  | '\n' :: rest => skipLines false rest
  | c :: rest =>
    if inComment then if isLowControl c then none else skipLines true rest
    else if c = '#' then skipLines true rest
    else if c = ' ' || c = '\t' then skipLines false rest
    else some (c :: rest)

/-- A single key: a word, or a string on one line. -/
def key? : List Char → Option (String × List Char)
  | '"' :: rest => (basicString rest).map fun reading => (String.ofList reading.1, reading.2)
  | '\'' :: rest => (literalString rest).map fun reading => (String.ofList reading.1, reading.2)
  | text =>
    match text.takeWhile isKeyChar with
    | [] => none
    | word => some (String.ofList word, text.drop word.length)

/-- Keys with dots between them. -/
def keys? : Nat → List Char → Option (List String × List Char)
  | 0, _ => none
  | bound + 1, text => do
    let (key, rest) ← key? (skipBlanks text)
    match skipBlanks rest with
    | '.' :: rest =>
      let (keys, rest) ← keys? bound rest
      return (key :: keys, rest)
    | rest => return ([key], rest)

/-! ## Values -/

/-- Whether a character can belong to a number. -/
def isNumberChar (c : Char) : Bool := isKeyChar c || c = '+' || c = '.'

/-- A truth value, a point in time or a number. -/
def word? (text : List Char) : Option (Node × List Char) :=
  let word := text.takeWhile isKeyChar
  if word = "true".toList then some (.scalar (.boolean true), text.drop word.length)
  else if word = "false".toList then some (.scalar (.boolean false), text.drop word.length)
  else if isMoment text then
    (momentText? text).map fun reading => (.moment reading.1, reading.2)
  else
    let number := text.takeWhile isNumberChar
    let value := (integer? number).map Value.integer <|> (float? number).map Value.float
    value.map fun value => (.scalar value, text.drop number.length)

mutual

/-- A value. -/
def value? : Nat → List Char → Option (Node × List Char)
  | 0, _ => none
  | bound + 1, text =>
    match text with
    | '[' :: rest => do
      let (items, rest) ← items? bound (← skipLines false rest)
      return (.array items, rest)
    | '\x7b' :: rest => do
      match skipBlanks rest with
      | '\x7d' :: rest => return (.inline [], rest)
      | rest =>
        let (members, rest) ← members? bound [] rest
        return (.inline members, rest)
    | '"' :: _ | '\'' :: _ =>
      (string? text).map fun reading => (.scalar (.text (String.ofList reading.1)), reading.2)
    | _ => word? text

/-- The items of an array up to its closing bracket; a comma may follow the last one. -/
def items? : Nat → List Char → Option (List Node × List Char)
  | 0, _ => none
  | _ + 1, ']' :: rest => some ([], rest)
  | bound + 1, text => do
    let (item, rest) ← value? bound text
    match ← skipLines false rest with
    | ']' :: rest => return ([item], rest)
    | ',' :: rest =>
      let (items, rest) ← items? bound (← skipLines false rest)
      return (item :: items, rest)
    | _ => none

/-- The members of a table on one line, up to its closing brace. -/
def members? : Nat → Branch → List Char → Option (Branch × List Char)
  | 0, _, _ => none
  | bound + 1, members, text => do
    let (keys, rest) ← keys? text.length text
    match rest with
    | '=' :: rest =>
      let (node, rest) ← value? bound (skipBlanks rest)
      let members ← Branch.assign? node keys members
      match skipBlanks rest with
      | '\x7d' :: rest => return (members, rest)
      | ',' :: rest => members? bound members rest
      | _ => none
    | _ => none

end

/-! ## Documents -/

/-- Reads what one line holds before its end. -/
def line? (text : List Char) : Option (Line × List Char) :=
  match skipBlanks text with
  | [] => some (.blank, [])
  | '#' :: rest => some (.blank, '#' :: rest)
  | '\n' :: rest => some (.blank, '\n' :: rest)
  | '\r' :: rest => some (.blank, '\r' :: rest)
  | '[' :: '[' :: rest => do
    match ← keys? text.length rest with
    | (path, ']' :: ']' :: rest) => return (.header true path, rest)
    | _ => none
  | '[' :: rest => do
    match ← keys? text.length rest with
    | (path, ']' :: rest) => return (.header false path, rest)
    | _ => none
  | text => do
    match ← keys? text.length text with
    | (path, '=' :: rest) =>
      let (node, rest) ← value? (2 * text.length + 2) (skipBlanks rest)
      return (.member path node, rest)
    | _ => none

/-- Reads the lines of a document. -/
def lines? : Nat → List Char → Option (List Line)
  | _, [] => some []
  | 0, _ => none
  | bound + 1, text => do
    let (line, rest) ← line? text
    return line :: (← lines? bound (← lineEnd? rest))

/-- Reads a document, before which a byte order mark may stand. -/
def read? (text : String) : Option Members := do
  let chars := match text.toList with
    | '\uFEFF' :: rest => rest
    | chars => chars
  Block.members? (← Block.ofLines? {} (← lines? chars.length chars))

end Document

end SemanticPass.Toml
