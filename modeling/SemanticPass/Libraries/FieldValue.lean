import SemanticPass.Text.Hexadecimal
import SemanticPass.Text.Indented

/-!
# Reading the value of a setting

A setting is given as a text that is read leniently. The value of a text setting may stand in
quotes, with escapes, or in three single quotes, with its indentation, or be everything up to the
end of the line; `null` stands for no value. Blanks, comments and stray stars and slashes may come
before it, and after a value that has an end of its own. A truth value is one of two words, with
nothing before it.

All of this is assumed of the library that reads values.
-/

namespace SemanticPass.FieldValue

open Text

/-- What a reader of filler is in the middle of. -/
inductive Filler where
  | blanks
  | slash
  | lineComment
  | blockComment
  deriving DecidableEq, Repr

/-- The text after its filler, which is blanks, comments, stars, and slashes except one right before
other text. A comment has to end: one that runs to the end of the line with a line feed, and any
other with a star and a slash, where the star may be the one it begins with. -/
def skip : Filler → List Char → Option (List Char)
  | .blanks, [] | .slash, [] => some []
  | .lineComment, [] | .blockComment, [] => none
  | .lineComment, c :: rest => if c = '\n' then skip .blanks rest else skip .lineComment rest
  | .blockComment, '*' :: '/' :: rest => skip .blanks rest
  | .blockComment, _ :: rest => skip .blockComment rest
  | .slash, '/' :: rest => skip .lineComment rest
  | .slash, '*' :: '/' :: rest => skip .blanks rest
  | .slash, '*' :: rest => skip .blockComment rest
  | .blanks, '/' :: rest => skip .slash rest
  | .blanks, '*' :: rest => skip .blanks rest
  | _, '#' :: rest => skip .lineComment rest
  | before, c :: rest =>
    if isBlank c then skip .blanks rest
    else if before = .slash then some ('/' :: c :: rest)
    else some (c :: rest)

/-- Whether only filler is left. -/
def isOver (text : List Char) : Bool := skip .blanks text = some []

/-- The character that a letter after a backslash stands for. -/
def escaped? : Char → Option Char
  | '"' => some '"'
  | '\'' => some '\''
  | '\\' => some '\\'
  | '/' => some '/'
  | 'b' => some '\x08'
  | 'f' => some '\x0c'
  | 'n' => some '\n'
  | 'r' => some '\r'
  | 't' => some '\t'
  | _ => none

/-- The character of four characters after `\u`: its code point in hexadecimal digits, with a plus
sign allowed in front. -/
def codePoint? : List Char → Option Char
  | '+' :: digits => Hexadecimal.character? digits
  | digits => Hexadecimal.character? digits

/-- Reads a string up to its closing quote, and answers it with the text after that. -/
def quoted? (quote : Char) : List Char → Option (List Char × List Char)
  | [] => none
  | '\\' :: 'u' :: a :: b :: c :: d :: rest => do
    let character ← codePoint? [a, b, c, d]
    return (← quoted? quote rest).map (character :: ·) id
  | '\\' :: c :: rest => do
    let character ← escaped? c
    return (← quoted? quote rest).map (character :: ·) id
  | c :: rest =>
    if c = quote then some ([], rest)
    else if c = '\\' then none
    else do return (← quoted? quote rest).map (c :: ·) id

/-- The text before three single quotes, and the text after them. -/
def untilTripleQuote? : List Char → Option (List Char × List Char)
  | [] => none
  | '\'' :: '\'' :: '\'' :: rest => some ([], rest)
  | c :: rest => (untilTripleQuote? rest).map fun reading => (c :: reading.1, reading.2)

/-- Reads a string in three single quotes, after the opening ones. The rest of their line does not
belong to it. -/
def indented? (text : List Char) : Option (List Char × List Char) :=
  match text.dropWhile (· ≠ '\n') with
  | [] => none
  | _ :: body => (untilTripleQuote? body).map fun reading =>
    (Indented.unindent reading.1, reading.2)

/-- Whether a character ends the line. -/
def endsLine (c : Char) : Bool := c = '\n' || c = '\r'

/-- Reads a string whose first character is not blank: in quotes, or up to the end of the line. -/
def string? : List Char → Option (List Char × List Char)
  | '\'' :: '\'' :: '\'' :: rest => indented? rest
  | '"' :: rest => quoted? '"' rest
  | '\'' :: rest => quoted? '\'' rest
  | [] => none
  | c :: rest =>
    if [',', ':', '[', ']', '\x7b', '\x7d'].contains c then none
    else
      let line := (c :: rest).takeWhile (!endsLine ·)
      some (line, (c :: rest).drop (line.length + 1))

/-- The text without a word it starts with, or none if it starts otherwise. -/
def afterWord? (word : String) (text : List Char) : Option (List Char) :=
  if word.toList.isPrefixOf text then some (text.drop word.length) else none

/-- Reads the value of a text setting; the inner `none` is the value `null`. -/
def text? (raw : String) : Option (Option String) := do
  let text ← skip .blanks raw.toList
  match afterWord? "null" text with
  | some rest => if isOver rest then some none else none
  | none =>
    let (found, rest) ← string? text
    if isOver rest then some (some (String.ofList found)) else none

/-- Reads a truth value. -/
def truth? (raw : String) : Option Bool :=
  match afterWord? "true" raw.toList, afterWord? "false" raw.toList with
  | some rest, _ => if isOver rest then some true else none
  | _, some rest => if isOver rest then some false else none
  | none, none => none

end SemanticPass.FieldValue
