import SemanticPass.Event
import SemanticPass.Text.Blank
import SemanticPass.Text.Numeral

/-!
# Reading events

An event is written as a keyword and its fields, separated by blanks. Every field is one run of
characters that are not blank, except the text of a token and of a constant, which is all that
is left and may have blanks inside. Nothing may follow the last field.

## Implementation notes

A field reader takes the text that is left and returns the field's value with what is left
after it. Fields are read from left to right, so the first fault decides the error.
-/

namespace SemanticPass

/-- The fields an event may have. -/
inductive Field where
  | tokenTag
  | line
  | lexeme
  | literal
  | name
  | typeTag
  | typeCode
  | actualCode
  | expectedCode
  | indexValue
  | direction
  deriving DecidableEq, Repr

/-- What a field is called in an error. -/
def Field.title : Field → String
  | .tokenTag => "token kind tag"
  | .line => "line number"
  | .lexeme => "lexeme"
  | .literal => "literal"
  | .name => "name"
  | .typeTag => "declared type tag"
  | .typeCode => "type code"
  | .actualCode => "actual type code"
  | .expectedCode => "expected type code"
  | .indexValue => "index value"
  | .direction => "scope direction"

/-- What can be wrong with the text of an event. -/
inductive ReadError where
  /-- There is no keyword. -/
  | empty
  /-- The text ends before a field. -/
  | missing (field : Field)
  /-- A field is no value of its kind. -/
  | invalid (field : Field) (found : String)
  /-- A tag has more than one character. -/
  | notOneCharacter (field : Field) (found : String)
  /-- Something follows the last field. -/
  | trailing (rest : String)
  /-- A scope is neither entered nor left. -/
  | unknownDirection (found : String)
  /-- No event has this keyword. -/
  | unknownKeyword (found : String)
  deriving DecidableEq, Repr

/-- The words of a reading error. -/
def ReadError.message : ReadError → String
  | .empty => "empty event"
  | .missing field => s!"missing {field.title}"
  | .invalid field found => s!"invalid {field.title}: {found}"
  | .notOneCharacter field found => s!"{field.title} must be a single character, found {found}"
  | .trailing rest => s!"unexpected trailing input: {rest}"
  | .unknownDirection found => s!"unknown scope direction: {found}"
  | .unknownKeyword found => s!"unknown event: {found}"

/-- The keywords that begin an event. -/
inductive Keyword where
  | token
  | constant
  | declare
  | record
  | use
  | type
  | endtype
  | expect
  | check
  | index
  | scope
  | function
  deriving DecidableEq, Repr

namespace Keyword

/-- Every keyword. -/
def all : List Keyword :=
  [.token, .constant, .declare, .record, .use, .type, .endtype, .expect, .check, .index, .scope,
    .function]

/-- How a keyword is written. -/
def text : Keyword → String
  | .token => "token"
  | .constant => "constant"
  | .declare => "declare"
  | .record => "record"
  | .use => "use"
  | .type => "type"
  | .endtype => "endtype"
  | .expect => "expect"
  | .check => "check"
  | .index => "index"
  | .scope => "scope"
  | .function => "function"

/-- The keyword that is written so. -/
def ofText? (text : String) : Option Keyword := all.find? fun keyword => keyword.text == text

@[simp]
theorem ofText?_text (keyword : Keyword) : ofText? keyword.text = some keyword := by
  cases keyword <;> decide

/-- Each keyword is written in one way only. -/
theorem eq_text_of_ofText? {text : String} {keyword : Keyword} (h : ofText? text = some keyword) :
    text = keyword.text := by
  have := List.find?_some h
  simpa using (beq_iff_eq.1 this).symm

end Keyword

namespace Event

open Text

/-- Reads the next field as it is written. -/
def readField (field : Field) (text : List Char) : Except ReadError (List Char × List Char) :=
  match splitField text with
  | some reading => .ok reading
  | none => .error (.missing field)

/-- Reads the next field as a value. -/
def readValue {α : Type} (value? : List Char → Option α) (field : Field) (text : List Char) :
    Except ReadError (α × List Char) := do
  let (found, rest) ← readField field text
  match value? found with
  | some value => .ok (value, rest)
  | none => .error (.invalid field (String.ofList found))

/-- Reads the next field as a single character. -/
def readTag (field : Field) (text : List Char) : Except ReadError (Char × List Char) := do
  let (found, rest) ← readField field text
  match found with
  | [tag] => .ok (tag, rest)
  | _ => .error (.notOneCharacter field (String.ofList found))

/-- Reads all that is left, without the blanks it ends with. -/
def readText (field : Field) (text : List Char) : Except ReadError String :=
  match trimEnd text with
  | [] => .error (.missing field)
  | found => .ok (String.ofList found)

/-- Accepts an event if nothing is left. -/
def finish (text : List Char) (event : Event) : Except ReadError Event :=
  match trim text with
  | [] => .ok event
  | rest => .error (.trailing (String.ofList rest))

/-- A line number. -/
def readLine (text : List Char) : Except ReadError (LineNumber × List Char) :=
  readValue Numeral.word64? .line text

/-- The operand of a check: an underscore stands for the result of the last use. -/
def actualType? (found : List Char) : Option ActualType :=
  if found = ['_'] then some .lastResolved else (Numeral.word8? found).map .code

/-- A line number and a name, with nothing after them. -/
def readNamed (event : LineNumber → String → Event) (text : List Char) :
    Except ReadError Event := do
  let (line, rest) ← readLine text
  let (name, rest) ← readField .name rest
  finish rest (event line (String.ofList name))

/-- Reads the fields that belong to a keyword. -/
def readFields (keyword : Keyword) (text : List Char) : Except ReadError Event :=
  match keyword with
  | .token => do
    let (tag, rest) ← readTag .tokenTag text
    let (line, rest) ← readLine rest
    let lexeme ← readText .lexeme rest
    return .token tag line lexeme
  | .constant => do
    let (line, rest) ← readLine text
    let literal ← readText .literal rest
    return .constant line literal
  | .declare => readNamed .declare text
  | .record => readNamed .record text
  | .use => readNamed .use text
  | .type => do
    let (tag, rest) ← readTag .typeTag text
    finish rest (.beginType tag)
  | .endtype => finish text .endType
  | .expect => do
    let (code, rest) ← readValue Numeral.word8? .typeCode text
    finish rest (.expect code)
  | .check => do
    let (actual, rest) ← readValue actualType? .actualCode text
    let (expected, rest) ← readValue Numeral.word8? .expectedCode rest
    let (line, rest) ← readLine rest
    finish rest (.check actual expected line)
  | .index => do
    let (value, rest) ← readValue Numeral.integer64? .indexValue text
    let (line, rest) ← readLine rest
    finish rest (.index value line)
  | .scope => do
    let (direction, rest) ← readField .direction text
    match String.ofList direction with
    | "enter" => finish rest .enterScope
    | "exit" => finish rest .exitScope
    | other => .error (.unknownDirection other)
  | .function => finish text .enterFunction

/-- Reads the event that a line writes. -/
def read (text : List Char) : Except ReadError Event :=
  match splitField text with
  | none => .error .empty
  | some (word, rest) =>
    match Keyword.ofText? (String.ofList word) with
    | none => .error (.unknownKeyword (String.ofList word))
    | some keyword => readFields keyword rest

end Event

end SemanticPass
