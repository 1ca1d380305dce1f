import SemanticPass.Text.Hexadecimal

/-!
# Quoted strings of a key file

The four kinds of strings that TOML 1.0 has: in double quotes, with escapes, or in single quotes,
without them, and each of these on one line or, with the quotes tripled, on several. A reader takes
the text after the opening quotes and returns the string with the text after the closing ones.
-/

namespace SemanticPass.Toml

open Text

/-- A character that no comment may contain. -/
def isLowControl (c : Char) : Bool := c.toNat < 0x20 && c ≠ '\t'

/-- A character that no string may contain as it is. -/
def isControl (c : Char) : Bool := isLowControl c || c.toNat = 0x7F

/-- The character that a letter after a backslash stands for. -/
def escape? : Char → Option Char
  | 'b' => some '\x08'
  | 't' => some '\t'
  | 'n' => some '\n'
  | 'f' => some '\x0c'
  | 'r' => some '\r'
  | '"' => some '"'
  | '\\' => some '\\'
  | _ => none

/-- Puts a character in front of a string that was read. -/
def onto (c : Char) (reading : List Char × List Char) : List Char × List Char :=
  (c :: reading.1, reading.2)

/-- A string in double quotes, on one line. -/
def basicString : List Char → Option (List Char × List Char)
  | [] => none
  | '"' :: rest => some ([], rest)
  | '\\' :: 'u' :: a :: b :: c :: d :: rest => do
    return onto (← Hexadecimal.character? [a, b, c, d]) (← basicString rest)
  | '\\' :: 'U' :: a :: b :: c :: d :: e :: f :: g :: h :: rest => do
    return onto (← Hexadecimal.character? [a, b, c, d, e, f, g, h]) (← basicString rest)
  | '\\' :: c :: rest => do return onto (← escape? c) (← basicString rest)
  | c :: rest => do
    if isControl c then none else return onto c (← basicString rest)

/-- A string in single quotes, on one line and without escapes. -/
def literalString : List Char → Option (List Char × List Char)
  | [] => none
  | '\'' :: rest => some ([], rest)
  | c :: rest => do
    if isControl c then none else return onto c (← literalString rest)

/-- The text after up to two further quotes that belong to the string just before its end. -/
def closing (quote : Char) (text : List Char) : List Char × List Char :=
  let extra := (text.takeWhile (· = quote)).take 2
  (extra, text.drop extra.length)

/-- Whether a line ends after some blanks. -/
def endsLine (text : List Char) : Bool :=
  match text.dropWhile fun c => c = ' ' || c = '\t' with
  | '\n' :: _ => true
  | '\r' :: '\n' :: _ => true
  | _ => false

/-- A string in three double quotes. A backslash at the end of a line, and all blanks and line
ends after it, are passed over; `joining` says that the reader is among those. -/
def longString (joining : Bool) : List Char → Option (List Char × List Char)
  | [] => none
  | '"' :: '"' :: '"' :: rest => some (closing '"' rest)
  | '\r' :: '\n' :: rest => do
    let reading ← longString joining rest
    return if joining then reading else onto '\n' reading
  | '\\' :: 'u' :: a :: b :: c :: d :: rest => do
    return onto (← Hexadecimal.character? [a, b, c, d]) (← longString false rest)
  | '\\' :: 'U' :: a :: b :: c :: d :: e :: f :: g :: h :: rest => do
    return onto (← Hexadecimal.character? [a, b, c, d, e, f, g, h]) (← longString false rest)
  | '\\' :: c :: rest => do
    if endsLine (c :: rest) then longString true (c :: rest)
    else return onto (← escape? c) (← longString false rest)
  | c :: rest => do
    if joining && (c = ' ' || c = '\t' || c = '\n') then longString true rest
    else if isControl c && c ≠ '\n' then none
    else return onto c (← longString false rest)

/-- A string in three single quotes. -/
def longLiteral : List Char → Option (List Char × List Char)
  | [] => none
  | '\'' :: '\'' :: '\'' :: rest => some (closing '\'' rest)
  | '\r' :: '\n' :: rest => do return onto '\n' (← longLiteral rest)
  | c :: rest => do
    if isControl c && c ≠ '\n' then none else return onto c (← longLiteral rest)

/-- A line end right after the opening quotes of a long string does not belong to it. -/
def dropFirstLineEnd : List Char → List Char
  | '\n' :: rest => rest
  | '\r' :: '\n' :: rest => rest
  | text => text

/-- A string of any of the four kinds, or none if the text starts with no quote. -/
def string? : List Char → Option (List Char × List Char)
  | '"' :: '"' :: '"' :: rest => longString false (dropFirstLineEnd rest)
  | '\'' :: '\'' :: '\'' :: rest => longLiteral (dropFirstLineEnd rest)
  | '"' :: rest => basicString rest
  | '\'' :: rest => literalString rest
  | _ => none

end SemanticPass.Toml
