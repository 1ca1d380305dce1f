/-!
# Decimal numerals

A numeral is a non-empty run of ASCII digits, with leading zeros allowed, after at most one
sign. An unsigned numeral admits only the sign `+`, a signed one also `-`. A numeral whose
value lies outside the range asked for is not read.
-/

namespace SemanticPass.Text.Numeral

/-- The value of one ASCII digit. -/
def digitValue (c : Char) : Nat := c.toNat - '0'.toNat

/-- The value of a run of digits, the most significant first. -/
def value (digits : List Char) : Nat :=
  digits.foldl (fun total c => 10 * total + digitValue c) 0

/-- Reads a non-empty run of ASCII digits that is nothing else. -/
def digits? (text : List Char) : Option Nat :=
  if !text.isEmpty && text.all Char.isDigit then some (value text) else none

/-- Reads a numeral below the bound, with at most one leading `+`. -/
def unsigned? (bound : Nat) (text : List Char) : Option Nat :=
  let magnitude := match text with
    | '+' :: rest => digits? rest
    | _ => digits? text
  magnitude.filter (· < bound)

/-- Reads a numeral from `-bound` up to, but not including, `bound`, with at most one sign. -/
def signed? (bound : Nat) (text : List Char) : Option Int :=
  match text with
  | '-' :: rest => ((digits? rest).filter (· ≤ bound)).map fun n => -(n : Int)
  | _ => (unsigned? bound text).map fun n => (n : Int)

/-- Reads an unsigned 64-bit numeral. -/
def word64? (text : List Char) : Option UInt64 := (unsigned? UInt64.size text).map UInt64.ofNat

/-- Reads an unsigned 8-bit numeral. -/
def word8? (text : List Char) : Option UInt8 := (unsigned? UInt8.size text).map UInt8.ofNat

/-- Reads a signed 64-bit numeral, on either side of zero half the words. -/
def integer64? (text : List Char) : Option Int64 :=
  (signed? (UInt64.size / 2) text).map Int64.ofInt

end SemanticPass.Text.Numeral
