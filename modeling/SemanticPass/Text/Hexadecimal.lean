/-!
# Code points in hexadecimal

The value of a hexadecimal digit, of either case, and the character whose code point a run of such
digits gives. Surrogates and numbers beyond the last code point give no character.
-/

namespace SemanticPass.Text.Hexadecimal

/-- The value of a hexadecimal digit. -/
def digit? (c : Char) : Option Nat :=
  if c.isDigit then some (c.toNat - '0'.toNat)
  else if 'a' ≤ c && c ≤ 'f' then some (c.toNat - 'a'.toNat + 10)
  else if 'A' ≤ c && c ≤ 'F' then some (c.toNat - 'A'.toNat + 10)
  else none

/-- The character whose code point the digits give. -/
def character? (digits : List Char) : Option Char := do
  let values ← digits.mapM digit?
  let code := values.foldl (fun total value => 16 * total + value) 0
  if code.isValidChar then some (Char.ofNat code) else none

end SemanticPass.Text.Hexadecimal
