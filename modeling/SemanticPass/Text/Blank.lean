/-!
# Blank characters and fields

Blanks are the characters of the Unicode property `White_Space`. Text is trimmed of them at
either end, and a field is a longest run of other characters.

## Implementation notes

All functions work on lists of characters, so that each of them is a `takeWhile` or a
`dropWhile` and the library's lemmas on those apply directly.
-/

namespace SemanticPass.Text

/-- The code points of the property `White_Space`, as ranges with both ends included. -/
def blankRanges : List (Nat × Nat) :=
  [(0x0009, 0x000D), (0x0020, 0x0020), (0x0085, 0x0085), (0x00A0, 0x00A0), (0x1680, 0x1680),
    (0x2000, 0x200A), (0x2028, 0x2029), (0x202F, 0x202F), (0x205F, 0x205F), (0x3000, 0x3000)]

/-- A character is blank when its code point lies in one of the `White_Space` ranges. -/
def isBlank (c : Char) : Bool :=
  blankRanges.any fun range => range.1 ≤ c.toNat && c.toNat ≤ range.2

/-- A character belongs to a field when it is not blank. -/
def isInk (c : Char) : Bool := !isBlank c

/-- Text without the blanks it starts with. -/
def trimStart (text : List Char) : List Char := text.dropWhile isBlank

/-- Text without the blanks it ends with. -/
def trimEnd (text : List Char) : List Char := (text.reverse.dropWhile isBlank).reverse

/-- Text without the blanks at either end. -/
def trim (text : List Char) : List Char := trimEnd (trimStart text)

/-- Splits off the first field, with the rest of the text from the field after it; there is
none in text that is all blank. -/
def splitField (text : List Char) : Option (List Char × List Char) :=
  match trimStart text with
  | [] => none
  | c :: rest => some ((c :: rest).takeWhile isInk, trimStart ((c :: rest).dropWhile isInk))

@[simp]
theorem trimStart_nil : trimStart [] = [] := rfl

@[simp]
theorem trimEnd_nil : trimEnd [] = [] := rfl

/-- Trimming the start leaves a text that does not start with a blank. -/
theorem isBlank_head_trimStart {text rest : List Char} {c : Char}
    (h : trimStart text = c :: rest) : isBlank c = false := by
  induction text with
  | nil => simp at h
  | cons a text ih =>
    rw [trimStart, List.dropWhile_cons] at h
    split at h
    · exact ih h
    · rename_i ha
      cases h
      simpa using ha

/-- A field that was split off is not empty. -/
theorem ne_nil_of_splitField {text field rest : List Char}
    (h : splitField text = some (field, rest)) : field ≠ [] := by
  unfold splitField at h
  split at h
  · cases h
  · rename_i c tail hs
    have hc := isBlank_head_trimStart hs
    cases h
    simp [isInk, hc]

end SemanticPass.Text
