import SemanticPass.Text.Blank
import SemanticPass.Text.Lines

/-!
# Indented text

Text that is set off by indentation, as it reads without it. The text begins with its first
character that is not blank, and the indentation is the number of characters before that one on its
line. Every later line loses the blanks among its first so many characters, wherever they stand
among them. Carriage returns and the blanks at the end do not belong to the text.
-/

namespace SemanticPass.Text.Indented

/-- How many characters stand before the first one that is not blank, on its line. -/
def depth (text : List Char) : Nat :=
  ((text.takeWhile isBlank).reverse.takeWhile (· ≠ '\n')).length

/-- A line without the blanks among its first `count` characters. -/
def shift (count : Nat) (line : List Char) : List Char :=
  (line.take count).filter isInk ++ line.drop count

/-- The text without its indentation. -/
def unindent (text : List Char) : List Char :=
  match Lines.ofText ((trimStart text).filter (· ≠ '\r')) with
  | [] => []
  | first :: lines => trimEnd (['\n'].intercalate (first :: lines.map (shift (depth text))))

end SemanticPass.Text.Indented
