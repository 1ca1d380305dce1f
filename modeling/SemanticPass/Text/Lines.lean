/-!
# Physical lines

A line ends with a line feed; the last one may end with the text instead. A carriage return
before the line feed stays with its line: whoever reads lines trims them, and a carriage
return is a blank.
-/

namespace SemanticPass.Text.Lines

/-- Puts a character in front of text that is already split: a line feed closes a new first
line, any other character belongs to the line that follows it. -/
def pushFront (c : Char) : List (List Char) → List (List Char)
  | [] => if c = '\n' then [[]] else [[c]]
  | line :: lines => if c = '\n' then [] :: line :: lines else (c :: line) :: lines

/-- The lines of a text, without their line feeds. -/
def ofText (text : List Char) : List (List Char) := text.foldr pushFront []

@[simp]
theorem ofText_nil : ofText [] = [] := rfl

@[simp]
theorem ofText_cons (c : Char) (text : List Char) :
    ofText (c :: text) = pushFront c (ofText text) := rfl

/-- A character goes to the first line also when more lines follow. -/
theorem pushFront_append (c : Char) {lines : List (List Char)} (h : lines ≠ [])
    (more : List (List Char)) : pushFront c (lines ++ more) = pushFront c lines ++ more := by
  cases lines with
  | nil => exact absurd rfl h
  | cons line lines => simp only [List.cons_append, pushFront]; split <;> rfl

/-- Some line results from every character. -/
theorem pushFront_ne_nil (c : Char) (lines : List (List Char)) : pushFront c lines ≠ [] := by
  cases lines <;> simp only [pushFront] <;> split <;> simp

/-- Text that ends with a line feed splits independently of what follows it. -/
theorem ofText_append (first second : List Char) :
    ofText (first ++ '\n' :: second) = ofText (first ++ ['\n']) ++ ofText second := by
  induction first with
  | nil =>
    simp only [List.nil_append, ofText_cons, ofText_nil]
    cases ofText second <;> simp [pushFront]
  | cons c first ih =>
    simp only [List.cons_append, ofText_cons, ih]
    apply pushFront_append
    cases first with
    | nil => exact pushFront_ne_nil '\n' []
    | cons d first => exact pushFront_ne_nil d _

end SemanticPass.Text.Lines
