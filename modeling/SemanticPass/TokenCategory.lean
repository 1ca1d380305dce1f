/-!
# Token categories

The seven categories of tokens, and the one-letter tag that names each in a trace.
-/

namespace SemanticPass

/-- The category of a token. -/
inductive TokenCategory where
  | constant
  | identifier
  | punctuator
  | operator
  | keyword
  | stringLiteral
  | preprocessor
  deriving DecidableEq, Repr

namespace TokenCategory

/-- The category that a tag names. -/
def ofTag? : Char → Option TokenCategory
  | 'c' => some .constant
  | 'v' => some .identifier
  | 'p' => some .punctuator
  | 'o' => some .operator
  | 'k' => some .keyword
  | 's' => some .stringLiteral
  | 'd' => some .preprocessor
  | _ => none

/-- The tag that names a category. -/
def tag : TokenCategory → Char
  | .constant => 'c'
  | .identifier => 'v'
  | .punctuator => 'p'
  | .operator => 'o'
  | .keyword => 'k'
  | .stringLiteral => 's'
  | .preprocessor => 'd'

/-- The name of a category in listings and log lines. -/
def name : TokenCategory → String
  | .constant => "Constant"
  | .identifier => "Identifier"
  | .punctuator => "Punctuator"
  | .operator => "Operator"
  | .keyword => "Keyword"
  | .stringLiteral => "String Literal"
  | .preprocessor => "Preprocessor Statement"

/-- Each tag names one category only. -/
theorem eq_tag_of_ofTag? {c : Char} {category : TokenCategory} (h : ofTag? c = some category) :
    c = category.tag := by
  unfold ofTag? at h
  split at h <;> cases h <;> rfl

end TokenCategory

end SemanticPass
