import SemanticPass.Text.Hexadecimal

/-!
# Numbers of a key file

Integers in four bases and doubles, as they stand in a word of letters, digits, signs, points and
underscores. Single underscores may separate digits. A decimal number has no needless zero in front,
and any number may have a plus sign before all else of it.
-/

namespace SemanticPass.Toml

open Text

/-- Digits among which single underscores may stand, without the underscores. -/
def digits? (isDigit : Char → Bool) (word : List Char) : Option (List Char) :=
  let paired := word.zip (word.drop 1)
  if word.all (fun c => isDigit c || c = '_') && word ≠ [] && word.head? ≠ some '_' &&
      word.getLast? ≠ some '_' && !paired.contains ('_', '_') then
    some (word.filter (· ≠ '_'))
  else none

/-- The value of digits in a base. -/
def positional (base : Nat) (digits : List Char) : Nat :=
  digits.foldl (fun total c => base * total + (Hexadecimal.digit? c).getD 0) 0

/-- Decimal digits without a needless zero in front. -/
def decimalDigits? (word : List Char) : Option (List Char) := do
  let digits ← digits? Char.isDigit word
  match digits with
  | '0' :: _ :: _ => none
  | digits => some digits

/-- The sign in front of a number, and the number without it. -/
def splitSign : List Char → Bool × List Char
  | '-' :: rest => (true, rest)
  | '+' :: rest => (false, rest)
  | word => (false, word)

/-- A number without the plus sign that may stand before anything else of it. -/
def dropPlus : List Char → List Char
  | '+' :: rest => rest
  | word => word

/-- A minus sign in front of a number, and the number without it. -/
def splitMinus : List Char → Bool × List Char
  | '-' :: rest => (true, rest)
  | word => (false, word)

/-- An integer, which has to fit into 64 bits. A plus sign may stand before one in any base. -/
def integer? (word : List Char) : Option Int := do
  let value ← match dropPlus word with
    | '0' :: 'x' :: rest =>
      (digits? (fun c => (Hexadecimal.digit? c).isSome) rest).map fun d => (positional 16 d : Int)
    | '0' :: 'o' :: rest =>
      (digits? (fun c => '0' ≤ c && c ≤ '7') rest).map fun d => (positional 8 d : Int)
    | '0' :: 'b' :: rest =>
      (digits? (fun c => c = '0' || c = '1') rest).map fun d => (positional 2 d : Int)
    | rest =>
      let (negative, magnitude) := splitMinus rest
      (decimalDigits? magnitude).map fun d =>
        if negative then -(positional 10 d : Int) else positional 10 d
  if Int64.minValue.toInt ≤ value && value ≤ Int64.maxValue.toInt then some value else none

/-- The double next to a decimal, unless it is too large to have one. -/
def nearest? (digits : Nat) (exponent : Int) : Option Float :=
  if digits = 0 || exponent + (Nat.toDigits 10 digits).length < -400 then some 0.0
  else if exponent > 400 then none
  else
    let x := Float.ofScientific digits (exponent < 0) exponent.natAbs
    if x.isFinite then some x else none

/-- A number with a point or an exponent, or one of the words for what is no finite number. -/
def float? (word : List Char) : Option Float := do
  let (negative, magnitude) := splitMinus (dropPlus word)
  let x ← match String.ofList magnitude with
    | "inf" => some (1.0 / 0.0)
    | "nan" => some (0.0 / 0.0)
    | _ => do
      let mantissa := magnitude.takeWhile fun c => c ≠ 'e' && c ≠ 'E'
      let power := magnitude.drop mantissa.length
      let whole ← decimalDigits? (mantissa.takeWhile (· ≠ '.'))
      let fraction ← match mantissa.dropWhile (· ≠ '.') with
        | [] => some []
        | _ :: rest => digits? Char.isDigit rest
      let exponent ← match power with
        | [] => some (0 : Int)
        | _ :: rest =>
          let (below, size) := splitSign rest
          (digits? Char.isDigit size).map fun d =>
            if below then -(positional 10 d : Int) else positional 10 d
      if mantissa.length = magnitude.length && !mantissa.contains '.' then none
      else nearest? (positional 10 (whole ++ fraction)) (exponent - fraction.length)
  return if negative then -x else x

end SemanticPass.Toml
