import SemanticPass.Libraries.Toml.Number

/-!
# Points in time of a key file

A date, a time of day, or a date with a time of day and maybe an offset. Whether a text is written
as a point in time is told by its first word, and how far it goes by the marks between its words;
whether it is one is looked at later, when its value is asked for.
-/

namespace SemanticPass.Toml

/-! ## The text of a point in time -/

/-- Whether a character may stand in a word. -/
def isKeyChar (c : Char) : Bool := c.isAlphanum || c = '_' || c = '-'

/-- Whether a point in time is written here: a word that begins like a number, or stands for one
that is not finite, and has a `T` or an inner dash in it, unless the dash belongs to an exponent, or
has a colon after it. -/
def isMoment (text : List Char) : Bool :=
  let word := text.takeWhile isKeyChar
  let pairs := word.zip (word.drop 1)
  let dashed := (word.drop 1).contains '-' && !pairs.contains ('e', '-') &&
    !pairs.contains ('E', '-')
  ((word.take 1).any (fun c => c.isDigit || c = '-') ||
      word = "inf".toList || word = "nan".toList) &&
    (word.contains 'T' || word.contains 't' || dashed ||
      (text.drop word.length).head? = some ':')

/-- The text after a word. -/
def afterWord? (text : List Char) : Option (List Char) :=
  match text.takeWhile isKeyChar with
  | [] => none
  | word => some (text.drop word.length)

/-- The text after a mark and a word, or the text itself if it does not begin with the mark. -/
def afterMarked? (mark : Char) : List Char → Option (List Char)
  | [] => some []
  | c :: rest => if c = mark then afterWord? rest else some (c :: rest)

/-- The text after a single space and a word, or the text itself if these do not follow. -/
def afterSpaced (text : List Char) : List Char :=
  match text with
  | ' ' :: rest => (afterWord? rest).getD text
  | _ => text

/-- The text after the minutes, the seconds and what follows them, from the colon on. -/
def afterClock? : List Char → Option (List Char)
  | ':' :: minutes => do
    match ← afterWord? minutes with
    | ':' :: seconds => do
      let fraction ← afterWord? seconds
      afterMarked? ':' (← afterMarked? '+' (← afterMarked? '.' fraction))
    | _ => none
  | text => some text

/-- A point in time as it is written, with the text after it. -/
def momentText? (text : List Char) : Option (List Char × List Char) := do
  let rest ← afterClock? (afterSpaced (← afterWord? text))
  return (text.take (text.length - rest.length), rest)

/-! ## The value of a point in time -/

/-- A number of exactly so many digits and at most so large. -/
def fixed? (width : Nat) (least greatest : Nat) (word : List Char) : Option (List Char) :=
  let value := positional 10 word
  if word.length = width && word.all Char.isDigit && least ≤ value && value ≤ greatest then
    some word
  else none

/-- A date. The length of the month is not looked at. -/
def date? (word : List Char) : Option (List Char) := do
  let year ← fixed? 4 0 9999 (word.take 4)
  let month ← fixed? 2 1 12 ((word.drop 5).take 2)
  let day ← fixed? 2 1 31 (word.drop 8)
  let text := year ++ '-' :: month ++ '-' :: day
  if text = word then some text else none

/-- The fraction of a second, of which nine digits count and zeros at the end do not. -/
def secondFraction? : List Char → Option (List Char)
  | [] => some []
  | '.' :: digits =>
    if digits ≠ [] && digits.all Char.isDigit then
      match ((digits.take 9).reverse.dropWhile (· = '0')).reverse with
      | [] => some []
      | kept => some ('.' :: kept)
    else none
  | _ => none

/-- A time of day, of which the hour 24 is one. -/
def time? (word : List Char) : Option (List Char) := do
  let hour ← fixed? 2 0 24 (word.take 2)
  let minute ← fixed? 2 0 59 ((word.drop 3).take 2)
  let second ← fixed? 2 0 59 ((word.drop 6).take 2)
  let text := hour ++ ':' :: minute ++ ':' :: second
  if text = word.take 8 then return text ++ (← secondFraction? (word.drop 8)) else none

/-- An offset from universal time, in hours and minutes of two digits each. The sign is that of the
hours, so it is plus if they are zero. -/
def offset? : List Char → Option (List Char)
  | ['Z'] | ['z'] => some ['Z']
  | sign :: rest => do
    let hour ← fixed? 2 0 99 (rest.take 2)
    let minute ← fixed? 2 0 99 (rest.drop 3)
    let text := hour ++ ':' :: minute
    if (sign = '+' || sign = '-') && text = rest then
      some ((if hour = ['0', '0'] then '+' else sign) :: text)
    else none
  | [] => none

/-- A date, a time of day, or both, and then with or without an offset. -/
def moment? (word : List Char) : Option (List Char) :=
  if word.length ≤ 10 && (date? word).isSome then date? word
  else if (time? word).isSome then time? word
  else do
    let date ← date? (word.take 10)
    let rest := word.drop 11
    let clock := rest.takeWhile fun c => c.isDigit || c = ':' || c = '.'
    let time ← time? clock
    let offset ← match rest.drop clock.length with
      | [] => some []
      | written => offset? written
    if ['T', 't', ' '].contains ((word.drop 10).headD '-') then
      return date ++ 'T' :: time ++ offset
    else none

end SemanticPass.Toml
