/-!
# Shortest decimals of binary floating-point numbers

The decimal of a positive double is the one with the fewest digits among those that round to it,
and of these the nearest. Everything is exact arithmetic on natural numbers: a double stands for
a fraction, the reals that round to it form an interval around that fraction, and the grids of
one digit, two digits, and so on are searched in turn. On each grid only the two neighbours of
the fraction need a look, because if any point of the grid lies in the interval, one of those
does. Seventeen digits always suffice.
-/

namespace SemanticPass.Decimal

/-- A positive double as a fraction over a common denominator, between the ends of the interval
of reals that round to it. -/
structure Interval where
  /-- The numerator of the lower end. -/
  low : Nat
  /-- The numerator of the double itself. -/
  value : Nat
  /-- The numerator of the upper end. -/
  high : Nat
  /-- The denominator of all three. -/
  denominator : Nat
  /-- Whether the ends round to the double too. -/
  closed : Bool
  deriving Repr

/-- Digits read as a natural number, times a power of ten. -/
structure Scientific where
  digits : Nat
  exponent : Int
  deriving DecidableEq, Repr

namespace Interval

/-- The interval of a positive finite double, from its bits: a mantissa of 52 bits below an
exponent of 11 bits. The gap below a power of two is half the gap above it. -/
def ofBits (bits : UInt64) : Interval :=
  let unit := Nat.pow 2 52
  let fraction := bits.toNat % unit
  let biased := bits.toNat / unit % 2048
  let mantissa := if biased = 0 then fraction else fraction + unit
  let exponent := (if biased = 0 then 1 else biased) - 1
  let below := if fraction = 0 && biased > 1 then 1 else 2
  let scale := Nat.pow 2 exponent
  { low := (4 * mantissa - below) * scale
    value := 4 * mantissa * scale
    high := (4 * mantissa + 2) * scale
    denominator := Nat.pow 2 1076
    closed := mantissa % 2 = 0 }

/-- Whether a decimal rounds to the double. -/
def contains (interval : Interval) (digits : Nat) (exponent : Int) : Bool :=
  let left := digits * interval.denominator * Nat.pow 10 exponent.toNat
  let scale := Nat.pow 10 (-exponent).toNat
  let low := interval.low * scale
  let high := interval.high * scale
  if interval.closed then low ≤ left && left ≤ high else low < left && left < high

/-- The exponent of the first digit of the double. -/
def leadingExponent (interval : Interval) : Int :=
  let scaled := interval.value * Nat.pow 10 400 / interval.denominator
  (Nat.toDigits 10 scaled).length - 401

/-- The neighbour on a grid that rounds to the double, the nearer one if both do. -/
def onGrid? (interval : Interval) (exponent : Int) : Option Scientific :=
  let numerator := interval.value * Nat.pow 10 (-exponent).toNat
  let denominator := interval.denominator * Nat.pow 10 exponent.toNat
  let down := numerator / denominator
  let nearer := if 2 * (numerator % denominator) < denominator then down
    else if 2 * (numerator % denominator) > denominator then down + 1
    else down + down % 2
  let farther := if nearer = down then down + 1 else down
  if interval.contains nearer exponent then some { digits := nearer, exponent }
  else if interval.contains farther exponent then some { digits := farther, exponent }
  else none

/-- The decimal with the fewest digits that rounds to the double. -/
def shortest (interval : Interval) : Scientific :=
  let lead := interval.leadingExponent
  let found := (List.range 17).findSome? fun (n : Nat) => interval.onGrid? (lead - n)
  found.getD { digits := interval.value / interval.denominator, exponent := 0 }

end Interval

/-- Which decimals a format writes positionally, by the exponent of the first digit; the others
are written with an exponent. -/
structure Layout where
  /-- The least exponent written positionally. -/
  leastPositional : Int
  /-- The greatest exponent written positionally. -/
  greatestPositional : Int
  /-- Whether an exponent that is not negative has a sign. -/
  plusSign : Bool

/-- Moves zeros at the end of the digits into the exponent. -/
def dropZeros : List Char → Int → List Char × Int
  | '0' :: reversed, exponent => dropZeros reversed (exponent + 1)
  | reversed, exponent => (reversed.reverse, exponent)

/-- Writes a positive decimal: positionally with at least one digit after the point, or with an
exponent, and then with a point only between digits. -/
def Layout.write (form : Layout) (decimal : Scientific) : String :=
  let (digits, exponent) := dropZeros (Nat.toDigits 10 decimal.digits).reverse decimal.exponent
  let lead := exponent + digits.length - 1
  let text :=
    if form.leastPositional ≤ lead && lead ≤ form.greatestPositional then
      if exponent ≥ 0 then digits ++ List.replicate exponent.toNat '0' ++ ['.', '0']
      else if lead ≥ 0 then
        digits.take (lead.toNat + 1) ++ '.' :: digits.drop (lead.toNat + 1)
      else ['0', '.'] ++ List.replicate (-lead - 1).toNat '0' ++ digits
    else
      let fraction := match digits.drop 1 with
        | [] => []
        | rest => '.' :: rest
      let sign := if form.plusSign && lead ≥ 0 then ['+'] else []
      digits.take 1 ++ fraction ++ 'e' :: sign ++ (toString lead).toList
  String.ofList text

/-- The text of a finite double: its shortest decimal, with a sign for a negative one and for a
negative zero. -/
def Layout.text (form : Layout) (x : Float) : String :=
  let bits := x.toBits
  let sign := if bits ≥ 0x8000000000000000 then "-" else ""
  let magnitude := bits &&& 0x7FFFFFFFFFFFFFFF
  if magnitude = 0 then sign ++ "0.0"
  else sign ++ form.write (Interval.ofBits magnitude).shortest

end SemanticPass.Decimal
