import ParenLint.Number.Binary64

/-!
# Decimal text of floating-point numbers

A number is written with the fewest digits that read back as the same number, and of those the
nearest. Numbers of moderate size are written positionally and the others with an exponent.
-/

namespace ParenLint

namespace Binary64

/-! ### The shortest digits -/

/-- The numbers that round to a given number form an interval. Its ends and the number itself are
`low`, `high` and `value` times `2 ^ exponent`. -/
structure Interval where
  low : Nat
  value : Nat
  high : Nat
  exponent : Int
  /-- Whether the ends belong to the interval. -/
  closed : Bool
  deriving Repr

/-- The interval of the number `significand * 2 ^ exponent`. Below a power of two the spacing is
half of that above. -/
def interval (significand : Nat) (exponent : Int) : Interval where
  low := if significand = fullSignificand ∧ minExponent < exponent then 4 * significand - 1
    else 4 * significand - 2
  value := 4 * significand
  high := 4 * significand + 2
  exponent := exponent - 2
  closed := significand % 2 = 0

/-- The decimal `digits * 10 ^ exponent`. -/
structure Scientific where
  digits : Nat
  exponent : Int
  deriving DecidableEq, Repr

namespace Interval

/-- The three points of the interval on a scale where they and all multiples of `10 ^ ten` are
integers, with the integer that stands for `10 ^ ten` itself. -/
def onScale (i : Interval) (ten : Int) : Nat × Nat × Nat × Nat :=
  let points := Nat.pow 2 i.exponent.toNat * Nat.pow 10 (-ten).toNat
  let unit := Nat.pow 2 (-i.exponent).toNat * Nat.pow 10 ten.toNat
  (i.low * points, i.value * points, i.high * points, unit)

/-- The multiple of `10 ^ ten` nearest to the value among those that lie in the interval, of two
equally near the even one. -/
def nearestOnGrid? (i : Interval) (ten : Int) : Option Scientific :=
  let (low, value, high, unit) := i.onScale ten
  let below := value / unit
  let inside (c : Nat) : Bool :=
    if i.closed then low ≤ c * unit && c * unit ≤ high else low < c * unit && c * unit < high
  let twice := 2 * (value % unit)
  let first :=
    if twice < unit then below
    else if unit < twice then below + 1
    else below + below % 2
  let second := if first = below then below + 1 else below
  if inside first then some ⟨first, ten⟩
  else if inside second then some ⟨second, ten⟩
  else none

/-- The exponent of the leading decimal digit of the value. -/
def leadingExponent (i : Interval) : Int :=
  let (_, value, _, unit) := i.onScale 0
  if unit ≤ value then (decimalLength (value / unit) : Int) - 1
  else
    let zeros := ((List.range 400).find? fun k => unit ≤ value * Nat.pow 10 k).getD 400
    Int.negOfNat zeros

/-- The shortest decimal in the interval: the grids of one digit, two digits and so on are tried in
turn, and seventeen digits always suffice. -/
def shortest (i : Interval) : Scientific :=
  let lead := i.leadingExponent
  let grids := (List.range 17).map fun k : Nat => lead - (k : Int)
  (grids.findSome? i.nearestOnGrid?).getD ⟨i.value, 0⟩

end Interval

/-! ### Notation -/

/-- How a number is laid out in text. -/
structure NumberFormat where
  /-- The least exponent of a leading digit that is written positionally. -/
  leastPositional : Int
  /-- The least exponent of a leading digit that is too large to be written positionally. -/
  leastScientific : Int
  /-- The least number of digits of a written exponent. -/
  exponentWidth : Nat

/-- Numbers from `0.0001` up to but not including `10 ^ 16` are written positionally, and an
exponent has two digits at least. -/
def standardFormat : NumberFormat := ⟨-4, 16, 2⟩

/-- The digits without the zeros at their end. -/
def dropTrailingZeros (ds : List Char) : List Char := (ds.reverse.dropWhile (· = '0')).reverse

/-- Digits with their leading exponent, in positional notation with at least one digit on each
side of the point. -/
def positional (ds : List Char) (lead : Int) : List Char :=
  if lead < 0 then ['0', '.'] ++ List.replicate (-lead - 1).toNat '0' ++ ds
  else
    let whole := lead.toNat + 1
    let digits := ds ++ List.replicate (whole - ds.length) '0'
    let fraction := digits.drop whole
    digits.take whole ++ '.' :: if fraction.isEmpty then ['0'] else fraction

/-- Digits with their leading exponent, in scientific notation. -/
def scientific (width : Nat) (ds : List Char) (lead : Int) : List Char :=
  let fraction := ds.drop 1
  let exponent := Nat.toDigits 10 lead.natAbs
  ds.take 1 ++ (if fraction.isEmpty then [] else '.' :: fraction)
    ++ ['e', if lead < 0 then '-' else '+']
    ++ List.replicate (width - exponent.length) '0' ++ exponent

/-- The text of a finite magnitude. -/
def renderMagnitude (format : NumberFormat) (significand : Nat) (exponent : Int) : List Char :=
  if significand = 0 then ['0', '.', '0']
  else
    let decimal := (interval significand exponent).shortest
    let all := Nat.toDigits 10 decimal.digits
    let lead := decimal.exponent + all.length - 1
    let ds := dropTrailingZeros all
    if format.leastPositional ≤ lead ∧ lead < format.leastScientific then positional ds lead
    else scientific format.exponentWidth ds lead

/-- The text of a number. -/
def render : Binary64 → String
  | nan => "nan"
  | infinite negative => if negative then "-inf" else "inf"
  | finite negative m e =>
    String.ofList ((if negative then ['-'] else []) ++ renderMagnitude standardFormat m e)

end Binary64

end ParenLint
