/-!
# Binary floating-point numbers

The numbers of the binary64 format, kept as sign, significand and exponent so that they can be
compared and computed with exactly. A result that is not in the format is rounded to the nearest
member, a tie to the even significand.
-/

namespace ParenLint

/-- A number of the binary64 format. -/
inductive Binary64
  /-- Not a number. -/
  | nan
  /-- An infinity. -/
  | infinite (negative : Bool)
  /-- The number `significand * 2 ^ exponent`, with its sign. -/
  | finite (negative : Bool) (significand : Nat) (exponent : Int)
  deriving DecidableEq, Repr, Inhabited

namespace Binary64

/-- The exponent of the smallest numbers. -/
def minExponent : Int := -1074

/-- The exponent of the largest numbers. -/
def maxExponent : Int := 971

/-- The least significand that needs all 53 bits. -/
def fullSignificand : Nat := Nat.pow 2 52

/-- The positive or negative zero. -/
def zero (negative : Bool) : Binary64 := finite negative 0 minExponent

/-- `num / den` to the nearest integer, a tie to the even one. -/
def roundDiv (num den : Nat) : Nat :=
  let q := num / den
  let twice := 2 * (num % den)
  if twice < den then q else if den < twice then q + 1 else q + q % 2

/-- The ratio `num / den` divided by `2 ^ e`, as numerator and denominator. -/
def scaleRatio (num den : Nat) (e : Int) : Nat × Nat :=
  if 0 ≤ e then (num, den * Nat.pow 2 e.toNat) else (num * Nat.pow 2 (-e).toNat, den)

/-- The number nearest to `num / den`. -/
def ofRatio (negative : Bool) (num den : Nat) : Binary64 :=
  if num = 0 then zero negative
  else
    let low := max minExponent ((num.log2 : Int) - den.log2 - 53)
    let (n, d) := scaleRatio num den low
    let exponent := if n / d < 2 * fullSignificand then low else low + 1
    let (n, d) := scaleRatio num den exponent
    let rounded := roundDiv n d
    let (significand, exponent) :=
      if rounded < 2 * fullSignificand then (rounded, exponent)
      else (fullSignificand, exponent + 1)
    if maxExponent < exponent then infinite negative
    else finite negative significand exponent

/-- The number of decimal digits of a natural number. -/
def decimalLength (n : Nat) : Nat := (Nat.toDigits 10 n).length

/-- The number nearest to `digits * 10 ^ exponent`. Magnitudes far outside the format are settled
by their size alone. -/
def ofDecimal (negative : Bool) (digits : Nat) (exponent : Int) : Binary64 :=
  if digits = 0 then zero negative
  else
    let magnitude := (decimalLength digits : Int) + exponent
    if 400 < magnitude then infinite negative
    else if magnitude < -400 then zero negative
    else if 0 ≤ exponent then ofRatio negative (digits * Nat.pow 10 exponent.toNat) 1
    else ofRatio negative digits (Nat.pow 10 (-exponent).toNat)

/-- The number nearest to a natural number. -/
def ofNat (n : Nat) : Binary64 := ofRatio false n 1

/-- The number with the other sign. -/
def neg : Binary64 → Binary64
  | nan => nan
  | infinite s => infinite !s
  | finite s m e => finite (!s) m e

/-- The finite value `m * 2 ^ e` as a ratio. -/
def ratio (m : Nat) (e : Int) : Nat × Nat :=
  if 0 ≤ e then (m * Nat.pow 2 e.toNat, 1) else (m, Nat.pow 2 (-e).toNat)

/-- The numerator of a finite value over its denominator, with its sign. -/
def signed (negative : Bool) (n : Nat) : Int := if negative then -(n : Int) else n

/-- The rounded sum. A sum of zero is negative only if both numbers are. -/
def add : Binary64 → Binary64 → Binary64
  | finite s m e, finite t n f =>
    let (a, b) := ratio m e
    let (c, d) := ratio n f
    let sum := signed s (a * d) + signed t (c * b)
    if sum = 0 then zero (s && t) else ofRatio (decide (sum < 0)) sum.natAbs (b * d)
  | infinite s, infinite t => if s = t then infinite s else nan
  | nan, _ | _, nan => nan
  | infinite s, _ | _, infinite s => infinite s

/-- The rounded product. -/
def mul : Binary64 → Binary64 → Binary64
  | finite s m e, finite t n f =>
    let (a, b) := ratio m e
    let (c, d) := ratio n f
    ofRatio (s != t) (a * c) (b * d)
  | nan, _ | _, nan => nan
  | infinite s, infinite t => infinite (s != t)
  | infinite s, finite t m _ | finite t m _, infinite s => if m = 0 then nan else infinite (s != t)

/-- Whether a number equals the integer `n`. -/
def equalsInt (x : Binary64) (n : Int) : Bool :=
  match x with
  | finite negative m e =>
    let (a, b) := ratio m e
    signed negative a == n * b
  | _ => false

/-- Whether two numbers are equal as values: the two zeros are, and nothing equals `nan`. -/
def equals : Binary64 → Binary64 → Bool
  | nan, _ | _, nan => false
  | infinite s, infinite t => s == t
  | finite s m e, finite t n f => (m == 0 && n == 0) || (s == t && m == n && e == f)
  | _, _ => false

example : ofDecimal false 1 0 = finite false (Nat.pow 2 52) (-52) := by decide +kernel

end Binary64

end ParenLint
