import ParenLint.Number.Binary64
import ParenLint.Text.Blank
import ParenLint.Text.Digit
import ParenLint.Text.Lower
import ParenLint.Yaml.Fault
import ParenLint.Yaml.Tag

/-!
# Numbers in scalars

The numbers that the texts of scalars write. Underscores between the digits mean nothing. An integer
may be in base two, eight, ten or sixteen, and integers and fractions in base sixty are written with
colons between their places.
-/

namespace ParenLint.Yaml

open ParenLint.Text

/-- Whether a text begins with a minus sign, and the text without a sign in front. -/
def splitSign (cs : List Char) : Bool × List Char := (cs.head? = some '-', Tag.dropSign cs)

/-- The value of a character as a digit in a base. -/
def digitIn? (base : Nat) (c : Char) : Option Nat :=
  let value :=
    match digitValue? c with
    | some d => some d
    | none =>
      if c.isAlpha then some (c.toLower.toNat - 'a'.toNat + 10) else none
  value.filter (· < base)

/-- What may stand in front of the digits of a base. -/
def basePrefix (base : Nat) : List (List Char) :=
  if base = 2 then [['0', 'b'], ['0', 'B']]
  else if base = 8 then [['0', 'o'], ['0', 'O']]
  else if base = 16 then [['0', 'x'], ['0', 'X']]
  else []

/-- The number that digits in a base write. -/
def ofDigits (base : Nat) (ds : List Nat) : Nat := ds.foldl (fun n d => base * n + d) 0

/-- Whether `c` may stand around a number: white space apart from the information separators. -/
def isNumberGap (c : Char) : Bool := isBlank c && !('\x1c' ≤ c && c ≤ '\x1f')

/-- The text without the gaps at its two ends. -/
def trimGaps (cs : List Char) : List Char :=
  ((cs.dropWhile isNumberGap).reverse.dropWhile isNumberGap).reverse

/-- The integer that a text writes in a base, gaps at its ends aside. -/
def readInt (base : Nat) (cs : List Char) : Except Fault Int :=
  let (negative, body) := splitSign (trimGaps cs)
  let body := if (basePrefix base).any (·.isPrefixOf body) then body.drop 2 else body
  let ds := (body.map (digitIn? base)).takeWhile Option.isSome
  if base = 10 ∧ maxDigits < ds.length then .error (.tooManyDigits ds.length)
  else if ds.isEmpty ∨ ds.length ≠ body.length then .error (.noInteger base (String.ofList cs))
  else
    let n := ofDigits base (ds.filterMap id)
    .ok (if negative then -(n : Int) else n)

/-- The floating-point number that digits with a point and an exponent write. -/
def decimal? (negative : Bool) (cs : List Char) : Option Binary64 := do
  let isDigit (c : Char) : Bool := (digitValue? c).isSome
  let value (ds : List Char) : Nat := ofDigits 10 (ds.filterMap digitValue?)
  let whole := cs.takeWhile isDigit
  let rest := cs.dropWhile isDigit
  let (fraction, rest) := match rest with
    | '.' :: rest => (rest.takeWhile isDigit, rest.dropWhile isDigit)
    | _ => ([], rest)
  if whole.isEmpty ∧ fraction.isEmpty then none
  let exponent ← match rest with
    | [] => some 0
    | e :: rest =>
      let (down, ds) := splitSign rest
      if (e = 'e' ∨ e = 'E') ∧ !ds.isEmpty ∧ ds.all isDigit then
        some (if down then -(value ds : Int) else value ds)
      else none
  return .ofDecimal negative (value (whole ++ fraction)) (exponent - fraction.length)

/-- The floating-point number that a text in lower case writes, gaps at its ends aside. -/
def readFloat (cs : List Char) : Except Fault Binary64 :=
  let (negative, body) := splitSign (trimGaps cs)
  let word := String.ofList body
  if word = "inf" ∨ word = "infinity" then .ok (.infinite negative)
  else if word = "nan" then .ok .nan
  else
    match decimal? negative body with
    | some x => .ok x
    | none => .error (.noFloat (String.ofList cs))

/-- The text without underscores. -/
def dropUnderscores (cs : List Char) : List Char := cs.filter (· ≠ '_')

/-- The integer that the text of a scalar writes. -/
def intOfScalar (text : List Char) : Except Fault Int := do
  let cs := dropUnderscores text
  let (negative, body) := splitSign cs
  let n ← match body with
    | [] => throw .emptyNumber
    | ['0'] => pure 0
    | '0' :: 'b' :: ds => readInt 2 ds
    | '0' :: 'x' :: ds => readInt 16 ds
    | '0' :: _ => readInt 8 body
    | _ =>
      if body.contains ':' then
        let places ← (Tag.splitColons body).mapM (readInt 10)
        pure (places.foldl (fun n d => 60 * n + d) 0)
      else readInt 10 body
  return if negative then -n else n

/-- The sum of the places of a number in base sixty, the last of them first. -/
def sumPlaces (total : Binary64) (base : Nat) : List Binary64 → Except Fault Binary64
  | [] => .ok total
  | d :: ds =>
    match Binary64.ofNat base with
    | .finite s m e => sumPlaces (total.add (d.mul (.finite s m e))) (base * 60) ds
    | _ => .error .tooManyPlaces

/-- The text of a scalar as a floating-point number is read from it: whether it has a minus sign,
and the rest in lower case. -/
def floatBody (text : List Char) : Bool × List Char := splitSign (lower (dropUnderscores text))

/-- The word for the value that is not a number. -/
def nanWord : List Char := ['.', 'n', 'a', 'n']

/-- The floating-point number that the text of a scalar writes. -/
def floatOfScalar (text : List Char) : Except Fault Binary64 := do
  if (dropUnderscores text).isEmpty then throw .emptyNumber
  let (negative, body) := floatBody text
  let x ← if body = ['.', 'i', 'n', 'f'] then pure (Binary64.infinite false)
    else if body = nanWord then pure Binary64.nan
    else if body.contains ':' then do
      let places ← (Tag.splitColons body).mapM readFloat
      sumPlaces (.zero false) 1 places.reverse
    else readFloat body
  return if negative then x.neg else x

end ParenLint.Yaml
