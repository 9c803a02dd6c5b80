import ParenLint.Json.Basic

/-!
# Reading JSON

Each reader takes a value off the front of a text and returns it with the rest. The depth to which
values may nest is bounded by the length of the text, which no text can exceed.
-/

namespace ParenLint.Json

/-- The rest of the text after JSON's four blank characters. -/
def skipBlanks (cs : List Char) : List Char :=
  cs.dropWhile fun c => c = ' ' ∨ c = '\n' ∨ c = '\r' ∨ c = '\t'

/-! ### Strings -/

/-- The value of a hexadecimal digit. -/
def hexValue? (c : Char) : Option Nat :=
  if '0' ≤ c ∧ c ≤ '9' then some (c.toNat - '0'.toNat)
  else if 'a' ≤ c ∧ c ≤ 'f' then some (c.toNat - 'a'.toNat + 10)
  else if 'A' ≤ c ∧ c ≤ 'F' then some (c.toNat - 'A'.toNat + 10)
  else none

/-- The number that four hexadecimal digits write. -/
def unit? (a b c d : Char) : Option Nat := do
  let a ← hexValue? a
  let b ← hexValue? b
  let c ← hexValue? c
  let d ← hexValue? d
  return 4096 * a + 256 * b + 16 * c + d

/-- The character that a code point names, if it names one. -/
def charOf? (n : Nat) : Option Char :=
  if n.isValidChar then some (Char.ofNat n) else none

/-- The character that a one-letter escape stands for. -/
def simpleEscape? (c : Char) : Option Char :=
  match c with
  | '"' => some '"'
  | '\\' => some '\\'
  | '/' => some '/'
  | 'n' => some '\n'
  | 'r' => some '\r'
  | 't' => some '\t'
  | 'b' => some '\x08'
  | 'f' => some '\x0c'
  | _ => none

/-- The rest of a string after its opening quote. Two units beyond the first plane make one
character. -/
def stringRest? : List Char → Option (List Char × List Char)
  | [] => none
  | '"' :: rest => some ([], rest)
  | '\\' :: 'u' :: a :: b :: c :: d :: rest => do
    let n ← unit? a b c d
    if 0xD800 ≤ n ∧ n < 0xDC00 then
      match rest with
      | '\\' :: 'u' :: e :: f :: g :: h :: rest =>
        let low ← unit? e f g h
        if 0xDC00 ≤ low ∧ low < 0xE000 then
          let x ← charOf? (0x10000 + (n - 0xD800) * 0x400 + (low - 0xDC00))
          let (s, rest) ← stringRest? rest
          return (x :: s, rest)
        else none
      | _ => none
    else
      let x ← charOf? n
      let (s, rest) ← stringRest? rest
      return (x :: s, rest)
  | '\\' :: c :: rest => do
    let x ← simpleEscape? c
    let (s, rest) ← stringRest? rest
    return (x :: s, rest)
  | '\\' :: [] => none
  | c :: rest =>
    if c < ' ' then none
    else do
      let (s, rest) ← stringRest? rest
      return (c :: s, rest)

/-! ### Numbers -/

/-- The number that a run of digits writes. -/
def digitsValue (ds : List Char) : Nat :=
  ds.foldl (fun n d => 10 * n + (d.toNat - '0'.toNat)) 0

/-- A non-empty run of digits. -/
def digits? (cs : List Char) : Option (List Char × List Char) :=
  match cs.takeWhile Char.isDigit with
  | [] => none
  | d :: ds => some (d :: ds, cs.dropWhile Char.isDigit)

/-- The digits before the point: zero alone, or digits that do not begin with zero. -/
def whole? : List Char → Option (List Char × List Char)
  | '0' :: rest => some (['0'], rest)
  | cs => digits? cs

/-- An exponent with its sign. -/
def exponent? : List Char → Option (Int × List Char)
  | '-' :: rest => (digits? rest).map fun (ds, rest) => (-(digitsValue ds : Int), rest)
  | '+' :: rest => (digits? rest).map fun (ds, rest) => ((digitsValue ds : Int), rest)
  | rest => (digits? rest).map fun (ds, rest) => ((digitsValue ds : Int), rest)

/-- A fraction, or nothing if the text does not go on with one. -/
def fraction? : List Char → Option (List Char × List Char)
  | '.' :: rest => digits? rest
  | _ => none

/-- The exponent after its letter, or nothing if the text does not go on with one. -/
def scale? : List Char → Option (Int × List Char)
  | c :: rest => if c = 'e' ∨ c = 'E' then exponent? rest else none
  | [] => none

/-- A number without its sign. -/
def magnitude? (negative : Bool) (cs : List Char) : Option (Json × List Char) := do
  let (whole, rest) ← whole? cs
  match fraction? rest with
  | some (fraction, rest) =>
    let (e, rest) := (scale? rest).getD (0, rest)
    let m := digitsValue (whole ++ fraction)
    return (.float (.ofDecimal negative m (e - fraction.length)), rest)
  | none =>
    match scale? rest with
    | some (e, rest) => return (.float (.ofDecimal negative (digitsValue whole) e), rest)
    | none =>
      let n : Int := digitsValue whole
      return (.int (if negative then -n else n), rest)

/-- A number. -/
def number? : List Char → Option (Json × List Char)
  | '-' :: rest => magnitude? true rest
  | cs => magnitude? false cs

/-! ### Values -/

mutual

/-- A value, after blanks. -/
def value? (fuel : Nat) (cs : List Char) : Option (Json × List Char) :=
  match fuel, skipBlanks cs with
  | 0, _ => none
  | _, 'n' :: 'u' :: 'l' :: 'l' :: rest => some (.null, rest)
  | _, 't' :: 'r' :: 'u' :: 'e' :: rest => some (.bool true, rest)
  | _, 'f' :: 'a' :: 'l' :: 's' :: 'e' :: rest => some (.bool false, rest)
  | _, '"' :: rest => (stringRest? rest).map fun (s, rest) => (.string (String.ofList s), rest)
  | fuel + 1, '[' :: rest =>
    match skipBlanks rest with
    | ']' :: rest => some (.array [], rest)
    | rest => do
      let (x, rest) ← value? fuel rest
      let (xs, rest) ← items? fuel rest
      return (.array (x :: xs), rest)
  | fuel + 1, '{' :: rest =>
    match skipBlanks rest with
    | '}' :: rest => some (.object [], rest)
    | rest => do
      let (m, rest) ← field? fuel rest
      let (ms, rest) ← fields? fuel rest
      return (.object (m :: ms), rest)
  | _, rest => number? rest

/-- The items after the first, with the closing bracket. -/
def items? (fuel : Nat) (cs : List Char) : Option (List Json × List Char) :=
  match fuel, skipBlanks cs with
  | 0, _ => none
  | _, ']' :: rest => some ([], rest)
  | fuel + 1, ',' :: rest => do
    let (x, rest) ← value? fuel rest
    let (xs, rest) ← items? fuel rest
    return (x :: xs, rest)
  | _, _ => none

/-- A name, a colon and a value. -/
def field? (fuel : Nat) (cs : List Char) : Option ((String × Json) × List Char) :=
  match fuel, skipBlanks cs with
  | 0, _ => none
  | fuel + 1, '"' :: rest => do
    let (k, rest) ← stringRest? rest
    match skipBlanks rest with
    | ':' :: rest => do
      let (x, rest) ← value? fuel rest
      return ((String.ofList k, x), rest)
    | _ => none
  | _, _ => none

/-- The members after the first, with the closing brace. -/
def fields? (fuel : Nat) (cs : List Char) : Option (List (String × Json) × List Char) :=
  match fuel, skipBlanks cs with
  | 0, _ => none
  | _, '}' :: rest => some ([], rest)
  | fuel + 1, ',' :: rest => do
    let (m, rest) ← field? fuel rest
    let (ms, rest) ← fields? fuel rest
    return (m :: ms, rest)
  | _, _ => none

end

/-- The value that a text consists of, blanks around it aside. -/
def parse? (cs : List Char) : Option Json := do
  let (x, rest) ← value? (cs.length + 1) cs
  if (skipBlanks rest).isEmpty then some x else none

end ParenLint.Json
