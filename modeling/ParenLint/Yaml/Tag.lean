import ParenLint.Yaml.Cursor

/-!
# Tags

A tag says what kind of value a node is. A plain scalar without a tag is of the first kind whose
form it has, and a text if it has none.
-/

namespace ParenLint.Yaml

/-- The kind of a node. -/
inductive Tag
  | null
  | bool
  | int
  | float
  | timestamp
  | string
  /-- Bytes, written as letters and digits. -/
  | binary
  | sequence
  | mapping
  /-- A mapping of which only the keys count. -/
  | set
  /-- A sequence of pairs, each written as a mapping with one key. -/
  | pairs
  /-- The key whose value is merged into the mapping. -/
  | merge
  /-- The key that stands for the value of the mapping itself. -/
  | value
  /-- A kind that is not known. -/
  | other
  deriving DecidableEq, Repr

namespace Tag

/-- What the tags of the language begin with. -/
def languagePrefix : String := "tag:yaml.org,2002:"

/-- The names of the kinds of values. -/
def names : List (String × Tag) :=
  [("null", null), ("bool", bool), ("int", int), ("float", float), ("timestamp", timestamp),
    ("str", string), ("binary", binary), ("seq", sequence), ("map", mapping), ("set", set),
    ("omap", pairs), ("pairs", pairs), ("merge", merge), ("value", value)]

/-- The kind that a tag names in full. -/
def ofFullName (s : String) : Tag :=
  match names.find? fun n => languagePrefix ++ n.1 == s with
  | some (_, t) => t
  | none => other

/-! ### The forms of plain scalars -/

/-- The text without a sign in front. -/
def dropSign (cs : List Char) : List Char :=
  match cs with
  | c :: rest => if c = '+' ∨ c = '-' then rest else cs
  | [] => []

/-- Whether `c` is a digit or an underscore. -/
def isDigitLike (c : Char) : Bool := c.isDigit || c = '_'

/-- Whether a text is a digit followed by digits and underscores. -/
def isDigits : List Char → Bool
  | c :: rest => c.isDigit && rest.all isDigitLike
  | [] => false

/-- Whether a text is a place of a number in base sixty. -/
def isSixtieth : List Char → Bool
  | [a] => a.isDigit
  | [a, b] => '0' ≤ a && a ≤ '5' && b.isDigit
  | _ => false

/-- The pieces of a text between colons. -/
def splitColons : List Char → List (List Char)
  | [] => [[]]
  | c :: cs =>
    if c = ':' then [] :: splitColons cs
    else
      match splitColons cs with
      | [] => [[c]]
      | p :: ps => (c :: p) :: ps

/-- Whether a text is a number in base sixty with two places at least. -/
def isSexagesimal (cs : List Char) : Bool :=
  match splitColons cs with
  | first :: second :: more => isDigits first && (second :: more).all isSixtieth
  | _ => false

/-- Whether a text is a non-empty run of the given digits and underscores. -/
def isRunOf (p : Char → Bool) (cs : List Char) : Bool :=
  !cs.isEmpty && cs.all fun c => p c || c = '_'

/-- Whether a text has the form of an integer: in base two, eight, ten, sixteen or sixty. -/
def looksInt (cs : List Char) : Bool :=
  match dropSign cs with
  | ['0'] => true
  | '0' :: 'b' :: ds => isRunOf (fun c => c = '0' || c = '1') ds
  | '0' :: 'x' :: ds => isRunOf isHexDigit ds
  | '0' :: ds => isRunOf (fun c => '0' ≤ c && c ≤ '7') ds
  | ds => isDigits ds || isSexagesimal ds

/-- Whether a text is empty or an exponent, which has a sign. -/
def isExponentOrEmpty : List Char → Bool
  | [] => true
  | e :: sign :: ds =>
    (e = 'e' || e = 'E') && (sign = '+' || sign = '-') && !ds.isEmpty && ds.all Char.isDigit
  | _ => false

/-- Whether a text is digits and underscores with an exponent or without. -/
def isFraction (cs : List Char) : Bool := isExponentOrEmpty (cs.dropWhile isDigitLike)

/-- Whether a text is a number in base sixty with a fraction. -/
def isSexagesimalFraction (cs : List Char) : Bool :=
  let whole := cs.takeWhile (· ≠ '.')
  match cs.dropWhile (· ≠ '.') with
  | _ :: fraction => isSexagesimal whole && fraction.all isDigitLike
  | [] => false

/-- Whether a text has the form of a floating-point number, which has a point. -/
def looksFloat (cs : List Char) : Bool :=
  let unsigned := dropSign cs
  let text := String.ofList
  if [".nan", ".NaN", ".NAN"].contains (text cs) then true
  else if [".inf", ".Inf", ".INF"].contains (text unsigned) then true
  else
    let whole := unsigned.takeWhile isDigitLike
    match unsigned.dropWhile isDigitLike, whole, cs with
    | '.' :: fraction, _ :: _, _ => isDigits whole && isFraction fraction
    | _, [], '.' :: d :: fraction => d.isDigit && isFraction fraction
    | _, _, _ => isSexagesimalFraction unsigned

/-- The words for truth values. -/
def boolWords : List String :=
  ["yes", "Yes", "YES", "no", "No", "NO", "true", "True", "TRUE", "false", "False", "FALSE",
    "on", "On", "ON", "off", "Off", "OFF"]

/-- The words for nothing. -/
def nullWords : List String := ["", "~", "null", "Null", "NULL"]

end Tag

/-! ### The form of timestamps -/

/-- The texts that a timestamp is written with. -/
structure TimestampText where
  year : List Char
  month : List Char
  day : List Char
  /-- Hour, minute and second. -/
  time : Option (List Char × List Char × List Char)
  /-- The digits of the fraction of a second. -/
  fraction : List Char
  /-- The sign, hours and minutes of the offset from universal time. -/
  zone : Option (Char × List Char × List Char)
  deriving Repr

namespace TimestampText

/-- A run of digits whose length lies within bounds, and the rest of the text. -/
def digits? (least most : Nat) (cs : List Char) : Option (List Char × List Char) :=
  let ds := cs.takeWhile Char.isDigit
  if least ≤ ds.length ∧ ds.length ≤ most then some (ds, cs.drop ds.length) else none

/-- The rest of a text behind a character. -/
def after? (c : Char) : List Char → Option (List Char)
  | d :: rest => if d = c then some rest else none
  | [] => none

/-- The offset from universal time that a text consists of: nothing, the letter of universal time,
or a sign with hours and perhaps minutes. -/
def zone? (cs : List Char) : Option (Option (Char × List Char × List Char)) :=
  match cs.dropWhile fun c => c = ' ' ∨ c = '\t' with
  | [] => if cs.isEmpty then some none else none
  | ['Z'] => some (some ('+', ['0'], ['0']))
  | sign :: rest =>
    if sign = '+' ∨ sign = '-' then do
      let (hours, rest) ← digits? 1 2 rest
      if rest.isEmpty then some (some (sign, hours, ['0']))
      else do
        let (minutes, rest) ← digits? 2 2 (← after? ':' rest)
        if rest.isEmpty then some (some (sign, hours, minutes)) else none
    else none

/-- The rest of a text behind what separates a date from a time of day. -/
def behindDate? (cs : List Char) : Option (List Char) :=
  match cs with
  | [] => none
  | c :: rest =>
    if c = 'T' ∨ c = 't' then some rest
    else if c = ' ' ∨ c = '\t' then some (rest.dropWhile fun c => c = ' ' ∨ c = '\t')
    else none

/-- The parts of a text that has the form of a date or a timestamp. -/
def parse? (cs : List Char) : Option TimestampText := do
  let (year, rest) ← digits? 4 4 cs
  let (month, rest) ← digits? 1 2 (← after? '-' rest)
  let (day, rest) ← digits? 1 2 (← after? '-' rest)
  if rest.isEmpty then some ⟨year, month, day, none, [], none⟩
  else do
    let (hour, rest) ← digits? 1 2 (← behindDate? rest)
    let (minute, rest) ← digits? 2 2 (← after? ':' rest)
    let (second, rest) ← digits? 2 2 (← after? ':' rest)
    let (fraction, rest) := match after? '.' rest with
      | some rest => (rest.takeWhile Char.isDigit, rest.dropWhile Char.isDigit)
      | none => ([], rest)
    let zone ← zone? rest
    some ⟨year, month, day, some (hour, minute, second), fraction, zone⟩

/-- Whether a plain scalar of this form is a timestamp: a date alone has two digits for the month
and for the day. -/
def isPlain (t : TimestampText) : Bool :=
  t.time.isSome || (t.month.length = 2 && t.day.length = 2)

end TimestampText

/-- A text without the newline at its end. -/
def dropFinalNewline (cs : List Char) : List Char :=
  if cs.getLast? = some '\n' then cs.dropLast else cs

namespace Tag

/-- The kind of a scalar that is judged by its form. A newline at the end is no part of the form,
but a newline alone is a text. -/
def ofForm (text : List Char) : Tag :=
  let cs := if text = ['\n'] then text else dropFinalNewline text
  let s := String.ofList cs
  if boolWords.contains s then bool
  else if looksFloat cs then float
  else if looksInt cs then int
  else if s = "<<" then merge
  else if nullWords.contains s then null
  else if ((TimestampText.parse? cs).map (·.isPlain)).getD false then timestamp
  else if s = "=" then value
  else string

end Tag

end ParenLint.Yaml
