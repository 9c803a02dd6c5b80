import ParenLint.Calendar.Date
import ParenLint.Text.Quoted
import ParenLint.Text.Utf8

/-!
# Faults of YAML documents

Why a text gives no value. The faults of its form are not told apart; those of numbers, dates and
other scalars that look right and are not have words of their own.
-/

namespace ParenLint.Yaml

/-- Why a text gives no value. -/
inductive Fault
  /-- The text is no well-formed document, or a node of it cannot be understood. -/
  | malformed
  /-- The end of the text comes within quotes. -/
  | unclosed
  /-- The bytes of the text cannot be decoded. -/
  | undecodable (e : Text.DecodeError)
  /-- An escape names a number that is no code point. -/
  | noCodePoint (n : Nat)
  /-- The text of an integer is empty. -/
  | emptyNumber
  /-- The text is no integer in the base. -/
  | noInteger (base : Nat) (text : String)
  /-- The text has more digits than an integer may have. -/
  | tooManyDigits (count : Nat)
  /-- The text is no floating-point number. -/
  | noFloat (text : String)
  /-- A number in base sixty has too many places. -/
  | tooManyPlaces
  /-- The text is no truth value. -/
  | noBool (text : String)
  /-- The text is no date. -/
  | noDate
  /-- A date is asked of a mapping that stands for a text. -/
  | dateOfMapping
  /-- The numbers of a date do not form one. -/
  | calendar (e : CalendarError)
  /-- A node is part of itself. -/
  | cyclic
  deriving DecidableEq, Repr

/-- The greatest number of decimal digits that an integer may be written with. -/
def maxDigits : Nat := 4300

namespace Fault

/-- The words for a fault. -/
def message : Fault → String
  | malformed | unclosed => "<yaml>"
  | undecodable e => e.message
  | noCodePoint n =>
    if n < 0x80000000 then "chr() arg not in range(0x110000)"
    else "Python int too large to convert to C int"
  | emptyNumber => "string index out of range"
  | noInteger base text =>
    s!"invalid literal for int() with base {base}: "
      ++ String.ofList ((Text.quoted text).toList.take 200)
  | tooManyDigits count =>
    s!"Exceeds the limit ({maxDigits} digits) for integer string conversion: "
      ++ s!"value has {count} digits; use sys.set_int_max_str_digits() to increase the limit"
  | noFloat text => "could not convert string to float: " ++ Text.quoted text
  | tooManyPlaces => "int too large to convert to float"
  | noBool text => Text.quoted text
  | noDate => "'NoneType' object has no attribute 'groupdict'"
  | dateOfMapping => "expected string or bytes-like object, got 'list'"
  | calendar e => e.message
  | cyclic => "maximum recursion depth exceeded"

end Fault

end ParenLint.Yaml
