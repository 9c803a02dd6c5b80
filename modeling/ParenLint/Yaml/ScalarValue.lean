import ParenLint.Config.Value
import ParenLint.Yaml.Number

/-!
# Values of scalars

What the text of a scalar stands for, when it is a scalar of a kind.
-/

namespace ParenLint.Yaml

open ParenLint.Config ParenLint.Text

/-- The words for the two truth values, in lower case. -/
def boolOfWord? (s : String) : Option Bool :=
  if ["yes", "true", "on"].contains s then some true
  else if ["no", "false", "off"].contains s then some false
  else none

/-- The truth value that a word stands for, in upper or lower case. -/
def boolOfScalar (text : List Char) : Except Fault Bool :=
  let word := String.ofList (lower text)
  match boolOfWord? word with
  | some b => .ok b
  | none => .error (.noBool word)

/-- The number that ASCII digits write. -/
def natOf (ds : List Char) : Nat := ds.foldl (fun n d => 10 * n + (d.toNat - 48)) 0

/-- Microseconds of a fraction of a second: its first six digits. -/
def microseconds (fraction : List Char) : Nat :=
  let ds := fraction.take 6
  natOf (ds ++ List.replicate (6 - ds.length) '0')

/-- The date or the timestamp that the text of a scalar writes. -/
def momentOf (text : List Char) : Except Fault Value :=
  match TimestampText.parse? (dropFinalNewline text) with
  | none => .error .noDate
  | some t =>
    match t.time with
    | none =>
      match Date.ofNumbers (natOf t.year) (natOf t.month) (natOf t.day) with
      | .ok d => .ok (.date d)
      | .error e => .error (.calendar e)
    | some (hour, minute, second) =>
      let zone := t.zone.map fun (sign, hours, minutes) =>
        let offset : Int := natOf hours * 60 + natOf minutes
        if sign = '-' then -offset else offset
      match Timestamp.ofNumbers (natOf t.year) (natOf t.month) (natOf t.day) (natOf hour)
        (natOf minute) (natOf second) (microseconds t.fraction) zone with
      | .ok t => .ok (.timestamp t)
      | .error e => .error (.calendar e)

/-- The value that a text has as a scalar of a kind. -/
def scalarValue (tag : Tag) (text : List Char) : Except Fault Value :=
  match tag with
  | .null => .ok .null
  | .bool => (boolOfScalar text).map .bool
  | .int => (intOfScalar text).map .int
  | .float => (floatOfScalar text).map .float
  | .timestamp => momentOf text
  | .string => .ok (.string (String.ofList text))
  | .binary =>
    match bytesOfText? text with
    | some bs => .ok (.bytes bs)
    | none => .error .malformed
  | .sequence | .mapping | .set | .pairs | .merge | .value | .other => .error .malformed

end ParenLint.Yaml
