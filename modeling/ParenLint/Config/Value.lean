import ParenLint.Calendar.Date
import ParenLint.Number.Decimal
import ParenLint.Text.Bytes

/-!
# Values of a configuration

A configuration file holds scalars, lists, mappings, sets and pairs. A mapping keeps its entries in
the order in which their keys first occurred.
-/

namespace ParenLint.Config

/-- A value in a configuration. -/
inductive Value
  | null
  | bool (b : Bool)
  | int (n : Int)
  | float (x : Binary64)
  | string (s : String)
  | date (d : Date)
  | timestamp (t : Timestamp)
  | bytes (bs : List UInt8)
  | list (items : List Value)
  | mapping (entries : List (Value × Value))
  | set (items : List Value)
  | pair (first second : Value)
  deriving Repr, Inhabited

/-- The entries of a mapping. -/
abbrev Entries := List (Value × Value)

namespace Value

/-- A value that counts as a whole number. Truth values count as one and zero. -/
def asInt? : Value → Option Int
  | bool b => some (if b then 1 else 0)
  | int n => some n
  | _ => none

/-- Whether two values are the same key of a mapping. Numbers are compared by what they amount to,
whatever their form. Collections are no keys. -/
def sameKey (a b : Value) : Bool :=
  match a.asInt?, b.asInt?, a, b with
  | some m, some n, _, _ => m == n
  | some m, none, _, float y => y.equalsInt m
  | none, some n, float x, _ => x.equalsInt n
  | _, _, float x, float y => x.equals y
  | _, _, null, null => true
  | _, _, string s, string t => s == t
  | _, _, date d, date e => d == e
  | _, _, timestamp s, timestamp t => s.sameMoment t
  | _, _, bytes s, bytes t => s == t
  | _, _, _, _ => false

/-! ### Text of values -/

mutual

/-- The value as messages show it: texts are quoted, collections are in brackets. -/
def inspect : Value → String
  | null => "None"
  | bool true => "True"
  | bool false => "False"
  | int n => toString n
  | float x => x.render
  | string s => Text.quoted s
  | date d => d.inspect
  | timestamp t => t.inspect
  | bytes bs => Text.quotedBytes bs
  | list items => "[" ++ ", ".intercalate (inspectItems items) ++ "]"
  | mapping entries => "\x7b" ++ ", ".intercalate (inspectEntries entries) ++ "\x7d"
  | set [] => "set()"
  | set items => "\x7b" ++ ", ".intercalate (inspectItems items) ++ "\x7d"
  | pair a b => "(" ++ inspect a ++ ", " ++ inspect b ++ ")"

/-- The texts of the items of a list. -/
def inspectItems : List Value → List String
  | [] => []
  | x :: xs => inspect x :: inspectItems xs

/-- The texts of the entries of a mapping. -/
def inspectEntries : List (Value × Value) → List String
  | [] => []
  | (k, x) :: es => (inspect k ++ ": " ++ inspect x) :: inspectEntries es

end

/-- The value as a text of its own: a text stands for itself, and dates lose their name. -/
def display : Value → String
  | string s => s
  | date d => d.render
  | timestamp t => t.render
  | v => inspect v

end Value

namespace Entries

/-- The value of a key. -/
def find? (es : Entries) (key : Value) : Option Value :=
  (List.find? (fun e => e.1.sameKey key) es).map (·.2)

/-- The value of a key that is a text. -/
def get? (es : Entries) (name : String) : Option Value := find? es (.string name)

/-- Give a key a value. A key that is there keeps its place and its form. -/
def insert (es : Entries) (key value : Value) : Entries :=
  if es.any (·.1.sameKey key) then
    es.map fun e => if e.1.sameKey key then (e.1, value) else e
  else es ++ [(key, value)]

/-- The entries with those of a list of pairs inserted one after the other. -/
def ofPairs (pairs : List (Value × Value)) : Entries :=
  pairs.foldl (fun es (k, v) => insert es k v) []

end Entries

end ParenLint.Config
