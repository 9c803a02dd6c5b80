import ParenLint.Number.Binary64

/-!
# JSON values

Objects keep their members in the order in which they were written. A number written with a
fraction or an exponent is a floating-point number, and any other is an integer of any size.
-/

namespace ParenLint

/-- A JSON value. -/
inductive Json
  | null
  | bool (b : Bool)
  | int (n : Int)
  | float (x : Binary64)
  | string (s : String)
  | array (items : List Json)
  | object (members : List (String × Json))
  deriving Repr, Inhabited

namespace Json

/-- The value of the last member of the given name. -/
def member? (name : String) : Json → Option Json
  | object members => (members.reverse.find? (·.1 == name)).map (·.2)
  | _ => none

end Json

end ParenLint
