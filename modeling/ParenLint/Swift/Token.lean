/-!
# Tokens of Swift text

A token is a classified stretch of a text, given by the offset of its first character and the
number of its characters. White space, punctuation and operators belong to no token.
-/

namespace ParenLint.Swift

/-- What a stretch of Swift text is. -/
inductive TokenKind
  | keyword
  | identifier
  | string
  | comment
  | number
  | other
  deriving DecidableEq, Repr, Inhabited

namespace TokenKind

/-- The name of a kind. -/
def name : TokenKind → String
  | keyword => "keyword"
  | identifier => "identifier"
  | string => "string"
  | comment => "comment"
  | number => "number"
  | other => "other"

/-- All kinds. -/
def all : List TokenKind := [keyword, identifier, string, comment, number, other]

/-- The kind of the given name. -/
def ofName? (s : String) : Option TokenKind := all.find? (·.name == s)

end TokenKind

/-- A classified stretch of text. -/
structure Token where
  /-- Offset of the first character. -/
  start : Nat
  /-- Number of characters. -/
  length : Nat
  /-- What the stretch is. -/
  kind : TokenKind
  deriving DecidableEq, Repr, Inhabited

namespace Token

/-- Offset just after the last character. -/
def stop (t : Token) : Nat := t.start + t.length

/-- Whether the character at `offset` belongs to the token. -/
def Covers (t : Token) (offset : Int) : Prop := (t.start : Int) ≤ offset ∧ offset < t.stop

instance (t : Token) (offset : Int) : Decidable (t.Covers offset) :=
  inferInstanceAs (Decidable (_ ∧ _))

/-- The characters of the token in the text it was found in. -/
def text (t : Token) (contents : List Char) : List Char :=
  (contents.drop t.start).take t.length

/-- The kind of the token that covers `offset`, and `other` where there is none. -/
def kindAt (ts : List Token) (offset : Int) : TokenKind :=
  match ts.find? fun t => t.Covers offset with
  | some t => t.kind
  | none => .other

/-- The comments among the tokens, in order. -/
def comments (ts : List Token) : List Token := ts.filter (·.kind = .comment)

theorem kindAt_eq_other_of_forall {ts : List Token} {offset : Int}
    (h : ∀ t ∈ ts, ¬ t.Covers offset) : kindAt ts offset = .other := by
  have : ts.find? (fun t => t.Covers offset) = none := by
    simpa [List.find?_eq_none] using h
  simp [kindAt, this]

end Token

end ParenLint.Swift
