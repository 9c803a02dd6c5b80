import ParenLint.Statement.Kind
import ParenLint.Text.Blank

/-!
# Patterns of wrapped conditionals

A pattern is a sequence of pieces: fixed words, runs of blanks, and the body between the
parentheses. `split?` cuts the front of a text into one part for each piece. Every run is taken as
long as possible and given back character by character where the pieces after it fail.
-/

namespace ParenLint

open ParenLint.Text

/-- A piece of a pattern. -/
inductive Piece
  /-- The characters themselves. -/
  | word (w : List Char)
  /-- Blanks, possibly none. -/
  | blanks
  /-- What the parentheses enclose, recorded if `captured` is set. -/
  | body (captured : Bool)
  deriving DecidableEq, Repr

/-- A sequence of pieces. -/
abbrev Pattern := List Piece

/-- A body may hold any character but a comma, which only tuples and argument lists have, and an
opening brace, which ends the condition. -/
def isBodyChar (c : Char) : Bool := c ≠ ',' ∧ c ≠ '{'

namespace Piece

/-- Whether a text is what the piece stands for. -/
def Accepts : Piece → List Char → Prop
  | word w, t => t = w
  | blanks, t => ∀ c ∈ t, isBlank c = true
  | body _, t => ∀ c ∈ t, isBodyChar c = true

/-- Whether the part taken by the piece is recorded. -/
def isCaptured : Piece → Bool
  | body captured => captured
  | _ => false

/-- The piece as a regular expression. -/
def source : Piece → List Char
  | word w => w.flatMap fun c => if c = '(' ∨ c = ')' ∨ c = '{' then ['\\', c] else [c]
  | blanks => ['\\', 's', '*']
  | body captured =>
    let run := ['[', '^', ',', '{', ']', '*']
    if captured then '(' :: run ++ [')'] else run

end Piece

/-- The longest run of characters in `p` after which `next` succeeds, and the result of `next`. -/
def longestRun {α : Type} (p : Char → Bool) (next : List Char → Option α) :
    List Char → Option (List Char × α)
  | [] => (next []).map fun r => ([], r)
  | c :: rest =>
    let extended := if p c then longestRun p next rest else none
    match extended with
    | some (run, r) => some (c :: run, r)
    | none => (next (c :: rest)).map fun r => ([], r)

namespace Pattern

/-- The front of a text, cut into one part for each piece of the pattern. -/
def split? : Pattern → List Char → Option (List (List Char))
  | [], _ => some []
  | .word w :: ps, cs =>
    if w.isPrefixOf cs then (split? ps (cs.drop w.length)).map (w :: ·) else none
  | .blanks :: ps, cs => (longestRun isBlank (split? ps) cs).map fun (t, ts) => t :: ts
  | .body _ :: ps, cs => (longestRun isBodyChar (split? ps) cs).map fun (t, ts) => t :: ts

/-- The part that the pattern records, if it records one. -/
def captured? (p : Pattern) (parts : List (List Char)) : Option (List Char) :=
  ((p.zip parts).find? (·.1.isCaptured)).map (·.2)

/-- The pattern as a regular expression. -/
def source (p : Pattern) : String := String.ofList (p.flatMap Piece.source)

/-- What follows the keyword: blanks and the body in its parentheses. -/
def wrappedBody (captured : Bool) : Pattern :=
  [.blanks, .word ['('], .body captured, .word [')'], .blanks]

/-- A wrapped conditional of the given kind: the keyword, the body in parentheses and an opening
brace. A guard has `else` before the brace. -/
def statement (kind : StatementKind) : Pattern :=
  .word kind.keyword.toList :: wrappedBody false
    ++ (if kind = .guard then [.word "else".toList, .blanks] else [])
    ++ [.word ['{']]

/-- The wrapped conditional that can be corrected: an `if`, with its body recorded. -/
def correctable : Pattern :=
  .word "if".toList :: wrappedBody true ++ [.word ['{']]

end Pattern

end ParenLint
