import ParenLint.Source.SourceFile
import ParenLint.Swift.Token
import ParenLint.Text.Blank
import ParenLint.Text.Word

/-!
# Suppression commands

A comment can switch rules off and on. A plain command holds from its own place onwards. A command
with a modifier holds for one line: its own, the one before or the one after.
-/

namespace ParenLint

open ParenLint.Swift ParenLint.Text

/-- What a command does to the rules it names. -/
inductive CommandAction
  | enable
  | disable
  deriving DecidableEq, Repr, Inhabited

/-- The line that a command is limited to. -/
inductive CommandModifier
  | previous
  | this
  | next
  deriving DecidableEq, Repr, Inhabited

namespace CommandAction

/-- The word for an action. -/
def name : CommandAction → String
  | enable => "enable"
  | disable => "disable"

/-- All actions. -/
def all : List CommandAction := [enable, disable]

/-- The action that a word names. -/
def ofName? (s : String) : Option CommandAction := all.find? (·.name == s)

/-- The action that undoes another. -/
def inverse : CommandAction → CommandAction
  | enable => disable
  | disable => enable

end CommandAction

namespace CommandModifier

/-- The word for a modifier. -/
def name : CommandModifier → String
  | previous => "previous"
  | this => "this"
  | next => "next"

/-- All modifiers. -/
def all : List CommandModifier := [previous, this, next]

/-- The modifier that a word names. -/
def ofName? (s : String) : Option CommandModifier := all.find? (·.name == s)

/-- The line a modifier points at from a command's own line. -/
def target (m : CommandModifier) (line : Int) : Int :=
  match m with
  | previous => line - 1
  | this => line
  | next => line + 1

end CommandModifier

/-- A command, placed where its text begins. -/
structure Command where
  action : CommandAction
  /-- The identifiers of the rules it names. -/
  rules : List String
  line : Int
  character : Int
  modifier : Option CommandModifier
  deriving DecidableEq, Repr, Inhabited

/-- Stands behind every character of a line. -/
def endOfLine : Int := 9223372036854775807

namespace Command

/-- The plain commands that have the effect of a command. A modifier becomes a pair that acts at
the start of the target line and undoes it at its end. -/
def expand (c : Command) : List Command :=
  match c.modifier with
  | none => [c]
  | some m =>
    let target := m.target c.line
    [⟨c.action, c.rules, target, 0, none⟩,
      ⟨c.action.inverse, c.rules, target, endOfLine, none⟩]

/-! ### Reading commands -/

/-- The word that introduces a command. -/
def introduction : List Char := "swiftlint:".toList

/-- The rest of a text behind a word that begins it. -/
def behind? (word cs : List Char) : Option (List Char) :=
  if word.isPrefixOf cs then some (cs.drop word.length) else none

/-- Whether `c` separates the names of rules. -/
def isGap (c : Char) : Bool := c = ' ' ∨ c = '\t'

/-- Whether `c` may stand in the name of a rule. -/
def isRuleChar (c : Char) : Bool := isWordChar c || c = '.' || c = '-'

/-- The names of rules that a text begins with, each after a gap, and the rest of the text. -/
def ruleNames : List Char → List String × List Char
  | [] => ([], [])
  | c :: cs =>
    let name := (cs.dropWhile isGap).takeWhile isRuleChar
    if isGap c ∧ name ≠ [] then
      let (names, rest) := ruleNames ((cs.dropWhile isGap).dropWhile isRuleChar)
      (String.ofList name :: names, rest)
    else ([], c :: cs)
termination_by cs => cs.length
decreasing_by
  have h := ((List.dropWhile_sublist isRuleChar).trans
    (List.dropWhile_sublist isGap (l := cs))).length_le
  exact Nat.lt_succ_of_le h

/-- The action that a text begins with, and the rest. -/
def action? (cs : List Char) : Option (CommandAction × List Char) :=
  CommandAction.all.findSome? fun a => (behind? a.name.toList cs).map (a, ·)

/-- The modifier that a text begins with, after its colon, and the rest. -/
def modifier? (cs : List Char) : Option (CommandModifier × List Char) :=
  CommandModifier.all.findSome? fun m => (behind? (':' :: m.name.toList) cs).map (m, ·)

/-- The command that begins a text, with the rest of the text. Its place is given by `place`. -/
def read? (place : Int × Int) (cs : List Char) : Option (Command × List Char) := do
  let rest ← behind? introduction cs
  let (action, rest) ← action? rest
  let (modifier, rest) := match modifier? rest with
    | some (m, rest) => (some m, rest)
    | none => (none, rest)
  match ruleNames rest with
  | ([], _) => none
  | (rules, rest) => some (⟨action, rules, place.1, place.2, modifier⟩, rest)

/-- The commands in a text that begins at offset `start`, each placed by `place`. The search goes
on behind a command that was found. -/
def readFrom (place : Int → Int × Int) (start : Nat) : List Char → List Command
  | [] => []
  | c :: rest =>
    match read? (place start) (c :: rest) with
    | some (command, left) =>
      let used := rest.length + 1 - left.length
      command :: readFrom place (start + max 1 used) (rest.drop (used - 1))
    | none => readFrom place (start + 1) rest
termination_by cs => cs.length
decreasing_by all_goals (simp only [List.length_cons, List.length_drop]; omega)

/-- The commands in the comments of a file, in order. -/
def inComments (file : SourceFile) (tokens : List Token) : List Command :=
  (Token.comments tokens).flatMap fun t =>
    readFrom (positionIn file.lineStarts) t.start (t.text file.contents)

end Command

end ParenLint
