import ParenLint.Rule.Check

/-!
# Unwrapping conditionals

Of the wrapped `if` conditions those are unwrapped whose span the enablement of the rule keeps. All
of them are rewritten in one text, from the last to the first so that the offsets of the earlier
ones stay valid, and the file is written once.
-/

namespace ParenLint

open ParenLint.Swift

/-- Which of some spans a rule may act on. -/
abbrev Enablement := List Span → String → List Span

/-- What a correction asks of its surroundings. -/
inductive Exchange
  /-- Which of the spans the rule may act on. -/
  | asked (spans : List Span) (ruleId : String)
  /-- To store a text. -/
  | wrote (contents : List Char)
  deriving DecidableEq, Repr

/-- The course of a correction. -/
structure CorrectionRun where
  /-- What was asked, in order. -/
  exchanges : List Exchange
  /-- The file afterwards. -/
  file : SourceFile
  /-- The corrections made, the last in the text first, or why the text could not be stored. -/
  outcome : Except WriteFailure (List Correction)

/-- The text with the condition of one match unwrapped. -/
def unwrap (m : Match) (contents : List Char) : List Char :=
  contents.take m.start ++ "if ".toList ++ m.captured.getD [] ++ " \x7b".toList
    ++ contents.drop m.stop

/-- The text with the conditions of matches unwrapped, given in the order of the text. -/
def unwrapAll (ms : List Match) (contents : List Char) : List Char :=
  ms.foldr unwrap contents

/-- Unwrap the `if` conditions of a file that may be acted on. If the new text cannot be stored, the
file keeps the text that it had. -/
def correct (file : SourceFile) (kindAt : Nat → TokenKind) (enablement : Enablement)
    (failure : Option WriteFailure) : CorrectionRun :=
  let found := Pattern.correctable.wrapped kindAt file.contents
  if found.isEmpty then ⟨[], file, .ok []⟩
  else
    let spans := found.map Match.span
    let asked := Exchange.asked spans controlStatement.identifier
    let kept := enablement spans controlStatement.identifier
    let eligible := found.filter (·.span ∈ kept)
    if eligible.isEmpty then ⟨[asked], file, .ok []⟩
    else
      let contents := unwrapAll eligible file.contents
      let exchanges := [asked, .wrote contents]
      match file.write failure contents with
      | .error e => ⟨exchanges, file, .error e⟩
      | .ok written =>
        let corrections := eligible.reverse.map fun m =>
          controlStatement.correction (file.location m.start)
        ⟨exchanges, written, .ok corrections⟩

namespace CorrectionRun

/-- The spans and the rule that were asked about. -/
def asked (run : CorrectionRun) : List (List Span × String) :=
  run.exchanges.filterMap fun
    | .asked spans rule => some (spans, rule)
    | .wrote _ => none

/-- The texts that were handed over to be stored. -/
def written (run : CorrectionRun) : List (List Char) :=
  run.exchanges.filterMap fun
    | .wrote contents => some contents
    | .asked _ _ => none

end CorrectionRun

end ParenLint
