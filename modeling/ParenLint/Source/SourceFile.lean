import ParenLint.Source.Location

/-!
# Source files

A source file is a text with an optional path. The starts of its lines are kept with it, and every
successful write renews them.
-/

namespace ParenLint

/-- Why a text could not be stored, in words. -/
structure WriteFailure where
  /-- The words. -/
  message : String
  deriving DecidableEq, Repr, Inhabited

/-- A text, its path and the starts of its lines. -/
structure SourceFile where
  /-- Where the text is stored, if anywhere. -/
  path : Option String
  /-- The characters of the text. -/
  contents : List Char
  /-- The offsets at which the lines of the text start. -/
  lineStarts : List Nat
  deriving DecidableEq, Repr, Inhabited

namespace SourceFile

/-- The file of the given text. -/
def ofContents (contents : List Char) (path : Option String) : SourceFile :=
  ⟨path, contents, ParenLint.lineStarts contents⟩

/-- Store a new text, which becomes that of the file. If the storing fails, the file keeps its text
and there is no new one. -/
def write (file : SourceFile) (failure : Option WriteFailure) (contents : List Char) :
    Except WriteFailure SourceFile :=
  match failure with
  | some e => .error e
  | none => .ok { file with contents, lineStarts := ParenLint.lineStarts contents }

/-- The location of an offset. -/
def location (file : SourceFile) (offset : Int) : Location :=
  let (line, character) := positionIn file.lineStarts offset
  { file := file.path, offset, line, character }

end SourceFile

end ParenLint
