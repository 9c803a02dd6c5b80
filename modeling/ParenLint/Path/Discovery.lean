import ParenLint.Order.Sort
import ParenLint.Path.FileTree

/-!
# Finding source files

A directory stands for all source files beneath it. Any other path stands for itself if it has the
suffix of a source file, whether or not there is such a file.
-/

namespace ParenLint

open ParenLint.Path

/-- The suffix of source files. -/
def sourceSuffix : String := ".swift"

namespace FileTree

/-- The place of the directory that a path leads to, if it leads to one. -/
def directoryAt? (t : FileTree) (cwd : Place) (p : Path) : Option Place :=
  match t.locate cwd p with
  | .ok place => if t.isDirectory place then some place else none
  | .error _ => none

/-- Whether the name of a file ends like that of a source file. -/
def isSourceName (name : String) : Bool := sourceSuffix.toList.isSuffixOf name.toList

/-- The spellings of the source files beneath a directory, in order. -/
def sourcesBeneath (t : FileTree) (place : Place) (p : Path) : List String :=
  let found := (t.filesBeneath place).filter fun names => isSourceName (names.getLast?.getD "")
  sortBy (fun a b => decide (a ≤ b)) (found.map fun names => (p.append names).render)

/-- The source files that a path stands for. -/
def sources (t : FileTree) (cwd : Place) (path : String) : List String :=
  let p := parse path
  match t.directoryAt? cwd p with
  | some place => t.sourcesBeneath place p
  | none => if p.suffix = sourceSuffix then [p.render] else []

end FileTree

end ParenLint
