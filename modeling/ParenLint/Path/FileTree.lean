import ParenLint.Path.Basic
import ParenLint.Text.Quoted

/-!
# File trees

A file tree holds files, which are sequences of bytes, and directories. Every place above a file or
a directory is a directory too.
-/

namespace ParenLint

open ParenLint.Path

/-- Files and directories by their places. -/
structure FileTree where
  files : List (Place × List UInt8)
  /-- Directories that need not hold anything. -/
  directories : List Place
  deriving Repr, Inhabited

/-- Why a path cannot be opened as a file. -/
inductive OpenFailure
  | missing
  | notADirectory
  | isADirectory
  deriving DecidableEq, Repr

/-- A path that could not be opened, as it was spelled. -/
structure OpenError where
  failure : OpenFailure
  path : String
  deriving DecidableEq, Repr

namespace OpenFailure

/-- The number of a failure. -/
def number : OpenFailure → Nat
  | missing => 2
  | notADirectory => 20
  | isADirectory => 21

/-- The words for a failure. -/
def words : OpenFailure → String
  | missing => "No such file or directory"
  | notADirectory => "Not a directory"
  | isADirectory => "Is a directory"

end OpenFailure

/-- The message of a failure. -/
def OpenError.message (e : OpenError) : String :=
  s!"[Errno {e.failure.number}] {e.failure.words}: " ++ Text.quoted e.path

namespace FileTree

/-- The bytes of the file at a place. -/
def bytesAt? (t : FileTree) (place : Place) : Option (List UInt8) :=
  (t.files.find? (·.1 == place)).map (·.2)

/-- Whether there is a directory at a place. -/
def isDirectory (t : FileTree) (place : Place) : Bool :=
  (t.bytesAt? place).isNone &&
    (place.isEmpty || (t.directories ++ t.files.map (·.1)).any place.isPrefixOf)

/-- The tree with a file at a place, unless there is one. -/
def add (t : FileTree) (place : Place) (bytes : List UInt8) : FileTree :=
  if (t.bytesAt? place).isSome then t else { t with files := t.files ++ [(place, bytes)] }

/-- The files whose bytes are not those that an earlier tree had at their places. -/
def changedSince (t before : FileTree) : List (Place × List UInt8) :=
  t.files.filter fun f => before.bytesAt? f.1 != some f.2

/-- The tree with other bytes in the file that is at a place. -/
def overwrite (t : FileTree) (place : Place) (bytes : List UInt8) : FileTree :=
  { t with files := t.files.map fun f => if f.1 = place then (place, bytes) else f }

/-- Walk from a place along names. Every name but the last has to lead to a directory. -/
def walk (t : FileTree) (place : Place) : List String → Except OpenFailure Place
  | [] => .ok place
  | name :: rest =>
    if t.isDirectory place then t.walk (step place name) rest
    else if (t.bytesAt? place).isSome then .error .notADirectory
    else .error .missing

/-- The place that a path leads to. -/
def locate (t : FileTree) (cwd : Place) (p : Path) : Except OpenFailure Place :=
  t.walk (if p.slashes = 0 then cwd else []) p.names

/-- The place and the bytes of the file that a path leads to. -/
def openFile (t : FileTree) (cwd : Place) (p : Path) : Except OpenError (Place × List UInt8) :=
  match t.locate cwd p with
  | .error failure => .error ⟨failure, p.render⟩
  | .ok place =>
    match t.bytesAt? place with
    | some bytes => .ok (place, bytes)
    | none => .error ⟨if t.isDirectory place then .isADirectory else .missing, p.render⟩

/-- The names that lead from a place to the files beneath it. -/
def filesBeneath (t : FileTree) (place : Place) : List (List String) :=
  t.files.filterMap fun f =>
    if place.isPrefixOf f.1 ∧ place ≠ f.1 then some (f.1.drop place.length) else none

end FileTree

end ParenLint
