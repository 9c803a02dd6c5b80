import ParenLint.Path.Discovery
import ParenLint.Path.Selection
import ParenLint.Run.Event
import ParenLint.Source.SourceFile
import ParenLint.Text.Newline
import ParenLint.Text.Utf8

/-!
# Workspaces

A workspace is a file tree seen from a current directory. Source files are read from it and written
back to it. Its disk may fail to hand out the bytes of a file, and storing a text may fail before the
file is opened or in the middle of it.
-/

namespace ParenLint

open ParenLint.Path ParenLint.Config ParenLint.Text

/-- Why the bytes of a file that is there cannot be read: the number of the failure and the words
for it. -/
structure ReadFailure where
  number : Nat
  words : String
  deriving DecidableEq, Repr

/-- The message of a failure to read the file of a path. -/
def ReadFailure.message (e : ReadFailure) (path : String) : String :=
  s!"[Errno {e.number}] {e.words}: " ++ Text.quoted path

/-- A file tree, and the files in it at which the disk fails. -/
structure Disk where
  tree : FileTree
  /-- The files whose bytes cannot be read. -/
  unreadable : List (Place × ReadFailure) := []
  /-- The files in which a failing write breaks off, with the number of bytes that it gets stored.
  In all others a failing write does not get as far as to open the file. -/
  brokenOff : List (Place × Nat) := []
  deriving Repr, Inhabited

/-- A file tree as a disk that never fails. -/
instance : Coe FileTree Disk := ⟨fun tree => { tree }⟩

/-- A disk, the current directory, and the paths under which nothing can be stored. -/
structure Workspace extends Disk where
  cwd : Place
  refused : List (String × WriteFailure)
  deriving Repr, Inhabited

/-- Why a file that is there gives no text. -/
inductive ContentsError
  /-- Its bytes cannot be read. The path to it is given as it was spelled. -/
  | unreadable (e : ReadFailure) (path : String)
  /-- Its bytes are no text. -/
  | undecodable (e : DecodeError)
  deriving DecidableEq, Repr

/-- The message of a failure. -/
def ContentsError.message : ContentsError → String
  | .unreadable e path => e.message path
  | .undecodable e => e.message

/-- Why a file could not be read. -/
inductive ReadError
  /-- There is no file. -/
  | open (e : OpenError)
  /-- There is a file, but it gives no text. -/
  | decode (e : ContentsError)
  deriving DecidableEq, Repr

/-- The message of a failure. -/
def ReadError.message : ReadError → String
  | .open e => e.message
  | .decode e => e.message

/-- Why a run ended early. -/
inductive RunError
  | read (e : ReadError)
  | write (e : WriteFailure)
  | settings (e : SettingsError)
  deriving Repr

namespace Workspace

/-- The bytes of the file that a path leads to. -/
def readBytes (w : Workspace) (path : String) : Except ReadError (List UInt8) :=
  match w.tree.openFile w.cwd (parse path) with
  | .error e => .error (.open e)
  | .ok (place, bytes) =>
    match w.unreadable.lookup place with
    | some e => .error (.decode (.unreadable e (parse path).render))
    | none => .ok bytes

/-- The source file that a path leads to. -/
def readSource (w : Workspace) (path : String) : Except ReadError SourceFile := do
  match decode (← w.readBytes path) with
  | .error e => .error (.decode (.undecodable e))
  | .ok cs => return .ofContents (unifyNewlines cs) (some path)

/-- Why nothing can be stored under a path, if that is so. -/
def refusal? (w : Workspace) (path : String) : Option WriteFailure :=
  (w.refused.find? (·.1 == path)).map (·.2)

/-- How many bytes a failing write gets stored in the file that a path leads to, if it opens the
file at all. -/
def stored? (w : Workspace) (path : String) : Option Nat :=
  match w.tree.locate w.cwd (parse path) with
  | .ok place => w.brokenOff.lookup place
  | .error _ => none

/-- The workspace with other bytes in the file that a path leads to. -/
def overwrite (w : Workspace) (path : String) (bytes : List UInt8) : Workspace :=
  match w.tree.locate w.cwd (parse path) with
  | .ok place => { w with tree := w.tree.overwrite place bytes }
  | .error _ => w

/-- The workspace with a text stored under a path that leads to a file. -/
def store (w : Workspace) (path : String) (contents : List Char) : Workspace :=
  w.overwrite path (encode contents)

/-- The workspace after a text could not be stored under a path. A file that was opened was emptied
by that, and holds what was stored before the write broke off. -/
def breakOff (w : Workspace) (path : String) (contents : List Char) : Workspace :=
  match w.stored? path with
  | some stored => w.overwrite path ((encode contents).take stored)
  | none => w

/-- The source files that targets stand for, as far as the settings select them. -/
def selectedFiles (w : Workspace) (settings : Settings) (targets : List String) : List String :=
  Path.select w.cwd settings.included settings.excluded
    (targets.flatMap fun target => w.tree.sources w.cwd target)

end Workspace

end ParenLint
