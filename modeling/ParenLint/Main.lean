import ParenLint.Cli.Program

/-!
# The command

The files that a task can reach are read. The task is carried out on them, what it puts out is shown
and the files that it has changed are stored.
-/

namespace ParenLint.Cli

open ParenLint.Path

/-- Whether an error says that there is nothing at a place. -/
def isMissing : IO.Error → Bool
  | .noFileOrDirectory .. | .inappropriateType .. => true
  | _ => false

/-- The number of the failure that stands for all those without one: the device failed. -/
def deviceFailure : Nat := 5

/-- The number of a failure. Some calls give it with the other sign. -/
def failureNumber (code : UInt32) : Nat := code.toInt32.toInt.natAbs

/-- The number and the words of an error. -/
def readFailure : IO.Error → ReadFailure
  | .permissionDenied _ code words | .invalidArgument _ code words
  | .resourceExhausted _ code words => ⟨failureNumber code, words⟩
  | .hardwareFault code words | .otherError code words => ⟨failureNumber code, words⟩
  | e => ⟨deviceFailure, toString e⟩

/-- A disk with the file or the directory at a place, if there is one. Only a place with nothing at
it is passed over: what cannot be read is kept as such. -/
def readPlace (disk : Disk) (place : Place) : IO Disk := do
  let path := (← IO.currentDir) / (ofPlace place).render
  try
    if ← path.isDir then
      return { disk with tree.directories := place :: disk.tree.directories }
    return { disk with tree := disk.tree.add place (← IO.FS.readBinFile path).toList }
  catch e =>
    if isMissing e then return disk
    return { disk with
      tree := disk.tree.add place []
      unreadable := (place, readFailure e) :: disk.unreadable }

/-- A disk with the source files beneath the directory at a place. What is in a directory that may
not be searched is not found, and nothing is where a link leads nowhere. -/
partial def readBeneath (disk : Disk) (place : Place) : IO Disk := do
  let directory := (← IO.currentDir) / (ofPlace place).render
  let entries ← try directory.readDir catch
    | .permissionDenied .. => pure #[]
    | e => throw e
  let mut disk := disk
  for entry in entries do
    let inner := place ++ [entry.fileName]
    if ← entry.path.isDir then disk ← readBeneath disk inner
    else if FileTree.isSourceName entry.fileName && (← entry.path.pathExists) then
      disk ← readPlace disk inner
  return disk

/-- The workspace with all files that a task can reach. -/
def workspaceFor (task : Task) : IO Workspace := do
  let cwd := (parse (← IO.currentDir).toString).names
  let mut disk : Disk := (⟨[], [cwd]⟩ : FileTree)
  let named := task.configuration?.toList ++ task.targets
  for place in configurationPlaces cwd ++ named.flatMap fun path => stops cwd (parse path) do
    disk ← readPlace disk place
  for target in task.targets do
    let place := resolve cwd (parse target)
    if disk.tree.isDirectory place then disk ← readBeneath disk place
  return ⟨disk, cwd, []⟩

/-- Show what the program puts out. -/
def showOutput (verbose : Bool) : Output → IO Unit
  | .event e => do
    if verbose then IO.eprintln s!"{(recordLevel e).name}: {e.message}"
    if let some line := shownLine? e then IO.eprint line
  | .report text => IO.print text

/-- Store the files that have been changed. -/
def storeChanges (before after : FileTree) : IO Unit :=
  for (place, bytes) in after.changedSince before do
    IO.FS.writeBinFile (ofPlace place).render ⟨bytes.toArray⟩

/-- The words about command lines that are not understood. -/
def usage : String :=
  "\n".intercalate
    ["usage: control-statement-lint [--verbose] COMMAND", "commands:",
      "  lint [--config FILE] [--reporter NAME] [PATH...]",
      "  autocorrect [--config FILE] [PATH...]", "  rules"]

/-- Carry out what a command line asks for. -/
def execute (invocation : Invocation) : IO UInt32 := do
  let workspace ← workspaceFor invocation.task
  let outcome := invocation.task.run workspace
  try
    storeChanges workspace.tree outcome.workspace.tree
  catch e =>
    showOutput invocation.verbose (.event (.failed (toString e)))
    return failedStatus.toUInt32
  outcome.outputs.forM (showOutput invocation.verbose)
  match outcome.ending with
  | .status code => return code.toUInt32
  | .aborted e =>
    IO.eprintln e.message
    return 1

end ParenLint.Cli

/-- The program. -/
def main (args : List String) : IO UInt32 :=
  match ParenLint.Cli.Invocation.ofArguments? args with
  | some invocation => ParenLint.Cli.execute invocation
  | none => do
    IO.eprintln ParenLint.Cli.usage
    return 2
