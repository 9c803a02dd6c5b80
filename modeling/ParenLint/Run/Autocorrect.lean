import ParenLint.Rule.Correct
import ParenLint.Run.Lint

/-!
# Correcting

A correcting run goes through the selected files. Every copy of the rule that is switched on reads
the text that the copy before it has left, and rewrites the file if there is something to correct.
The first file that cannot be read or written ends the run; what was written before stays, and so
does the part of a text that was stored before its writing broke off.
-/

namespace ParenLint

open ParenLint.Config ParenLint.Swift

/-- What a correcting run that came to its end has done. -/
structure CorrectSummary where
  corrections : List Correction
  /-- The number of files that were read. -/
  scanned : Nat
  /-- The number of files that were rewritten. -/
  corrected : Nat
  deriving Repr, Inhabited

/-- The state of a file in the course of its correction. -/
structure FileProgress where
  workspace : Workspace
  file : SourceFile
  events : List Event
  corrections : List Correction

/-- One pass of the rule over a file, with the tokens and the suppressed regions of its text. -/
def correctOnce (file : SourceFile) (failure : Option WriteFailure) : CorrectionRun :=
  let ts := tokens file.contents
  correct file (fun o => Token.kindAt ts o) (Command.keepEnabled (Command.regions file ts) file)
    failure

/-- One pass of the rule over a file of a workspace, in which the new text is stored. -/
def correctStep (path : String) (p : FileProgress) : Except WriteFailure FileProgress :=
  let run := correctOnce p.file (p.workspace.refusal? path)
  match run.outcome with
  | .error e => .error e
  | .ok corrections =>
    .ok
      { workspace := run.written.foldl (fun w contents => w.store path contents) p.workspace
        file := run.file
        events := p.events ++ run.written.map fun contents => .wrote contents.length path
        corrections := p.corrections ++ corrections }

/-- The progress when a pass could not store its text. -/
def FileProgress.breakOff (path : String) (p : FileProgress) : FileProgress :=
  let run := correctOnce p.file (p.workspace.refusal? path)
  { p with
    workspace := run.written.foldl (fun w contents => w.breakOff path contents) p.workspace }

/-- Passes of the rule over a file, up to the first that fails. The progress made until then is kept
beside the failure. -/
def correctPasses (path : String) :
    Nat → FileProgress → FileProgress × Except WriteFailure Unit
  | 0, p => (p, .ok ())
  | n + 1, p =>
    match correctStep path p with
    | .error e => (p.breakOff path, .error e)
    | .ok q => correctPasses path n q

/-- What the correction of one file came to. -/
structure FileCorrection where
  events : List Event
  workspace : Workspace
  outcome : Except RunError (List Correction)

/-- Correct one file of a workspace. -/
def correctPath (settings : Config.Settings) (copies : Nat) (w : Workspace) (path : String) :
    FileCorrection :=
  match w.readSource path with
  | .error e => ⟨[.couldNotCorrect path], w, .error (.read e)⟩
  | .ok file =>
    let copies := enabledCopies settings copies
    let (p, result) := correctPasses path copies ⟨w, file, [], []⟩
    match result with
    | .error e => ⟨p.events ++ [.couldNotCorrect path], p.workspace, .error (.write e)⟩
    | .ok () =>
      let found := p.corrections.length
      let last := if found = 0 then [] else [.correctionsMade path found]
      ⟨p.events ++ last, p.workspace, .ok p.corrections⟩

/-- What a correcting run came to. -/
structure CorrectingRun where
  events : List Event
  /-- The workspace when the run ended, early or not. -/
  workspace : Workspace
  outcome : Except RunError CorrectSummary

/-- Correct files one after the other, up to the first that fails. For every file its corrections
are returned. -/
def correctPaths (settings : Config.Settings) (copies : Nat) (w : Workspace) :
    List String → List Event × Workspace × Except RunError (List (List Correction))
  | [] => ([], w, .ok [])
  | path :: paths =>
    let c := correctPath settings copies w path
    match c.outcome with
    | .error e => (c.events, c.workspace, .error e)
    | .ok corrections =>
      let (more, w, result) := correctPaths settings copies c.workspace paths
      (c.events ++ more, w, result.map (corrections :: ·))

/-- Correct the files that targets stand for. -/
def autocorrect (settings : Config.Settings) (copies : Nat) (w : Workspace)
    (targets : List String) : CorrectingRun :=
  let files := w.selectedFiles settings targets
  let (events, w, result) := correctPaths settings copies w files
  { events := selectionEvents targets files ++ .correcting files.length :: events
    workspace := w
    outcome := result.map fun found =>
      { corrections := found.flatten
        scanned := files.length
        corrected := (found.filter fun cs => !cs.isEmpty).length } }

end ParenLint
