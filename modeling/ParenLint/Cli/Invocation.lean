import ParenLint.Path.Selection

/-!
# Command lines

A command line names a command after the options of the program and before those of the command.
Options of a command have a value, in the same argument after an equals sign or in the next
argument, and may stand between the paths. Of an option that is given twice the last value counts.
Two dashes end the options.
-/

namespace ParenLint.Cli

/-- What the program is asked to do. -/
inductive Task
  /-- Report violations. -/
  | lint (configuration reporter : Option String) (targets : List String)
  /-- Correct files. -/
  | autocorrect (configuration : Option String) (targets : List String)
  /-- List the rules. -/
  | rules
  deriving DecidableEq, Repr

/-- The configuration file that a task names. -/
def Task.configuration? : Task → Option String
  | lint configuration _ _ | autocorrect configuration _ => configuration
  | rules => none

/-- The paths that a task works on. -/
def Task.targets : Task → List String
  | lint _ _ targets | autocorrect _ targets => targets
  | rules => []

/-- A command line that has been understood. -/
structure Invocation where
  /-- Whether records are shown too. -/
  verbose : Bool
  task : Task
  deriving DecidableEq, Repr

/-! ### Arguments of a command -/

/-- The arguments of a command: the values of its options and the others, each in order. -/
structure Arguments where
  options : List (String × String)
  others : List String
  deriving DecidableEq, Repr

namespace Arguments

/-- Whether an argument is written as an option. A single dash is none. -/
def isOption (arg : String) : Bool :=
  match arg.toList with
  | '-' :: _ :: _ => true
  | _ => false

/-- The name in an option, and the value after the first equals sign if there is one. -/
def nameAndValue (arg : String) : String × Option String :=
  let cs := arg.toList
  let name := String.ofList (cs.takeWhile (· ≠ '='))
  match cs.dropWhile (· ≠ '=') with
  | [] => (name, none)
  | _ :: value => (name, some (String.ofList value))

/-- Put an option in front. -/
def addOption (name value : String) (a : Arguments) : Arguments :=
  { a with options := (name, value) :: a.options }

/-- Put another argument in front. -/
def addOther (arg : String) (a : Arguments) : Arguments := { a with others := arg :: a.others }

/-- Read the arguments of a command that has the given options. -/
def read? (known : List String) : List String → Option Arguments
  | [] => some ⟨[], []⟩
  | arg :: rest =>
    if arg = "--" then some ⟨[], rest⟩
    else if isOption arg then
      match nameAndValue arg, rest with
      | (name, some value), rest =>
        if known.contains name then (read? known rest).map (addOption name value) else none
      | (name, none), value :: rest =>
        if known.contains name then (read? known rest).map (addOption name value) else none
      | (_, none), [] => none
    else (read? known rest).map (addOther arg)

/-- The last value of an option. -/
def value? (a : Arguments) (name : String) : Option String :=
  (a.options.reverse.find? fun o => o.1 == name).map (·.2)

/-- The configuration file that is named. -/
def configuration? (a : Arguments) : Option String :=
  (a.value? "--config").map fun path => (Path.parse path).render

/-- The reporter that is named. An empty name names none. -/
def reporter? (a : Arguments) : Option String :=
  (a.value? "--reporter").filter (· ≠ "")

/-- The paths to work on. -/
def targets (a : Arguments) : List String := Path.targets a.others

end Arguments

/-! ### Command lines -/

namespace Task

/-- The task that a command and its arguments stand for. -/
def ofArguments? : List String → Option Task
  | "lint" :: args =>
    (Arguments.read? ["--config", "--reporter"] args).map fun a =>
      lint a.configuration? a.reporter? a.targets
  | "autocorrect" :: args =>
    (Arguments.read? ["--config"] args).map fun a => autocorrect a.configuration? a.targets
  | "rules" :: args =>
    match Arguments.read? [] args with
    | some ⟨_, []⟩ => some rules
    | _ => none
  | _ => none

end Task

/-- Whether an argument asks for records to be shown. The short option may be repeated. -/
def asksForRecords (arg : String) : Bool :=
  arg == "--verbose" ||
    match arg.toList with
    | '-' :: c :: cs => (c :: cs).all (· = 'v')
    | _ => false

/-- Understand a command line. -/
def Invocation.ofArguments? : List String → Option Invocation
  | [] => none
  | arg :: rest =>
    if arg = "--" then (Task.ofArguments? rest).map (⟨false, ·⟩)
    else if Arguments.isOption arg then
      if asksForRecords arg then (ofArguments? rest).map fun i => ⟨true, i.task⟩ else none
    else (Task.ofArguments? (arg :: rest)).map (⟨false, ·⟩)

end ParenLint.Cli
