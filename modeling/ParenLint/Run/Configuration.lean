import ParenLint.Run.Workspace
import ParenLint.Yaml.Document

/-!
# Configuration files

The settings of a run are read from the configuration file that is named. If none is named, they
are read from the nearest file of the usual name, in the current directory or above it. Without
such a file the settings have no entries.
-/

namespace ParenLint

open ParenLint.Path ParenLint.Config

/-- The usual name of a configuration file. -/
def configurationName : String := ".swiftlint.yml"

/-- The places of configuration files of the usual name, from the nearest to a place on. -/
def configurationPlaces (start : Place) : List Place :=
  (upward start).map fun directory => directory ++ [configurationName]

/-- Why there are no settings. -/
inductive ConfigurationError
  | read (e : ReadError)
  /-- The file is not the YAML of a value. -/
  | yaml (fault : Yaml.Fault)
  /-- The value in the file is not a mapping. -/
  | notAMapping (path : String)
  | settings (e : SettingsError)
  deriving Repr

namespace ConfigurationError

/-- The message of an error. -/
def message : ConfigurationError → String
  | read e => e.message
  | yaml .malformed => "Malformed YAML configuration: " ++ Yaml.Fault.malformed.message
  | yaml fault => fault.message
  | notAMapping path => s!"{path}: top level of the configuration must be a mapping"
  | settings e => e.message

/-- Whether the person who started the run is told about an error. All errors are told but those of
scalars that are marked as a kind of value whose form they lack, and of numbers too large. -/
def isTold : ConfigurationError → Bool
  | yaml (.noCodePoint n) => n < 0x80000000
  | yaml .emptyNumber | yaml .tooManyPlaces | yaml (.noBool _) | yaml .noDate
  | yaml .dateOfMapping | yaml .cyclic => false
  | _ => true

end ConfigurationError

namespace Workspace

/-- The entries in a configuration file. An empty file has none. -/
def entriesIn (w : Workspace) (path : String) : Except ConfigurationError Entries :=
  match w.readBytes path with
  | .error e => .error (.read e)
  | .ok bytes =>
    match Yaml.entriesOfBytes? bytes with
    | .error (.undecodable e) => .error (.read (.decode (.undecodable e)))
    | .error fault => .error (.yaml fault)
    | .ok (some entries) => .ok entries
    | .ok none => .error (.notAMapping path)

/-- The configuration file of the usual name that is nearest to a place. -/
def nearestConfiguration? (w : Workspace) (start : Place) : Option String :=
  ((configurationPlaces start).find? fun place => (w.tree.bytesAt? place).isSome).map fun place =>
    (ofPlace place).render

/-- The entries in the configuration file that is nearest to a place. -/
def entriesNear (w : Workspace) (start : Place) : Except ConfigurationError Entries :=
  match w.nearestConfiguration? start with
  | some path => w.entriesIn path
  | none => .ok []

/-- The settings in the configuration file that is named, or else in the nearest one. -/
def settings (w : Workspace) (configuration : Option String) :
    List Event × Except ConfigurationError Settings :=
  let entries := match configuration with
    | some path => w.entriesIn path
    | none => w.entriesNear w.cwd
  match entries with
  | .error e => ([], .error e)
  | .ok entries =>
    let (ignored, result) := Settings.ofEntries entries
    (ignored.map .ignoredKey, result.mapError .settings)

end Workspace

end ParenLint
