/-!
# Tokens of YAML

The units of a document: its separators, the indicators of collections, and the properties and texts
of nodes. Where the layout of a document opens and closes a collection, there are tokens as well.
-/

namespace ParenLint.Yaml

/-- A tag as it is written: a handle that abbreviates the beginning, if there is one, and the
rest. -/
structure TagText where
  handle : Option String
  suffix : String
  deriving DecidableEq, Repr

/-- A directive at the beginning of a document. -/
inductive Directive
  /-- The version of the language. -/
  | version (major : Nat)
  /-- What a handle of tags stands for. -/
  | tagHandle (handle expansion : String)
  /-- Any other directive, which means nothing. -/
  | unknown
  deriving DecidableEq, Repr

/-- A unit of a document. -/
inductive Token
  | directive (d : Directive)
  | documentStart
  | documentEnd
  | blockSequenceStart
  | blockMappingStart
  | blockEnd
  | flowSequenceStart
  | flowSequenceEnd
  | flowMappingStart
  | flowMappingEnd
  | blockEntry
  | flowEntry
  | key
  | value
  | alias (name : String)
  | anchor (name : String)
  | tag (t : TagText)
  /-- A text. Only a plain one, which has no quotes and no indicator, can be more than a text. -/
  | scalar (text : List Char) (plain : Bool)
  | streamEnd
  deriving DecidableEq, Repr

end ParenLint.Yaml
