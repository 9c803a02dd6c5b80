import ParenLint.Yaml.Tag
import ParenLint.Yaml.TokenStream

/-!
# Nodes of a document

The tokens of a text form a document of scalars, sequences and mappings. Its nodes are numbered, and
collections hold the numbers of their parts, because an alias stands for a node that was given an
anchor before: a node may be part of several collections, or of itself. A text holds one document at
most.
-/

namespace ParenLint.Yaml

/-- The number of a node in a document. -/
abbrev NodeId := Nat

/-- A node of a document. -/
inductive Node
  | scalar (tag : Tag) (text : List Char)
  | sequence (tag : Tag) (items : List NodeId)
  | mapping (tag : Tag) (entries : List (NodeId × NodeId))
  deriving Repr

instance : Inhabited Node := ⟨.scalar .null []⟩

/-- The kind of a node. -/
def Node.tag : Node → Tag
  | scalar t _ | sequence t _ | mapping t _ => t

/-- A node and all that it holds. -/
structure Document where
  nodes : Array Node
  root : NodeId
  deriving Repr

/-- How far the reading of tokens has come. -/
structure NodeReader where
  /-- The tokens that are left. -/
  tokens : List Token
  /-- Why there are no more tokens than these. -/
  ending : Fault
  /-- What the handles of tags stand for. -/
  handles : List (String × String)
  /-- The nodes so far. Those that are still being read have no parts. -/
  nodes : Array Node
  /-- The nodes that were given an anchor. -/
  anchors : List (String × NodeId)
  deriving Repr

/-- A reading of tokens. -/
abbrev Reading := StateT NodeReader (Except Fault)

namespace Reading

/-- The next token. -/
def peek : Reading Token := do
  let r ← get
  match r.tokens with
  | t :: _ => return t
  | [] => throw r.ending

/-- Go on behind the next token. -/
def skip : Reading Unit := modify fun r => { r with tokens := r.tokens.drop 1 }

/-- Whether the next token is one of some tokens. -/
def isNext (ts : List Token) : Reading Bool := return ts.contains (← peek)

/-- Go on behind the next token if it is the given one. -/
def accept (t : Token) : Reading Bool := do
  if (← peek) = t then
    skip
    return true
  else return false

/-- Go on behind the next token, which has to be the given one. -/
def expect (t : Token) : Reading Unit := do
  if !(← accept t) then throw .malformed

/-! ### Properties of nodes -/

/-- An anchor that the next token may give. -/
def anchor? : Reading (Option String) := do
  match ← peek with
  | .anchor name =>
    skip
    return some name
  | _ => return none

/-- A tag that the next token may give. -/
def tag? : Reading (Option TagText) := do
  match ← peek with
  | .tag t =>
    skip
    return some t
  | _ => return none

/-- A tag in full. -/
def fullTag (t : TagText) : Reading String := do
  match t.handle with
  | none => return t.suffix
  | some handle =>
    match (← get).handles.find? (·.1 = handle) with
    | some (_, expansion) => return expansion ++ t.suffix
    | none => throw .malformed

/-- The properties of a node, in either order: its anchor and its full tag. -/
def properties : Reading (Option String × Option String) := do
  let first ← anchor?
  let tag ← tag?
  let anchor ← if first.isNone && tag.isSome then anchor? else pure first
  match tag with
  | some t => return (anchor, some (← fullTag t))
  | none => return (anchor, none)

/-- The tag that leaves the kind of a node open. -/
def isOpen (tag : Option String) : Bool := tag.isNone || tag = some "!"

/-- The kind of a scalar. A plain text without a tag is judged by its form. -/
def scalarTag (tag : Option String) (plain : Bool) (text : List Char) : Tag :=
  match tag with
  | none => if plain then .ofForm text else .string
  | some t => if t = "!" then .ofForm text else .ofFullName t

/-- The kind of a collection. -/
def collectionTag (tag : Option String) (standard : Tag) : Tag :=
  if isOpen tag then standard else .ofFullName (tag.getD "")

/-- Add a node. -/
def add (n : Node) : Reading NodeId :=
  modifyGet fun r => (r.nodes.size, { r with nodes := r.nodes.push n })

/-- Give a node its parts. -/
def complete (id : NodeId) (n : Node) : Reading NodeId := do
  modify fun r => { r with nodes := r.nodes.setIfInBounds id n }
  return id

/-- Add the node that an empty place stands for. -/
def addEmpty : Reading NodeId := add (.scalar (.ofForm []) [])

/-- Add a node that is about to be read, with its anchor. An anchor is given only once. -/
def announce (anchor : Option String) : Reading NodeId := do
  let id ← add default
  match anchor with
  | none => return id
  | some name =>
    if (← get).anchors.any (·.1 = name) then throw .malformed
    modify fun r => { r with anchors := (name, id) :: r.anchors }
    return id

/-- The node that an alias stands for. -/
def aliased (name : String) : Reading NodeId := do
  match (← get).anchors.find? (·.1 = name) with
  | some (_, id) => return id
  | none => throw .malformed

/-! ### Nodes -/

/-- Where a node stands. -/
inductive NodePlace
  /-- In a flow collection, where there is no block style. -/
  | flow
  | block
  /-- In a block mapping, where the entries of a sequence need no indentation of their own. -/
  | mappingEntry
  deriving DecidableEq

mutual

/-- A node. -/
def node (fuel : Nat) (place : NodePlace) : Reading NodeId := do
  match fuel with
  | 0 => throw .malformed
  | fuel + 1 =>
    if let .alias name ← peek then
      skip
      return ← aliased name
    let (anchor, tag) ← properties
    let t ← peek
    let id ← announce anchor
    match t, place with
    | .blockEntry, .mappingEntry =>
      complete id (.sequence (collectionTag tag .sequence) (← looseEntries fuel))
    | .scalar text plain, _ =>
      skip
      complete id (.scalar (scalarTag tag plain text) text)
    | .flowSequenceStart, _ =>
      skip
      complete id (.sequence (collectionTag tag .sequence) (← flowItems fuel true))
    | .flowMappingStart, _ =>
      skip
      complete id (.mapping (collectionTag tag .mapping) (← flowFields fuel true))
    | .blockSequenceStart, .block | .blockSequenceStart, .mappingEntry =>
      skip
      complete id (.sequence (collectionTag tag .sequence) (← blockItems fuel))
    | .blockMappingStart, .block | .blockMappingStart, .mappingEntry =>
      skip
      complete id (.mapping (collectionTag tag .mapping) (← blockFields fuel))
    | _, _ =>
      if anchor.isSome || tag.isSome then complete id (.scalar (scalarTag tag true []) [])
      else throw .malformed

/-- A node, or the empty node where one of some tokens follows. -/
def nodeUnless (fuel : Nat) (place : NodePlace) (ends : List Token) : Reading NodeId := do
  match fuel with
  | 0 => throw .malformed
  | fuel + 1 => if ← isNext ends then addEmpty else node fuel place

/-- The entries of a block sequence, with its end. -/
def blockItems (fuel : Nat) : Reading (List NodeId) := do
  match fuel with
  | 0 => throw .malformed
  | fuel + 1 =>
    if ← accept .blockEntry then
      let n ← nodeUnless fuel .block [.blockEntry, .blockEnd]
      return n :: (← blockItems fuel)
    expect .blockEnd
    return []

/-- The entries of a sequence that is not indented further than the mapping around it. -/
def looseEntries (fuel : Nat) : Reading (List NodeId) := do
  match fuel with
  | 0 => throw .malformed
  | fuel + 1 =>
    if ← accept .blockEntry then
      let n ← nodeUnless fuel .block [.blockEntry, .key, .value, .blockEnd]
      return n :: (← looseEntries fuel)
    return []

/-- The entries of a block mapping, with its end. -/
def blockFields (fuel : Nat) : Reading (List (NodeId × NodeId)) := do
  match fuel with
  | 0 => throw .malformed
  | fuel + 1 =>
    if ← accept .key then
      let k ← nodeUnless fuel .mappingEntry [.key, .value, .blockEnd]
      let v ← if ← accept .value then nodeUnless fuel .mappingEntry [.key, .value, .blockEnd]
        else addEmpty
      return (k, v) :: (← blockFields fuel)
    expect .blockEnd
    return []

/-- The entries of a flow sequence, with its end. An entry may be a mapping of one key. -/
def flowItems (fuel : Nat) (first : Bool) : Reading (List NodeId) := do
  match fuel with
  | 0 => throw .malformed
  | fuel + 1 =>
    if ← accept .flowSequenceEnd then return []
    if !first then expect .flowEntry
    if ← accept .flowSequenceEnd then return []
    if ← accept .key then
      let k ← nodeUnless fuel .flow [.value, .flowEntry, .flowSequenceEnd]
      let v ← if ← accept .value then nodeUnless fuel .flow [.flowEntry, .flowSequenceEnd]
        else addEmpty
      let pair ← add (.mapping .mapping [(k, v)])
      return pair :: (← flowItems fuel false)
    let n ← node fuel .flow
    return n :: (← flowItems fuel false)

/-- The entries of a flow mapping, with its end. An entry may be a key alone. -/
def flowFields (fuel : Nat) (first : Bool) : Reading (List (NodeId × NodeId)) := do
  match fuel with
  | 0 => throw .malformed
  | fuel + 1 =>
    if ← accept .flowMappingEnd then return []
    if !first then expect .flowEntry
    if ← accept .flowMappingEnd then return []
    if ← accept .key then
      let k ← nodeUnless fuel .flow [.value, .flowEntry, .flowMappingEnd]
      let v ← if ← accept .value then nodeUnless fuel .flow [.flowEntry, .flowMappingEnd]
        else addEmpty
      return (k, v) :: (← flowFields fuel false)
    let k ← node fuel .flow
    let v ← addEmpty
    return (k, v) :: (← flowFields fuel false)

end

/-! ### Documents -/

/-- The handles of tags that every document has. -/
def standardHandles : List (String × String) := [("!", "!"), ("!!", Tag.languagePrefix)]

/-- The directives in front of the next token. There is one version at most, which has to be a
version 1, and a handle is given one meaning. -/
def directivesFrom (fuel : Nat) (versioned : Bool) : Reading Unit := do
  match fuel with
  | 0 => throw .malformed
  | fuel + 1 =>
    match ← peek with
    | .directive (.version major) =>
      if versioned || major ≠ 1 then throw .malformed
      skip
      directivesFrom fuel true
    | .directive (.tagHandle handle expansion) =>
      if (← get).handles.any (·.1 = handle) then throw .malformed
      modify fun r => { r with handles := r.handles ++ [(handle, expansion)] }
      skip
      directivesFrom fuel versioned
    | .directive .unknown =>
      skip
      directivesFrom fuel versioned
    | _ => modify fun r => { r with handles := r.handles ++ standardHandles }

/-- The directives at the beginning of a document, with the marker behind them. -/
def documentStart (fuel : Nat) : Reading Unit := do
  modify fun r => { r with handles := [] }
  directivesFrom fuel false
  expect .documentStart

/-- Go on behind markers that end a document. -/
def skipDocumentEnds (fuel : Nat) : Reading Unit := do
  match fuel with
  | 0 => return
  | fuel + 1 => if ← accept .documentEnd then skipDocumentEnds fuel

/-- The node of a document that begins with directives and a marker. -/
def explicitDocument (fuel : Nat) : Reading NodeId := do
  documentStart fuel
  match ← peek with
  | .directive _ | .documentStart | .documentEnd | .streamEnd => addEmpty
  | _ => node fuel .block

/-- The end of the only document. A further document is read up to its beginning. -/
def lastDocumentEnd (fuel : Nat) : Reading Unit := do
  skipDocumentEnds fuel
  if ← isNext [.streamEnd] then return
  documentStart fuel
  throw .malformed

/-- The node of the only document, or nothing if there is no document. -/
def document (fuel : Nat) : Reading (Option NodeId) := do
  match ← peek with
  | .streamEnd => return none
  | .directive _ | .documentStart =>
    let id ← explicitDocument fuel
    lastDocumentEnd fuel
    return some id
  | _ =>
    modify fun r => { r with handles := standardHandles }
    let id ← node fuel .block
    lastDocumentEnd fuel
    return some id

end Reading

/-- The only document of a text, or nothing if the text holds none. -/
def Document.ofInput (input : Input) : Except Fault (Option Document) := do
  let (tokens, fault) := tokensOf input
  let reader : NodeReader := ⟨tokens, fault.getD .malformed, [], #[], []⟩
  let (root, reader) ← (Reading.document (3 * tokens.length + 3)).run reader
  return root.map fun id => ⟨reader.nodes, id⟩

end ParenLint.Yaml
