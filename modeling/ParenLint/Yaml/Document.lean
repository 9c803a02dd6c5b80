import ParenLint.Yaml.Merge
import ParenLint.Yaml.ScalarValue

/-!
# Values of documents

The value of a document is built from its nodes level by level, so that of several faults the one at
the least depth counts, and of those at one depth the first. A node is built once, however often it
occurs.
-/

namespace ParenLint.Yaml

open ParenLint.Config

/-- A key of a mapping. Values that are not equal to themselves are the same key if they come from
one node, or both from the word for what is not a number. -/
structure Key where
  value : Value
  /-- The node it comes from, or nothing if it is the word for what is not a number. -/
  node : Option NodeId
  deriving Repr

/-- Whether two keys are the same key of a mapping. -/
def Key.same (a b : Key) : Bool := a.value.sameKey b.value || a.node == b.node

/-- What is built from a node. Collections hold the nodes of their parts. -/
inductive Built
  | scalar (key : Key)
  | list (items : List NodeId)
  | mapping (entries : List (Key × NodeId))
  | set (items : List Key)
  | pairs (items : List (NodeId × NodeId))
  deriving Repr

/-- How far the building has come. -/
structure Builder where
  nodes : NodeTable
  /-- What is built from the nodes. -/
  built : Array (Option Built)
  /-- The collections that have been found and whose parts have not been built, last to first. -/
  waiting : List NodeId

/-- A building of values. -/
abbrev Building := StateT Builder (Except Fault)

namespace Building

/-! ### Scalars -/

/-- The text of a scalar, or of what is under the first key that stands for the value of a mapping.
The number of nodes bounds the depth. -/
def textOf (t : NodeTable) (fuel : Nat) (id : NodeId) : Except Fault (List Char) :=
  match fuel, t.getD id default with
  | _, .scalar _ text => .ok text
  | _, .sequence _ _ => .error .malformed
  | 0, .mapping _ _ => .error .cyclic
  | fuel + 1, .mapping _ entries =>
    match entries.find? fun e => t.tag e.1 = .value with
    | some (_, v) => textOf t fuel v
    | none => .error .malformed

/-- The key that a node of a kind of scalars is. -/
def scalarOf (t : NodeTable) (id : NodeId) : Except Fault Key := do
  let tag := t.tag id
  if tag = .merge ∨ tag = .value ∨ tag = .other then throw .malformed
  let text ← textOf t t.size id
  if tag = .timestamp ∧ (t.entries? id).isSome then throw .dateOfMapping
  let value ← scalarValue tag text
  let isNanWord := tag = .float ∧ (floatBody text).2 = nanWord
  return ⟨value, if isNanWord then none else some id⟩

/-! ### Collections -/

/-- Note what is built from a node. -/
def note (id : NodeId) (b : Built) : Building Unit :=
  modify fun s => { s with built := s.built.setIfInBounds id (some b) }

/-- Find a node: build a scalar, and let a collection wait. -/
def find (id : NodeId) : Building Unit := do
  let s ← get
  if (s.built.getD id none).isSome then return
  match s.nodes.tag id with
  | .sequence | .mapping | .set | .pairs =>
    note id (.list [])
    modify fun s => { s with waiting := id :: s.waiting }
  | _ => note id (.scalar (← scalarOf s.nodes id))

/-- Find a node that is the key of a mapping. A collection cannot be one. -/
def findKey (id : NodeId) : Building Key := do
  find id
  match (← get).built.getD id none with
  | some (.scalar key) => return key
  | _ => throw .malformed

/-- The entries with a further one. A key that is there keeps its place and its form. -/
def insertEntry (entries : List (Key × NodeId)) (key : Key) (value : NodeId) :
    List (Key × NodeId) :=
  if entries.any (·.1.same key) then
    entries.map fun e => if e.1.same key then (e.1, value) else e
  else entries ++ [(key, value)]

/-- Find the entries of a mapping, after merging. -/
def entriesOf (fuel : Nat) (id : NodeId) : Building (List (Key × NodeId)) := do
  let t ← (← get).nodes.flatten fuel id
  modify fun s => { s with nodes := t }
  ((t.entries? id).getD []).foldlM (fun entries (k, v) => do
    let key ← findKey k
    find v
    return insertEntry entries key v) []

/-- Find the two nodes of a pair, which is a mapping of one key. -/
def pairOf (id : NodeId) : Building (NodeId × NodeId) := do
  match (← get).nodes.entries? id with
  | some [(a, b)] =>
    find a
    find b
    return (a, b)
  | _ => throw .malformed

/-- Build a collection, whose kind has to be the one that its tag says. -/
def collection (fuel : Nat) (id : NodeId) : Building Unit := do
  match (← get).nodes.getD id default with
  | .sequence .sequence items =>
    items.forM find
    note id (.list items)
  | .sequence .pairs items => note id (.pairs (← items.mapM pairOf))
  | .mapping .mapping _ => note id (.mapping (← entriesOf fuel id))
  | .mapping .set _ => note id (.set ((← entriesOf fuel id).map (·.1)))
  | _ => throw .malformed

/-- Build the collections that wait, level by level. Every level holds a node that no other level
holds, so that the number of nodes bounds the depth. -/
def levels (depth fuel : Nat) : Building Unit := do
  match depth, (← get).waiting with
  | 0, _ | _, [] => return
  | depth + 1, waiting =>
    modify fun s => { s with waiting := [] }
    waiting.reverse.forM (collection fuel)
    levels depth fuel

end Building

/-- What is built from the nodes of a document. -/
def Document.built (d : Document) : Except Fault (Array (Option Built)) := do
  let size := d.nodes.size
  let building : Building Unit := do
    Building.find d.root
    Building.levels size (NodeTable.mergeCount d.nodes + 1)
  let (_, s) ← building.run ⟨d.nodes, Array.replicate size none, []⟩
  return s.built

/-! ### Values -/

/-- The values of nodes that are known. -/
abbrev Values := Array (Option Value)

/-- The value of a node, from what is built from the nodes. A node that is part of itself has none,
and the number of nodes bounds the depth of the others. -/
def valueOf (built : Array (Option Built)) (depth : Nat) (id : NodeId) :
    StateT Values (Except Fault) Value := do
  if let some v := (← get).getD id none then return v
  match depth with
  | 0 => throw .cyclic
  | depth + 1 =>
    let v ← match built.getD id none with
      | some (.scalar key) => pure key.value
      | some (.list items) => .list <$> items.mapM (valueOf built depth)
      | some (.mapping entries) =>
        .mapping <$> entries.mapM fun (key, v) => return (key.value, ← valueOf built depth v)
      | some (.set keys) => pure (.set (keys.map (·.value)))
      | some (.pairs items) =>
        .list <$> items.mapM fun (a, b) =>
          return .pair (← valueOf built depth a) (← valueOf built depth b)
      | none => throw .malformed
    modify fun values => values.setIfInBounds id (some v)
    return v

/-- The entries of the mapping that a document is, or nothing if it is something else. The value of
nothing has no entries. -/
def Document.entries? (d : Document) : Except Fault (Option Entries) := do
  let built ← d.built
  match built.getD d.root none with
  | some (.scalar ⟨.null, _⟩) => return some []
  | some (.mapping _) =>
    let size := d.nodes.size
    match ← (valueOf built size d.root).run (Array.replicate size none) with
    | (.mapping entries, _) => return some entries
    | _ => return none
  | _ => return none

/-- The entries of the mapping in the only document that bytes encode, or nothing if there is
something else in it. Without a document there are no entries. -/
def entriesOfBytes? (bytes : List UInt8) : Except Fault (Option Entries) := do
  match ← Document.ofInput (.ofBytes bytes) with
  | none => return some []
  | some d => d.entries?

end ParenLint.Yaml
