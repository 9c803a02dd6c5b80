import ParenLint.Yaml.Node

/-!
# Merging of mappings

A mapping takes over the entries of the mappings that are merged into it, in front of its own. A key
that stands for the value of a mapping becomes a text for good once the entries of its mapping have
been put together, wherever the node of the key occurs.
-/

namespace ParenLint.Yaml

/-- The entries of a mapping. -/
abbrev NodeEntries := List (NodeId × NodeId)

/-- The nodes of a document. -/
abbrev NodeTable := Array Node

namespace NodeTable

/-- The kind of a node. -/
def tag (t : NodeTable) (id : NodeId) : Tag := (t.getD id default).tag

/-- The entries of a node that is a mapping. -/
def entries? (t : NodeTable) (id : NodeId) : Option NodeEntries :=
  match t.getD id default with
  | .mapping _ entries => some entries
  | _ => none

/-- The table with other entries of a mapping. -/
def withEntries (t : NodeTable) (id : NodeId) (entries : NodeEntries) : NodeTable :=
  match t.getD id default with
  | .mapping tag _ => t.setIfInBounds id (.mapping tag entries)
  | _ => t

/-- The table with a node as a text, if it was to stand for the value of a mapping. -/
def asText (t : NodeTable) (id : NodeId) : NodeTable :=
  match t.getD id default with
  | .scalar .value text => t.setIfInBounds id (.scalar .string text)
  | .sequence .value items => t.setIfInBounds id (.sequence .string items)
  | .mapping .value entries => t.setIfInBounds id (.mapping .string entries)
  | _ => t

/-- The number of entries that are merged into mappings. -/
def mergeCount (t : NodeTable) : Nat :=
  t.foldl (fun n node =>
    match node with
    | .mapping _ entries => n + entries.countP fun e => t.tag e.1 = .merge
    | _ => n) 0

/-- The mappings that are merged from a node: the node itself or the items of a sequence. -/
def mergeSources (t : NodeTable) (id : NodeId) : List NodeId :=
  match t.getD id default with
  | .sequence _ items => items
  | _ => [id]

/-- Merge into a mapping what is left to be merged, behind the entries in `merged`. Of several
mappings that are merged together the last comes first. An entry is merged once, so that the number
of such entries bounds the depth. -/
def flattenFrom (fuel : Nat) (id : NodeId) (merged : NodeEntries) (t : NodeTable) :
    Except Fault NodeTable :=
  match fuel, t.entries? id with
  | 0, _ | _, none => .error .malformed
  | fuel + 1, some entries =>
    match entries.findIdx? fun e => t.tag e.1 = .merge with
    | none =>
      let t := entries.foldl (fun t e => t.asText e.1) t
      .ok (t.withEntries id (merged ++ entries))
    | some i => do
      let source := (entries.getD i default).2
      let t := t.withEntries id (entries.eraseIdx i)
      let (more, t) ← (t.mergeSources source).foldlM (fun (more, t) m => do
        let t ← flattenFrom fuel m [] t
        return ((t.entries? m).getD [] ++ more, t)) ([], t)
      flattenFrom fuel id (merged ++ more) t

/-- Merge into a mapping what is to be merged. -/
def flatten (fuel : Nat) (id : NodeId) (t : NodeTable) : Except Fault NodeTable :=
  flattenFrom fuel id [] t

end NodeTable

end ParenLint.Yaml
