import TemplateTree.Yaml.Node

/-!
# Merged mappings

A mapping can take over the entries of others under the mark of a merge: of one mapping, or of each
in a sequence of mappings, of which the last one comes first. The entries that it takes over stand in
front of its own. What is merged is merged itself first, and the entries of a node are the merged ones
from then on; the mark of a merge is taken out before anything is merged, so that a mapping may even
merge itself (`Merge.flatten`).

On the way the mark of a default value becomes a text, as the key that it is.
-/

namespace TemplateTree.Yaml.Merge

/-- The node with a number. -/
def nodeAt (nodes : Array Node) (i : Nat) : Node := nodes.getD i .empty

/-- The entries of a node that is a mapping. -/
def entriesAt (nodes : Array Node) (i : Nat) : List (Nat × Nat) :=
  match nodeAt nodes i with
  | .mapping _ entries => entries
  | _ => []

/-- The nodes with other entries of a mapping. -/
def setEntries (nodes : Array Node) (i : Nat) (entries : List (Nat × Nat)) : Array Node :=
  match nodeAt nodes i with
  | .mapping tag _ => nodes.setIfInBounds i (.mapping tag entries)
  | _ => nodes

/-- Whether an entry is a merge. -/
def isMerge (nodes : Array Node) (entry : Nat × Nat) : Bool :=
  (nodeAt nodes entry.1).tag == .merge

/-- The number of merges of all nodes. -/
def count (nodes : Array Node) : Nat :=
  nodes.foldl (fun n node => match node with
    | .mapping _ entries => n + entries.countP (isMerge nodes)
    | _ => n) 0

/-- The position and the value of the first merge among some entries from a position on. The marks of
    default values in front of it become texts. -/
def next (nodes : Array Node) : (position : Nat) → List (Nat × Nat) →
    Option (Nat × Nat) × Array Node
  | _, [] => (none, nodes)
  | position, (key, value) :: rest =>
    match (nodeAt nodes key).tag with
    | .merge => (some (position, value), nodes)
    | .value => next (nodes.modify key (.retag .text)) (position + 1) rest
    | _ => next nodes (position + 1) rest

/-- The nodes after the merges of a mapping from a position on, in front of which `found` has been
    found so far. A merge is taken out before what it merges is looked at, so the number of merges that
    are left bounds the work; it is the fuel. -/
def flattenFrom : Nat → (i position : Nat) → (found : List (Nat × Nat)) → Array Node →
    Except Fault (Array Node)
  | 0, i, position, found, nodes =>
    let (_, nodes) := next nodes position ((entriesAt nodes i).drop position)
    .ok (setEntries nodes i (found ++ entriesAt nodes i))
  | merges + 1, i, position, found, nodes =>
    match next nodes position ((entriesAt nodes i).drop position) with
    | (none, nodes) => .ok (setEntries nodes i (found ++ entriesAt nodes i))
    | (some (place, value), nodes) => do
      let nodes := setEntries nodes i ((entriesAt nodes i).eraseIdx place)
      match nodeAt nodes value with
      | .mapping .. =>
        let nodes ← flattenFrom merges value 0 [] nodes
        flattenFrom merges i place (found ++ entriesAt nodes value) nodes
      | .sequence _ items =>
        let (nodes, parts) ← items.foldlM (fun (state : Array Node × List (List (Nat × Nat))) j =>
          match nodeAt state.1 j with
          | .mapping .. => do
            let nodes ← flattenFrom merges j 0 [] state.1
            return (nodes, entriesAt nodes j :: state.2)
          | _ => throw .malformed) (nodes, [])
        flattenFrom merges i place (found ++ parts.flatten) nodes
      | .scalar .. => throw .malformed

/-- The nodes after the merges of a mapping, of at most the given number of merges in all. -/
def flatten (merges : Nat) (i : Nat) (nodes : Array Node) : Except Fault (Array Node) :=
  flattenFrom merges i 0 [] nodes

end TemplateTree.Yaml.Merge
