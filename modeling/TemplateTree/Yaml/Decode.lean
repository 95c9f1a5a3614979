import TemplateTree.Value.Graph
import TemplateTree.Yaml.Merge
import TemplateTree.Yaml.Scalar

/-!
# Values of nodes

The nodes of a document are turned into the parts of its value (`Nodes.decode`). A node is met when
something refers to it for the first time: a scalar has its value at once, a collection is put into a
queue and filled later, after the collections that were met before it. So of several faults the one
that is met first in this order counts. A part has the number of its node; the pairs of an ordered
mapping are parts of their own behind them.

A mapping first takes over what it merges (`Merge.flatten`). Its keys must be scalars, and the last
value of a repeated key counts.
-/

namespace TemplateTree.Yaml

/-! ## 1. Tags -/

namespace Tag

/-- Whether a tag is one of scalars. -/
def isScalar : Tag → Bool
  | .null => true
  | .bool => true
  | .int => true
  | .float => true
  | .binary => true
  | .moment => true
  | .text => true
  | _ => false

/-- Whether a tag is one of collections. -/
def isCollection : Tag → Bool
  | .sequence => true
  | .mapping => true
  | .set => true
  | .orderedMapping => true
  | .pairs => true
  | _ => false

end Tag

/-! ## 2. Scalars -/

/-- The text of a node as a scalar: a mapping has that of its default value. Every mapping on the way
    takes one step of the fuel. -/
def scalarText (nodes : Array Node) : Nat → Nat → Except Fault Text
  | 0, _ => .error .endlessScalar
  | steps + 1, i =>
    match Merge.nodeAt nodes i with
    | .scalar _ text => .ok text
    | .sequence .. => .error .malformed
    | .mapping _ entries =>
      match entries.find? fun e => (Merge.nodeAt nodes e.1).tag == .value with
      | some e => scalarText nodes steps e.2
      | none => .error .malformed

/-- The text of a node whose tag is one of scalars. -/
def textOf (nodes : Array Node) (i : Nat) : Except Fault Text :=
  if (Merge.nodeAt nodes i).tag.isScalar then scalarText nodes (nodes.size + 1) i
  else .error .malformed

/-- The scalar of a node. A moment cannot be the default value of a mapping. -/
def scalarOf (nodes : Array Node) (i : Nat) : Except Fault Scalar := do
  let text ← textOf nodes i
  match Merge.nodeAt nodes i with
  | .mapping .moment _ => throw .mappedMoment
  | n => scalarValue n.tag text

/-! ## 3. The state of the decoder -/

/-- What the decoder knows. -/
structure Decoder where
  nodes : Array Node
  /-- The number of merges at the start. -/
  merges : Nat
  /-- Whether a node has been met. -/
  met : Array Bool
  /-- The parts of the value as far as they are known. -/
  parts : Array (Level Nat)
  /-- The collections in the order in which they were met. -/
  queue : Array Nat := #[]
  /-- The doubles that are not a number, and each other than every other one. -/
  unequal : List Nat := []

/-- A step of the decoder. -/
abbrev Decode := StateT Decoder (Except Fault)

namespace Decoder

/-- The decoder of some nodes. -/
def ofNodes (nodes : Array Node) : Decoder :=
  { nodes
    merges := Merge.count nodes
    met := Array.replicate nodes.size false
    parts := Array.replicate nodes.size default }

/-- The node with a number. -/
def node (i : Nat) : Decode Node := return Merge.nodeAt (← get).nodes i

/-- Sets what is seen at a part. -/
def fill (i : Nat) (level : Level Nat) : Decode Unit :=
  modify fun d => { d with parts := d.parts.setIfInBounds i level }

/-- A new part, by its number. -/
def part (level : Level Nat) : Decode Nat :=
  modifyGet fun d => (d.parts.size, { d with parts := d.parts.push level })

/-- The scalar at a part that has one. -/
def scalarAt (d : Decoder) (i : Nat) : Scalar :=
  match d.parts.getD i default with
  | .scalar s => s
  | _ => .null

/-! ## 4. Meeting and filling -/

/-- Meets the scalar of a node. The word for no number stands for one and the same double, but every
    other way to write one makes another double. -/
def meetScalar (i : Nat) : Decode Unit := do
  let nodes := (← get).nodes
  let s ← (scalarOf nodes i : Except Fault Scalar)
  fill i (.scalar s)
  if s = .float .nan ∧ !((textOf nodes i).toOption.any isNanWord) then
    modify fun d => { d with unequal := i :: d.unequal }

/-- Meets a node, unless it has been met before. -/
def meet (i : Nat) : Decode Unit := do
  unless (← get).met.getD i true do
    modify fun d => { d with met := d.met.setIfInBounds i true }
    if (← node i).tag.isCollection then
      modify fun d => { d with queue := d.queue.push i }
    else
      meetScalar i

/-- Meets the key and the value of an entry. A collection is no key. -/
def meetEntry (entry : Nat × Nat) : Decode Unit := do
  meet entry.1
  if (← node entry.1).tag.isCollection then
    throw .malformed
  meet entry.2

/-- The pair of a mapping that has one entry. -/
def pair (i : Nat) : Decode Nat := do
  match ← node i with
  | .mapping _ [(key, value)] =>
    meet key
    meet value
    part (.tuple [key, value])
  | _ => throw .malformed

/-- Whether two parts are the same key. -/
def sameKey (d : Decoder) (a b : Nat) : Bool :=
  a == b || ((d.scalarAt a).sameKey (d.scalarAt b)
    && !d.unequal.contains a && !d.unequal.contains b)

/-- Entries with one more: a key that is there keeps its place and takes the new value, a new key goes
    to the end. -/
def insert (d : Decoder) (entry : Nat × Nat) : List (Nat × Nat) → List (Nat × Nat)
  | [] => [entry]
  | (key, value) :: rest =>
    if d.sameKey key entry.1 then (key, entry.2) :: rest
    else (key, value) :: d.insert entry rest

/-- The entries of a mapping without repeated keys. -/
def distinct (d : Decoder) (entries : List (Nat × Nat)) : Entries Nat :=
  (entries.foldl (fun known e => d.insert e known) []).map fun e => (d.scalarAt e.1, e.2)

/-- Fills the collection of a node, which must be written as its tag demands. -/
def fillCollection (i : Nat) : Decode Unit := do
  match ← node i with
  | .scalar .. => throw .malformed
  | .sequence tag items =>
    if tag = .sequence then
      items.forM meet
      fill i (.list items)
    else if tag = .orderedMapping || tag = .pairs then
      fill i (.list (← items.mapM pair))
    else
      throw .malformed
  | .mapping tag _ =>
    unless tag = .mapping || tag = .set do
      throw .malformed
    let d ← get
    let nodes ← (Merge.flatten d.merges i d.nodes : Except Fault _)
    set { d with nodes }
    let entries := Merge.entriesAt nodes i
    entries.forM meetEntry
    let entries := (← get).distinct entries
    fill i (if tag = .set then .set (entries.map Prod.fst) else .mapping entries)

/-- Fills the collections of the queue from a position on. Every collection takes one step of the
    fuel. -/
def fillAll : Nat → (position : Nat) → Decode Unit
  | 0, _ => pure ()
  | steps + 1, position => do
    match (← get).queue[position]? with
    | none => pure ()
    | some i =>
      fillCollection i
      fillAll steps (position + 1)

end Decoder

/-- The value of a document. -/
def Nodes.decode (ns : Nodes) : Except Fault Graph := do
  let work : Decode Unit := do
    Decoder.meet ns.root
    Decoder.fillAll ns.nodes.size 0
  let (_, d) ← work.run (.ofNodes ns.nodes)
  return ⟨d.parts, ns.root⟩

end TemplateTree.Yaml
