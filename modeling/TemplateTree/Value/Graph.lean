import TemplateTree.Value.Basic

/-!
# Values that share parts

A data file can name a part of its value and use it again elsewhere, even inside the part itself. Its
value is a `Graph`: numbered parts, each of which refers to others by their numbers. A value that
contains itself has no tree, but it can be looked at (`Graph.view`), and down to a given depth it is
like a tree (`Graph.toValue`).
-/

namespace TemplateTree

/-- A value by its numbered parts, and the number of the part that is the whole. -/
structure Graph where
  parts : Array (Level Nat)
  root : Nat

namespace Graph

/-- The graph of a scalar. -/
def ofScalar (s : Scalar) : Graph := ⟨#[.scalar s], 0⟩

/-- What is seen at the part with a number. -/
def level (g : Graph) (part : Nat) : Level Nat := g.parts.getD part default

/-- The view of the parts of a graph. Parts with one number are the same. -/
def view (g : Graph) : View Nat := ⟨g.level, fun a b => a == b, g.parts.size⟩

/-- The value of a part down to a depth, below which everything is left out. -/
def toValue (g : Graph) : Nat → Nat → Value
  | 0, _ => .null
  | depth + 1, part =>
    match g.level part with
    | .scalar s => .scalar s
    | .list items => .list (items.map (g.toValue depth))
    | .tuple members => .tuple (members.map (g.toValue depth))
    | .mapping entries => .mapping (entries.map fun e => (e.1, g.toValue depth e.2))
    | .set members => .set members

end Graph

end TemplateTree
