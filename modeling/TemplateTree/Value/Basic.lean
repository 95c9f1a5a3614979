import TemplateTree.Value.Level

/-!
# Decoded values

A `Value` is a tree of scalars, lists, mappings and the few further shapes that a data file can ask
for by a tag. Only a scalar can be a key. The parts of a tree are seen by its view (`Value.view`), in
which none is the same as another.
-/

namespace TemplateTree

/-- A decoded value. -/
inductive Value where
  | scalar (value : Scalar)
  | list (items : List Value)
  | tuple (members : List Value)
  | mapping (entries : List (Scalar × Value))
  | set (members : List Scalar)
deriving Inhabited

namespace Value

/-- The value of a text. -/
def ofText (t : Text) : Value := .scalar (.text t)

/-- The value that stands for nothing. -/
def null : Value := .scalar .null

instance : Coe Text Value := ⟨ofText⟩

/-- The text of a value that is one. -/
def text? : Value → Option Text
  | scalar (.text t) => some t
  | _ => none

/-- The entries of a mapping. -/
def entries? : Value → Option (Entries Value)
  | mapping entries => some entries
  | _ => none

/-! ## Levels of a value -/

/-- What is seen at a value. -/
def level : Value → Level Value
  | scalar s => .scalar s
  | list items => .list items
  | tuple members => .tuple members
  | mapping entries => .mapping entries
  | set members => .set members

mutual

/-- The number of levels of a value. -/
def height : Value → Nat
  | scalar _ => 1
  | list items => heights items + 1
  | tuple members => heights members + 1
  | mapping entries => entryHeights entries + 1
  | set _ => 1

/-- The greatest number of levels of some values. -/
def heights : List Value → Nat
  | [] => 0
  | v :: vs => max (height v) (heights vs)

/-- The greatest number of levels of the values of some entries. -/
def entryHeights : List (Scalar × Value) → Nat
  | [] => 0
  | (_, v) :: rest => max (height v) (entryHeights rest)

end

/-- The view of a value and its parts. -/
def view (v : Value) : View Value := ⟨level, fun _ _ => false, v.height⟩

/-- The name of the type of a value. -/
def typeName (v : Value) : Text := v.level.typeName

/-- Whether a value counts as nothing. -/
def isNothing (v : Value) : Bool := v.level.isNothing

end Value

end TemplateTree
