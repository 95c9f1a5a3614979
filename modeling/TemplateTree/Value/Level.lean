import TemplateTree.Value.Scalar

/-!
# Values, one level at a time

What a program does with a decoded value looks at one level of it after the other. A `Level` is what
it sees there: a scalar, or a collection of parts. A `View` gives the level of every part. Parts of a
tree lie apart, but a view may also show one part in several places, even inside itself; then a way
through the parts can go on for ever, and it does so exactly if it passes a part twice
(`View.reach`).
-/

namespace TemplateTree

/-! ## 1. Entries of a mapping -/

/-- The entries of a mapping in order. -/
abbrev Entries (α : Type) := List (Scalar × α)

namespace Entries

variable {α : Type}

/-- The value under a text key. -/
def find? (key : Text) : Entries α → Option α
  | [] => none
  | (k, v) :: rest => if k = .text key then some v else find? key rest

/-- Whether a text is a key. -/
def has (key : Text) (entries : Entries α) : Bool := (find? key entries).isSome

end Entries

/-! ## 2. Levels -/

/-- One level of a value, of which `α` are the parts. -/
inductive Level (α : Type) where
  | scalar (value : Scalar)
  | list (items : List α)
  /-- A fixed group of values, as an entry of an ordered mapping. -/
  | tuple (members : List α)
  | mapping (entries : Entries α)
  | set (members : List Scalar)

namespace Level

variable {α : Type}

instance : Inhabited (Level α) := ⟨.scalar .null⟩

/-- The name of the type of a value. -/
def typeName : Level α → Text
  | scalar s => s.typeName
  | list _ => "list"
  | tuple _ => "tuple"
  | mapping _ => "dict"
  | set _ => "set"

/-- Whether a value counts as nothing: an empty collection does. -/
def isNothing : Level α → Bool
  | scalar s => s.isNothing
  | list items => items.isEmpty
  | tuple members => members.isEmpty
  | mapping entries => entries.isEmpty
  | set members => members.isEmpty

end Level

/-! ## 3. Views -/

/-- A way to look at values. -/
structure View (α : Type) where
  /-- What is seen at a part. -/
  level : α → Level α
  /-- Whether two parts are one and the same. -/
  same : α → α → Bool
  /-- The most parts that a way from a part to one of its parts, and so on, can pass without passing
      one twice. -/
  reach : Nat

end TemplateTree
