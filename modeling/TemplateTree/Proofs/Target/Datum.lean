import TemplateTree.Text.Basic

/-!
# Values

What expressions evaluate to: the values of literals, collections, what the runtime hands out
(objects of its own and the commands of its table), and the few things that only names stand for,
members of the runtime and built-in functions.
-/

namespace TemplateTree.Target

/-- A built-in function. -/
inductive Builtin where
  | range
  | len
  | iter
  | bool
deriving DecidableEq, Repr

/-- A value, where commands are of type `κ` and the objects of the runtime of type `α`. -/
inductive Datum (κ α : Type) where
  | none
  | bool (value : Bool)
  | int (value : Int)
  | text (value : Text)
  | list (items : List (Datum κ α))
  | tuple (items : List (Datum κ α))
  /-- The integers from zero up to `stop`. -/
  | range (stop : Nat)
  | object (value : α)
  | command (command : κ)
  /-- What is reached from the runtime by attributes, the first of which comes first. -/
  | member (path : List Text)
  | builtin (function : Builtin)
deriving Inhabited

namespace Datum

variable {κ α : Type}

/-- Whether a value counts as true, where `truth` says it of objects. -/
def truthy (truth : α → Bool) : Datum κ α → Bool
  | none => false
  | bool b => b
  | int z => z != 0
  | text t => !t.isEmpty
  | list items => !items.isEmpty
  | tuple items => !items.isEmpty
  | range stop => stop != 0
  | object x => truth x
  | command _ | member _ | builtin _ => true

/-- The values that a comprehension draws from a collection. -/
def drawn? : Datum κ α → Option (List (Datum κ α))
  | list items => some items
  | tuple items => some items
  | range stop => some ((List.range stop).map fun (i : Nat) => int i)
  | _ => Option.none

/-- The item at a position, which counts from the end where it is negative. -/
def itemAt? (items : List (Datum κ α)) (z : Int) : Option (Datum κ α) :=
  let position := if z < 0 then z + items.length else z
  if position < 0 then Option.none else items[position.toNat]?

/-- The item of a collection at an integer. -/
def index? : Datum κ α → Datum κ α → Option (Datum κ α)
  | list items, int z => itemAt? items z
  | tuple items, int z => itemAt? items z
  | _, _ => Option.none

theorem itemAt?_natCast (items : List (Datum κ α)) (i : Nat) : itemAt? items i = items[i]? := by
  have hi : ¬ (i : Int) < 0 := by omega
  simp [itemAt?, hi]

/-- The position before the first is that of the last item. -/
theorem itemAt?_neg_one (items : List (Datum κ α)) : itemAt? items (-1) = items.getLast? := by
  cases items with
  | nil => rfl
  | cons x items =>
    have hlen : ((x :: items).length : Int) = items.length + 1 := by simp
    have hpos : ¬ (-1 + ((x :: items).length : Int)) < 0 := by omega
    have hnat : (-1 + ((x :: items).length : Int)).toNat = items.length := by omega
    rw [List.getLast?_eq_getElem?]
    simp only [itemAt?, show (-1 : Int) < 0 by decide, if_true, if_neg hpos, hnat]
    rfl

end Datum

/-- The value of a built-in function. What draws values one by one is no value, so there is none
    for `iter`. -/
def Builtin.result? {κ α : Type} (truth : α → Bool) :
    Builtin → List (Datum κ α) → Option (Datum κ α)
  | range, [.int z] => some (.range z.toNat)
  | len, [.list items] => some (.int items.length)
  | len, [.tuple items] => some (.int items.length)
  | bool, [v] => some (.bool (v.truthy truth))
  | _, _ => none

/-- The built-in functions by their names. -/
def Builtin.table : List (Text × Builtin) :=
  [("range", range), ("len", len), ("iter", iter), ("bool", bool)]

end TemplateTree.Target
