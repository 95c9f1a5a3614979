import TemplateTree.Value.Scalar

/-!
# The order of a set

A set has no order of its own. Its members are kept in a table, in a place that depends on the member
and on the members that came before it, and are shown in the order of their places
(`Scalar.inTableOrder`). The place of a number is its residue modulo a prime (`Scalar.residue?`), so
that equal numbers have one place whatever their type. The places of other scalars cannot be told
beforehand; a set with one of those is shown in the order in which its members came.
-/

namespace TemplateTree

/-! ## 1. Residues of numbers -/

namespace Residue

/-- The prime modulo which numbers are taken. Sixty-one powers of two bring it back to one. -/
def modulus : Nat := Nat.pow 2 61 - 1

/-- The residue of a number with a sign. Minus one is not used. -/
def signed (negative : Bool) (residue : Nat) : Int :=
  if negative then (if residue = 1 then -2 else -residue) else residue

/-- The residue of an integer. -/
def ofInt (n : Int) : Int := signed (n < 0) (n.natAbs % modulus)

/-- The residue of a double; one that is no number has none. -/
def ofBinary64? : Binary64 → Option Int
  | .nan => none
  | .infinite negative => some (signed negative 314159)
  | .finite negative mantissa exponent =>
    some (signed negative (mantissa * Nat.pow 2 (exponent % 61).toNat % modulus))

end Residue

/-- The residue of a scalar that counts as a number. -/
def Scalar.residue? : Scalar → Option Int
  | .bool b => some (truth b)
  | .int n => some (Residue.ofInt n)
  | .float d => Residue.ofBinary64? d
  | _ => none

/-! ## 2. Places in a table -/

namespace SetTable

/-- The first of the sizes `size`, `2 · size`, … that is above a bound. Every doubling takes one step
    of the fuel. -/
def sizeAbove (bound : Nat) : Nat → (size : Nat) → Nat
  | 0, size => size
  | steps + 1, size => if size ≤ bound then sizeAbove bound steps (2 * size) else size

/-- The number of places for some members: eight for a few, else more than twice their number. -/
def size (members : Nat) : Nat := if members < 5 then 8 else sizeAbove (2 * members) members 8

/-- The number of places behind a taken one that are looked at next. -/
def neighbours : Nat := 9

/-- The free place for a key: its own one, one of the neighbours where they all lie in the table, or
    one of a sequence of other places that depends on the rest of the key. Every place of the sequence
    takes one step of the fuel. -/
def freePlace (isTaken : Nat → Bool) (size : Nat) : Nat → (place rest : Nat) → Nat
  | 0, place, _ => place
  | steps + 1, place, rest =>
    let near := if place + neighbours < size then neighbours else 0
    match ((List.range (near + 1)).map (place + ·)).find? fun p => !isTaken p with
    | some p => p
    | none =>
      let rest := rest / 32
      freePlace isTaken size steps ((5 * place + 1 + rest) % size) rest

/-- The members of a table by their places, with one more. A key counts as a word of 64 bits. -/
def insert (size : Nat) (table : List (Nat × Scalar)) (residue : Int) (s : Scalar) :
    List (Nat × Scalar) :=
  let key := (residue % (Nat.pow 2 64 : Nat)).toNat
  let place := freePlace (fun p => table.any (·.1 == p)) size (size + 64) (key % size) key
  (place, s) :: table

end SetTable

/-- The members of a set in the order of their places. -/
def Scalar.inTableOrder (members : List Scalar) : List Scalar :=
  match members.mapM Scalar.residue? with
  | none => members
  | some residues =>
    let size := SetTable.size members.length
    let table := (residues.zip members).foldl (fun table m => SetTable.insert size table m.1 m.2) []
    (table.mergeSort fun a b => a.1 ≤ b.1).map Prod.snd

end TemplateTree
