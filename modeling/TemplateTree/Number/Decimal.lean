import TemplateTree.Text.Basic

/-!
# Integers in decimal

The decimal text of an integer, and the limit on its length: an integer of more than
`Decimal.maxDigits` digits has no text, and no decimal text of more digits is read.
-/

namespace TemplateTree.Decimal

/-- The digits of a natural number. -/
def ofNat (n : Nat) : Text := Text.ofChars (Nat.toDigits 10 n)

/-- The decimal text of an integer. -/
def ofInt (n : Int) : Text :=
  if n < 0 then "-" ++ ofNat n.natAbs else ofNat n.natAbs

/-- The number of digits beyond which integers and texts are not turned into each other. -/
def maxDigits : Nat := 4300

/-- Whether an integer has at most `maxDigits` digits. -/
def fits (n : Int) : Bool := n.natAbs < Nat.pow 10 maxDigits

/-- The decimal text of an integer that is not too long. -/
def ofInt? (n : Int) : Option Text := if fits n then some (ofInt n) else none

end TemplateTree.Decimal
