import TemplateTree.Number.Binary64
import TemplateTree.Number.Decimal

/-!
# The shortest text of a double

Of all decimals that round to a double, one with the fewest digits is written, and of these the one
nearest to the double. `Shortest.digits` finds it on ever finer decimal grids: on each it looks at
the two neighbours of the double and takes one that rounds back. `Shortest.text` lays the digits
out, positionally from `0.0001` up to sixteen digits before the point, else with an exponent of at
least two digits; a whole number keeps one place after the point.
-/

namespace TemplateTree.Shortest

/-! ## 1. The digits -/

/-- The number of decimal digits. -/
def digitCount (n : Nat) : Nat := (Nat.toDigits 10 n).length

/-- The exponent of the first decimal digit of a positive fraction. -/
def leadingExponent (num den : Nat) : Int :=
  if den ≤ num then
    (digitCount (num / den) : Int) - 1
  else
    -(digitCount ((den + num - 1) / num - 1) : Int)

/-- A fraction divided by a power of ten. -/
def scaleDown (num den : Nat) (exponent : Int) : Nat × Nat :=
  let power := Nat.pow 10 exponent.natAbs
  if exponent < 0 then (num * power, den) else (num, den * power)

/-- A decimal `digits · 10 ^ exponent`. -/
structure Numeral where
  digits : Nat
  exponent : Int
deriving DecidableEq, Repr

/-- The decimal on the grid `10 ^ exponent` that rounds to `mantissa · 2 ^ q` and is nearest to it.
    The numbers that round to it lie between its midpoints with its neighbours; the midpoints belong
    to an even mantissa. All is measured in quarters of `2 ^ q`. -/
def onGrid? (mantissa : Nat) (q exponent : Int) : Option Numeral :=
  let unit := Binary64.scaleDown 1 4 (-q)
  let lowGap := if mantissa = Nat.pow 2 52 ∧ Binary64.minExponent < q then 1 else 2
  let value := scaleDown (4 * mantissa * unit.1) unit.2 exponent
  let low := scaleDown ((4 * mantissa - lowGap) * unit.1) unit.2 exponent
  let high := scaleDown ((4 * mantissa + 2) * unit.1) unit.2 exponent
  let inside (n : Nat) : Bool :=
    if mantissa % 2 = 0 then low.1 ≤ n * low.2 && n * high.2 ≤ high.1
    else low.1 < n * low.2 && n * high.2 < high.1
  let below := value.1 / value.2
  let above := below + 1
  let nearest := Binary64.roundDiv value.1 value.2
  if inside nearest then some ⟨nearest, exponent⟩
  else if inside below then some ⟨below, exponent⟩
  else if inside above then some ⟨above, exponent⟩
  else none

/-- The first hit on grids with one more digit each, for as many grids as `count`. -/
def search (mantissa : Nat) (q : Int) : Nat → Int → Numeral
  | 0, exponent => (onGrid? mantissa q exponent).getD ⟨mantissa, 0⟩
  | count + 1, exponent =>
    (onGrid? mantissa q exponent).getD (search mantissa q count (exponent - 1))

/-- The shortest decimal that rounds to `mantissa · 2 ^ q`; seventeen digits always suffice. -/
def numeral (mantissa : Nat) (q : Int) : Numeral :=
  let fraction := Binary64.scaleDown mantissa 1 (-q)
  search mantissa q 17 (leadingExponent fraction.1 fraction.2)

/-! ## 2. The layout -/

/-- Digits without the zeros at their end. -/
def trimZeros (ds : List Char) : List Char := (ds.reverse.dropWhile (· == '0')).reverse

/-- An exponent with its sign and at least two digits. -/
def exponentText (e : Int) : List Char :=
  let ds := Nat.toDigits 10 e.natAbs
  (if e < 0 then '-' else '+') :: (if ds.length < 2 then '0' :: ds else ds)

/-- Digits laid out with the point behind the place `point`. -/
def layout (ds : List Char) (point : Int) : List Char :=
  if -4 < point ∧ point ≤ 16 then
    if point ≤ 0 then
      ['0', '.'] ++ List.replicate point.natAbs '0' ++ ds
    else if ds.length ≤ point.natAbs then
      ds ++ List.replicate (point.natAbs - ds.length) '0' ++ ['.', '0']
    else
      ds.take point.natAbs ++ '.' :: ds.drop point.natAbs
  else
    let fraction := ds.drop 1
    ds.take 1 ++ (if fraction.isEmpty then [] else '.' :: fraction) ++ 'e' :: exponentText (point - 1)

/-- The characters of a positive double. -/
def positive (mantissa : Nat) (q : Int) : List Char :=
  let n := numeral mantissa q
  let ds := Nat.toDigits 10 n.digits
  layout (trimZeros ds) (ds.length + n.exponent)

/-- The text of a double. -/
def text : Binary64 → Text
  | .nan => "nan"
  | .infinite negative => if negative then "-inf" else "inf"
  | .finite negative mantissa q =>
    Text.ofChars ((if negative then ['-'] else [])
      ++ if mantissa = 0 then ['0', '.', '0'] else positive mantissa q)

end TemplateTree.Shortest
