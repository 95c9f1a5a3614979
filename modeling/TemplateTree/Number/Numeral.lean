import TemplateTree.Number.Binary64
import TemplateTree.Number.Decimal

/-!
# Reading numbers

A numeral is read with blanks around it and with the decimal digits of any script. An integer
(`Numeral.integer?`) is read in a given base, with the mark of that base in front or not; in base
ten it has at most `Decimal.maxDigits` digits. A double (`Numeral.double?`) is a decimal with a
point and an exponent, or one of the words for what is not finite.
-/

namespace TemplateTree.Numeral

/-! ## 1. Characters -/

/-- The code points of the digit zero; the other nine follow each of them. -/
def zeros : List Nat := [
  0x30, 0x660, 0x6f0, 0x7c0, 0x966, 0x9e6, 0xa66, 0xae6, 0xb66, 0xbe6, 0xc66, 0xce6, 0xd66, 0xde6,
  0xe50, 0xed0, 0xf20, 0x1040, 0x1090, 0x17e0, 0x1810, 0x1946, 0x19d0, 0x1a80, 0x1a90, 0x1b50,
  0x1bb0, 0x1c40, 0x1c50, 0xa620, 0xa8d0, 0xa900, 0xa9d0, 0xa9f0, 0xaa50, 0xabf0, 0xff10, 0x104a0,
  0x10d30, 0x11066, 0x110f0, 0x11136, 0x111d0, 0x112f0, 0x11450, 0x114d0, 0x11650, 0x116c0,
  0x11730, 0x118e0, 0x11950, 0x11c50, 0x11d50, 0x11da0, 0x16a60, 0x16ac0, 0x16b50, 0x1d7ce,
  0x1d7d8, 0x1d7e2, 0x1d7ec, 0x1d7f6, 0x1e140, 0x1e2f0, 0x1e950, 0x1fbf0]

/-- The value of a decimal digit of any script. -/
def digitValue? (c : CodePoint) : Option Nat :=
  (zeros.find? fun z => z ≤ c.val && c.val < z + 10).map (c.val - ·)

/-- The code points that count as blanks around a numeral. -/
def blankRanges : List (Nat × Nat) := [
  (0x9, 0xd), (0x20, 0x20), (0x85, 0x85), (0xa0, 0xa0), (0x1680, 0x1680), (0x2000, 0x200a),
  (0x2028, 0x2029), (0x202f, 0x202f), (0x205f, 0x205f), (0x3000, 0x3000)]

/-- A code point in the plain alphabet of numerals: a digit as its decimal digit, a blank as a
    space, and any other code point outside ASCII as a mark that no numeral holds. -/
def plain (c : CodePoint) : Char :=
  match digitValue? c, c with
  | some d, _ => Nat.digitChar d
  | none, .scalar ch =>
    if c.inRanges blankRanges then ' ' else if ch.toNat < 0x80 then ch else '?'
  | none, .surrogate _ => '?'

/-- A text in the plain alphabet without the blanks around it. -/
def trimmed (t : Text) : List Char :=
  let isBlank (c : Char) : Bool := c == ' '
  (((t.map plain).dropWhile isBlank).reverse.dropWhile isBlank).reverse

/-- A leading sign, and the characters behind it. -/
def signed (cs : List Char) : Bool × List Char :=
  match cs with
  | '-' :: rest => (true, rest)
  | '+' :: rest => (false, rest)
  | cs => (false, cs)

/-! ## 2. Integers -/

/-- The value of a digit up to base sixteen. -/
def baseDigit? (c : Char) : Option Nat :=
  if '0' ≤ c ∧ c ≤ '9' then some (c.toNat - '0'.toNat)
  else if 'a' ≤ c ∧ c ≤ 'f' then some (c.toNat - 'a'.toNat + 10)
  else if 'A' ≤ c ∧ c ≤ 'F' then some (c.toNat - 'A'.toNat + 10)
  else none

/-- The number with given digits in a base, added to what stands before them. -/
def natural? (base : Nat) : Nat → List Char → Option Nat
  | value, [] => some value
  | value, c :: cs =>
    match baseDigit? c with
    | some d => if d < base then natural? base (value * base + d) cs else none
    | none => none

/-- The characters behind the mark of a base. -/
def withoutMark (base : Nat) (cs : List Char) : List Char :=
  match base, cs with
  | 16, '0' :: 'x' :: rest => rest
  | 16, '0' :: 'X' :: rest => rest
  | 8, '0' :: 'o' :: rest => rest
  | 8, '0' :: 'O' :: rest => rest
  | 2, '0' :: 'b' :: rest => rest
  | 2, '0' :: 'B' :: rest => rest
  | _, cs => cs

/-- The integer of a numeral in a base. -/
def integer? (base : Nat) (t : Text) : Option Int :=
  let (negative, cs) := signed (trimmed t)
  let ds := withoutMark base cs
  if ds.isEmpty || (base == 10 && Decimal.maxDigits < ds.length) then
    none
  else
    (natural? base 0 ds).map fun n => if negative then -(n : Int) else n

/-! ## 3. Doubles -/

/-- The characters of an exponent after its mark. -/
def exponent? (cs : List Char) : Option Int :=
  let (negative, ds) := signed cs
  if ds.isEmpty then none
  else (natural? 10 0 ds).map fun n => if negative then -(n : Int) else n

/-- A decimal without its sign: digits, a point with digits, and an exponent. -/
def decimal? (negative : Bool) (cs : List Char) : Option Binary64 :=
  let whole := cs.takeWhile Char.isDigit
  let rest := cs.dropWhile Char.isDigit
  let fraction := match rest with
    | '.' :: r => r.takeWhile Char.isDigit
    | _ => []
  let rest := match rest with
    | '.' :: r => r.dropWhile Char.isDigit
    | r => r
  let power := match rest with
    | [] => some 0
    | 'e' :: r => exponent? r
    | 'E' :: r => exponent? r
    | _ => none
  if (whole ++ fraction).isEmpty then
    none
  else do
    let e ← power
    let digits ← natural? 10 0 (whole ++ fraction)
    return Binary64.ofDecimal negative digits (e - fraction.length)

/-- The double of a numeral. -/
def double? (t : Text) : Option Binary64 :=
  let (negative, cs) := signed (trimmed t)
  let word := String.ofList (cs.map Char.toLower)
  if word == "inf" || word == "infinity" then some (.infinite negative)
  else if word == "nan" then some .nan
  else decimal? negative cs

end TemplateTree.Numeral
