/-!
# Binary floating point with 53 bits

Numbers of a document that are not integers are doubles. A finite double is a sign and
`mantissa · 2 ^ exponent`, kept as that pair, so that everything about it is arithmetic of natural
numbers: `Binary64.ofRatio` rounds a quotient to the nearest double, ties to the even mantissa,
and the other operations are the exact result, rounded.
-/

namespace TemplateTree

/-- A double. A finite one has a mantissa below `2 ^ 53`, and the least exponent with which the
    mantissa is at least `2 ^ 52`, or `-1074`. -/
inductive Binary64 where
  | nan
  | infinite (negative : Bool)
  | finite (negative : Bool) (mantissa : Nat) (exponent : Int)
deriving DecidableEq, Repr

namespace Binary64

/-! ## 1. Rounding -/

/-- The least exponent of a double. -/
def minExponent : Int := -1074

/-- The greatest exponent of a double. -/
def maxExponent : Int := 971

/-- The quotient of two numbers, rounded to the nearest natural number, a half to the even one. -/
def roundDiv (num den : Nat) : Nat :=
  let quotient := num / den
  let twice := 2 * (num % den)
  if twice < den then quotient
  else if den < twice then quotient + 1
  else if quotient % 2 = 0 then quotient
  else quotient + 1

/-- A fraction divided by a power of two. -/
def scaleDown (num den : Nat) (exponent : Int) : Nat × Nat :=
  let power := Nat.pow 2 exponent.natAbs
  if exponent < 0 then (num * power, den) else (num, den * power)

/-- The exponent with which a positive fraction has a mantissa of 53 bits, or the least one. -/
def exponentFor (num den : Nat) : Int :=
  let low : Int := (num.log2 : Int) - den.log2 - 53
  let scaled := scaleDown num den low
  max minExponent (if scaled.1 / scaled.2 < Nat.pow 2 53 then low else low + 1)

/-- The double nearest to a fraction. -/
def ofRatio (negative : Bool) (num den : Nat) : Binary64 :=
  if num = 0 then
    finite negative 0 minExponent
  else
    let exponent := exponentFor num den
    let scaled := scaleDown num den exponent
    let mantissa := roundDiv scaled.1 scaled.2
    let carried := mantissa = Nat.pow 2 53
    let mantissa := if carried then Nat.pow 2 52 else mantissa
    let exponent := if carried then exponent + 1 else exponent
    if maxExponent < exponent then infinite negative else finite negative mantissa exponent

/-- The double nearest to `mantissa · 2 ^ exponent`. -/
def ofScaled (negative : Bool) (mantissa : Nat) (exponent : Int) : Binary64 :=
  let fraction := scaleDown mantissa 1 (-exponent)
  ofRatio negative fraction.1 fraction.2

/-- The double nearest to `digits · 10 ^ exponent`. Beyond four hundred places the answer does not
    depend on the digits. -/
def ofDecimal (negative : Bool) (digits : Nat) (exponent : Int) : Binary64 :=
  if digits = 0 then finite negative 0 minExponent
  else if 400 < exponent then infinite negative
  else if exponent < -(400 + digits.log2 : Int) then finite negative 0 minExponent
  else if exponent < 0 then ofRatio negative digits (Nat.pow 10 exponent.natAbs)
  else ofRatio negative (digits * Nat.pow 10 exponent.natAbs) 1

/-! ## 2. Arithmetic -/

/-- The double nearest to a natural number; there is none for a number too large. -/
def ofNat? (n : Nat) : Option Binary64 :=
  match ofRatio false n 1 with
  | infinite _ => none
  | d => some d

/-- Whether the sign of a double is negative. -/
def isNegative : Binary64 → Bool
  | nan => false
  | infinite negative => negative
  | finite negative _ _ => negative

/-- The double with the other sign. -/
def neg : Binary64 → Binary64
  | nan => nan
  | infinite negative => infinite !negative
  | finite negative mantissa exponent => finite (!negative) mantissa exponent

/-- The product of two doubles. -/
def mul : Binary64 → Binary64 → Binary64
  | finite s m q, finite s' m' q' => ofScaled (s != s') (m * m') (q + q')
  | infinite s, finite s' m _ => if m = 0 then nan else infinite (s != s')
  | finite s m _, infinite s' => if m = 0 then nan else infinite (s != s')
  | infinite s, infinite s' => infinite (s != s')
  | _, _ => nan

/-- A mantissa with its sign. -/
def signed (negative : Bool) (mantissa : Nat) : Int := if negative then -mantissa else mantissa

/-- The sum of two doubles. -/
def add : Binary64 → Binary64 → Binary64
  | finite s m q, finite s' m' q' =>
    let low := min q q'
    let sum := signed s (m * Nat.pow 2 (q - low).natAbs)
      + signed s' (m' * Nat.pow 2 (q' - low).natAbs)
    if sum = 0 then finite (s && s') 0 minExponent else ofScaled (sum < 0) sum.natAbs low
  | infinite s, infinite s' => if s = s' then infinite s else nan
  | infinite s, finite .. => infinite s
  | finite .., infinite s => infinite s
  | _, _ => nan

/-! ## 3. Comparison -/

/-- Whether a double is a given integer. -/
def isInt (n : Int) : Binary64 → Bool
  | finite negative mantissa exponent =>
    let fraction := scaleDown mantissa 1 (-exponent)
    signed negative fraction.1 == n * fraction.2
  | _ => false

/-- Whether two doubles are the same number; the two zeros are. A double that is no number is the
    same as itself here. -/
def sameNumber : Binary64 → Binary64 → Bool
  | finite s m q, finite s' m' q' => (m == m' && q == q' && s == s') || (m == 0 && m' == 0)
  | d, d' => d == d'

/-- Whether a double is zero. -/
def isZero : Binary64 → Bool
  | finite _ mantissa _ => mantissa == 0
  | _ => false

end Binary64

end TemplateTree
