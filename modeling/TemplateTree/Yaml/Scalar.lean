import TemplateTree.Number.Numeral
import TemplateTree.Text.Base64
import TemplateTree.Value.Scalar
import TemplateTree.Yaml.Implicit

/-!
# Values of scalars

The value of a scalar with a given tag (`scalarValue`). A tag may be given to any text, so that a
number, a truth value or a moment may turn out not to be one; each has its own fault.
-/

namespace TemplateTree.Yaml

/-! ## 1. Numbers -/

/-- A text without the marks that group digits. -/
def ungrouped (t : Text) : Text := t.filter (· != .scalar '_')

/-- A text cut at its colons. -/
def colonParts : Text → List Text
  | [] => [[]]
  | c :: rest =>
    if c = .scalar ':' then
      [] :: colonParts rest
    else
      match colonParts rest with
      | [] => [[c]]
      | p :: ps => (c :: p) :: ps

/-- The sign of a number that has at least one character, and the text behind it. -/
def signed : Text → Except Fault (Bool × Text)
  | [] => .error .emptyNumber
  | .scalar '-' :: rest => .ok (true, rest)
  | .scalar '+' :: rest => .ok (false, rest)
  | t => .ok (false, t)

/-- The integer of a numeral, or the fault that it is none. -/
def integer (base : Nat) (t : Text) : Except Fault Int :=
  match Numeral.integer? base t with
  | some n => .ok n
  | none => .error .badNumber

/-- The double of a numeral, or the fault that it is none. -/
def double (t : Text) : Except Fault Binary64 :=
  match Numeral.double? t with
  | some d => .ok d
  | none => .error .badNumber

/-- An integer without its sign: the mark in front decides on the base, colons on base sixty. -/
def magnitude (t : Text) : Except Fault Int :=
  match t with
  | [] => .error .emptyNumber
  | [.scalar '0'] => .ok 0
  | .scalar '0' :: .scalar 'b' :: ds => integer 2 ds
  | .scalar '0' :: .scalar 'x' :: ds => integer 16 ds
  | .scalar '0' :: _ => integer 8 t
  | _ =>
    if t.contains (.scalar ':') then
      return (← (colonParts t).mapM (integer 10)).foldl (fun n d => n * 60 + d) 0
    else
      integer 10 t

/-- The integer of a scalar. -/
def intValue (t : Text) : Except Fault Int := do
  let (negative, digits) ← signed (ungrouped t)
  let n ← magnitude digits
  return if negative then -n else n

/-- A code point in lower case, within ASCII. -/
def lower : CodePoint → CodePoint
  | .scalar c => .scalar c.toLower
  | c => c

/-- The sum of doubles, each multiplied by a power of sixty, from the last one on. -/
def sixtiethSum : (power : Nat) → (sum : Binary64) → List Binary64 → Except Fault Binary64
  | _, sum, [] => .ok sum
  | power, sum, d :: ds =>
    match Binary64.ofNat? power with
    | some p => sixtiethSum (power * 60) (sum.add (d.mul p)) ds
    | none => .error .hugeNumber

/-- The double of a scalar. -/
def floatValue (t : Text) : Except Fault Binary64 := do
  let (negative, digits) ← signed ((ungrouped t).map lower)
  let d ←
    if digits = Text.ofString ".inf" then .ok (.infinite false)
    else if digits = Text.ofString ".nan" then return .nan
    else if digits.contains (.scalar ':') then do
      sixtiethSum 1 (Binary64.ofDecimal false 0 0) (← (colonParts digits).mapM double).reverse
    else
      double digits
  return if negative then d.neg else d

/-- Whether a text is the word for no number. -/
def isNanWord (t : Text) : Bool :=
  match signed ((ungrouped t).map lower) with
  | .ok (_, word) => word == Text.ofString ".nan"
  | .error _ => false

/-! ## 2. The other scalars -/

/-- The truth value of a word in any casing. -/
def truthValue (t : Text) : Except Fault Bool :=
  match truthWords.find? fun w => Text.ofString w.1 = t.map lower with
  | some w => .ok w.2
  | none => .error .badTruth

/-- The bytes of a text in base 64. -/
def bytesValue (t : Text) : Except Fault (List UInt8) :=
  match t.chars? with
  | some cs =>
    if cs.all fun c => c.toNat < 0x80 then
      match Base64.decode? cs with
      | some bytes => .ok bytes
      | none => .error .malformed
    else
      .error .malformed
  | none => .error .malformed

/-- The date or moment of a scalar. -/
def momentValue (t : Text) : Except Fault Scalar := do
  match (t.chars?.map withoutFinalBreak).bind momentParts? with
  | none => throw .badMoment
  | some p =>
    match Date.of? p.year p.month p.day, p.time with
    | none, _ => throw .badDate
    | some date, none => return .date date
    | some date, some (hour, minute, second) =>
      match Moment.of? date hour minute second p.microsecond p.offset with
      | some m => return .moment m
      | none => throw .badDate

/-- The value of a scalar with a tag; tags of collections have none. -/
def scalarValue (tag : Tag) (t : Text) : Except Fault Scalar :=
  match tag with
  | .null => .ok .null
  | .bool => (truthValue t).map .bool
  | .int => (intValue t).map .int
  | .float => (floatValue t).map .float
  | .binary => (bytesValue t).map .bytes
  | .moment => momentValue t
  | .text => .ok (.text t)
  | _ => .error .malformed

end TemplateTree.Yaml
