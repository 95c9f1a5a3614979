import TemplateTree.Calendar
import TemplateTree.Yaml.Character

/-!
# Types of plain scalars

A scalar without a tag has the type that its spelling shows (`Tag.ofSpelling`): truth values, the
word for nothing, integers in several bases, doubles with a point, dates and moments, the mark of a
merge and the mark of a default value. Everything else is text. A line break at the very end of a
scalar does not count.
-/

namespace TemplateTree.Yaml

/-! ## 1. Tags -/

/-- The tags that the reader knows. -/
inductive Tag where
  | null
  | bool
  | int
  | float
  | binary
  | moment
  | text
  | sequence
  | mapping
  | set
  | orderedMapping
  | pairs
  | merge
  | value
  | unknown
deriving DecidableEq, Repr

/-- What the names of all known tags start with. -/
def tagBase : String := "tag:yaml.org,2002:"

/-- The tag with a full name. -/
def Tag.ofName (name : List Char) : Tag :=
  let known : List (String × Tag) := [
    ("null", .null), ("bool", .bool), ("int", .int), ("float", .float), ("binary", .binary),
    ("timestamp", .moment), ("str", .text), ("seq", .sequence), ("map", .mapping), ("set", .set),
    ("omap", .orderedMapping), ("pairs", .pairs), ("merge", .merge), ("value", .value)]
  match known.find? fun k => name = (tagBase ++ k.1).toList with
  | some k => k.2
  | none => .unknown

/-! ## 2. Spellings of numbers -/

/-- Whether a character is a digit of a base, or the mark that groups digits. -/
def isDigitOf (base : Nat) (c : Char) : Bool :=
  c == '_' || (hexDigit? c).any (· < base)

/-- Whether characters are some digits of a base, or marks that group digits. -/
def areDigitsOf (base : Nat) (cs : List Char) : Bool := !cs.isEmpty && cs.all (isDigitOf base)

/-- The characters behind a sign. -/
def unsigned : List Char → List Char
  | '-' :: cs => cs
  | '+' :: cs => cs
  | cs => cs

/-- The parts of a number in base sixty behind the first one: each is below sixty and stands behind a
    colon. The rest behind at least one part is returned. -/
def sixtieths? : List Char → Option (List Char)
  | ':' :: a :: b :: rest =>
    if a.isDigit && b.isDigit then
      if a ≤ '5' then some ((sixtieths? rest).getD rest) else none
    else if a.isDigit then
      some ((sixtieths? (b :: rest)).getD (b :: rest))
    else
      none
  | [':', a] => if a.isDigit then some [] else none
  | _ => none

/-- Whether characters spell an integer. -/
def spellsInt (cs : List Char) : Bool :=
  match unsigned cs with
  | ['0'] => true
  | '0' :: 'b' :: ds => areDigitsOf 2 ds
  | '0' :: 'x' :: ds => areDigitsOf 16 ds
  | '0' :: ds => areDigitsOf 8 ds
  | d :: ds =>
    let behind := ds.dropWhile (isDigitOf 10)
    d.isDigit && (behind.isEmpty || sixtieths? behind = some [])
  | [] => false

/-- Whether characters are an exponent with its sign, or nothing. -/
def spellsExponent : List Char → Bool
  | [] => true
  | e :: sign :: d :: ds =>
    (e == 'e' || e == 'E') && (sign == '-' || sign == '+') && (d :: ds).all Char.isDigit
  | _ => false

/-- Whether characters are a point, digits and an exponent. -/
def spellsFraction : List Char → Bool
  | '.' :: cs => spellsExponent (cs.dropWhile (isDigitOf 10))
  | _ => false

/-- Whether characters are a point and digits. -/
def spellsPlaces : List Char → Bool
  | '.' :: cs => cs.all (isDigitOf 10)
  | _ => false

/-- Whether characters spell a double. -/
def spellsFloat (cs : List Char) : Bool :=
  let words (ws : List String) (cs : List Char) : Bool := ws.any fun w => w.toList = cs
  words [".nan", ".NaN", ".NAN"] cs
    || words [".inf", ".Inf", ".INF"] (unsigned cs)
    || (match cs with
      | '.' :: d :: _ => d.isDigit && spellsFraction cs
      | _ => false)
    || (match unsigned cs with
      | d :: ds =>
        let behind := ds.dropWhile (isDigitOf 10)
        d.isDigit && (spellsFraction behind || (sixtieths? behind).any spellsPlaces)
      | [] => false)

/-! ## 3. Spellings of moments -/

/-- The parts of a moment as they are written. -/
structure MomentParts where
  year : Nat
  month : Nat
  day : Nat
  /-- Whether month and day have two digits. -/
  isWide : Bool
  time : Option (Nat × Nat × Nat)
  microsecond : Nat
  offset : Option Int

/-- The number of some digits. -/
def digitsValue (ds : List Char) : Nat := ds.foldl (fun n c => n * 10 + (c.toNat - '0'.toNat)) 0

/-- The digits at the front of a text, if their number lies between two bounds, and the rest. -/
def digits? (least most : Nat) (cs : List Char) : Option (List Char × List Char) :=
  let ds := cs.takeWhile Char.isDigit
  if least ≤ ds.length && ds.length ≤ most then some (ds, cs.dropWhile Char.isDigit) else none

/-- The text behind a given character. -/
def behind? (c : Char) : List Char → Option (List Char)
  | d :: rest => if d = c then some rest else none
  | [] => none

/-- A distance from universal time in minutes, which is all that is left of a text. -/
def offset? (cs : List Char) : Option (Option Int) :=
  match cs.dropWhile isBlank with
  | ['Z'] => some (some 0)
  | sign :: rest =>
    if sign == '-' || sign == '+' then do
      let (hours, rest) ← digits? 1 2 rest
      let minutes ← (match rest with
        | [] => some []
        | ':' :: rest => (digits? 2 2 rest).bind fun p => if p.2.isEmpty then some p.1 else none
        | _ => none)
      let total : Int := digitsValue hours * 60 + digitsValue minutes
      return some (if sign == '-' then -total else total)
    else
      none
  | [] => if cs.isEmpty then some none else none

/-- The microseconds of the digits behind a point; further digits do not count. -/
def microseconds (ds : List Char) : Nat :=
  digitsValue ((ds ++ List.replicate 6 '0').take 6)

/-- The time of day and what follows it. -/
def time? (cs : List Char) : Option ((Nat × Nat × Nat) × Nat × Option Int) := do
  let (hour, cs) ← digits? 1 2 cs
  let cs ← behind? ':' cs
  let (minute, cs) ← digits? 2 2 cs
  let cs ← behind? ':' cs
  let (second, cs) ← digits? 2 2 cs
  let (fraction, cs) := match cs with
    | '.' :: rest => (rest.takeWhile Char.isDigit, rest.dropWhile Char.isDigit)
    | cs => ([], cs)
  let offset ← offset? cs
  return ((digitsValue hour, digitsValue minute, digitsValue second), microseconds fraction, offset)

/-- The parts of a date, or of a date and a time. -/
def momentParts? (cs : List Char) : Option MomentParts := do
  let (year, cs) ← digits? 4 4 cs
  let cs ← behind? '-' cs
  let (month, cs) ← digits? 1 2 cs
  let cs ← behind? '-' cs
  let (day, cs) ← digits? 1 2 cs
  let date (time : Option (Nat × Nat × Nat)) (micro : Nat) (offset : Option Int) : MomentParts :=
    ⟨digitsValue year, digitsValue month, digitsValue day, month.length == 2 && day.length == 2,
      time, micro, offset⟩
  match cs with
  | [] => return date none 0 none
  | c :: rest =>
    let cs := if isBlank c then rest.dropWhile isBlank else rest
    if c == 'T' || c == 't' || isBlank c then
      let (time, micro, offset) ← time? cs
      return date (some time) micro offset
    else
      none

/-- Whether characters spell a moment, or a date in full width. -/
def spellsMoment (cs : List Char) : Bool :=
  match momentParts? cs with
  | some p => p.time.isSome || p.isWide
  | none => false

/-! ## 4. The type of a spelling -/

/-- Characters without a line feed at their end. -/
def withoutFinalBreak (cs : List Char) : List Char :=
  if cs.getLast? = some '\n' then cs.dropLast else cs

/-- The words for truth values, in lower case. -/
def truthWords : List (String × Bool) :=
  [("yes", true), ("no", false), ("true", true), ("false", false), ("on", true), ("off", false)]

/-- Whether a word is written in lower case, in upper case, or with its first letter in upper
    case. -/
def isCasing (word : String) (cs : List Char) : Bool :=
  let lower := word.toList
  let upper := lower.map Char.toUpper
  cs = lower || cs = upper || cs = upper.take 1 ++ lower.drop 1

/-- The type of a spelling that is not empty. -/
def Tag.ofWord (cs : List Char) : Tag :=
  if truthWords.any fun w => isCasing w.1 cs then .bool
  else if spellsFloat cs then .float
  else if spellsInt cs then .int
  else if cs = ['<', '<'] then .merge
  else if cs = ['~'] || isCasing "null" cs then .null
  else if spellsMoment cs then .moment
  else if cs = ['='] then .value
  else if cs = ['!'] || cs = ['&'] || cs = ['*'] then .unknown
  else .text

/-- The type of a spelling. -/
def Tag.ofSpelling (cs : List Char) : Tag :=
  if cs = [] then .null
  else
    match withoutFinalBreak cs with
    | [] => .text
    | cs => .ofWord cs

end TemplateTree.Yaml
