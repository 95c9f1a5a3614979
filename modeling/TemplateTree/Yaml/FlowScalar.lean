import TemplateTree.Text.Basic
import TemplateTree.Yaml.Character

/-!
# Scalars that flow over lines

A plain scalar (`plain`) goes on over lines until something that cannot belong to it; the breaks
between its lines are folded. A quoted scalar (`quoted`) ends with its quote; between double quotes
a backslash starts an escape, each of which stands for one code point. Both return the text of the
scalar and the number of characters that it takes.
-/

namespace TemplateTree.Yaml

/-! ## 1. Plain scalars -/

/-- The characters that divide entries in brackets. -/
def isFlowMark (c : Char) : Bool := c == ',' || c == '[' || c == ']' || c == '\x7b' || c == '\x7d'

/-- Whether a plain scalar ends before a character with a given text behind it. -/
def endsPlain (inFlow : Bool) (c : Char) (rest : List Char) : Bool :=
  isSpace c
    || (c == ':' && (endsWord rest || (inFlow && rest.head?.any isFlowMark)))
    || (inFlow && (c == '?' || isFlowMark c))

/-- The word of a plain scalar at the front of a text, and the text behind it. -/
def plainWord (inFlow : Bool) : List Char → List Char × List Char
  | [] => ([], [])
  | c :: rest =>
    if endsPlain inFlow c rest then
      ([], c :: rest)
    else
      let (word, behind) := plainWord inFlow rest
      (c :: word, behind)

/-- A plain scalar that was read: its text, the number of characters up to the place behind it, and
    whether that place was reached over a line break. -/
structure Plain where
  text : List Char
  size : Nat
  brokeLine : Bool

/-- The words of a plain scalar with the folded gaps between them. In block context a further line
    must stand at `indent` or behind it. Every word takes one step of the fuel. -/
def plainWords (inFlow : Bool) (indent : Nat) : Nat → (gap : List Char) → (brokeLine : Bool) →
    List Char → Plain
  | 0, _, brokeLine, _ => ⟨[], 0, brokeLine⟩
  | steps + 1, gap, brokeLine, cs =>
    let (word, behind) := plainWord inFlow cs
    if cs.head? = some '#' ∨ word = [] then
      ⟨[], 0, brokeLine⟩
    else
      let spaces := behind.takeWhile isGap
      let after := behind.dropWhile isGap
      let bs := breaks spaces
      let broke := !bs.isEmpty
      let size := word.length + spaces.length
      if spaces = [] || after.head? = some '#'
          || (broke && atLineStart spaces && separatesDocuments after)
          || (broke && !inFlow && lastColumn spaces < indent) then
        ⟨gap ++ word, size, broke⟩
      else
        let more := plainWords inFlow indent steps (if broke then fold bs else spaces) broke after
        ⟨gap ++ word ++ more.text, size + more.size, more.brokeLine⟩

/-- The plain scalar at the front of a text, of which there are at most `most` characters. -/
def plain (inFlow : Bool) (indent most : Nat) (cs : List Char) : Plain :=
  plainWords inFlow indent most [] false cs

/-! ## 2. Quoted scalars -/

/-- The characters that an escape of one letter stands for. -/
def escaped? : Char → Option Char
  | '0' => some '\x00'
  | 'a' => some '\x07'
  | 'b' => some '\x08'
  | 't' => some '\t'
  | '\t' => some '\t'
  | 'n' => some '\n'
  | 'v' => some '\x0b'
  | 'f' => some '\x0c'
  | 'r' => some '\r'
  | 'e' => some '\x1b'
  | ' ' => some ' '
  | '"' => some '"'
  | '\\' => some '\\'
  | '/' => some '/'
  | 'N' => some '\x85'
  | '_' => some '\xa0'
  | 'L' => some '\u2028'
  | 'P' => some '\u2029'
  | _ => none

/-- The number of hexadecimal digits of an escape by number. -/
def escapeDigits? : Char → Option Nat
  | 'x' => some 2
  | 'u' => some 4
  | 'U' => some 8
  | _ => none

/-- The text of an escape, given what stands behind its backslash, and the number of characters that
    it takes there. An escaped line break joins two lines and keeps the further breaks. -/
def escape (cs : List Char) : Except Fault (Text × Nat) :=
  match cs with
  | [] => .error .unclosed
  | c :: rest =>
    match escaped? c, escapeDigits? c with
    | some e, _ => .ok ([.scalar e], 1)
    | none, some count =>
      let digits := rest.take count
      match hexNumber? count 0 digits with
      | none =>
        .error (if digits.length < count && digits.all (hexDigit? · |>.isSome) then .unclosed
          else .malformed)
      | some (n, _) =>
        match CodePoint.ofNat? n with
        | some p => .ok ([p], 1 + count)
        | none => .error (if n < 0x80000000 then .badCharacter else .hugeCharacter)
    | none, none =>
      if isBreak c then
        let spaces := cs.takeWhile isSpace
        if atLineStart spaces && separatesDocuments (cs.dropWhile isSpace) then .error .malformed
        else .ok (Text.ofChars (breaks spaces).tail, spaces.length)
      else
        .error .malformed

/-- The text of blanks and breaks inside a quoted scalar, and their number. -/
def quotedSpaces (cs : List Char) : Except Fault (Text × Nat) :=
  let spaces := cs.takeWhile isSpace
  let bs := breaks spaces
  if atLineStart spaces && separatesDocuments (cs.dropWhile isSpace) then .error .malformed
  else .ok (Text.ofChars (if bs.isEmpty then spaces else fold bs), spaces.length)

/-- The text of a quoted scalar up to its closing quote, and the number of characters with the quote.
    Every piece takes one step of the fuel. -/
def quotedPieces (double : Bool) : Nat → List Char → Except Fault (Text × Nat)
  | 0, _ => .error .unclosed
  | _ + 1, [] => .error .unclosed
  | steps + 1, c :: rest =>
    let piece (text : Text) (size : Nat) : Except Fault (Text × Nat) := do
      let (more, behind) ← quotedPieces double steps ((c :: rest).drop size)
      return (text ++ more, size + behind)
    if isSpace c then do
      let (text, size) ← quotedSpaces (c :: rest)
      piece text size
    else if double then
      if c = '"' then
        .ok ([], 1)
      else if c = '\\' then do
        let (text, size) ← escape rest
        piece text (1 + size)
      else
        piece [.scalar c] 1
    else if c = '\'' then
      if rest.head? = some '\'' then piece [.scalar '\''] 2 else .ok ([], 1)
    else
      piece [.scalar c] 1

/-- The quoted scalar behind its opening quote, where there are at most `most` characters. -/
def quoted (double : Bool) (most : Nat) (cs : List Char) : Except Fault (Text × Nat) :=
  quotedPieces double (most + 1) cs

end TemplateTree.Yaml
