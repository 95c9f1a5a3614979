import TemplateTree.Yaml.Fault

/-!
# Characters of a data file

The classes of characters that the reader of data files tells apart, and line breaks: the five that
end a line, of which three are read as a line feed (`breaks`), and how the breaks between two words
are folded (`fold`).
-/

namespace TemplateTree.Yaml

/-! ## 1. Classes -/

/-- The characters that end a line. -/
def isBreak (c : Char) : Bool :=
  c == '\n' || c == '\r' || c == '\x85' || c == '\u2028' || c == '\u2029'

/-- Blanks within a line. -/
def isBlank (c : Char) : Bool := c == ' ' || c == '\t'

/-- Blanks and line breaks. -/
def isSpace (c : Char) : Bool := isBlank c || isBreak c

/-- Spaces and line breaks, but no tabs. -/
def isGap (c : Char) : Bool := c == ' ' || isBreak c

/-- The characters of names of anchors, tags and directives. -/
def isWordChar (c : Char) : Bool := c.isAlphanum || c == '-' || c == '_'

/-- The characters that a data file may hold. -/
def isPrintable (c : Char) : Bool :=
  c == '\t' || c == '\n' || c == '\r' || (' ' ≤ c && c ≤ '~') || c == '\x85'
    || ('\xa0' ≤ c && c ≤ '\ufffd') || 0x10000 ≤ c.toNat

/-- Whether a text ends here or goes on with a blank or line break. -/
def endsWord : List Char → Bool
  | [] => true
  | c :: _ => isSpace c

/-- Whether a text ends here or goes on with a space or line break. -/
def endsPart : List Char → Bool
  | [] => true
  | c :: _ => isGap c

/-- Whether a text ends here or goes on with a line break. -/
def endsLine : List Char → Bool
  | [] => true
  | c :: _ => isBreak c

/-- Whether a line starts with the mark that starts a document. -/
def startsDocument : List Char → Bool
  | '-' :: '-' :: '-' :: rest => endsWord rest
  | _ => false

/-- Whether a line starts with the mark that ends a document. -/
def endsDocument : List Char → Bool
  | '.' :: '.' :: '.' :: rest => endsWord rest
  | _ => false

/-- Whether a line starts with a mark between documents. -/
def separatesDocuments (cs : List Char) : Bool := startsDocument cs || endsDocument cs

/-! ## 2. Line breaks -/

/-- A line break as it is read. -/
def readBreak (c : Char) : Char := if c == '\u2028' || c == '\u2029' then c else '\n'

/-- The line breaks among some characters, as they are read; a carriage return and a line feed are
    one. -/
def breaks : List Char → List Char
  | [] => []
  | '\r' :: '\n' :: rest => '\n' :: breaks rest
  | c :: rest => if isBreak c then readBreak c :: breaks rest else breaks rest

/-- The text behind a line break. -/
def skipBreak : List Char → List Char
  | '\r' :: '\n' :: rest => rest
  | c :: rest => if isBreak c then rest else c :: rest
  | [] => []

/-- The text behind the rest of a line that holds only spaces and a comment. -/
def restOfLine (cs : List Char) : Except Fault (List Char) :=
  let cs := cs.dropWhile (· == ' ')
  let cs := if cs.head? = some '#' then cs.dropWhile (fun c => !isBreak c) else cs
  if endsLine cs then .ok (skipBreak cs) else .error .malformed

/-- The text between two words that are divided by line breaks: a single line feed is a space, and
    of several breaks the first one is dropped if it is a line feed. -/
def fold : List Char → List Char
  | ['\n'] => [' ']
  | '\n' :: rest => rest
  | bs => bs

/-- Whether the place behind some blanks and breaks is the start of a line. -/
def atLineStart (spaces : List Char) : Bool := spaces.getLast?.any isBreak

/-- The number of spaces behind the last line break of some spaces and breaks. -/
def lastColumn (spaces : List Char) : Nat := (spaces.reverse.takeWhile (· == ' ')).length

/-! ## 3. Hexadecimal numbers -/

/-- The value of a hexadecimal digit. -/
def hexDigit? (c : Char) : Option Nat :=
  if '0' ≤ c ∧ c ≤ '9' then some (c.toNat - '0'.toNat)
  else if 'a' ≤ c ∧ c ≤ 'f' then some (c.toNat - 'a'.toNat + 10)
  else if 'A' ≤ c ∧ c ≤ 'F' then some (c.toNat - 'A'.toNat + 10)
  else none

/-- The number in the next `count` hexadecimal digits, and the text behind them. -/
def hexNumber? : Nat → Nat → List Char → Option (Nat × List Char)
  | 0, value, cs => some (value, cs)
  | _ + 1, _, [] => none
  | count + 1, value, c :: cs =>
    match hexDigit? c with
    | some d => hexNumber? count (value * 16 + d) cs
    | none => none

end TemplateTree.Yaml
