import TemplateTree.Yaml.BlockScalar
import TemplateTree.Yaml.FlowScalar
import TemplateTree.Yaml.Property
import TemplateTree.Yaml.Stream

/-!
# Lexemes of a data file

The text of a data file is cut into lexemes (`Lexemes.ofChars`). Indentation and keys are made
explicit on the way: a block collection starts and ends with a lexeme of its own, and a key that is
recognised only by the colon behind it gets its mark in front of it afterwards. Until the colon is
found or can no longer come, such a lexeme is a *pending key* (`PendingKey`); it must stand on one
line and within `maxKeyLength` characters.

A text that breaks off with a fault still has lexemes in front of it. Those in front of the first
pending key can be used without reading on, so these are the lexemes of the text, followed by its
fault. A stream may have a fault behind its last character (`Stream`); the lexeme that comes up to
there is not complete.
-/

namespace TemplateTree.Yaml

/-! ## 1. Lexemes -/

/-- A lexeme of a data file. -/
inductive Lexeme where
  | streamEnd
  | directive (d : Directive)
  | documentStart
  | documentEnd
  | blockSequenceStart
  | blockMappingStart
  | blockEnd
  | flowSequenceStart
  | flowSequenceEnd
  | flowMappingStart
  | flowMappingEnd
  | blockEntry
  | flowEntry
  | key
  | value
  | alias (name : List Char)
  | anchor (name : List Char)
  | tag (name : TagName)
  | scalar (isPlain : Bool) (text : Text)
deriving DecidableEq, Repr

/-- The lexemes of a text, and the fault with which it breaks off, if it does. -/
structure Lexemes where
  lexemes : List Lexeme
  fault? : Option Fault
deriving Repr

/-! ## 2. Places in the text -/

/-- A place in a text: what is left of it, and the position. -/
structure Cursor where
  rest : List Char
  index : Nat := 0
  line : Nat := 0
  column : Nat := 0

namespace Cursor

/-- The place behind the next character. A byte order mark takes no column. -/
def next (k : Cursor) : Cursor :=
  match k.rest with
  | [] => k
  | c :: rest =>
    if isBreak c && !(c == '\r' && rest.head? == some '\n') then
      ⟨rest, k.index + 1, k.line + 1, 0⟩
    else if c == '\ufeff' then
      ⟨rest, k.index + 1, k.line, k.column⟩
    else
      ⟨rest, k.index + 1, k.line, k.column + 1⟩

/-- The place some characters further on. -/
def advance : Nat → Cursor → Cursor
  | 0, k => k
  | n + 1, k => advance n k.next

/-- The place in front of a given rest of the text. -/
def moveTo (k : Cursor) (rest : List Char) : Cursor :=
  advance (k.rest.length - rest.length) k

end Cursor

/-! ## 3. The state of the reader -/

/-- The greatest length of a key that is recognised by the colon behind it. -/
def maxKeyLength : Nat := 1024

/-- A lexeme that is a key if a colon follows. -/
structure PendingKey where
  /-- The number of lexemes in front of it. -/
  position : Nat
  /-- Whether nothing but a key can stand here. -/
  required : Bool
  index : Nat
  line : Nat
  column : Nat

/-- What the reader knows at a place of the text. -/
structure Reader where
  here : Cursor
  /-- The number of open brackets. -/
  flow : Nat := 0
  /-- The columns of the open block collections, innermost first. -/
  indents : List Nat := []
  /-- Whether a key may start here. -/
  keyAllowed : Bool := true
  /-- The pending keys, each with the number of brackets around it. -/
  pending : List (Nat × PendingKey) := []
  /-- The lexemes so far, latest first. -/
  lexemes : List Lexeme := []
  /-- The number of lexemes so far. -/
  count : Nat := 0
  /-- The number of characters of the whole text. -/
  size : Nat

namespace Reader

/-- The text in front of the reader. -/
def rest (r : Reader) : List Char := r.here.rest

/-- The reader with one more lexeme. -/
def push (r : Reader) (l : Lexeme) : Reader :=
  { r with lexemes := l :: r.lexemes, count := r.count + 1 }

/-- The reader moved over some characters. -/
def pass (r : Reader) (count : Nat) : Reader := { r with here := r.here.advance count }

/-- The reader moved to a rest of the text. -/
def moveTo (r : Reader) (rest : List Char) : Reader := { r with here := r.here.moveTo rest }

/-- The reader moved over some characters, with a lexeme for them. -/
def take (r : Reader) (count : Nat) (l : Lexeme) : Reader := (r.pass count).push l

/-- The reader with a lexeme in front of all but the first `position` ones. -/
def insert (r : Reader) (position : Nat) (l : Lexeme) : Reader :=
  let later := r.count - position
  { r with
    lexemes := r.lexemes.take later ++ l :: r.lexemes.drop later
    count := r.count + 1 }

/-! ### Indentation -/

/-- Whether a column is deeper than the innermost block collection. -/
def isDeeper (r : Reader) (column : Nat) : Bool :=
  match r.indents with
  | [] => true
  | i :: _ => i < column

/-- Ends some block collections, each with a lexeme, innermost first. -/
def unwind (r : Reader) : Nat → Reader
  | 0 => r
  | count + 1 => unwind { r.push .blockEnd with indents := r.indents.drop 1 } count

/-- Ends the block collections that a column does not belong to. In brackets indentation does not
    count. -/
def dedent (r : Reader) (stays : Nat → Bool) : Reader :=
  if r.flow = 0 then r.unwind (r.indents.takeWhile fun i => !stays i).length else r

/-- Ends all block collections. -/
def dedentAll (r : Reader) : Reader := r.dedent fun _ => false

/-! ### Pending keys -/

/-- Whether a pending key can no longer be one at a place. -/
def isStale (here : Cursor) (k : PendingKey) : Bool :=
  k.line != here.line || maxKeyLength < here.index - k.index

/-- Gives up the pending keys that can no longer be keys; none of them may be required. -/
def dropStale (r : Reader) : Except Fault Reader :=
  if r.pending.any fun p => isStale r.here p.2 && p.2.required then
    .error .malformed
  else
    .ok { r with pending := r.pending.filter fun p => !isStale r.here p.2 }

/-- Gives up the pending key inside the innermost bracket, which may not be required. -/
def dropPending (r : Reader) : Except Fault Reader :=
  if r.pending.any fun p => p.1 == r.flow && p.2.required then
    .error .malformed
  else
    .ok { r with pending := r.pending.filter fun p => p.1 != r.flow }

/-- Takes the next lexeme for a pending key, where a key may start. -/
def savePending (r : Reader) : Except Fault Reader :=
  if r.keyAllowed then do
    let required := r.flow == 0 && r.indents.head? == some r.here.column
    let r ← r.dropPending
    let k : PendingKey :=
      ⟨r.count, required, r.here.index, r.here.line, r.here.column⟩
    return { r with pending := (r.flow, k) :: r.pending }
  else
    .ok r

/-! ## 4. One lexeme -/

/-- The place behind the spaces, comments and line breaks at the front of a text, and whether a line
    break was among them. -/
def skipIgnored : (inComment brokeLine : Bool) → Cursor → List Char → Cursor × Bool
  | _, brokeLine, k, [] => (k, brokeLine)
  | inComment, brokeLine, k, c :: rest =>
    if isBreak c then skipIgnored false true k.next rest
    else if inComment || c == ' ' then skipIgnored inComment brokeLine k.next rest
    else if c == '#' then skipIgnored true brokeLine k.next rest
    else (k, brokeLine)

/-- Moves to the next lexeme. A line break outside brackets allows a key. -/
def skip (r : Reader) : Reader :=
  let start := if r.here.index = 0 ∧ r.rest.head? = some '\ufeff' then r.here.next else r.here
  let (here, brokeLine) := skipIgnored false false start start.rest
  { r with here, keyAllowed := r.keyAllowed || (brokeLine && r.flow == 0) }

/-- A mark between documents, or the end of the text: everything open ends here. -/
def atMargin (r : Reader) : Except Fault Reader := do
  let r ← r.dedentAll.dropPending
  return { r with keyAllowed := false }

/-- Opens a bracket, which may start a key. -/
def openFlow (r : Reader) (l : Lexeme) : Except Fault Reader := do
  let r ← r.savePending
  return { r.take 1 l with flow := r.flow + 1, keyAllowed := true }

/-- Closes a bracket. -/
def closeFlow (r : Reader) (l : Lexeme) : Except Fault Reader := do
  let r ← r.dropPending
  return { r.take 1 l with flow := r.flow - 1, keyAllowed := false }

/-- The comma between entries in brackets. -/
def flowEntry (r : Reader) : Except Fault Reader := do
  let r ← r.dropPending
  return { r.take 1 .flowEntry with keyAllowed := true }

/-- Starts a block collection at a column, if it is deeper than the one around it. -/
def indentAt (r : Reader) (column : Nat) (l : Lexeme) : Reader :=
  if r.isDeeper column then { r.push l with indents := column :: r.indents } else r

/-- The mark of an entry of a block sequence. -/
def blockEntry (r : Reader) : Except Fault Reader := do
  if r.flow = 0 ∧ !r.keyAllowed then
    throw .malformed
  let r := if r.flow = 0 then r.indentAt r.here.column .blockSequenceStart else r
  let r ← r.dropPending
  return { r.take 1 .blockEntry with keyAllowed := true }

/-- The mark of a key. -/
def key (r : Reader) : Except Fault Reader := do
  if r.flow = 0 ∧ !r.keyAllowed then
    throw .malformed
  let r := if r.flow = 0 then r.indentAt r.here.column .blockMappingStart else r
  let r ← r.dropPending
  return { r.take 1 .key with keyAllowed := r.flow == 0 }

/-- The colon in front of a value. A pending key inside the innermost bracket is a key now. -/
def value (r : Reader) : Except Fault Reader := do
  match r.pending.lookup r.flow with
  | some k =>
    let r := { r with pending := r.pending.filter fun p => p.1 != r.flow }
    let r := r.insert k.position .key
    let r :=
      if r.flow = 0 ∧ r.isDeeper k.column then
        { r.insert k.position .blockMappingStart with indents := k.column :: r.indents }
      else
        r
    return { r.take 1 .value with keyAllowed := false }
  | none =>
    if r.flow = 0 ∧ !r.keyAllowed then
      throw .malformed
    let r := if r.flow = 0 then r.indentAt r.here.column .blockMappingStart else r
    return { r.take 1 .value with keyAllowed := r.flow == 0 }

/-- A lexeme that may be a key, given how it and the number of its characters behind its mark are
    read there. -/
def keyLike (r : Reader) (read : List Char → Except Fault (Lexeme × Nat)) : Except Fault Reader := do
  let r ← r.savePending
  let (l, size) ← read (r.rest.drop 1)
  return { r.take (1 + size) l with keyAllowed := false }

/-- A tag, which may start a key. -/
def tagLexeme (r : Reader) : Except Fault Reader := do
  let r ← r.savePending
  let (t, rest) ← tag r.rest
  return { (r.moveTo rest).push (.tag t) with keyAllowed := false }

/-- A plain scalar. If it ends over a line break, a key may follow. -/
def plainScalar (r : Reader) : Except Fault Reader := do
  let r ← r.savePending
  let indent := match r.indents with
    | [] => 0
    | i :: _ => i + 1
  let p := plain (r.flow != 0) indent r.size r.rest
  return { r.take p.size (.scalar true (Text.ofChars p.text)) with keyAllowed := p.brokeLine }

/-- A block scalar. -/
def blockScalar (r : Reader) (folded : Bool) : Except Fault Reader := do
  let r ← r.dropPending
  let least := match r.indents with
    | [] => 1
    | i :: _ => i + 1
  let (text, rest) ← Yaml.blockScalar folded least (r.rest.drop 1)
  return { (r.moveTo rest).push (.scalar false (Text.ofChars text)) with keyAllowed := true }

/-- Whether a plain scalar can start with a character and the text behind it. -/
def startsPlain (inFlow : Bool) (c : Char) (behind : List Char) : Bool :=
  !(isSpace c || "-?:,[]\x7b\x7d#&*!|>'\"%@`".toList.contains c)
    || (!endsWord behind && (c == '-' || (!inFlow && (c == '?' || c == ':'))))

/-- The lexeme that starts with a character, outside the marks between documents. -/
def lexeme (r : Reader) (c : Char) (behind : List Char) : Except Fault Reader :=
  let inFlow := r.flow != 0
  if c = '[' then r.openFlow .flowSequenceStart
  else if c = '\x7b' then r.openFlow .flowMappingStart
  else if c = ']' then r.closeFlow .flowSequenceEnd
  else if c = '\x7d' then r.closeFlow .flowMappingEnd
  else if c = ',' then r.flowEntry
  else if c = '-' ∧ endsWord behind then r.blockEntry
  else if c = '?' ∧ (inFlow || endsWord behind) then r.key
  else if c = ':' ∧ (inFlow || endsWord behind) then r.value
  else if c = '*' then
    r.keyLike fun cs => (anchorName cs).map fun p => (.alias p.1, p.1.length)
  else if c = '&' then
    r.keyLike fun cs => (anchorName cs).map fun p => (.anchor p.1, p.1.length)
  else if c = '!' then r.tagLexeme
  else if c = '|' ∧ !inFlow then r.blockScalar false
  else if c = '>' ∧ !inFlow then r.blockScalar true
  else if c = '\'' then
    r.keyLike fun cs => (quoted false r.size cs).map fun p => (.scalar false p.1, p.2)
  else if c = '"' then
    r.keyLike fun cs => (quoted true r.size cs).map fun p => (.scalar false p.1, p.2)
  else if startsPlain inFlow c behind then r.plainScalar
  else .error .malformed

/-- Reads up to the next lexeme and over it. At the end of the text nothing is left to read. -/
def step (r : Reader) : Except Fault Reader := do
  let r ← r.skip.dropStale
  let r := r.dedent fun i => i ≤ r.here.column
  match r.rest with
  | [] =>
    let r ← r.atMargin
    return { r.push .streamEnd with pending := [] }
  | c :: behind =>
    if r.here.column = 0 ∧ c = '%' then
      let r ← r.atMargin
      let (d, rest) ← directive behind
      return (r.moveTo rest).push (.directive d)
    else if r.here.column = 0 ∧ startsDocument r.rest then
      return (← r.atMargin).take 3 .documentStart
    else if r.here.column = 0 ∧ endsDocument r.rest then
      return (← r.atMargin).take 3 .documentEnd
    else
      r.lexeme c behind

/-! ## 5. All lexemes -/

/-- The lexemes in front of the first one that is still pending. -/
def settled (r : Reader) : List Lexeme :=
  let open? := (r.pending.filter fun p => !isStale r.here p.2).map fun p => p.2.position
  let count := open?.foldl min r.count
  r.lexemes.reverse.take count

/-- Whether the reader has read the whole text. -/
def isDone (r : Reader) : Bool := r.lexemes.head? == some .streamEnd

/-- The reader behind the next lexeme, unless a fault behind the text is met on the way to it or in
    it. -/
def stepWithin (fault? : Option Fault) (r : Reader) : Except Fault Reader :=
  match fault? with
  | none =>
    match r.step with
    | .error .unclosed => .error .malformed
    | result => result
  | some f =>
    if r.skip.rest.isEmpty then
      .error f
    else
      match r.step with
      | .ok r => if r.rest.isEmpty then .error f else .ok r
      | .error .unclosed => .error f
      | .error e => .error e

/-- Reads lexeme after lexeme, each of which takes one step of the fuel. -/
def run (fault? : Option Fault) : Nat → Reader → Lexemes
  | 0, r => ⟨r.lexemes.reverse, if r.isDone then none else some .malformed⟩
  | steps + 1, r =>
    if r.isDone then
      ⟨r.lexemes.reverse, none⟩
    else
      match r.stepWithin fault? with
      | .ok r' => run fault? steps r'
      | .error f => ⟨r.settled, some f⟩

end Reader

/-- The lexemes of a stream. -/
def Lexemes.ofStream (s : Stream) : Lexemes :=
  let size := s.chars.length
  Reader.run s.fault? (size + 2) { here := { rest := s.chars }, size }

end TemplateTree.Yaml
