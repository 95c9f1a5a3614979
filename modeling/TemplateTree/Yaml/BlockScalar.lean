import TemplateTree.Yaml.Character

/-!
# Scalars in blocks of lines

A block scalar is a header and the lines that stand at its indentation or behind it. The header
says whether the last line breaks are kept, and may give the indentation; without it the deepest
of the first lines decides. In a folded scalar a line feed between two lines that do not start with
a blank is a space.
-/

namespace TemplateTree.Yaml

/-! ## 1. The header -/

/-- What becomes of the line breaks at the end of a block scalar: one of them is kept, none, or
    all. -/
inductive Chomping where
  | clip
  | strip
  | keep
deriving DecidableEq, Repr

/-- The mark of a way of chomping. -/
def chomping? : Char → Option Chomping
  | '+' => some .keep
  | '-' => some .strip
  | _ => none

/-- The depth that a digit gives; zero is none. -/
def depth? (c : Char) : Option (Except Fault Nat) :=
  if '1' ≤ c ∧ c ≤ '9' then some (.ok (c.toNat - '0'.toNat))
  else if c = '0' then some (.error .malformed)
  else none

/-- The header of a block scalar, and the text behind it: a mark of chomping and a depth in either
    order. -/
def blockHeader (cs : List Char) : Except Fault (Chomping × Option Nat × List Char) := do
  let chompingAt (cs : List Char) : Option Chomping := cs.head?.bind chomping?
  let depthAt (cs : List Char) : Except Fault (Option Nat) :=
    match cs.head?.bind depth? with
    | none => .ok none
    | some d => d.map some
  match chompingAt cs with
  | some chomping =>
    let rest := cs.tail
    let depth ← depthAt rest
    let rest := if depth.isSome then rest.tail else rest
    if endsPart rest then return (chomping, depth, rest) else throw .malformed
  | none =>
    let depth ← depthAt cs
    let rest := if depth.isSome then cs.tail else cs
    let chomping := if depth.isSome then chompingAt rest else none
    let rest := if chomping.isSome then rest.tail else rest
    if endsPart rest then return (chomping.getD .clip, depth, rest) else throw .malformed

/-! ## 2. The lines -/

/-- The widths of the lines of some spaces and breaks, the last one included. -/
def lineWidths : (width : Nat) → List Char → List Nat
  | width, [] => [width]
  | width, c :: rest => if isBreak c then width :: lineWidths 0 rest else lineWidths (width + 1) rest

/-- The line breaks of empty lines, of which at most `indent` spaces are skipped each: the breaks,
    the column reached, and the rest. -/
def emptyLines (indent : Nat) : (column : Nat) → List Char → List Char × Nat × List Char
  | column, [] => ([], column, [])
  | _, '\r' :: '\n' :: rest =>
    let (bs, column, behind) := emptyLines indent 0 rest
    ('\n' :: bs, column, behind)
  | column, c :: rest =>
    if c = ' ' ∧ column < indent then
      emptyLines indent (column + 1) rest
    else if isBreak c then
      let (bs, column, behind) := emptyLines indent 0 rest
      (readBreak c :: bs, column, behind)
    else
      ([], column, c :: rest)

/-- The lines of a block scalar: their text, the break behind the last one, the breaks of the empty
    lines behind that, and the rest. -/
structure BlockLines where
  text : List Char
  lastBreak : List Char
  trailing : List Char
  rest : List Char

/-- The lines that start in the column `indent`, with the breaks before them. Every line takes one
    step of the fuel. -/
def blockLines (folded : Bool) (indent : Nat) : Nat → (leading : List Char) → List Char → BlockLines
  | 0, leading, cs => ⟨[], [], leading, cs⟩
  | steps + 1, leading, cs =>
    let line := cs.takeWhile fun c => !isBreak c
    let behind := cs.dropWhile fun c => !isBreak c
    let lineBreak := (breaks (behind.take 2)).take 1
    let (bs, column, after) := emptyLines indent 0 (skipBreak behind)
    if column = indent ∧ after ≠ [] then
      let joins := folded && lineBreak = ['\n'] && !(line.head?.any isBlank)
        && !(after.head?.any isBlank)
      let between := if joins then (if bs.isEmpty then [' '] else []) else lineBreak
      let more := blockLines folded indent steps bs after
      ⟨leading ++ line ++ between ++ more.text, more.lastBreak, more.trailing, more.rest⟩
    else
      ⟨leading ++ line, lineBreak, bs, after⟩

/-- The block scalar behind its mark, where lines must stand at `least` or behind it: its text and
    the rest. -/
def blockScalar (folded : Bool) (least : Nat) (cs : List Char) :
    Except Fault (List Char × List Char) := do
  let (chomping, depth, cs) ← blockHeader cs
  let cs ← restOfLine cs
  let spaces := cs.takeWhile isGap
  let deepest := (lineWidths 0 spaces).foldl max 0
  let indent := match depth with
    | some d => least + d - 1
    | none => max least deepest
  let (leading, column, after) := match depth with
    | some _ => emptyLines indent 0 cs
    | none => (breaks spaces, lastColumn spaces, cs.dropWhile isGap)
  let lines :=
    if column = indent ∧ after ≠ [] then blockLines folded indent after.length leading after
    else ⟨[], [], leading, after⟩
  let tail := match chomping with
    | .strip => []
    | .clip => lines.lastBreak
    | .keep => lines.lastBreak ++ lines.trailing
  return (lines.text ++ tail, lines.rest)

end TemplateTree.Yaml
