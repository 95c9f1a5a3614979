import TemplateTree.Text.Basic

/-!
# Lines of a text

Three ways to cut a text into lines stand side by side:

* `Text.lines` cuts at line feeds only and keeps every piece, so `Text.unlines` is its inverse
  (`Text.unlines_lines`); generated code is indented line by line this way (`Text.indent`);
* `Text.cutLines` cuts at every line boundary of Unicode and gives no last piece after a final
  boundary; the module layout hangs its expression this way (`Text.hang`);
* `unifyNewlines` turns the three common line ends of a file into line feeds.
-/

namespace TemplateTree

/-! ## 1. Line feeds -/

/-- The line feed, which ends a line of generated code. -/
def newline : CodePoint := .scalar '\n'

namespace Text

/-- The pieces of a text between its line feeds; a text without one is a single piece. -/
def lines : Text → List Text
  | [] => [[]]
  | c :: rest =>
    if c = newline then
      [] :: lines rest
    else
      match lines rest with
      | [] => [[c]]
      | l :: ls => (c :: l) :: ls

/-- The pieces with a line feed between two neighbours. -/
def unlines (pieces : List Text) : Text := join [newline] pieces

/-- A text with `margin` in front of each of its lines. -/
def indent (code margin : Text) : Text :=
  unlines ((lines code).map (margin ++ ·))

theorem lines_ne_nil (t : Text) : lines t ≠ [] := by
  cases t with
  | nil => simp [lines]
  | cons c rest =>
    simp only [lines]
    split
    · simp
    · split <;> simp

/-- **Cutting at line feeds loses nothing.** -/
theorem unlines_lines (t : Text) : unlines (lines t) = t := by
  induction t with
  | nil => rfl
  | cons c rest ih =>
    simp only [lines]
    split
    · rename_i hc
      subst hc
      cases h : lines rest with
      | nil => exact absurd h (lines_ne_nil rest)
      | cons l ls =>
        rw [h] at ih
        rw [← ih]
        simp [unlines, join, List.intercalate]
    · cases h : lines rest with
      | nil => exact absurd h (lines_ne_nil rest)
      | cons l ls =>
        rw [h] at ih
        rw [← ih]
        cases ls <;> simp [unlines, join, List.intercalate]

/-! ## 2. All line boundaries -/

/-- The characters that end a line: line feed, vertical tab, form feed, carriage return, the three
    information separators from `U+001C`, next line, line and paragraph separator. -/
def isBoundary : CodePoint → Bool
  | .scalar c =>
    ('\n' ≤ c && c ≤ '\r') || ('\x1c' ≤ c && c ≤ '\x1e') || c == '\x85'
      || c == '\u2028' || c == '\u2029'
  | .surrogate _ => false

/-- The lines of a text without their boundaries; a carriage return and a line feed are one
    boundary, and a final boundary starts no further line. -/
def cutLines : Text → List Text
  | [] => []
  | .scalar '\r' :: .scalar '\n' :: rest => [] :: cutLines rest
  | c :: rest =>
    if isBoundary c then
      [] :: cutLines rest
    else
      match cutLines rest with
      | [] => [[c]]
      | l :: ls => (c :: l) :: ls

/-- A text hung at a margin: its lines, cut at every boundary, are joined by line feeds, the first
    one and every later one that is not empty standing behind the margin. -/
def hang (code margin : Text) : Text :=
  match cutLines (code ++ [newline]) with
  | [] => margin
  | first :: rest =>
    unlines ((margin ++ first) :: rest.map fun l => if l.isEmpty then [] else margin ++ l)

end Text

/-! ## 3. Line ends of files -/

/-- The characters of a file with every carriage return, and every carriage return before a line
    feed, read as one line feed. -/
def unifyNewlines : List Char → List Char
  | [] => []
  | '\r' :: '\n' :: rest => '\n' :: unifyNewlines rest
  | '\r' :: rest => '\n' :: unifyNewlines rest
  | c :: rest => c :: unifyNewlines rest

end TemplateTree
