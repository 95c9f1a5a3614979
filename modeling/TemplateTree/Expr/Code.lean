import TemplateTree.Expr.Basic
import TemplateTree.Settings.Basic
import TemplateTree.Text.Lines
import TemplateTree.Text.Literal

/-!
# The code of an expression

Every node is written as one Python expression, so that any node can stand wherever another one
can. What needs statements elsewhere (sequences, branches, loops) becomes a lambda that is called
on the spot, and loops are comprehensions whose filter never holds: the filter runs the body and
rebinds the result.

`Expr.code` writes a node; `Expr.shownLines` lists the line numbers that the code shows, which
must be short enough to be written (`Expr.code?`).
-/

namespace TemplateTree

/-! ## 1. The pieces of the code -/

namespace Code

/-- One level of indentation. -/
def step : Text := "  "

/-- The list of elements, inside a loop over a collection. -/
def items : Text := "_items"

/-- The position, inside a loop over a collection. -/
def position : Text := "_i"

/-- The result so far, inside a loop. -/
def result : Text := "_r"

/-- Code moved in by one level. -/
def nest (code : Text) : Text := code.indent step

/-- A call with its arguments between commas. -/
def call (function : Text) (arguments : List Text) : Text :=
  function ++ "(" ++ Text.join ", " arguments ++ ")"

/-- Items one per line, the last of which is the value. -/
def sequence (items : List Text) : Text :=
  "(lambda: (\n" ++ Text.unlines (items.map fun item => nest (item ++ ",")) ++ "\n)[-1])()"

/-- A test of operands: true without one, presence of one, equality of several. -/
def test (n : RuntimeNames) (negated : Bool) (operands : List Text) : Text :=
  match operands with
  | [] => if negated then "False" else "True"
  | [operand] =>
    let absent := call n.emptyTest [operand]
    if negated then absent else "not " ++ absent
  | operands =>
    let equal := call n.equalTest operands
    if negated then "not " ++ equal else equal

/-- A chain of conditional expressions, each a pair of condition and branch. -/
def chain (clauses : List (Text × Text)) : Text :=
  "(lambda: (\n"
    ++ Text.unlines (clauses.map (fun c => nest (c.2 ++ " if (" ++ c.1 ++ ") else"))
      ++ [nest "None"])
    ++ "\n))()"

/-- The binding of a variable, as a step of a loop. -/
def bindStep (n : RuntimeNames) (line : Int) (bound? : Option Text) (value : Text) : List Text :=
  match bound? with
  | none => []
  | some name => [call n.assignment [Decimal.ofInt line, name, value] ++ ","]

/-- A loop over a collection: the position is bound first, then the element, then the body runs. -/
def overElements (n : RuntimeNames) (line : Int) (iterable body : Text)
    (element? position? : Option Text) : Text :=
  let steps := bindStep n line position? position
    ++ bindStep n line element? (items ++ "[" ++ position ++ "]")
    ++ ["(" ++ result ++ " := " ++ body ++ "),"]
  let iteration := "if (\n" ++ nest (Text.unlines steps) ++ "\n) and False"
  let loop := "None\nfor " ++ position ++ " in range(len(" ++ items ++ "))\n" ++ iteration
  "(lambda " ++ items ++ ", " ++ result ++ "=\"\": [\n" ++ nest loop ++ "\n] or " ++ result ++ ")("
    ++ call n.elementList [iterable] ++ ")"

/-- A loop as long as a condition holds. -/
def whileHolds (condition body : Text) : Text :=
  let loop := "None\nfor _ in iter(lambda: bool(" ++ condition ++ "), False)\nif (" ++ result
    ++ " := " ++ body ++ ") and False"
  "(lambda " ++ result ++ "=\"\": [\n" ++ nest loop ++ "\n] or " ++ result ++ ")()"

end Code

/-! ## 2. The code of a tree -/

namespace Expr

mutual

/-- The code of an expression. -/
def code (n : RuntimeNames) : Expr → Text
  | string value => Literal.encode value
  | command line name arguments =>
    Code.call (n.commandTable ++ "[" ++ code n name ++ "]")
      (Decimal.ofInt line :: codes n arguments)
  | block first rest => Code.sequence (code n first :: codes n rest)
  | condition negated operands => Code.test n negated (codes n operands)
  | choice clauses => Code.chain (clauseCodes n clauses)
  | forEach line iterable body element position =>
    Code.overElements n line (code n iterable) (code n body) (optionCode n element)
      (optionCode n position)
  | whileLoop test body => Code.whileHolds (code n test) (code n body)

/-- The code of each of some expressions. -/
def codes (n : RuntimeNames) : List Expr → List Text
  | [] => []
  | e :: es => code n e :: codes n es

/-- The code of each condition and branch. -/
def clauseCodes (n : RuntimeNames) : List (Expr × Expr) → List (Text × Text)
  | [] => []
  | (c, b) :: rest => (code n c, code n b) :: clauseCodes n rest

/-- The code of an expression that may be absent. -/
def optionCode (n : RuntimeNames) : Option Expr → Option Text
  | none => none
  | some e => some (code n e)

end

/-! ## 3. Line numbers that the code shows -/

mutual

/-- The line numbers that stand in the code of an expression. A loop over a collection shows its
    line only where it binds a variable. -/
def shownLines : Expr → List Int
  | string _ => []
  | command line name arguments => line :: shownLines name ++ listLines arguments
  | block first rest => shownLines first ++ listLines rest
  | condition _ operands => listLines operands
  | choice clauses => clauseLines clauses
  | forEach line iterable body element position =>
    (if element.isSome || position.isSome then [line] else [])
      ++ shownLines iterable ++ shownLines body ++ optionLines element ++ optionLines position
  | whileLoop test body => shownLines test ++ shownLines body

/-- The line numbers in the code of a list. -/
def listLines : List Expr → List Int
  | [] => []
  | e :: es => shownLines e ++ listLines es

/-- The line numbers in the code of clauses. -/
def clauseLines : List (Expr × Expr) → List Int
  | [] => []
  | (c, b) :: rest => shownLines c ++ shownLines b ++ clauseLines rest

/-- The line numbers in the code of an expression that may be absent. -/
def optionLines : Option Expr → List Int
  | none => []
  | some e => shownLines e

end

/-- The code of an expression, if every line number in it is short enough to be written. -/
def code? (n : RuntimeNames) (e : Expr) : Except Failure Text :=
  if e.shownLines.all Decimal.fits then .ok (e.code n) else .error .overlongInteger

theorem codes_eq_map (n : RuntimeNames) (es : List Expr) : codes n es = es.map (code n) := by
  induction es with
  | nil => rfl
  | cons e es ih => simp [codes, ih]

theorem clauseCodes_eq_map (n : RuntimeNames) (cs : List (Expr × Expr)) :
    clauseCodes n cs = cs.map fun c => (code n c.1, code n c.2) := by
  induction cs with
  | nil => rfl
  | cons c cs ih => simp [clauseCodes, ih]

theorem optionCode_eq_map (n : RuntimeNames) (e : Option Expr) :
    optionCode n e = e.map (code n) := by
  cases e <;> rfl

end Expr

end TemplateTree
