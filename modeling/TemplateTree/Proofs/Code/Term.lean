import TemplateTree.Expr.Code
import TemplateTree.Proofs.Target.Syntax

/-!
# The syntax tree of generated code

`Expr.term` is the syntax tree that the code of an expression has. It is put together from the same
pieces as the code (`Code`), one for each kind of node.
-/

namespace TemplateTree

namespace Target.Term

/-! ## 1. The pieces -/

/-- An attribute of the runtime. -/
def runtimeMember (n : RuntimeNames) (a : Text) : Term := member (name n.runtime) a

/-- An integer, whose sign stands in front of a number. -/
def integer (z : Int) : Term :=
  if z < 0 then negative (number z.natAbs) else number z.natAbs

/-- The call of a looked up command with a line and arguments. -/
def commandCall (n : RuntimeNames) (line : Int) (command : Term) (arguments : List Term) : Term :=
  call (index (runtimeMember n n.commands) command) (integer line :: arguments)

/-- Items one after another, the last of which is the value. -/
def sequence (items : List Term) : Term :=
  call (lambda [] [] (index (tuple items) (negative (number 1)))) []

/-- A test of operands: true without one, presence of one, equality of several. -/
def test (n : RuntimeNames) (negated : Bool) (operands : List Term) : Term :=
  match operands with
  | [] => bool (!negated)
  | [operand] =>
    let absent := call (runtimeMember n n.isEmpty) [operand]
    if negated then absent else not absent
  | operands =>
    let equal := call (runtimeMember n n.areAllEqual) operands
    if negated then not equal else equal

/-- Conditional expressions in each other, each from a pair of condition and branch. -/
def branches : List (Term × Term) → Term
  | [] => none
  | (test, branch) :: rest => conditional test branch (branches rest)

/-- A chain of conditional expressions. -/
def chain (clauses : List (Term × Term)) : Term := call (lambda [] [] (branches clauses)) []

/-- The binding of a variable, as a step of a loop. -/
def bindStep (n : RuntimeNames) (line : Int) (bound? : Option Term) (value : Term) : List Term :=
  match bound? with
  | .none => []
  | some bound =>
    [call (member (runtimeMember n n.commands) n.assign) [integer line, bound, value]]

/-- The steps of a loop over a collection. -/
def loopSteps (n : RuntimeNames) (line : Int) (body : Term) (element? position? : Option Term) :
    List Term :=
  bindStep n line position? (name Code.position)
    ++ bindStep n line element? (index (name Code.items) (name Code.position))
    ++ [bind Code.result body]

/-- A loop whose filter is never true, so that it gathers nothing and gives the result so far. -/
def loop (bound : Text) (source filter : Term) : Term :=
  or (comprehension none bound source filter) (name Code.result)

/-- The positions of the elements. -/
def positions : Term := call (name "range") [call (name "len") [name Code.items]]

/-- The filter of a loop over a collection, which makes one turn. -/
def turn (n : RuntimeNames) (line : Int) (body : Term) (element? position? : Option Term) : Term :=
  and (tuple (loopSteps n line body element? position?)) (bool false)

/-- A loop over a collection. -/
def overElements (n : RuntimeNames) (line : Int) (iterable body : Term)
    (element? position? : Option Term) : Term :=
  call (lambda [Code.items, Code.result] [text []]
      (loop Code.position positions (turn n line body element? position?)))
    [call (runtimeMember n n.elements) [iterable]]

/-- The outcomes of a test, polled until it fails. -/
def polls (test : Term) : Term :=
  call (name "iter") [lambda [] [] (call (name "bool") [test]), bool false]

/-- A loop as long as a condition holds. -/
def whileHolds (test body : Term) : Term :=
  call (lambda [Code.result] [text []]
      (loop "_" (polls test) (and (bind Code.result body) (bool false))))
    []

end Target.Term

/-! ## 2. The syntax tree of a tree -/

namespace Expr

open Target

mutual

/-- The syntax tree of the code of an expression. -/
def term (n : RuntimeNames) : Expr → Term
  | string value => .text value
  | command line name arguments => .commandCall n line (term n name) (terms n arguments)
  | block first rest => .sequence (term n first :: terms n rest)
  | condition negated operands => .test n negated (terms n operands)
  | choice clauses => .chain (clauseTerms n clauses)
  | forEach line iterable body element position =>
    .overElements n line (term n iterable) (term n body) (optionTerm n element)
      (optionTerm n position)
  | whileLoop test body => .whileHolds (term n test) (term n body)

/-- The syntax tree of each of some expressions. -/
def terms (n : RuntimeNames) : List Expr → List Term
  | [] => []
  | e :: es => term n e :: terms n es

/-- The syntax tree of each condition and branch. -/
def clauseTerms (n : RuntimeNames) : List (Expr × Expr) → List (Term × Term)
  | [] => []
  | (c, b) :: rest => (term n c, term n b) :: clauseTerms n rest

/-- The syntax tree of an expression that may be absent. -/
def optionTerm (n : RuntimeNames) : Option Expr → Option Term
  | none => none
  | some e => some (term n e)

end

theorem terms_eq_map (n : RuntimeNames) (es : List Expr) : terms n es = es.map (term n) := by
  induction es with
  | nil => rfl
  | cons e es ih => simp [terms, ih]

theorem clauseTerms_eq_map (n : RuntimeNames) (cs : List (Expr × Expr)) :
    clauseTerms n cs = cs.map fun c => (term n c.1, term n c.2) := by
  induction cs with
  | nil => rfl
  | cons c cs ih => simp [clauseTerms, ih]

theorem optionTerm_eq_map (n : RuntimeNames) (e : Option Expr) :
    optionTerm n e = e.map (term n) := by
  cases e <;> rfl

end Expr

end TemplateTree
