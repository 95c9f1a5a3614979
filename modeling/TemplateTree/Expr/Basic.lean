import TemplateTree.Error

/-!
# Template expressions

A template is an expression tree with seven kinds of node. The two invariants of a tree are in its
type: a block has a first item, and a choice pairs each condition with its branch. Trees that come
as separate lists are checked by `Expr.block?` and `Expr.choice?`.
-/

namespace TemplateTree

/-- A template expression. -/
inductive Expr where
  /-- A literal text. -/
  | string (value : Text)
  /-- A call of the command `name` of the runtime. -/
  | command (line : Int) (name : Expr) (arguments : List Expr)
  /-- Expressions one after another; the value is that of the last one. -/
  | block (first : Expr) (rest : List Expr)
  /-- A test: one operand for presence, several for equality. -/
  | condition (negated : Bool) (operands : List Expr)
  /-- Guarded branches, each condition beside its branch; the first true condition wins. -/
  | choice (clauses : List (Expr × Expr))
  /-- A loop over the elements of a collection; position and element may be bound to variables. -/
  | forEach (line : Int) (iterable body : Expr) (element position : Option Expr)
  /-- A loop as long as a condition holds. -/
  | whileLoop (condition body : Expr)
deriving Inhabited

namespace Expr

/-! ## 1. Checked construction -/

/-- The block of a list of items, which must not be empty. -/
def block? (line : Int) : List Expr → Except Failure Expr
  | [] => .error (.refusal line .emptyBlock)
  | first :: rest => .ok (.block first rest)

/-- The choice of as many conditions as branches. -/
def choice? (conditions branches : List Expr) : Except Failure Expr :=
  if conditions.length = branches.length then
    .ok (.choice (conditions.zip branches))
  else
    .error (.refusal unknownLine (.unevenChoice conditions.length branches.length))

/-! ## 2. Equality -/

mutual

/-- Whether two trees are the same. -/
def same : Expr → Expr → Bool
  | string v, string w => v == w
  | command l n as, command l' n' as' => l == l' && same n n' && sameList as as'
  | block f r, block f' r' => same f f' && sameList r r'
  | condition n os, condition n' os' => n == n' && sameList os os'
  | choice cs, choice cs' => sameClauses cs cs'
  | forEach l i b e p, forEach l' i' b' e' p' =>
    l == l' && same i i' && same b b' && sameOption e e' && sameOption p p'
  | whileLoop c b, whileLoop c' b' => same c c' && same b b'
  | _, _ => false

/-- Whether two lists of trees are the same. -/
def sameList : List Expr → List Expr → Bool
  | [], [] => true
  | a :: as, b :: bs => same a b && sameList as bs
  | _, _ => false

/-- Whether two lists of clauses are the same. -/
def sameClauses : List (Expr × Expr) → List (Expr × Expr) → Bool
  | [], [] => true
  | (c, b) :: as, (c', b') :: bs => same c c' && same b b' && sameClauses as bs
  | _, _ => false

/-- Whether two optional trees are the same. -/
def sameOption : Option Expr → Option Expr → Bool
  | none, none => true
  | some a, some b => same a b
  | _, _ => false

end

/-! ## 3. The name of a node's kind -/

/-- The name of the kind of a node. -/
def kindName : Expr → Text
  | string .. => "String"
  | command .. => "Command"
  | block .. => "Block"
  | condition .. => "Condition"
  | choice .. => "If"
  | forEach .. => "For"
  | whileLoop .. => "While"

end Expr

end TemplateTree
