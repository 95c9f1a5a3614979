import TemplateTree.Expr.Code

/-!
# Whether generated code can be parsed

The code of a tree is always well formed, but a parser gives up on it in two cases: its brackets,
with the pair that the module puts around it, nest deeper than `Check.maxDepth`, or a loop stands
inside the condition of a loop, which would rebind a result in the iterable of a comprehension.
`Expr.compile` writes the code of a tree and refuses these two.
-/

namespace TemplateTree

namespace Check

/-! ## 1. Brackets -/

/-- The deepest nesting of brackets that is still parsed. -/
def maxDepth : Nat := 200

/-- The deepest nesting of round and square brackets in a text, outside its double-quoted literals,
    when `depth` brackets are open in front of it. -/
def bracketDepth (quoted : Bool) (depth : Nat) : Text → Nat
  | [] => depth
  | c :: rest =>
    if quoted then
      match c, rest with
      | .scalar '\\', _ :: rest => bracketDepth true depth rest
      | .scalar '"', rest => bracketDepth false depth rest
      | _, rest => bracketDepth true depth rest
    else
      match c with
      | .scalar '"' => bracketDepth true depth rest
      | .scalar '(' => max depth (bracketDepth false (depth + 1) rest)
      | .scalar '[' => max depth (bracketDepth false (depth + 1) rest)
      | .scalar ')' => max depth (bracketDepth false (depth - 1) rest)
      | .scalar ']' => max depth (bracketDepth false (depth - 1) rest)
      | _ => bracketDepth false depth rest

/-- Code between the brackets that the module puts around it. -/
def wrapped (code : Text) : Text := "(\n" ++ code ++ "\n)"

end Check

/-! ## 2. Loops inside conditions of loops -/

namespace Expr

mutual

/-- Whether a loop occurs in a tree. -/
def hasLoop : Expr → Bool
  | string _ => false
  | command _ name arguments => hasLoop name || anyLoop arguments
  | block first rest => hasLoop first || anyLoop rest
  | condition _ operands => anyLoop operands
  | choice clauses => anyClauseLoop clauses
  | forEach .. => true
  | whileLoop .. => true

/-- Whether a loop occurs in one of some trees. -/
def anyLoop : List Expr → Bool
  | [] => false
  | e :: es => hasLoop e || anyLoop es

/-- Whether a loop occurs in a condition or branch. -/
def anyClauseLoop : List (Expr × Expr) → Bool
  | [] => false
  | (c, b) :: rest => hasLoop c || hasLoop b || anyClauseLoop rest

end

mutual

/-- Whether some `whileLoop` of a tree has a loop inside its condition. -/
def loopInCondition : Expr → Bool
  | string _ => false
  | command _ name arguments => loopInCondition name || anyLoopInCondition arguments
  | block first rest => loopInCondition first || anyLoopInCondition rest
  | condition _ operands => anyLoopInCondition operands
  | choice clauses => clauseLoopInCondition clauses
  | forEach _ iterable body element position =>
    loopInCondition iterable || loopInCondition body || optionLoopInCondition element
      || optionLoopInCondition position
  | whileLoop test body => hasLoop test || loopInCondition test || loopInCondition body

/-- Whether one of some trees has a loop inside the condition of a loop. -/
def anyLoopInCondition : List Expr → Bool
  | [] => false
  | e :: es => loopInCondition e || anyLoopInCondition es

/-- Whether a condition or branch has a loop inside the condition of a loop. -/
def clauseLoopInCondition : List (Expr × Expr) → Bool
  | [] => false
  | (c, b) :: rest => loopInCondition c || loopInCondition b || clauseLoopInCondition rest

/-- Whether a tree that may be absent has a loop inside the condition of a loop. -/
def optionLoopInCondition : Option Expr → Bool
  | none => false
  | some e => loopInCondition e

end

/-! ## 3. Compilation -/

/-- The code of a tree, if a parser takes it: the brackets are looked at first. -/
def compile (n : RuntimeNames) (e : Expr) : Except Failure Text := do
  let code ← e.code? n
  if Check.bracketDepth false 0 (Check.wrapped code) > Check.maxDepth then
    throw (.refusal unknownLine .tooManyBrackets)
  if e.loopInCondition then
    throw (.refusal unknownLine .loopInCondition)
  return code

end Expr

end TemplateTree
