import TemplateTree.Proofs.Target.Lexer

/-!
# From lexemes to expressions

The lexemes of an expression are read by recursive descent, one function for each level of binding:
a lambda or a conditional expression, `or`, `and`, `not`, a sign, and an operand with the attributes,
indices and calls behind it (`Grammar`). What stands between brackets, and what stands behind an
operator, is read by the rule for a smaller number of steps (`parse`).

`read?` puts the steps together and gives the expression of a text.
-/

namespace TemplateTree.Target

/-! ## 1. The grammar -/

/-- A reader: what it reads, and the lexemes behind. -/
abbrev Reader (α : Type) := List Lexeme → Option (α × List Lexeme)

/-- The levels at which an expression can be asked for. -/
inductive Level where
  /-- A lambda, a conditional expression or a disjunction. -/
  | expression
  | disjunction
  | conjunction
deriving DecidableEq, Repr

namespace Grammar

/-- The items of a list up to the round bracket that closes it; a comma may stand behind the last. -/
def items (item : Reader Term) : Nat → Reader (List Term)
  | 0, _ => none
  | _ + 1, .closeRound :: ls => some ([], ls)
  | k + 1, ls => do
    let (t, ls) ← item ls
    match ls with
    | .comma :: ls => do
      let (ts, ls) ← items item k ls
      return (t :: ts, ls)
    | .closeRound :: ls => return ([t], ls)
    | _ => none

/-- An expression between brackets, which may bind a name. -/
def named (inner : Level → Reader Term) : Reader Term
  | .name x :: .binds :: ls => do
    let (t, ls) ← inner .expression ls
    return (.bind x t, ls)
  | ls => inner .expression ls

/-- What follows an opening round bracket: an expression between brackets or a tuple. -/
def group (inner : Level → Reader Term) (k : Nat) : Reader Term
  | .closeRound :: ls => some (.tuple [], ls)
  | ls => do
    let (t, ls) ← named inner ls
    match ls with
    | .closeRound :: ls => return (t, ls)
    | .comma :: ls => do
      let (ts, ls) ← items (named inner) k ls
      return (.tuple (t :: ts), ls)
    | _ => none

/-- What follows an opening square bracket: a comprehension. -/
def comprehension (inner : Level → Reader Term) : Reader Term := fun ls => do
  let (element, ls) ← inner .expression ls
  match ls with
  | .forWord :: .name x :: .inWord :: ls => do
    let (source, ls) ← inner .disjunction ls
    match ls with
    | .ifWord :: ls => do
      let (filter, ls) ← inner .disjunction ls
      match ls with
      | .closeSquare :: ls => return (.comprehension element x source filter, ls)
      | _ => none
    | _ => none
  | _ => none

/-- An operand without what stands behind it. -/
def atom (inner : Level → Reader Term) (k : Nat) : Reader Term
  | .name x :: ls => some (.name x, ls)
  | .number n :: ls => some (.number n, ls)
  | .text t :: ls => some (.text t, ls)
  | .noneWord :: ls => some (.none, ls)
  | .trueWord :: ls => some (.bool true, ls)
  | .falseWord :: ls => some (.bool false, ls)
  | .openRound :: ls => group inner k ls
  | .openSquare :: ls => comprehension inner ls
  | _ => none

/-- The attributes, indices and calls behind an operand. -/
def trailers (inner : Level → Reader Term) : Nat → Term → Reader Term
  | 0, _, _ => none
  | k + 1, t, .dot :: .name a :: ls => trailers inner k (.member t a) ls
  | k + 1, t, .openSquare :: ls => do
    let (key, ls) ← inner .expression ls
    match ls with
    | .closeSquare :: ls => trailers inner k (.index t key) ls
    | _ => none
  | k + 1, t, .openRound :: ls => do
    let (arguments, ls) ← items (inner .expression) k ls
    trailers inner k (.call t arguments) ls
  | _ + 1, t, ls => some (t, ls)

/-- An operand. -/
def primary (inner : Level → Reader Term) (k : Nat) : Reader Term := fun ls => do
  let (t, ls) ← atom inner k ls
  trailers inner k t ls

/-- An operand behind any number of signs. -/
def signed (inner : Level → Reader Term) (k : Nat) : Reader Term
  | .minus :: ls => do
    let (t, ls) ← signed inner k ls
    return (.negative t, ls)
  | ls => primary inner k ls

/-- A signed operand behind any number of `not`. -/
def inversion (inner : Level → Reader Term) (k : Nat) : Reader Term
  | .notWord :: ls => do
    let (t, ls) ← inversion inner k ls
    return (.not t, ls)
  | ls => signed inner k ls

/-- Inversions between `and`. -/
def conjunction (inner : Level → Reader Term) (k : Nat) : Reader Term := fun ls => do
  let (left, ls) ← inversion inner k ls
  match ls with
  | .andWord :: ls => do
    let (right, ls) ← inner .conjunction ls
    return (.and left right, ls)
  | ls => return (left, ls)

/-- Conjunctions between `or`. -/
def disjunction (inner : Level → Reader Term) (k : Nat) : Reader Term := fun ls => do
  let (left, ls) ← conjunction inner k ls
  match ls with
  | .orWord :: ls => do
    let (right, ls) ← inner .disjunction ls
    return (.or left right, ls)
  | ls => return (left, ls)

/-- The parameters of a lambda and the defaults of the last of them, up to the colon. -/
def parameters (inner : Level → Reader Term) : Nat → Reader (List Text × List Term)
  | 0, _ => none
  | _ + 1, .colon :: ls => some (([], []), ls)
  | k + 1, .name x :: .equals :: ls => do
    let (default, ls) ← inner .expression ls
    match ls with
    | .comma :: ls => do
      let ((xs, defaults), ls) ← parameters inner k ls
      -- Behind a default every parameter has one.
      if xs.length = defaults.length then return ((x :: xs, default :: defaults), ls) else none
    | .colon :: ls => return (([x], [default]), ls)
    | _ => none
  | k + 1, .name x :: .comma :: ls => do
    let ((xs, defaults), ls) ← parameters inner k ls
    return ((x :: xs, defaults), ls)
  | _ + 1, .name x :: .colon :: ls => some (([x], []), ls)
  | _ + 1, _ => none

/-- A lambda, a conditional expression or a disjunction. -/
def expression (inner : Level → Reader Term) (k : Nat) : Reader Term
  | .lambdaWord :: ls => do
    let ((xs, defaults), ls) ← parameters inner k ls
    let (body, ls) ← inner .expression ls
    return (.lambda xs defaults body, ls)
  | ls => do
    let (yes, ls) ← disjunction inner k ls
    match ls with
    | .ifWord :: ls => do
      let (test, ls) ← inner .disjunction ls
      match ls with
      | .elseWord :: ls => do
        let (no, ls) ← inner .expression ls
        return (.conditional test yes no, ls)
      | _ => none
    | ls => return (yes, ls)

/-- An expression of a level, given the rule for what it holds. -/
def level (inner : Level → Reader Term) (k : Nat) : Level → Reader Term
  | .expression => expression inner k
  | .disjunction => disjunction inner k
  | .conjunction => conjunction inner k

end Grammar

/-- An expression of a level. Every level of brackets or operators takes one step of the fuel. -/
def parse : Nat → Level → Reader Term
  | 0, _, _ => none
  | n + 1, l, ls => Grammar.level (parse n) n l ls

/-- The expression of some lexemes. No way down passes more of them than there are, so their number
    is fuel enough. -/
def ofLexemes? (ls : List Lexeme) : Option Term :=
  match parse (ls.length + 1) .expression ls with
  | some (t, []) => some t
  | _ => none

/-- The expression of a text. An expression that binds a name in the source of a comprehension is
    refused. -/
def read? (t : Text) : Option Term := do
  let term ← ofLexemes? (← lexemes? t)
  if term.bindsInSource then none else return term

end TemplateTree.Target
