import TemplateTree.Expr.Basic
import TemplateTree.Proofs.Target.Datum

/-!
# What an expression means

The meaning of a template expression in a given runtime (`Runtime`): which value it has when it is
evaluated in a state, and the state after it. It is put together from what the parts of the
expression mean (`Action`), one piece for each kind of node, and says nothing of the code that is
generated for the expression.
-/

namespace TemplateTree

open Target

/-! ## 1. Runtimes -/

/-- What expressions are evaluated with. Every function takes a state and gives the next one, unless
    it fails; only whether a value counts as true depends on no state. -/
structure Runtime (κ α σ : Type) where
  /-- The command of a name. -/
  lookup : Datum κ α → σ → Option (κ × σ)
  /-- The call of a command from a line. -/
  invoke : κ → Int → List (Datum κ α) → σ → Option (Datum κ α × σ)
  /-- The binding of a variable, from a line; what it gives is dropped. -/
  assign : Int → Datum κ α → Datum κ α → σ → Option (Datum κ α × σ)
  /-- Whether a value is empty. -/
  isEmpty : Datum κ α → σ → Option (Bool × σ)
  /-- Whether several values are equal. -/
  areAllEqual : List (Datum κ α) → σ → Option (Bool × σ)
  /-- The elements of a collection. -/
  elements : Datum κ α → σ → Option (List (Datum κ α) × σ)
  /-- Whether an object counts as true. -/
  truth : α → Bool

/-- Whether values pass a test that is not negated: no value does, one has to be there, several have
    to be equal. -/
def Runtime.holds {κ α σ : Type} (R : Runtime κ α σ) (vs : List (Datum κ α)) (s : σ) :
    Option (Bool × σ) :=
  match vs with
  | [] => some (true, s)
  | [v] => (R.isEmpty v s).map fun r => (!r.1, r.2)
  | vs => R.areAllEqual vs s

/-- What takes a state to a value and a next state. -/
abbrev Action (κ α σ : Type) := σ → Datum κ α → σ → Prop

/-! ## 2. The pieces of a meaning -/

namespace Action

variable {κ α σ : Type} (R : Runtime κ α σ)

/-- The action that has a value and changes nothing. -/
def Pure (v : Datum κ α) : Action κ α σ := fun s w s' => w = v ∧ s' = s

/-- The values of some actions, one after another. -/
def All : List (Action κ α σ) → σ → List (Datum κ α) → σ → Prop
  | [], s, vs, s' => vs = [] ∧ s' = s
  | A :: As, s, vs, s' => ∃ v s₁ ws, A s v s₁ ∧ All As s₁ ws s' ∧ vs = v :: ws

/-- The call of a command: its name comes first, then its arguments, then the command itself. -/
def Command (line : Int) (name : Action κ α σ) (arguments : List (Action κ α σ)) : Action κ α σ :=
  fun s w s' => ∃ v s₁ c s₂ vs s₃, name s v s₁ ∧ R.lookup v s₁ = some (c, s₂) ∧
    All arguments s₂ vs s₃ ∧ R.invoke c line vs s₃ = some (w, s')

/-- Some actions one after another; the value is that of the last one. -/
def Sequence (items : List (Action κ α σ)) : Action κ α σ :=
  fun s w s' => ∃ vs, All items s vs s' ∧ vs.getLast? = some w

/-- A test of operands, which are all evaluated first. -/
def Test (negated : Bool) (operands : List (Action κ α σ)) : Action κ α σ :=
  fun s w s' => ∃ vs s₁ b, All operands s vs s₁ ∧ R.holds vs s₁ = some (b, s') ∧
    w = .bool (b != negated)

/-- The branch of the first condition that holds; conditions behind it are not evaluated. -/
def First : List (Action κ α σ × Action κ α σ) → Action κ α σ
  | [] => Pure .none
  | (test, branch) :: rest => fun s w s' => ∃ v s₁, test s v s₁ ∧
    if v.truthy R.truth then branch s₁ w s' else First rest s₁ w s'

/-- The binding of a variable, where there is one. -/
def Bind (line : Int) (name? : Option (Action κ α σ)) (v : Datum κ α) (s s' : σ) : Prop :=
  match name? with
  | none => s' = s
  | some name => ∃ x s₁ r, name s x s₁ ∧ R.assign line x v s₁ = some (r, s')

/-- One turn of a loop over a collection: the position is bound first, then the element. -/
def Turn (line : Int) (body : Action κ α σ) (element? position? : Option (Action κ α σ)) (i : Nat)
    (x : Datum κ α) : Action κ α σ :=
  fun s w s' => ∃ s₁ s₂, Bind R line position? (.int i) s s₁ ∧ Bind R line element? x s₁ s₂ ∧
    body s₂ w s'

/-- A loop over elements from a position on; the value is that of the last turn, or what there was
    before. -/
def Turns (turn : Nat → Datum κ α → Action κ α σ) :
    Nat → List (Datum κ α) → Datum κ α → Action κ α σ
  | _, [], result => Pure result
  | i, x :: xs, _ => fun s w s' => ∃ v s₁, turn i x s v s₁ ∧ Turns turn (i + 1) xs v s₁ w s'

/-- A loop over the elements of a collection. -/
def Each (iterable : Action κ α σ) (turn : Nat → Datum κ α → Action κ α σ) : Action κ α σ :=
  fun s w s' => ∃ v s₁ xs s₂, iterable s v s₁ ∧ R.elements v s₁ = some (xs, s₂) ∧
    Turns turn 0 xs (.text []) s₂ w s'

/-- A loop as long as a condition holds; the value is that of the last turn, or what there was
    before. -/
inductive While (test body : Action κ α σ) : Datum κ α → Action κ α σ where
  | stop {result c : Datum κ α} {s s₁ : σ} : test s c s₁ → c.truthy R.truth = false →
      While test body result s result s₁
  | turn {result c v w : Datum κ α} {s s₁ s₂ s' : σ} : test s c s₁ → c.truthy R.truth = true →
      body s₁ v s₂ → While test body v s₂ w s' → While test body result s w s'

end Action

/-! ## 3. The meaning of a tree -/

namespace Expr

variable {κ α σ : Type} (R : Runtime κ α σ)

mutual

/-- **What an expression means**: the values that it has, and the states after it. -/
def Means : Expr → Action κ α σ
  | string value => Action.Pure (.text value)
  | command line name arguments => Action.Command R line (Means name) (meanings arguments)
  | block first rest => Action.Sequence (Means first :: meanings rest)
  | condition negated operands => Action.Test R negated (meanings operands)
  | choice clauses => Action.First R (clauseMeanings clauses)
  | forEach line iterable body element position =>
    Action.Each R (Means iterable)
      (Action.Turn R line (Means body) (optionMeaning element) (optionMeaning position))
  | whileLoop test body => Action.While R (Means test) (Means body) (.text [])

/-- The meaning of each of some expressions. -/
def meanings : List Expr → List (Action κ α σ)
  | [] => []
  | e :: es => Means e :: meanings es

/-- The meaning of each condition and branch. -/
def clauseMeanings : List (Expr × Expr) → List (Action κ α σ × Action κ α σ)
  | [] => []
  | (c, b) :: rest => (Means c, Means b) :: clauseMeanings rest

/-- The meaning of an expression that may be absent. -/
def optionMeaning : Option Expr → Option (Action κ α σ)
  | none => none
  | some e => some (Means e)

end

end Expr

end TemplateTree
