import TemplateTree.Expr.Basic

/-!
# Tokens of a command

A command is written as a sequence of tokens: a text is a literal, a sequence is a command again,
and a prepared expression stands for itself. Tokens are classified depth first from left to right,
and the first empty sequence or value that is no token is refused, at the line of the command.

The rule is given once, for everything that can be looked at as tokens (`Tokens.expr`): what is seen
in the place of a token is a `TokenLevel`. A `Token` is a tree of them.
-/

namespace TemplateTree

/-! ## 1. What stands in the place of a token -/

/-- What is seen in the place of a token, of which `α` are the members of a sequence. -/
inductive TokenLevel (α : Type) where
  /-- A literal text. -/
  | text (value : Text)
  /-- A command in tokens. -/
  | sequence (members : List α)
  /-- A prepared expression. -/
  | prepared (expr : Expr)
  /-- A value that is no token, by the name of its type. -/
  | other (type : Text)

namespace Tokens

variable {α : Type}

/-- The command of the classified tokens of a sequence: its name and its arguments. -/
def commandOf (line : Int) : List Expr → Except Failure Expr
  | [] => .error (.refusal line .emptyCommand)
  | name :: arguments => .ok (.command line name arguments)

/-- The expression of a token. Every level of tokens takes one step of the fuel. -/
def expr (look : α → TokenLevel α) : Nat → (line : Int) → α → Except Failure Expr
  | 0, _, _ => .error .endlessDocument
  | depth + 1, line, t =>
    match look t with
    | .text value => .ok (.string value)
    | .prepared e => .ok e
    | .other type => .error (.refusal line (.notToken type))
    | .sequence members => do commandOf line (← members.mapM (expr look depth line))

/-- The command of a sequence of tokens. -/
def command (look : α → TokenLevel α) (depth : Nat) (line : Int) (tokens : List α) :
    Except Failure Expr := do
  commandOf line (← tokens.mapM (expr look depth line))

/-- The condition of a sequence of tokens. A leading token that is the marker negates it. -/
def condition (look : α → TokenLevel α) (depth : Nat) (isMarker : α → Bool) (line : Int)
    (tokens : List α) : Except Failure Expr :=
  match tokens with
  | [] => .ok (.condition false [])
  | first :: rest =>
    if isMarker first then
      return .condition true (← rest.mapM (expr look depth line))
    else
      return .condition false (← tokens.mapM (expr look depth line))

end Tokens

/-! ## 2. Trees of tokens -/

/-- A token, or a value in the place of one. -/
inductive Token where
  | text (value : Text)
  | sequence (members : List Token)
  | prepared (expr : Expr)
  | other (type : Text)
deriving Inhabited

namespace Token

/-- What is seen at a token. -/
def level : Token → TokenLevel Token
  | text value => .text value
  | sequence members => .sequence members
  | prepared e => .prepared e
  | other type => .other type

mutual

/-- The number of levels of a token. -/
def height : Token → Nat
  | sequence members => heights members + 1
  | _ => 1

/-- The greatest number of levels of some tokens. -/
def heights : List Token → Nat
  | [] => 0
  | t :: ts => max (height t) (heights ts)

end

/-- The members of a token that stands for a sequence; a text is the sequence of its characters. -/
def members? : Token → Option (List Token)
  | text value => some (value.map fun c => text [c])
  | sequence members => some members
  | _ => none

/-- The expression of a token. -/
def expr (line : Int) (t : Token) : Except Failure Expr := Tokens.expr level t.height line t

/-- The command of a sequence of tokens. -/
def command (line : Int) (tokens : List Token) : Except Failure Expr :=
  Tokens.command level (heights tokens) line tokens

/-- Whether a token is a given text. -/
def isText (value : Text) : Token → Bool
  | text t => t == value
  | _ => false

/-- The condition of a sequence of tokens. -/
def condition (marker : Text) (line : Int) (tokens : List Token) : Except Failure Expr :=
  Tokens.condition level (heights tokens) (isText marker) line tokens

end Token

end TemplateTree
