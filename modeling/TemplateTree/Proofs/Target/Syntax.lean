import TemplateTree.Text.Identifier

/-!
# The expressions that generated code is made of

Generated code stays within a small part of Python: literals, names and attributes, calls, lambdas
that are called where they stand, tuples and indexing, conditional expressions, `not`, `and`, `or`,
comprehensions with a filter, and the binding of a name inside an expression. `Term` is the syntax
tree of an expression of this part, and `Lexeme` what its text is cut into.

Brackets around an expression leave no trace in its tree.
-/

namespace TemplateTree.Target

/-! ## 1. Lexemes -/

/-- A piece of the text of an expression. -/
inductive Lexeme where
  | name (name : Text)
  | number (value : Nat)
  | text (value : Text)
  | lambdaWord
  | ifWord
  | elseWord
  | forWord
  | inWord
  | andWord
  | orWord
  | notWord
  | noneWord
  | trueWord
  | falseWord
  | openRound
  | closeRound
  | openSquare
  | closeSquare
  | comma
  | dot
  | colon
  | equals
  /-- The mark that binds a name inside an expression. -/
  | binds
  | minus
deriving DecidableEq, Repr

/-! ## 2. Syntax trees -/

/-- An expression. -/
inductive Term where
  | none
  | bool (value : Bool)
  | number (value : Nat)
  | text (value : Text)
  | name (name : Text)
  | member (subject : Term) (name : Text)
  | index (subject key : Term)
  | call (function : Term) (arguments : List Term)
  /-- A function of some parameters, the last of which may have defaults. -/
  | lambda (parameters : List Text) (defaults : List Term) (body : Term)
  | tuple (items : List Term)
  | negative (operand : Term)
  | not (operand : Term)
  | and (left right : Term)
  | or (left right : Term)
  | conditional (test yes no : Term)
  /-- The list of an expression, for each value of a variable that passes a filter. -/
  | comprehension (element : Term) (bound : Text) (source filter : Term)
  /-- A name bound to a value, which is the value of the whole. -/
  | bind (name : Text) (value : Term)
deriving Inhabited

namespace Term

/-! ## 3. Bindings in the source of a comprehension

A name may be bound inside an expression, but nowhere in the source of a comprehension: such an
expression is refused before it runs. -/

mutual

/-- Whether a name is bound somewhere in an expression. -/
def hasBinding : Term → Bool
  | none | bool _ | number _ | text _ | name _ => false
  | member subject _ => hasBinding subject
  | index subject key => hasBinding subject || hasBinding key
  | call function arguments => hasBinding function || anyBinding arguments
  | lambda _ defaults body => anyBinding defaults || hasBinding body
  | tuple items => anyBinding items
  | negative operand => hasBinding operand
  | not operand => hasBinding operand
  | and left right => hasBinding left || hasBinding right
  | or left right => hasBinding left || hasBinding right
  | conditional test yes no => hasBinding test || hasBinding yes || hasBinding no
  | comprehension element _ source filter =>
    hasBinding element || hasBinding source || hasBinding filter
  | bind .. => true

/-- Whether a name is bound somewhere in one of some expressions. -/
def anyBinding : List Term → Bool
  | [] => false
  | t :: ts => hasBinding t || anyBinding ts

end

mutual

/-- Whether a name is bound in the source of some comprehension of an expression. -/
def bindsInSource : Term → Bool
  | none | bool _ | number _ | text _ | name _ => false
  | member subject _ => bindsInSource subject
  | index subject key => bindsInSource subject || bindsInSource key
  | call function arguments => bindsInSource function || anyBindsInSource arguments
  | lambda _ defaults body => anyBindsInSource defaults || bindsInSource body
  | tuple items => anyBindsInSource items
  | negative operand => bindsInSource operand
  | not operand => bindsInSource operand
  | and left right => bindsInSource left || bindsInSource right
  | or left right => bindsInSource left || bindsInSource right
  | conditional test yes no => bindsInSource test || bindsInSource yes || bindsInSource no
  | comprehension element _ source filter =>
    bindsInSource element || hasBinding source || bindsInSource source || bindsInSource filter
  | bind _ value => bindsInSource value

/-- Whether one of some expressions binds a name in the source of a comprehension. -/
def anyBindsInSource : List Term → Bool
  | [] => false
  | t :: ts => bindsInSource t || anyBindsInSource ts

end

end Term

end TemplateTree.Target
