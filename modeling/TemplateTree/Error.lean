import TemplateTree.Number.Decimal
import TemplateTree.Text.Quoted
import TemplateTree.Yaml.Fault

/-!
# Errors of trees and documents

A tree or a document is refused for one of the causes of `Cause`, at the line in force where the
cause was met (`CompileError`). The wording of every cause stands in `Cause.message`.

Three things can stop the work without being an error of the tree: an integer too long to be written
(`Failure.overlongInteger`), a document that contains itself (`Failure.endlessDocument`), and a
value of a data file that does not exist (`Failure.badValue`).
-/

namespace TemplateTree

/-- The line of a tree that was given none. -/
def unknownLine : Int := -1

/-- Why a tree or a document is refused. -/
inductive Cause where
  /-- A command has not even a name. -/
  | emptyCommand
  /-- A block has no items. -/
  | emptyBlock
  /-- A choice has a different number of conditions and branches. -/
  | unevenChoice (conditions branches : Nat)
  /-- A token is neither text nor a sequence; its type is named. -/
  | notToken (type : Text)
  /-- A node is neither text, number, list nor mapping; its type is named. -/
  | notNode (type : Text)
  /-- A `line` is not an integer; the value is shown. -/
  | lineNotInteger (shown : Text)
  /-- A mapping does not have exactly one key that names a kind of node. -/
  | kindNotUnique
  /-- A mapping has keys that its kind does not know, in order. -/
  | unknownKeys (kind : Text) (keys : List Text)
  | commandNotList
  | blockNotList
  | ifNotList
  | clauseNotMapping
  | forWithoutBody
  | whileWithoutBody
  | conditionNotList
  /-- The text of a document cannot be read. -/
  | unreadable
  | emptyDocument
  /-- The brackets of the generated code nest too deep. -/
  | tooManyBrackets
  /-- A loop stands inside the condition of a loop. -/
  | loopInCondition
deriving DecidableEq, Repr

namespace Cause

/-- The wording of a cause. -/
def message : Cause → Text
  | emptyCommand => "empty command cannot be compiled"
  | emptyBlock => "empty block cannot be compiled"
  | unevenChoice n m =>
    "if has " ++ Decimal.ofNat n ++ " conditions but " ++ Decimal.ofNat m ++ " branches"
  | notToken type => "token must be a string or a list, got " ++ type
  | notNode type => "node must be a string, list or mapping, got " ++ type
  | lineNotInteger shown => "'line' must be an integer, got " ++ shown
  | kindNotUnique => "node must have exactly one of command, block, if, for, while"
  | unknownKeys kind keys => "unknown keys for " ++ kind ++ ": " ++ Text.join ", " keys
  | commandNotList => "'command' must be a list of tokens"
  | blockNotList => "'block' must be a list of nodes"
  | ifNotList => "'if' must be a list of when/then clauses"
  | clauseNotMapping => "if clause must be a mapping with 'then'"
  | forWithoutBody => "'for' requires a 'do' body"
  | whileWithoutBody => "'while' requires a 'do' body"
  | conditionNotList => "condition must be a list of tokens"
  | unreadable => "Failed to parse YAML"
  | emptyDocument => "tree document is empty"
  | tooManyBrackets => "generated code cannot be parsed: too many nested parentheses"
  | loopInCondition =>
    "generated code cannot be parsed: assignment expression cannot be used in a "
      ++ "comprehension iterable expression"

end Cause

/-- The text of an error at a line. -/
def atLine (line : Int) (message : Text) : Text :=
  "line " ++ Decimal.ofInt line ++ ": " ++ message

/-- A tree or a document is refused, at the line in force. -/
structure CompileError where
  cause : Cause
  line : Int := unknownLine
deriving DecidableEq, Repr

/-- The text of a refusal. -/
def CompileError.text (e : CompileError) : Text := atLine e.line e.cause.message

/-- What stops the work on a tree or a decoded document. -/
inductive Failure where
  /-- The tree or document is refused. -/
  | refused (error : CompileError)
  /-- An integer has too many digits to be written. -/
  | overlongInteger
  /-- The document contains itself. -/
  | endlessDocument
  /-- A value that the text of a document asks for does not exist. -/
  | badValue (fault : Yaml.Fault)
deriving DecidableEq, Repr

/-- The refusal for a cause at a line. -/
def Failure.refusal (line : Int) (cause : Cause) : Failure := .refused ⟨cause, line⟩

/-! ## The kinds of error a caller can tell apart -/

/-- The kinds of error of this library: the general one and its two refinements. -/
inductive ErrorKind where
  | general
  | compile
  | config
deriving DecidableEq, Repr

namespace ErrorKind

/-- Every kind is an instance of itself and of the general kind. -/
def isA (kind other : ErrorKind) : Bool := other == kind || other == general

/-- What an error of a given kind is made of. A compile error keeps its line apart; for the others a
    line that is given is one more part. -/
def parts (kind : ErrorKind) (line : Option Int) (message : Text) : Text × Option Int :=
  match kind with
  | compile => (message, none)
  | _ => (message, line)

/-- The text of an error of a given kind. A compile error shows its line in front; for the others it is
    the message, or both parts side by side. -/
def text (kind : ErrorKind) (line : Option Int) (message : Text) : Text :=
  match kind, line with
  | compile, line => atLine (line.getD unknownLine) message
  | _, none => message
  | _, some n => "(" ++ Quoted.text message ++ ", " ++ Decimal.ofInt n ++ ")"

end ErrorKind

end TemplateTree
