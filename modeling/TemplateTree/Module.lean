import TemplateTree.Expr.Check
import TemplateTree.Value.Display

/-!
# Modules around expressions

A compiled template is an expression with what the module around it needs (`Template`). The module
is a docstring that names the generator and the source, and one function that returns the
expression.

The fields of a template can be set one by one without a check, to any value. A value that is no text
is shown as text, except where the expression must be laid out (`Template.render`).
-/

namespace TemplateTree

/-- A compiled template. -/
structure Template where
  /-- The code of the expression. -/
  expression : Value
  /-- The parameter that the expression refers to. -/
  runtime : Value := .ofText "runtime"
  /-- The name of the function. -/
  entrypoint : Value := .ofText "render"
  /-- A label of where the tree came from, if there is one. -/
  source : Value := .null
  /-- The first line of the docstring. -/
  header : Value := .ofText "Generated by tplc. Do not edit."

namespace Template

/-! ## 1. Templates of trees -/

/-- The template of a compiled expression. -/
def ofCode (s : Settings) (code : Text) (source : Value) : Template :=
  { expression := .ofText code
    runtime := .ofText s.names.runtime
    entrypoint := s.entrypoint
    source }

/-- The template of a tree. -/
def compile (s : Settings) (e : Expr) (source : Value) : Except Failure Template := do
  return ofCode s (← e.compile s.names) source

/-! ## 2. Fields by name -/

/-- The fields of a template. -/
inductive Field where
  | expression
  | runtime
  | entrypoint
  | source
  | header
deriving DecidableEq, Repr

/-- The field with a name. -/
def Field.ofName? (name : Text) : Option Field :=
  let fields : List (String × Field) := [
    ("expression", .expression), ("runtime", .runtime), ("entrypoint", .entrypoint),
    ("source", .source), ("header", .header)]
  (fields.find? fun f => Text.ofString f.1 = name).map Prod.snd

/-- The template with another value of a field. -/
def assign (t : Template) (field : Field) (value : Value) : Template :=
  match field with
  | .expression => { t with expression := value }
  | .runtime => { t with runtime := value }
  | .entrypoint => { t with entrypoint := value }
  | .source => { t with source := value }
  | .header => { t with header := value }

/-- Why fields do not make a template. -/
inductive FieldFault where
  | unknownField (name : Text)
  /-- A field has the name of the template itself. -/
  | templateItself
  | noExpression
deriving DecidableEq, Repr

/-- The wording of what is wrong with fields. -/
def FieldFault.message : FieldFault → Text
  | unknownField name =>
    "CompiledTemplate.__init__() got an unexpected keyword argument '" ++ name ++ "'"
  | templateItself => "CompiledTemplate.__init__() got multiple values for argument 'self'"
  | noExpression =>
    "CompiledTemplate.__init__() missing 1 required positional argument: 'expression'"

/-- The field with a name, or what is wrong with the name. -/
def Field.ofName (name : Text) : Except FieldFault Field :=
  match Field.ofName? name with
  | some field => .ok field
  | none =>
    if name = Text.ofString "self" then .error .templateItself else .error (.unknownField name)

/-- The template with given fields, of which the expression must be one. -/
def ofFields (fields : List (Text × Value)) : Except FieldFault Template := do
  let known ← fields.mapM fun f => do return (← Field.ofName f.1, f.2)
  if known.any fun f => f.1 = .expression then
    return known.foldl (fun t f => t.assign f.1 f.2) { expression := .null }
  else
    throw .noExpression

/-! ## 3. The text of a module -/

/-- The margin of the expression. -/
def margin : Text := "        "

/-- The text of a module in front of the expression, given the texts of the header, the line that
    names the source, the entrypoint and the runtime. -/
def opening (header sourceLine entrypoint runtime : Text) : Text :=
  "\"\"\"" ++ header ++ "\n" ++ sourceLine ++ "\"\"\"\n\n\ndef " ++ entrypoint ++ "("
    ++ runtime ++ "):\n    return (\n"

/-- The text of a module behind the expression. -/
def closing : Text := "\n    )\n"

/-- Why a template has no module. -/
inductive RenderFault where
  /-- The expression is no text; its type is named. -/
  | notText (type : Text)
  /-- A field has an integer of too many digits. -/
  | overlongInteger
deriving DecidableEq, Repr

/-- The wording of what a caller is told. A list is taken for a text of lines, and told about by
    nobody. -/
def RenderFault.message? : RenderFault → Option Text
  | notText type =>
    if type = Text.ofString "list" then none
    else some ("unsupported operand type(s) for +=: '" ++ type ++ "' and 'str'")
  | overlongInteger => none

/-- The text of a field. -/
def fieldText (v : Value) : Except RenderFault Text :=
  match v.plain with
  | some t => .ok t
  | none => .error .overlongInteger

/-- The line of the docstring that names the source; a label that counts as nothing is not named. -/
def sourceLine (source : Value) : Except RenderFault Text :=
  if source.isNothing then .ok [] else do return "Source: " ++ (← fieldText source) ++ "\n"

/-- The text of the expression, which must be one. -/
def code (t : Template) : Except RenderFault Text :=
  match t.expression.text? with
  | some code => .ok code
  | none => .error (.notText t.expression.typeName)

/-- The module of a template. -/
def render (t : Template) : Except RenderFault Text := do
  let opening := opening (← fieldText t.header) (← sourceLine t.source) (← fieldText t.entrypoint)
    (← fieldText t.runtime)
  return opening ++ (← t.code).hang margin ++ closing

end Template

end TemplateTree
