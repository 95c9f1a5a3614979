import TemplateTree.Document.Parse
import TemplateTree.Module
import TemplateTree.Settings.Validation

/-!
# Sessions

A session shares one value of the settings between parsing and compiling, and keeps the tree and the
template of the last step that made one. A step that fails changes nothing (`Session.step`).
-/

namespace TemplateTree

/-- What a session keeps. -/
structure Session where
  settings : Settings := {}
  tree : Option Expr := none
  template : Option Template := none

namespace Session

/-! ## 1. Steps and replies -/

/-- A step of a session. -/
inductive Step where
  /-- Sets a field of the settings, without a check. -/
  | set (field : Text) (value : Value)
  /-- Sets all names. -/
  | setNames (names : Value)
  /-- Sets one of the names, which cannot be changed one by one. -/
  | setName (field : Text)
  /-- Reads a tree. -/
  | parse (text : Value)
  /-- Compiles the tree. -/
  | compile (source : Value)
  /-- Changes a field of the template. -/
  | edit (field : Text) (value : Value)
  /-- Renders the template. -/
  | render
  /-- Changes the tree, which cannot be changed. -/
  | mutateTree

/-- Why a step fails. -/
inductive StepError where
  | failure (f : Failure)
  /-- What is to be read is no text. -/
  | notText
  | unrendered (f : Template.RenderFault)
  | invalid (errors : FieldErrors)
  | unknownSetting
  /-- The names are set to a value, which has no names. -/
  | noNames
  | frozenTree
  /-- There is no tree or template yet. -/
  | nothingThere

/-- What a step answers. -/
inductive Reply where
  | settings (s : Settings)
  | tree (e : Expr)
  | template (t : Template)
  | module (text : Text)

/-! ## 2. Running -/

/-- Something that must be there by now. -/
def current {α : Type} : Option α → Except StepError α
  | some a => .ok a
  | none => .error .nothingThere

/-- The session after a step, and the reply. -/
def apply (s : Session) : Step → Except StepError (Session × Reply)
  | .set field value => do
    if field = Text.ofString "names" then
      throw .noNames
    match s.settings.assign field value with
    | some settings => return ({ s with settings }, .settings settings)
    | none => throw .unknownSetting
  | .setNames v => do
    let names ← (RuntimeNames.validate v).mapError .invalid
    let settings := { s.settings with names }
    return ({ s with settings }, .settings settings)
  | .setName field => .error (.invalid [⟨[field], .frozen⟩])
  | .parse source => do
    let some text := source.text? | throw .notText
    let tree ← (Document.parse s.settings text).mapError .failure
    return ({ s with tree := some tree }, .tree tree)
  | .compile source => do
    let tree ← current s.tree
    let template ← (Template.compile s.settings tree source).mapError .failure
    return ({ s with template := some template }, .template template)
  | .edit field value => do
    let template ← current s.template
    let template := match Template.Field.ofName? field with
      | some f => template.assign f value
      | none => template
    return ({ s with template := some template }, .template template)
  | .render => do
    let template ← current s.template
    return (s, .module (← template.render.mapError .unrendered))
  | .mutateTree => .error .frozenTree

/-- The session after a step, and what it answers: a step that fails changes nothing. -/
def step (s : Session) (x : Step) : Session × Except StepError Reply :=
  match s.apply x with
  | .ok (s', reply) => (s', .ok reply)
  | .error e => (s, .error e)

/-- The answers of some steps one after another. -/
def run (s : Session) : List Step → List (Except StepError Reply)
  | [] => []
  | x :: xs =>
    let (s', reply) := s.step x
    reply :: run s' xs

end Session

end TemplateTree
