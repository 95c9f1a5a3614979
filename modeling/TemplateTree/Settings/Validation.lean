import TemplateTree.Settings.Basic
import TemplateTree.Text.Identifier
import TemplateTree.Text.Quoted
import TemplateTree.Value.Basic

/-!
# Validation of settings

Settings are given as a mapping. `Settings.validate` reads it field by field: a field that is
absent takes its default, a field that is given must be a text, and a name must be a name. All
offending fields are reported, each with its place and the first thing that is wrong with it;
keys that name no field are ignored.
-/

namespace TemplateTree

/-! ## 1. What can be wrong -/

/-- What is wrong with a field. -/
inductive Complaint where
  /-- The value is no mapping for the named group of fields. -/
  | notMapping (group : Text)
  /-- The value is no text. -/
  | notText
  /-- The value is made of bytes that are no text. -/
  | notUnicode
  /-- The text is no name. -/
  | notName (value : Text)
  /-- The name of the runtime starts with an underscore, as the variables of loops do. -/
  | underscored (value : Text)
  /-- The entrypoint is no name. -/
  | badEntrypoint (value : Text)
  /-- The group of fields cannot be changed. -/
  | frozen
deriving DecidableEq, Repr

namespace Complaint

/-- The class of a complaint. -/
def type : Complaint → Text
  | notMapping _ => "model_type"
  | notText => "string_type"
  | notUnicode => "string_unicode"
  | notName _ => "value_error"
  | underscored _ => "value_error"
  | badEntrypoint _ => "value_error"
  | frozen => "frozen_instance"

/-- The wording of a complaint. -/
def message : Complaint → Text
  | notMapping group => "Input should be a valid dictionary or instance of " ++ group
  | notText => "Input should be a valid string"
  | notUnicode =>
    "Input should be a valid string, unable to parse raw data as a unicode string"
  | notName value => "Value error, not a valid identifier: " ++ Quoted.text value
  | underscored value =>
    "Value error, runtime name must not start with '_': " ++ Quoted.text value
  | badEntrypoint value =>
    "Value error, entrypoint is not a valid identifier: " ++ Quoted.text value
  | frozen => "Instance is frozen"

end Complaint

/-- A complaint about the field at a place. -/
structure FieldError where
  place : List Text
  complaint : Complaint
deriving DecidableEq, Repr

/-- The errors of a validation, of which there is at least one. -/
abbrev FieldErrors := List FieldError

/-! ## 2. Single fields -/

/-- The result of a field: its value, or what is wrong with it. -/
abbrev Checked := Except Complaint Text

namespace Checked

/-- The text of a value. Bytes that encode a text count as that text. -/
def ofValue : Value → Checked
  | .scalar (.text t) => .ok t
  | .scalar (.bytes bs) =>
    match String.fromUTF8? ⟨bs.toArray⟩ with
    | some s => .ok (Text.ofString s)
    | none => .error .notUnicode
  | _ => .error .notText

/-- A field of a mapping: a default where it is absent, else its text after a further check. -/
def field (entries : Entries Value) (key default : Text) (check : Text → Checked) : Checked :=
  match entries.find? key with
  | none => .ok default
  | some v => do check (← ofValue v)

/-- A text that must be a name. -/
def name (t : Text) : Checked :=
  if Identifier.isName t then .ok t else .error (.notName t)

/-- A text that must be a name for the runtime. -/
def runtimeName (t : Text) : Checked := do
  let t ← name t
  if t.head? = some (.scalar '_') then .error (.underscored t) else .ok t

/-- A text that must be a name for the entrypoint. -/
def entrypoint (t : Text) : Checked :=
  if Identifier.isName t then .ok t else .error (.badEntrypoint t)

/-- The error of a field, if it has one. -/
def errors (place : List Text) : Checked → FieldErrors
  | .ok _ => []
  | .error c => [⟨place, c⟩]

/-- The value of a field that has no error. -/
def get (c : Checked) : Text :=
  match c with
  | .ok t => t
  | .error _ => []

end Checked

/-! ## 3. Groups of fields -/

/-- A value, if there are no errors. -/
def unlessErrors {α : Type} (errors : FieldErrors) (value : α) : Except FieldErrors α :=
  match errors with
  | [] => .ok value
  | errors => .error errors

namespace RuntimeNames

/-- The names in a mapping, or all errors of its fields. -/
def validate (v : Value) : Except FieldErrors RuntimeNames :=
  match v.entries? with
  | none => .error [⟨[], .notMapping "RuntimeNames"⟩]
  | some entries =>
    let defaults : RuntimeNames := {}
    let runtime := Checked.field entries "runtime" defaults.runtime Checked.runtimeName
    let commands := Checked.field entries "commands" defaults.commands Checked.name
    let isEmpty := Checked.field entries "is_empty" defaults.isEmpty Checked.name
    let areAllEqual := Checked.field entries "are_all_equal" defaults.areAllEqual Checked.name
    let elements := Checked.field entries "elements" defaults.elements Checked.name
    let assign := Checked.field entries "set" defaults.assign Checked.name
    unlessErrors
      (runtime.errors ["runtime"] ++ commands.errors ["commands"] ++ isEmpty.errors ["is_empty"]
        ++ areAllEqual.errors ["are_all_equal"] ++ elements.errors ["elements"]
        ++ assign.errors ["set"])
      ⟨runtime.get, commands.get, isEmpty.get, areAllEqual.get, elements.get, assign.get⟩

end RuntimeNames

namespace Settings

/-- The names among the settings, or the errors at their place. -/
def names? (entries : Entries Value) : Except FieldErrors RuntimeNames :=
  match entries.find? "names" with
  | none => .ok {}
  | some v => (RuntimeNames.validate v).mapError fun es =>
      es.map fun e => { e with place := Text.ofString "names" :: e.place }

/-- The settings in a mapping, or all errors of its fields. -/
def validate (v : Value) : Except FieldErrors Settings :=
  match v.entries? with
  | none => .error [⟨[], .notMapping "CompilerConfig"⟩]
  | some entries =>
    let defaults : Settings := {}
    let names := names? entries
    let marker := Checked.field entries "negation_marker" (defaults.negationMarker.text?.getD []) .ok
    let entry := Checked.field entries "entrypoint" (defaults.entrypoint.text?.getD [])
      Checked.entrypoint
    let nameErrors := match names with
      | .ok _ => []
      | .error es => es
    unlessErrors
      (nameErrors ++ marker.errors ["negation_marker"] ++ entry.errors ["entrypoint"])
      ⟨names.toOption.getD {}, .ofText marker.get, .ofText entry.get⟩

end Settings

end TemplateTree
