import TemplateTree.Value.Basic

/-!
# Settings of a compilation

Generated code reaches its runtime through six names (`RuntimeNames`); the settings add the token
that negates a condition and the name of the function that a rendered module defines. The default
of every name is the name of the thing itself.

The last two can be set without a check (`Settings.assign`), so they may be any value.
-/

namespace TemplateTree

/-- The identifiers through which generated code reaches the runtime. -/
structure RuntimeNames where
  /-- The runtime object, a parameter of the generated function. -/
  runtime : Text := "runtime"
  /-- The command table, an attribute of the runtime. -/
  commands : Text := "commands"
  /-- The test for an empty value. -/
  isEmpty : Text := "is_empty"
  /-- The test that several values are equal. -/
  areAllEqual : Text := "are_all_equal"
  /-- The function that lists the elements of a collection. -/
  elements : Text := "elements"
  /-- The binding of a variable, an attribute of the command table. -/
  assign : Text := "set"
deriving DecidableEq, Repr

namespace RuntimeNames

/-- An attribute of the runtime. -/
def member (n : RuntimeNames) (name : Text) : Text := n.runtime ++ "." ++ name

/-- The command table. -/
def commandTable (n : RuntimeNames) : Text := n.member n.commands

/-- The test for an empty value. -/
def emptyTest (n : RuntimeNames) : Text := n.member n.isEmpty

/-- The test that several values are equal. -/
def equalTest (n : RuntimeNames) : Text := n.member n.areAllEqual

/-- The function that lists the elements of a collection. -/
def elementList (n : RuntimeNames) : Text := n.member n.elements

/-- The binding of a variable. -/
def assignment (n : RuntimeNames) : Text := n.commandTable ++ "." ++ n.assign

end RuntimeNames

/-- What a compilation can be set to. -/
structure Settings where
  names : RuntimeNames := {}
  /-- The leading token that negates a condition. -/
  negationMarker : Value := .ofText "not"
  /-- The name of the function of a rendered module. -/
  entrypoint : Value := .ofText "render"

namespace Settings

/-- The settings with another value of a field, without a check; the names are not one field. What
    starts with an underscore is private, and may be set without any effect. -/
def assign (s : Settings) (field : Text) (value : Value) : Option Settings :=
  if field = Text.ofString "negation_marker" then some { s with negationMarker := value }
  else if field = Text.ofString "entrypoint" then some { s with entrypoint := value }
  else if field.head? = some (.scalar '_') then some s
  else none

end Settings

end TemplateTree
