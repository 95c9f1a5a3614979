import TemplateTree.Document.Build
import TemplateTree.Settings.Basic
import TemplateTree.Yaml.Load

/-!
# Trees of document texts

The text of a document is read as a data file and its value is built. A text that is no data file is
refused; so is one without a value.
-/

namespace TemplateTree.Document

/-- The wording of the error that what is to be read is no text. -/
def notTextMessage : Text := "`source` must be a string containing YAML"

/-- The value of the text of a document. -/
def read (t : Text) : Except Failure Graph :=
  match Yaml.load t with
  | .ok g => .ok g
  | .error .malformed => .error (.refusal unknownLine .unreadable)
  | .error f => .error (.badValue f)

/-- The tree of the text of a document. -/
def parse (s : Settings) (t : Text) : Except Failure Expr := do
  let g ← read t
  match g.level g.root with
  | .scalar .null => throw (.refusal unknownLine .emptyDocument)
  | _ => tree g.view s.negationMarker unknownLine g.root

end TemplateTree.Document
