import TemplateTree.FileSystem
import TemplateTree.Settings.Validation
import TemplateTree.Yaml.Load

/-!
# Settings in a file

Settings are read from a data file whose value is a mapping. A file whose value counts as nothing
(null, false, zero, an empty text or collection) has the default settings.
-/

namespace TemplateTree

/-- Why a file has no settings. -/
inductive LoadError where
  | missing
  | isDirectory
  /-- The path, or a name on it, is too long. -/
  | nameTooLong
  /-- The bytes are no text. -/
  | undecodable
  /-- The text is no data file. -/
  | unparsed
  /-- The value is no mapping. -/
  | notMapping
  /-- A value that the file asks for does not exist. -/
  | badValue (fault : Yaml.Fault)
  /-- Fields of the mapping are not valid. -/
  | invalid (errors : FieldErrors)
deriving DecidableEq, Repr

/-- The wording of a system error about a directory. -/
def directoryMessage (path : Text) : Text := "[Errno 21] Is a directory: " ++ Quoted.text path

/-- The wording of a system error about the length of a path. -/
def lengthMessage (path : Text) : Text := "[Errno 36] File name too long: " ++ Quoted.text path

/-- The wording of the errors of a validation: their number, then place and complaint of each. -/
def invalidMessage (errors : FieldErrors) : Text :=
  Text.unlines
    ((Decimal.ofNat errors.length
        ++ Text.ofString (if errors.length = 1 then " validation error" else " validation errors")
        ++ " for CompilerConfig")
      :: errors.flatMap fun e => [Text.join "." e.place, "  " ++ e.complaint.message])

/-- The wording of an error that a caller is told about, for the file at a path. -/
def LoadError.message? (path : Text) : LoadError → Option Text
  | missing => some ("Config file not found: " ++ path)
  | isDirectory => some (directoryMessage path)
  | nameTooLong => some (lengthMessage path)
  | unparsed => some ("Failed to parse config " ++ path)
  | notMapping => some ("Config " ++ path ++ " must be a mapping at the top level")
  | invalid errors => some (invalidMessage errors)
  | undecodable => none
  | badValue _ => none

namespace Settings

/-- The depth of the fields in a value of settings. -/
def depth : Nat := 3

/-- The settings of the value of a file. -/
def ofFileValue (g : Graph) : Except LoadError Settings :=
  if (g.level g.root).isNothing then
    (Settings.validate (.mapping [])).mapError .invalid
  else
    match g.toValue depth g.root with
    | .mapping entries => (Settings.validate (.mapping entries)).mapError .invalid
    | _ => .error .notMapping

/-- The settings in a file. -/
def load (content : FileContent) : Except LoadError Settings :=
  match content with
  | .missing => .error .missing
  | .directory => .error .isDirectory
  | .nameTooLong => .error .nameTooLong
  | .bytes bs =>
    match Yaml.loadBytes bs with
    | .error .malformed => .error .unparsed
    | .error .undecodable => .error .undecodable
    | .error f => .error (.badValue f)
    | .ok v => ofFileValue v

end Settings

end TemplateTree
