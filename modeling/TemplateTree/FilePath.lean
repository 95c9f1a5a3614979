import TemplateTree.Text.Basic

/-!
# Paths

A path is a sequence of names, possibly from a root. Repeated slashes and names that stand for the
directory itself do not count; the name of the directory above stays. Only in front, exactly two
slashes are told apart from one. The empty path is the current directory (`FilePath.text`).
-/

namespace TemplateTree

/-- Where a path starts. -/
inductive PathRoot where
  /-- At the current directory. -/
  | none
  /-- At the root, written with one slash. -/
  | single
  /-- At the root, written with two slashes. -/
  | double
deriving DecidableEq, Repr

/-- The root as it is written. -/
def PathRoot.text : PathRoot → Text
  | none => []
  | single => "/"
  | double => "//"

/-- A path to a file or directory. -/
structure FilePath where
  root : PathRoot := .none
  names : List Text
deriving DecidableEq, Repr

namespace FilePath

/-- Whether a path starts at the root. -/
def isAbsolute (p : FilePath) : Bool := p.root != .none

/-- The name of the directory above. -/
def up : Text := ".."

/-- The pieces of a text between its slashes. -/
def pieces : Text → List Text
  | [] => [[]]
  | c :: rest =>
    if c = .scalar '/' then
      [] :: pieces rest
    else
      match pieces rest with
      | [] => [[c]]
      | p :: ps => (c :: p) :: ps

/-- The root that a text starts with: any number of slashes but two counts as one. -/
def rootOf (t : Text) : PathRoot :=
  match (t.takeWhile (· == .scalar '/')).length with
  | 0 => .none
  | 2 => .double
  | _ => .single

/-- The path of a text. -/
def ofText (t : Text) : FilePath :=
  ⟨rootOf t, (pieces t).filter fun p => p ≠ [] ∧ p ≠ Text.ofString "."⟩

/-- The text of a path. -/
def text (p : FilePath) : Text :=
  match p.root, p.names with
  | .none, [] => "."
  | root, names => root.text ++ Text.join "/" names

/-- Whether a character can stand in a path. A lone surrogate can where it stands for a byte that is
    no text. -/
def canStand : CodePoint → Bool
  | .scalar c => c != '\x00'
  | .surrogate n => 0x480 ≤ n.val && n.val < 0x500

/-- Whether a system could know a path. -/
def isEncodable (p : FilePath) : Bool := p.names.all fun name => name.all canStand

/-- The path of the directory that a path lies in. -/
def parent (p : FilePath) : FilePath := { p with names := p.names.dropLast }

end FilePath

end TemplateTree
