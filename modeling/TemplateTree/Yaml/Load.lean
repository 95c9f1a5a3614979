import TemplateTree.Yaml.Decode

/-!
# Reading a data file

`Yaml.load` reads the text of a data file, `Yaml.loadBytes` the bytes of one: a stream of characters
is cut into lexemes, put together to nodes, and decoded. A stream without a document has the value
null.
-/

namespace TemplateTree.Yaml

/-- The value of a stream. -/
def loadStream (s : Stream) : Except Fault Graph :=
  if s.chars.isEmpty && s.fault?.isSome then
    .error (s.fault?.getD .malformed)
  else do
    match ← Nodes.ofLexemes (Lexemes.ofStream s) with
    | none => return .ofScalar .null
    | some nodes => nodes.decode

/-- The value of a text. A lone surrogate cannot be read. -/
def load (t : Text) : Except Fault Graph :=
  match t.chars? with
  | some cs => loadStream (.ofChars cs)
  | none => .error .malformed

/-- The value of the bytes of a file. -/
def loadBytes (bytes : List UInt8) : Except Fault Graph := loadStream (.ofBytes bytes)

end TemplateTree.Yaml
