import TemplateTree.Text.Basic
import TemplateTree.Text.IdentifierTable

/-!
# Names of variables

A name is an identifier that is not reserved: its first code point may start an identifier, every
later one may stand in one, and the whole is none of the keywords of the generated language.
-/

namespace TemplateTree.Identifier

/-- Whether an identifier may start with a code point. -/
def isStart (c : CodePoint) : Bool := c.inRanges startRanges

/-- Whether a code point may stand in an identifier. -/
def isContinue (c : CodePoint) : Bool := isStart c || c.inRanges continueRanges

/-- Whether a text is an identifier. -/
def isIdentifier : Text → Bool
  | [] => false
  | c :: rest => isStart c && rest.all isContinue

/-- The reserved words of the generated language. -/
def keywords : List Text :=
  (["False", "None", "True", "and", "as", "assert", "async", "await", "break", "class", "continue",
    "def", "del", "elif", "else", "except", "finally", "for", "from", "global", "if", "import",
    "in", "is", "lambda", "nonlocal", "not", "or", "pass", "raise", "return", "try", "while",
    "with", "yield"] : List String).map Text.ofString

/-- Whether a text can be used as the name of a variable. -/
def isName (t : Text) : Bool := isIdentifier t && !keywords.contains t

end TemplateTree.Identifier
