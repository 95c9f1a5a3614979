import TemplateTree.Text.Basic

/-!
# Double-quoted string literals

A text is written in generated code as one double-quoted literal. The quote, the backslash and the
control characters below `U+0020` are escaped, the common ones by a letter; a lone surrogate, which
no source file can hold, is escaped by its number; every other code point stands for itself.
-/

namespace TemplateTree.Literal

/-- The lower case hexadecimal digit of a number below sixteen. -/
def hexDigit (n : Nat) : Char := Nat.digitChar (n % 16)

/-- The last two hexadecimal digits of a number. -/
def hex2 (n : Nat) : List Char := [hexDigit (n / 16), hexDigit n]

/-- The last four hexadecimal digits of a number. -/
def hex4 (n : Nat) : List Char := hex2 (n / 256) ++ hex2 n

/-- The written form of a code point inside a literal. -/
def escape : CodePoint → List Char
  | .scalar '"' => ['\\', '"']
  | .scalar '\\' => ['\\', '\\']
  | .scalar '\n' => ['\\', 'n']
  | .scalar '\r' => ['\\', 'r']
  | .scalar '\t' => ['\\', 't']
  | .scalar '\x08' => ['\\', 'b']
  | .scalar '\x0c' => ['\\', 'f']
  | .scalar c => if c.toNat < 0x20 then ['\\', 'u'] ++ hex4 c.toNat else [c]
  | .surrogate n => ['\\', 'u'] ++ hex4 (0xD800 + n.val)

/-- The characters between the quotes of the literal of a text. -/
def body (t : Text) : List Char := t.flatMap escape

/-- The literal of a text. -/
def encode (t : Text) : Text := Text.ofChars ('"' :: body t ++ ['"'])

end TemplateTree.Literal
