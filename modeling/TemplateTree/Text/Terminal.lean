import TemplateTree.Text.Basic

/-!
# Printed texts

A text that is printed and not meant for a terminal loses its control sequences: an escape character,
a bracket, digits with a few marks, and a letter (`Terminal.text`). In error output a lone surrogate
is written by its number (`Terminal.errorText`).
-/

namespace TemplateTree.Terminal

/-- The character that starts a control sequence. -/
def escapeMark : CodePoint := .scalar '\x1b'

/-- The characters between the bracket and the letter of a control sequence. -/
def isParameter : CodePoint → Bool
  | .scalar c => c.isDigit || c == ';' || c == '?'
  | .surrogate _ => false

/-- The letters that end a control sequence. -/
def isFinal : CodePoint → Bool
  | .scalar c => c.isAlpha
  | .surrogate _ => false

/-- The number of characters of a control sequence at the front of what stands behind an escape
    character. -/
def sequenceSize? : Text → Option Nat
  | .scalar '[' :: rest =>
    let parameters := (rest.takeWhile isParameter).length
    match rest.drop parameters with
    | c :: _ => if isFinal c then some (parameters + 2) else none
    | [] => none
  | _ => none

/-- A text without control sequences, behind some characters of one that are still to be skipped. -/
def strip : (skipped : Nat) → Text → Text
  | _, [] => []
  | skipped + 1, _ :: rest => strip skipped rest
  | 0, c :: rest =>
    if c = escapeMark then
      match sequenceSize? rest with
      | some size => strip size rest
      | none => c :: strip 0 rest
    else
      c :: strip 0 rest

/-- A text as it is printed. -/
def text (t : Text) : Text := strip 0 t

/-- A lone surrogate by its number. -/
def surrogateText (n : Fin 0x800) : Text :=
  Text.ofString "\\u" ++ Text.ofChars (Nat.toDigits 16 (0xD800 + n.val))

/-- A text as it is printed among errors. -/
def errorText (t : Text) : Text :=
  (text t).flatMap fun c => match c with
    | .scalar c => [.scalar c]
    | .surrogate n => surrogateText n

end TemplateTree.Terminal
