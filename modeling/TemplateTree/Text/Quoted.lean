import TemplateTree.Text.Literal
import TemplateTree.Text.PrintableTable

/-!
# Texts and bytes as they are shown

A text that is shown to a reader stands between quotes: between apostrophes, unless it holds an
apostrophe and no quotation mark. The quote and the backslash are escaped, tab, line feed and
carriage return by a letter, and whatever is not printable by its number in the shortest of three
forms. Bytes are shown the same way, each as a character of its number below `0x7F`.
-/

namespace TemplateTree.Quoted

/-- The quote of a text: an apostrophe, or a quotation mark around apostrophes. -/
def quoteFor (codes : List Nat) : Char :=
  if codes.contains '\''.toNat && !codes.contains '"'.toNat then '"' else '\''

/-- A code point shown by its number. -/
def byNumber (n : Nat) : List Char :=
  if n ≤ 0xFF then
    ['\\', 'x'] ++ Literal.hex2 n
  else if n ≤ 0xFFFF then
    ['\\', 'u'] ++ Literal.hex4 n
  else
    ['\\', 'U'] ++ Literal.hex4 (n / 0x10000) ++ Literal.hex4 n

/-- The escapes that texts and bytes share. -/
def shared? (quote c : Char) : Option (List Char) :=
  if c = quote || c = '\\' then some ['\\', c]
  else if c = '\t' then some ['\\', 't']
  else if c = '\n' then some ['\\', 'n']
  else if c = '\r' then some ['\\', 'r']
  else none

/-- A code point as a quoted text shows it. -/
def point (quote : Char) (c : CodePoint) : List Char :=
  match c with
  | .scalar ch =>
    (shared? quote ch).getD (if c.inRanges Printable.hiddenRanges then byNumber c.val else [ch])
  | .surrogate _ => byNumber c.val

/-- A text between quotes. -/
def text (t : Text) : Text :=
  let quote := quoteFor (t.map CodePoint.val)
  Text.ofChars (quote :: t.flatMap (point quote) ++ [quote])

/-- A byte as quoted bytes show it. -/
def byte (quote : Char) (b : UInt8) : List Char :=
  let n := b.toNat
  (shared? quote (Char.ofNat n)).getD
    (if 0x20 ≤ n && n < 0x7F then [Char.ofNat n] else byNumber n)

/-- Bytes between quotes, behind the mark of bytes. -/
def bytes (bs : List UInt8) : Text :=
  let quote := quoteFor (bs.map UInt8.toNat)
  Text.ofChars ('b' :: quote :: bs.flatMap (byte quote) ++ [quote])

end TemplateTree.Quoted
