import TemplateTree.Text.Lines
import TemplateTree.Yaml.Character

/-!
# Streams of characters

A data file is read from a text, or from the bytes of a file. A text is looked through for characters
that a data file may not hold before anything is read (`Stream.ofChars`). The bytes of a file are
decoded and looked through piece by piece, while they are read (`Stream.ofBytes`): what is wrong with
a piece does not show before all that is in front of it has been read. The first two pieces are taken
together.
-/

namespace TemplateTree.Yaml

/-- The characters that can be read, and the fault that is met behind them. -/
structure Stream where
  chars : List Char
  fault? : Option Fault := none

namespace Stream

/-- The stream of a text. -/
def ofChars (cs : List Char) : Stream :=
  if cs.all isPrintable then ⟨cs, none⟩ else ⟨[], some .malformed⟩

/-! ## 1. Pieces -/

/-- The number of characters of a piece. -/
def pieceSize : Nat := 4096

/-- The characters of whole pieces that can be read with a fault behind some good ones. -/
def wholePieces (good : List Char) : List Char :=
  let pieces := good.length / pieceSize
  if pieces < 2 then [] else good.take (pieces * pieceSize)

/-- A stream without the pieces from the first one on that holds a character that a data file may
    not. -/
def printable (s : Stream) : Stream :=
  let good := s.chars.takeWhile isPrintable
  if good.length = s.chars.length then s else ⟨wholePieces good, some .malformed⟩

/-! ## 2. Bytes -/

/-- The number of bytes that are decoded at once. -/
def chunkSize : Nat := 8192

/-- The characters of some bytes, if they encode a text. -/
def decode? (bytes : List UInt8) : Option (List Char) :=
  (String.fromUTF8? ⟨bytes.toArray⟩).map String.toList

/-- The number of bytes of the character that starts with a byte; no byte starts one of none. -/
def sequenceLength (b : UInt8) : Nat :=
  if b < 0x80 then 1
  else if b < 0xC2 then 0
  else if b < 0xE0 then 2
  else if b < 0xF0 then 3
  else if b < 0xF5 then 4
  else 0

/-- Whether some bytes are the start of the bytes of one character, but not all of them. -/
def isCutShort : List UInt8 → Bool
  | [] => true
  | b :: rest =>
    rest.length + 1 < sequenceLength b && rest.all fun c => 0x80 ≤ c && c < 0xC0

/-- The characters of some bytes, behind which the bytes of one character may be cut short. -/
def decodeStart? (bytes : List UInt8) : Option (List Char) :=
  (List.range 4).findSome? fun cut =>
    let kept := bytes.length - cut
    if isCutShort (bytes.drop kept) then decode? (bytes.take kept) else none

/-- The characters of the chunks in front of the first one that cannot be decoded, given their number.
    A carriage return at their end may belong to a line end that goes on. -/
def goodChunks (bytes : List UInt8) : Nat → List Char
  | 0 => []
  | count + 1 =>
    match decodeStart? (bytes.take ((count + 1) * chunkSize)) with
    | some cs => unifyNewlines (if cs.getLast? = some '\r' then cs.dropLast else cs)
    | none => goodChunks bytes count

/-- The stream of the bytes of a file, with line feeds for all line ends. -/
def ofBytes (bytes : List UInt8) : Stream :=
  match decode? bytes with
  | some cs => printable ⟨unifyNewlines cs, none⟩
  | none =>
    let good := goodChunks bytes (bytes.length / chunkSize + 1)
    printable ⟨wholePieces good, some .undecodable⟩

end Stream

end TemplateTree.Yaml
