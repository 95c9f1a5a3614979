import TemplateTree.Number.Decimal
import TemplateTree.Yaml.Character

/-!
# Anchors, tags and directives

The names that stand in front of a node or of a document: an anchor or alias is a word
(`anchorName`), a tag is a handle and a suffix (`tag`), and a directive gives the version of the
format or a new handle for tags (`directive`). Each is read behind its mark and returned with the
rest of the text.
-/

namespace TemplateTree.Yaml

/-! ## 1. Anchors -/

/-- The name of an anchor or alias. -/
def anchorName (cs : List Char) : Except Fault (List Char × List Char) :=
  let name := cs.takeWhile isWordChar
  let rest := cs.dropWhile isWordChar
  if name.isEmpty then
    .error .malformed
  else if endsWord rest || rest.head?.any ("?:,]\x7d%@`".toList.contains ·) then
    .ok (name, rest)
  else
    .error .malformed

/-! ## 2. Tags -/

/-- A tag as it is written: with a handle in front of its suffix, or whole. -/
structure TagName where
  handle : Option (List Char)
  suffix : List Char
deriving DecidableEq, Repr

/-- The characters of a suffix that stand for themselves. -/
def isUriChar (c : Char) : Bool := c.isAlphanum || "-;/?:@&=+$,_.!~*'()[]".toList.contains c

/-- The bytes of a run of escapes by number, and the rest. -/
def uriBytes : List Char → Except Fault (List UInt8 × List Char)
  | '%' :: a :: b :: rest =>
    match hexDigit? a, hexDigit? b with
    | some a, some b => do
      let (bytes, rest) ← uriBytes rest
      return (UInt8.ofNat (a * 16 + b) :: bytes, rest)
    | _, _ => .error .malformed
  | '%' :: _ => .error .malformed
  | cs => .ok ([], cs)

/-- The characters of the suffix of a tag, and the rest. Every run of escapes encodes a text. Every
    piece takes one step of the fuel. -/
def uriPieces : Nat → List Char → Except Fault (List Char × List Char)
  | 0, cs => .ok ([], cs)
  | steps + 1, cs =>
    match cs with
    | '%' :: _ => do
      let (bytes, rest) ← uriBytes cs
      match String.fromUTF8? ⟨bytes.toArray⟩ with
      | none => throw .malformed
      | some s =>
        let (more, rest) ← uriPieces steps rest
        return (s.toList ++ more, rest)
    | c :: rest =>
      if isUriChar c then do
        let (more, rest) ← uriPieces steps rest
        return (c :: more, rest)
      else
        .ok ([], cs)
    | [] => .ok ([], [])

/-- The suffix of a tag, which has at least one character. -/
def uri (cs : List Char) : Except Fault (List Char × List Char) :=
  if cs.head?.any fun c => isUriChar c || c == '%' then uriPieces cs.length cs
  else .error .malformed

/-- A handle: a mark of a tag, or a word between two of them. -/
def tagHandle (cs : List Char) : Except Fault (List Char × List Char) :=
  match cs with
  | '!' :: rest =>
    if rest.head? = some ' ' then
      .ok (['!'], rest)
    else
      match rest.dropWhile isWordChar with
      | '!' :: behind => .ok ('!' :: rest.takeWhile isWordChar ++ ['!'], behind)
      | _ => .error .malformed
  | _ => .error .malformed

/-- The tag at the front of a text that starts with the mark of a tag. -/
def tag (cs : List Char) : Except Fault (TagName × List Char) := do
  let behind := cs.drop 1
  let (name, rest) ← (do
    if behind.head? = some '<' then
      let (suffix, rest) ← uri (behind.drop 1)
      match rest with
      | '>' :: rest => return (⟨none, suffix⟩, rest)
      | _ => throw Fault.malformed
    else if endsWord behind then
      return (⟨none, ['!']⟩, behind)
    else
      let word := behind.takeWhile fun c => !isGap c
      let (handle, rest) ← if word.contains '!' then tagHandle cs else .ok (['!'], behind)
      let (suffix, rest) ← uri rest
      return (⟨some handle, suffix⟩, rest))
  if endsPart rest then return (name, rest) else throw .malformed

/-! ## 3. Directives -/

/-- A directive in front of a document. -/
inductive Directive where
  /-- The major version of the format. -/
  | version (major : Nat)
  /-- What a handle of tags stands for. -/
  | handle (handle target : List Char)
  | other
deriving DecidableEq, Repr

/-- A number of a version. -/
def versionNumber (cs : List Char) : Except Fault (Nat × List Char) :=
  let ds := cs.takeWhile Char.isDigit
  if ds.isEmpty then .error .malformed
  else if Decimal.maxDigits < ds.length then .error .badNumber
  else .ok (ds.foldl (fun n c => n * 10 + (c.toNat - '0'.toNat)) 0, cs.dropWhile Char.isDigit)

/-- The directive behind its mark, up to the end of its line. -/
def directive (cs : List Char) : Except Fault (Directive × List Char) := do
  let name := String.ofList (cs.takeWhile isWordChar)
  let rest := cs.dropWhile isWordChar
  if name.isEmpty || !endsPart rest then
    throw .malformed
  let skipSpaces (cs : List Char) : List Char := cs.dropWhile (· == ' ')
  let (d, rest) ← (do
    if name = "YAML" then
      let (major, rest) ← versionNumber (skipSpaces rest)
      match rest with
      | '.' :: rest =>
        let (_, rest) ← versionNumber rest
        if endsPart rest then return (Directive.version major, rest) else throw Fault.malformed
      | _ => throw Fault.malformed
    else if name = "TAG" then
      let (handle, rest) ← tagHandle (skipSpaces rest)
      if rest.head? ≠ some ' ' then
        throw Fault.malformed
      let (target, rest) ← uri (skipSpaces rest)
      if endsPart rest then return (Directive.handle handle target, rest) else throw Fault.malformed
    else
      return (Directive.other, rest.dropWhile fun c => !isBreak c))
  return (d, ← restOfLine rest)

end TemplateTree.Yaml
