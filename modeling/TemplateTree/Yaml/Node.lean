import TemplateTree.Yaml.Implicit
import TemplateTree.Yaml.Lexeme

/-!
# Nodes of a data file

The lexemes of a text are put together to nodes, each with the tag that it was given or that its
spelling shows (`Nodes.ofLexemes`). Nodes are numbered in the order in which they start, and a
collection refers to its parts by their numbers. So an alias is no more than the number of the node
with its anchor, also where that is a collection around the alias.
-/

namespace TemplateTree.Yaml

/-! ## 1. Nodes -/

/-- A node of a data file, which refers to its parts by their numbers. -/
inductive Node where
  | scalar (tag : Tag) (text : Text)
  | sequence (tag : Tag) (items : List Nat)
  | mapping (tag : Tag) (entries : List (Nat × Nat))

namespace Node

/-- The node where nothing is written. -/
def empty : Node := .scalar .null []

/-- The tag of a node. -/
def tag : Node → Tag
  | scalar tag _ => tag
  | sequence tag _ => tag
  | mapping tag _ => tag

/-- A node with another tag. -/
def retag (tag : Tag) : Node → Node
  | scalar _ text => .scalar tag text
  | sequence _ items => .sequence tag items
  | mapping _ entries => .mapping tag entries

/-! ## 2. The state of the parser -/

/-- What is left of the lexemes, the nodes so far, and the numbers of those with an anchor. -/
structure State where
  lexemes : List Lexeme
  nodes : Array Node := #[]
  anchors : List (List Char × Nat) := []

/-- A step of the parser. -/
abbrev Parse := StateT State (Except Fault)

/-- What a node depends on: the handles of tags, and the fault behind the last lexeme. -/
structure Context where
  handles : List (List Char × List Char)
  ending : Fault

/-- The next lexeme. -/
def peek (c : Context) : Parse Lexeme := do
  match (← get).lexemes with
  | [] => throw c.ending
  | l :: _ => return l

/-- Passes the next lexeme. -/
def advance : Parse Unit := modify fun s => { s with lexemes := s.lexemes.drop 1 }

/-- Adds a node, and gives its number. -/
def add (n : Node) : Parse Nat :=
  modifyGet fun s => (s.nodes.size, { s with nodes := s.nodes.push n })

/-- Adds a node under an anchor, which must not have been used before. -/
def enter (anchor : Option (List Char)) (n : Node) : Parse Nat := do
  match anchor with
  | none => add n
  | some name =>
    if ((← get).anchors.lookup name).isSome then
      throw .malformed
    let i ← add n
    modify fun s => { s with anchors := (name, i) :: s.anchors }
    return i

/-- The number of the node of an alias. -/
def ofAlias (name : List Char) : Parse Nat := do
  match (← get).anchors.lookup name with
  | some i => return i
  | none => throw .malformed

/-! ## 3. Properties of nodes -/

/-- The anchor and the tag in front of a node, in either order. -/
def properties (c : Context) : Parse (Option (List Char) × Option TagName) := do
  match ← peek c with
  | .anchor name =>
    advance
    match ← peek c with
    | .tag t => advance; return (some name, some t)
    | _ => return (some name, none)
  | .tag t =>
    advance
    match ← peek c with
    | .anchor name => advance; return (some name, some t)
    | _ => return (none, some t)
  | _ => return (none, none)

/-- The full name of a tag. -/
def tagName (c : Context) : TagName → Except Fault (List Char)
  | ⟨none, suffix⟩ => .ok suffix
  | ⟨some handle, suffix⟩ =>
    match c.handles.lookup handle with
    | some target => .ok (target ++ suffix)
    | none => .error .malformed

/-- The tag of a node: a missing or unspecific one leaves the choice to the spelling. -/
def choose (name : Option (List Char)) (otherwise : Tag) : Tag :=
  match name with
  | none => otherwise
  | some ['!'] => otherwise
  | some name => .ofName name

/-- The tag that the spelling of a text shows. -/
def spelled (t : Text) : Tag :=
  match t.chars? with
  | some cs => .ofSpelling cs
  | none => .text

/-- The tag of a scalar. Only a plain one, or one with the unspecific tag, shows it by its
    spelling. -/
def scalarTag (name : Option (List Char)) (isPlain : Bool) (t : Text) : Tag :=
  match name with
  | none => if isPlain then spelled t else .text
  | some ['!'] => spelled t
  | some name => .ofName name

/-! ## 4. Parts of nodes -/

/-- The places where a node can stand. -/
inductive Place where
  /-- In brackets. -/
  | flow
  /-- In block context. -/
  | block
  /-- As key or value of a block mapping, where a sequence may stand without indentation. -/
  | blockEntry
deriving DecidableEq

/-- Whether a lexeme ends an entry of a block mapping. -/
def endsBlockEntry : Lexeme → Bool
  | .key => true
  | .value => true
  | .blockEnd => true
  | _ => false

/-- Whether a lexeme ends an entry in brackets that close with `closing`. -/
def endsFlowEntry (closing : Lexeme) (l : Lexeme) : Bool := l == .flowEntry || l == closing

mutual

/-- The number of the node at the front of the lexemes. Every node and every entry takes one step of
    the fuel. A collection has its number before its parts have theirs. -/
def parse : Nat → Context → Place → Parse Nat
  | 0, _, _ => throw .malformed
  | steps + 1, c, place => do
    match ← peek c with
    | .alias name => advance; ofAlias name
    | _ =>
      let (anchor, tag) ← properties c
      let name ← tag.mapM fun t => (tagName c t : Except Fault _)
      let next ← peek c
      let collection (node : Parse Node) : Parse Nat := do
        let i ← enter anchor empty
        let n ← node
        modify fun s => { s with nodes := s.nodes.setIfInBounds i n }
        return i
      let sequence (items : Parse (List Nat)) : Parse Nat :=
        collection do return .sequence (choose name .sequence) (← items)
      let mapping (entries : Parse (List (Nat × Nat))) : Parse Nat :=
        collection do return .mapping (choose name .mapping) (← entries)
      match next with
      | .scalar isPlain text =>
        let i ← enter anchor (.scalar (scalarTag name isPlain text) text)
        advance
        return i
      | .flowSequenceStart => sequence do advance; flowItems steps c true
      | .flowMappingStart => mapping do advance; flowEntries steps c true
      | _ =>
        if next = .blockEntry ∧ place = .blockEntry then
          sequence (looseItems steps c)
        else if next = .blockSequenceStart ∧ place ≠ .flow then
          sequence do advance; blockItems steps c
        else if next = .blockMappingStart ∧ place ≠ .flow then
          mapping do advance; blockEntries steps c
        else if anchor.isSome || tag.isSome then
          enter anchor (.scalar (scalarTag name true []) [])
        else
          throw .malformed

/-- The items of a block sequence, up to its end. -/
def blockItems : Nat → Context → Parse (List Nat)
  | 0, _ => throw .malformed
  | steps + 1, c => do
    match ← peek c with
    | .blockEntry =>
      advance
      let next ← peek c
      let item ←
        if next = .blockEntry ∨ next = .blockEnd then add empty else parse steps c .block
      return item :: (← blockItems steps c)
    | .blockEnd => advance; return []
    | _ => throw .malformed

/-- The items of a sequence without indentation of its own. -/
def looseItems : Nat → Context → Parse (List Nat)
  | 0, _ => throw .malformed
  | steps + 1, c => do
    match ← peek c with
    | .blockEntry =>
      advance
      let next ← peek c
      let item ←
        if next = .blockEntry ∨ endsBlockEntry next then add empty else parse steps c .block
      return item :: (← looseItems steps c)
    | _ => return []

/-- The entries of a block mapping, up to its end. -/
def blockEntries : Nat → Context → Parse (List (Nat × Nat))
  | 0, _ => throw .malformed
  | steps + 1, c => do
    match ← peek c with
    | .key =>
      advance
      let key ← blockPart steps c
      let value ← (do
        match ← peek c with
        | .value => advance; blockPart steps c
        | _ => add empty)
      return (key, value) :: (← blockEntries steps c)
    | .blockEnd => advance; return []
    | _ => throw .malformed

/-- A key or value of a block mapping, which may be empty. -/
def blockPart : Nat → Context → Parse Nat
  | 0, _ => throw .malformed
  | steps + 1, c => do
    if endsBlockEntry (← peek c) then add empty else parse steps c .blockEntry

/-- The items of a sequence in brackets, up to the closing one. A key makes a mapping of its own. -/
def flowItems : Nat → Context → (isFirst : Bool) → Parse (List Nat)
  | 0, _, _ => throw .malformed
  | steps + 1, c, isFirst => do
    let next ← peek c
    if next = .flowSequenceEnd then
      advance
      return []
    unless isFirst do
      if next = .flowEntry then advance else throw .malformed
    match ← peek c with
    | .flowSequenceEnd => advance; return []
    | .key =>
      let entry ← flowEntry steps c .flowSequenceEnd
      let pair ← add (.mapping .mapping [entry])
      return pair :: (← flowItems steps c false)
    | _ =>
      let item ← parse steps c .flow
      return item :: (← flowItems steps c false)

/-- The entries of a mapping in brackets, up to the closing one. An entry without a mark is a
    key. -/
def flowEntries : Nat → Context → (isFirst : Bool) → Parse (List (Nat × Nat))
  | 0, _, _ => throw .malformed
  | steps + 1, c, isFirst => do
    let next ← peek c
    if next = .flowMappingEnd then
      advance
      return []
    unless isFirst do
      if next = .flowEntry then advance else throw .malformed
    match ← peek c with
    | .flowMappingEnd => advance; return []
    | .key =>
      let entry ← flowEntry steps c .flowMappingEnd
      return entry :: (← flowEntries steps c false)
    | _ =>
      let key ← parse steps c .flow
      let value ← add empty
      return (key, value) :: (← flowEntries steps c false)

/-- An entry in brackets behind the mark of a key; both of its parts may be empty. -/
def flowEntry : Nat → Context → (closing : Lexeme) → Parse (Nat × Nat)
  | 0, _, _ => throw .malformed
  | steps + 1, c, closing => do
    advance
    let next ← peek c
    let key ←
      if next = .value ∨ endsFlowEntry closing next then add empty else parse steps c .flow
    match ← peek c with
    | .value =>
      advance
      if endsFlowEntry closing (← peek c) then return (key, ← add empty)
      return (key, ← parse steps c .flow)
    | _ => return (key, ← add empty)

end

/-! ## 5. Documents -/

/-- What the handles of tags stand for without a directive. -/
def defaultHandles : List (List Char × List Char) :=
  [(['!'], ['!']), (['!', '!'], tagBase.toList)]

/-- The handles that the directives in front of a document define. At most one directive gives a
    version, which must be the first major one, and no handle is defined twice. Every directive
    takes one step of the fuel. -/
def directives (c : Context) : Nat → (versioned : Bool) → List (List Char × List Char) →
    Parse (List (List Char × List Char))
  | 0, _, handles => return handles
  | steps + 1, versioned, handles => do
    match ← peek c with
    | .directive d =>
      advance
      match d with
      | .version major =>
        if versioned || major != 1 then throw .malformed
        directives c steps true handles
      | .handle handle target =>
        if (handles.lookup handle).isSome then throw .malformed
        directives c steps versioned ((handle, target) :: handles)
      | .other => directives c steps versioned handles
    | _ => return handles

/-- Passes marks that end a document. -/
def skipDocumentEnds (c : Context) : Nat → Parse Unit
  | 0 => pure ()
  | steps + 1 => do
    if (← peek c) = .documentEnd then
      advance
      skipDocumentEnds c steps

/-- Whether a document that starts with a mark has no content. -/
def isBare : Lexeme → Bool
  | .directive _ => true
  | .documentStart => true
  | .documentEnd => true
  | .streamEnd => true
  | _ => false

/-- The document of a text, if it has one; there must not be a second one. -/
def document (size : Nat) (c : Context) : Parse (Option Nat) := do
  let first ← peek c
  if first = .streamEnd then
    return none
  let isMarked := match first with
    | .directive _ => true
    | .documentStart => true
    | _ => false
  let root ←
    if isMarked then do
      let handles ← directives c size false []
      if (← peek c) ≠ .documentStart then
        throw .malformed
      advance
      if isBare (← peek c) then add empty
      else parse size { c with handles := handles ++ c.handles } .block
    else
      parse size c .block
  skipDocumentEnds c size
  if (← peek c) = .streamEnd then
    return some root
  let _ ← directives c size false []
  let _ ← peek c
  throw .malformed

end Node

/-- The nodes of a document, and the number of the one that is the whole. -/
structure Nodes where
  nodes : Array Node
  root : Nat

/-- The nodes of a list of lexemes, if it has a document. -/
def Nodes.ofLexemes (ls : Lexemes) : Except Fault (Option Nodes) := do
  let size := 4 * ls.lexemes.length + 4
  let c : Node.Context := { handles := Node.defaultHandles, ending := ls.fault?.getD .malformed }
  let (root, s) ← (Node.document size c).run { lexemes := ls.lexemes }
  return root.map fun i => ⟨s.nodes, i⟩

end TemplateTree.Yaml
