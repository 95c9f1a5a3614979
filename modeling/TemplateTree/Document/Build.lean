import TemplateTree.Expr.Token
import TemplateTree.Value.Display

/-!
# Trees of decoded documents

A document describes a tree in tokens: a text or a number is a literal, a list is a command, and a
mapping has exactly one key that names the kind of its node. The first thing that is wrong is refused,
at the line in force there: a mapping with a `line` of its own sets it for everything inside.

The rule is given for every view of a document (`Document.node`), so that it covers documents that
contain themselves: looking into one of those comes to no end, which is a failure of its own.
`Document.build` is the rule for a decoded value.
-/

namespace TemplateTree

/-! ## 1. Tokens of values -/

namespace View

variable {α : Type}

/-- What is seen at a part as a token. A number counts as its text, unless the part is taken as it
    is, as the members of a tuple are; this is said by the truth value in front. -/
def token (view : View α) : Bool × α → TokenLevel (Bool × α)
  | (raw, v) =>
    match view.level v with
    | .scalar (.text t) => .text t
    | .scalar s =>
      match raw, s.numberText? with
      | false, some (some t) => .text t
      | _, _ => .other s.typeName
    | .list items => .sequence (items.map ((raw, ·)))
    | .tuple members => .sequence (members.map ((true, ·)))
    | level => .other level.typeName

/-- Whether a scalar counts as another one in the place of a token, where a number counts as its text
    unless it is taken as it is. -/
def countsAs (raw : Bool) (s t : Scalar) : Bool :=
  match raw, s.numberText? with
  | false, some (some number) => t == .text number
  | _, _ => s.sameKey t

mutual

/-- Whether a part, in the place of a token, is equal to a value. What lies in a mapping is taken as it
    is. -/
def isEqual (view : View α) (raw : Bool) (v : α) : Value → Bool
  | .scalar t =>
    match view.level v with
    | .scalar s => countsAs raw s t
    | _ => false
  | .list values =>
    match view.level v with
    | .list items => view.areEqual raw items values
    | _ => false
  | .tuple values =>
    match view.level v with
    | .tuple members => view.areEqual true members values
    | _ => false
  | .mapping values =>
    match view.level v with
    | .mapping entries => entries.length == values.length && view.haveEqual entries values
    | _ => false
  | .set values =>
    match view.level v with
    | .set members =>
      members.length == values.length && values.all fun t => members.any fun s => s.sameKey t
    | _ => false

/-- Whether some parts are equal to some values, one by one. -/
def areEqual (view : View α) (raw : Bool) : List α → List Value → Bool
  | [], [] => true
  | v :: vs, w :: ws => view.isEqual raw v w && view.areEqual raw vs ws
  | _, _ => false

/-- Whether entries have parts under the keys of others that are equal to their values. -/
def haveEqual (view : View α) (entries : Entries α) : List (Scalar × Value) → Bool
  | [] => true
  | (key, w) :: rest =>
    (match List.find? (fun e => e.1.sameKey key) entries with
      | some e => view.isEqual true e.2 w
      | none => false)
    && view.haveEqual entries rest

end

/-- Checks that every number in a value, as far as lists reach, has a text. Every level takes one
    step of the fuel. -/
def checkNumbers (view : View α) : Nat → α → Except Failure Unit
  | 0, _ => .error .endlessDocument
  | depth + 1, v =>
    match view.level v with
    | .scalar s => if s.numberText? = some none then .error .overlongInteger else .ok ()
    | .list items => items.forM (view.checkNumbers depth)
    | _ => .ok ()

/-- Some values as tokens, whose numbers have texts. -/
def tokens (view : View α) (items : List α) : Except Failure (List (Bool × α)) := do
  items.forM (view.checkNumbers (view.reach + 1))
  return items.map ((false, ·))

/-- The most levels of tokens that can be seen without seeing one twice in the same way. -/
def tokenDepth (view : View α) : Nat := 2 * view.reach + 1

/-- The command of a list of values. -/
def command (view : View α) (line : Int) (items : List α) : Except Failure Expr := do
  Tokens.command view.token view.tokenDepth line (← view.tokens items)

end View

/-! ## 2. Keys of a mapping -/

/-- The kinds of node that a mapping can describe. -/
inductive NodeKind where
  | command
  | block
  | choice
  | forEach
  | whileLoop
deriving DecidableEq, Repr

namespace NodeKind

/-- All kinds, in the order in which messages name them. -/
def all : List NodeKind := [command, block, choice, forEach, whileLoop]

/-- The key that names a kind. -/
def key : NodeKind → Text
  | command => "command"
  | block => "block"
  | choice => "if"
  | forEach => "for"
  | whileLoop => "while"

/-- The keys that a mapping of a kind may have. -/
def allowed : NodeKind → List Text
  | command => ["command", "line"].map Text.ofString
  | block => ["block", "line"].map Text.ofString
  | choice => ["if", "line"].map Text.ofString
  | forEach => ["for", "do", "as", "index", "line"].map Text.ofString
  | whileLoop => ["while", "do", "line"].map Text.ofString

end NodeKind

namespace Entries

variable {α : Type}

/-- The kinds that a mapping names. -/
def kinds (entries : Entries α) : List NodeKind := NodeKind.all.filter fun k => entries.has k.key

/-- Whether a key is one of some texts. -/
def isAmong (allowed : List Text) : Scalar → Bool
  | .text t => allowed.contains t
  | _ => false

/-- Refuses keys that are not allowed, naming all of them in order. -/
def checkKeys (kind : Text) (allowed : List Text) (line : Int) (entries : Entries α) :
    Except Failure Unit :=
  match (entries.map Prod.fst).filter fun k => !isAmong allowed k with
  | [] => .ok ()
  | unknown =>
    match unknown.mapM Scalar.plain with
    | some keys => .error (.refusal line (.unknownKeys kind (keys.mergeSort Text.le)))
    | none => .error .overlongInteger

end Entries

/-! ## 3. Nodes -/

namespace Document

variable {α : Type}

/-- The line in force inside a mapping: its own, which must be an integer, or the one outside. -/
def lineInside (view : View α) (outer : Int) (entries : Entries α) : Except Failure Int :=
  match entries.find? "line" with
  | none => .ok outer
  | some v =>
    match view.level v with
    | .scalar (.int n) => .ok n
    | _ =>
      match view.display v with
      | some shown => .error (.refusal outer (.lineNotInteger shown))
      | none => .error .overlongInteger

/-- A value that is given and not null. -/
def given (view : View α) : Option α → Option α
  | none => none
  | some v =>
    match view.level v with
    | .scalar .null => none
    | _ => some v

/-- The items of a list; anything else is refused. -/
def listItems (view : View α) (line : Int) (cause : Cause) : Option α → Except Failure (List α)
  | none => .error (.refusal line cause)
  | some v =>
    match view.level v with
    | .list items => .ok items
    | _ => .error (.refusal line cause)

/-- The condition of a list of tokens; without a value there are no tokens. -/
def condition (view : View α) (marker : Value) (line : Int) (v : Option α) :
    Except Failure Expr :=
  let isMarker (t : Bool × α) : Bool := view.isEqual t.1 t.2 marker
  match given view v with
  | none => Tokens.condition view.token 0 isMarker line []
  | some v => do
    let tokens ← view.tokens (← listItems view line .conditionNotList (some v))
    Tokens.condition view.token view.tokenDepth isMarker line tokens

/-- The keys that a clause of a choice may have. -/
def clauseKeys : List Text := ["when", "then", "line"].map Text.ofString

/-- The condition and the branch of a clause, given the rule for nodes at a line. -/
def clause (view : View α) (marker : Value) (node : Int → α → Except Failure Expr)
    (outer : Int) (v : α) : Except Failure (Expr × Expr) :=
  match view.level v with
  | .mapping entries =>
    match entries.find? "then" with
    | none => .error (.refusal outer .clauseNotMapping)
    | some branch => do
      let line ← lineInside view outer entries
      entries.checkKeys "if clause" clauseKeys line
      let test ← condition view marker line (entries.find? "when")
      return (test, ← node line branch)
  | _ => .error (.refusal outer .clauseNotMapping)

/-- The tree of a mapping of a kind at the line in force inside it, given the rule for the nodes
    below. -/
def ofKind (view : View α) (marker : Value) (node : Int → α → Except Failure Expr)
    (line : Int) (kind : NodeKind) (entries : Entries α) : Except Failure Expr :=
  match kind with
  | .command => do view.command line (← listItems view line .commandNotList (entries.find? "command"))
  | .block => do
    let members ← listItems view line .blockNotList (entries.find? "block")
    Expr.block? line (← members.mapM (node line))
  | .choice => do
    let clauses ← listItems view line .ifNotList (entries.find? "if")
    return .choice (← clauses.mapM (clause view marker node line))
  | .forEach =>
    match entries.find? "for", entries.find? "do" with
    | some iterable, some body => do
      let iterable ← node line iterable
      let body ← node line body
      let element ← (given view (entries.find? "as")).mapM (node line)
      let position ← (given view (entries.find? "index")).mapM (node line)
      return .forEach line iterable body element position
    | _, _ => .error (.refusal line .forWithoutBody)
  | .whileLoop =>
    match entries.find? "do" with
    | none => .error (.refusal line .whileWithoutBody)
    | some body => do
      let test ← condition view marker line (entries.find? "while")
      return .whileLoop test (← node line body)

/-- The tree of a part of a document, at the line in force around it. Every level of nodes takes one
    step of the fuel. -/
def node (view : View α) (marker : Value) : Nat → (line : Int) → α → Except Failure Expr
  | 0, _, _ => .error .endlessDocument
  | depth + 1, outer, v =>
    match view.level v with
    | .scalar (.text t) => .ok (.string t)
    | .scalar s =>
      match s.numberText? with
      | some (some t) => .ok (.string t)
      | some none => .error .overlongInteger
      | none => .error (.refusal outer (.notNode s.typeName))
    | .list items => view.command outer items
    | .mapping entries => do
      let line ← lineInside view outer entries
      match entries.kinds with
      | [k] =>
        entries.checkKeys k.key k.allowed line
        ofKind view marker (node view marker depth) line k entries
      | _ => .error (.refusal line .kindNotUnique)
    | level => .error (.refusal outer (.notNode level.typeName))

/-! ## 4. Documents -/

/-- The tree of a document at a line. No way through nodes passes more of them than a view can
    reach, unless it passes one twice and so has no end. -/
def tree (view : View α) (marker : Value) (line : Int) (root : α) : Except Failure Expr :=
  node view marker (view.reach + 1) line root

/-- The tree of a decoded value at a line. -/
def build (marker : Value) (line : Int) (v : Value) : Except Failure Expr :=
  tree v.view marker line v

end Document

end TemplateTree
