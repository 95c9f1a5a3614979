import TemplateTree.FilePath

/-!
# Options of the command line

Arguments are read from left to right (`Options.parse`): a text behind `--` names an option, a text
behind `-` one or several options of one letter, and everything else is a tree document, of which
there is at most one. An option with a value takes it from behind an equals sign, from the rest of its
letters or from the next argument, whatever that is; the last value counts. Behind a lone `--` there
are no options. A path must be one that a system could know.
-/

namespace TemplateTree

/-- What the command line asks for. -/
structure Options where
  tree : Option FilePath := none
  output : Option FilePath := none
  config : Option FilePath := none
  /-- Whether only the expression is wanted. -/
  expression : Bool := false
  verbose : Bool := false
  version : Bool := false
deriving DecidableEq, Repr

namespace Options

/-! ## 1. Single options -/

/-- An option: one with a value, or one without. -/
inductive Kind where
  | output
  | config
  | expression
  | verbose
  | version
deriving DecidableEq, Repr

/-- Whether an option has a value. -/
def Kind.takesValue : Kind → Bool
  | output => true
  | config => true
  | _ => false

/-- The option with a long name. -/
def Kind.ofName? (name : Text) : Option Kind :=
  let kinds : List (String × Kind) := [
    ("--output", .output), ("--config", .config), ("--expression", .expression),
    ("--verbose", .verbose), ("--version", .version)]
  (kinds.find? fun k => Text.ofString k.1 = name).map Prod.snd

/-- The option with a letter. -/
def Kind.ofLetter? : CodePoint → Option Kind
  | .scalar 'o' => some .output
  | .scalar 'c' => some .config
  | .scalar 'v' => some .version
  | _ => none

/-- The options with a flag set. -/
def flag (o : Options) : Kind → Options
  | .expression => { o with expression := true }
  | .verbose => { o with verbose := true }
  | .version => { o with version := true }
  | _ => o

/-- The options with a value set. -/
def assign (o : Options) (kind : Kind) (value : Text) : Options :=
  match kind with
  | .output => { o with output := some (.ofText value) }
  | .config => { o with config := some (.ofText value) }
  | _ => o

/-! ## 2. Arguments -/

/-- The arguments cannot be understood. -/
inductive BadUsage where
  | badUsage
deriving DecidableEq, Repr

/-- An option with its value, which is given or is the next argument. -/
def withValue (o : Options) (kind : Kind) (given : Option Text) (arguments : List Text) :
    Except BadUsage (Options × List Text) :=
  match given, arguments with
  | some value, _ => .ok (o.assign kind value, arguments)
  | none, value :: rest => .ok (o.assign kind value, rest)
  | none, [] => .error .badUsage

/-- The options of some letters. The rest of the letters behind an option with a value is its
    value. -/
def letters (o : Options) (arguments : List Text) : Text → Except BadUsage (Options × List Text)
  | [] => .ok (o, arguments)
  | c :: rest =>
    match Kind.ofLetter? c with
    | none => .error .badUsage
    | some kind =>
      if kind.takesValue then
        o.withValue kind (if rest = [] then none else some rest) arguments
      else
        letters (o.flag kind) arguments rest

/-- A name and the value behind its equals sign. -/
def nameAndValue (argument : Text) : Text × Option Text :=
  let name := argument.takeWhile (· != .scalar '=')
  let behind := argument.dropWhile (· != .scalar '=')
  (name, if behind = [] then none else some (behind.drop 1))

/-- The option with a long name. -/
def long (o : Options) (argument : Text) (arguments : List Text) :
    Except BadUsage (Options × List Text) :=
  let (name, value) := nameAndValue argument
  match Kind.ofName? name with
  | none => .error .badUsage
  | some kind =>
    if kind.takesValue then o.withValue kind value arguments
    else if value.isSome then .error .badUsage
    else .ok (o.flag kind, arguments)

/-- The options among some arguments, and the other arguments. Every argument takes one step of the
    fuel. -/
def collect : Nat → Options → List Text → Except BadUsage (Options × List Text)
  | 0, o, _ => .ok (o, [])
  | _ + 1, o, [] => .ok (o, [])
  | steps + 1, o, argument :: rest =>
    match argument with
    | [.scalar '-', .scalar '-'] => .ok (o, rest)
    | .scalar '-' :: .scalar '-' :: _ => do
      let (o, rest) ← o.long argument rest
      collect steps o rest
    | .scalar '-' :: c :: cs => do
      let (o, rest) ← o.letters rest (c :: cs)
      collect steps o rest
    | _ => do
      let (o, others) ← collect steps o rest
      return (o, argument :: others)

/-- What some arguments ask for, whatever their paths are. -/
def parseArguments (arguments : List Text) : Except BadUsage Options := do
  let (o, trees) ← collect arguments.length {} arguments
  match trees with
  | [] => return o
  | [tree] => return { o with tree := some (.ofText tree) }
  | _ => throw .badUsage

/-- The paths that are given. -/
def paths (o : Options) : List FilePath := [o.tree, o.config, o.output].filterMap id

/-- What some arguments ask for. -/
def parse (arguments : List Text) : Except BadUsage Options := do
  let o ← parseArguments arguments
  if o.paths.all FilePath.isEncodable then return o else throw .badUsage

end Options

end TemplateTree
