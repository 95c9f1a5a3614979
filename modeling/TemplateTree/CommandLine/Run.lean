import TemplateTree.CommandLine.Options
import TemplateTree.Document.Parse
import TemplateTree.Module
import TemplateTree.Settings.File
import TemplateTree.Text.Terminal

/-!
# Runs of the command line

A run takes a file system, arguments and whether every step is to be logged, and gives what it
prints, what it logs and the file system behind it (`CommandLine.run`). It compiles a tree document
and prints the module, or writes it to a file. What is wrong with the document or the settings is
told in one line of error output; some failures are told to nobody and end the run (`Crash`). Control
sequences of a terminal are not printed, but they are written to a file; a lone surrogate, which only the
path of the document can bring into the text, is neither printed nor written.
-/

namespace TemplateTree

/-! ## 1. Logs -/

/-- How important a record of the log is. -/
inductive LogLevel where
  | debug
  | info
  | warning
deriving DecidableEq, Repr

/-- A level by its number, which grows with the importance. -/
def LogLevel.rank : LogLevel → Nat
  | debug => 0
  | info => 1
  | warning => 2

/-- The parts of the program that log. -/
inductive LogSource where
  | commandLine
  | compiler
  | documents
deriving DecidableEq, Repr

/-- A record of the log. -/
structure LogRecord where
  source : LogSource
  level : LogLevel
  message : Text
deriving DecidableEq, Repr

/-! ## 2. Outcomes -/

namespace CommandLine

/-- Failures that end a run without a message. -/
inductive Crash where
  /-- A value that a data file asks for does not exist. -/
  | badValue (fault : Yaml.Fault)
  | overlongInteger
  | endlessDocument
  /-- The bytes of a file are no text. -/
  | undecodable
  /-- The expression is no text; its type is named. -/
  | unrendered (type : Text)
  /-- The output cannot be written. -/
  | unwritable (error : FileSystem.WriteError)
  /-- The output has no bytes. -/
  | unencodable
deriving DecidableEq, Repr

/-- How a run ends. -/
inductive Ending where
  | success
  /-- With an error that was told. -/
  | error
  | crash (c : Crash)
  | badUsage
deriving DecidableEq, Repr

/-- The exit code of an ending. -/
def Ending.exitCode : Ending → Nat
  | success => 0
  | error => 1
  | crash _ => 1
  | badUsage => 2

/-- What a run leaves behind. -/
structure Outcome where
  ending : Ending
  output : Text := []
  errors : Text := []
  log : List LogRecord := []
  files : FileSystem

/-- Why there is no code: a message, or a crash. -/
inductive Stop where
  | told (message : Text)
  | crash (c : Crash)

/-- A failure on a tree or document as the reason to stop. -/
def Stop.ofFailure : Failure → Stop
  | .refused e => if Decimal.fits e.line then .told e.text else .crash .overlongInteger
  | .overlongInteger => .crash .overlongInteger
  | .endlessDocument => .crash .endlessDocument
  | .badValue f => .crash (.badValue f)

/-- A template without a module as the reason to stop. -/
def Stop.ofRenderFault : Template.RenderFault → Stop
  | .notText type => .crash (.unrendered type)
  | .overlongInteger => .crash .overlongInteger

/-- An error of a settings file as the reason to stop. -/
def Stop.ofLoadError (path : Text) (e : LoadError) : Stop :=
  match e.message? path, e with
  | some message, _ => .told message
  | none, .badValue f => .crash (.badValue f)
  | none, _ => .crash .undecodable

/-! ## 3. The work of a run -/

/-- A computation that logs and may stop. -/
abbrev Work := ExceptT Stop (StateM (List LogRecord))

/-- Adds a record to the log. -/
def note (source : LogSource) (level : LogLevel) (message : Text) : Work Unit :=
  modify (· ++ [⟨source, level, message⟩])

/-- A result without a record. -/
def lift {α : Type} (r : Except Stop α) : Work α := ExceptT.mk (pure r)

/-- The settings of a run. -/
def settings (fs : FileSystem) (o : Options) : Work Settings :=
  match o.config with
  | none => pure {}
  | some path => lift ((Settings.load (fs.content path)).mapError (.ofLoadError path.text))

/-- The tree of the document at a path. -/
def readTree (fs : FileSystem) (s : Settings) (path : FilePath) : Work Expr := do
  match fs.content path with
  | .bytes bs =>
    match decodeFile? bs with
    | none => throw (.crash .undecodable)
    | some cs =>
      note .documents .debug ("loaded tree document " ++ path.text)
      lift ((Document.parse s (Text.ofChars cs)).mapError .ofFailure)
  | _ => throw (.told ("Could not read file: " ++ path.text))

/-- The number of lines of a code. -/
def lineCount (code : Text) : Nat := code.count newline + 1

/-- The code of a tree, with a record before and one after. -/
def compile (s : Settings) (e : Expr) : Work Text := do
  note .compiler .debug ("compiling " ++ e.kindName ++ " expression")
  let code ← lift ((e.compile s.names).mapError .ofFailure)
  note .compiler .debug ("compiled to " ++ Decimal.ofNat (lineCount code) ++ " lines")
  return code

/-- The text that a run prints or writes: an expression with a line end, or a module. -/
def produce (fs : FileSystem) (o : Options) (tree : FilePath) : Work Text := do
  let s ← settings fs o
  let root ← readTree fs s tree
  let code ← compile s root
  if o.expression then
    return code ++ "\n"
  else
    lift ((Template.ofCode s code (.ofText tree.text)).render.mapError .ofRenderFault)

/-- Writes a text to a path, making the directories on the way. The file system may have new
    directories even if this fails. The file is emptied before the bytes of the text are asked for, so
    it is left empty where the text has none. -/
def deliver (fs : FileSystem) (path : FilePath) (text : Text) : FileSystem × Except Crash Unit :=
  match fs.provideDirectories path.parent path.parent.names.length with
  | (fs, .error e) => (fs, .error (.unwritable e))
  | (fs, .ok ()) =>
    match fs.write path ((encodeFile? text).getD []) with
    | .error e => (fs, .error (.unwritable e))
    | .ok fs => (fs, if (encodeFile? text).isSome then .ok () else .error .unencodable)

/-- A text as it is printed, which must have bytes. -/
def printed (text : Text) : Except Crash Text :=
  if (encodeFile? (Terminal.text text)).isSome then .ok (Terminal.text text) else .error .unencodable

/-! ## 4. Runs -/

/-- The least important level that a run logs. -/
def logLevel (debug : Bool) (o : Options) : LogLevel :=
  if debug then .debug else if o.verbose then .info else .warning

/-- The version of the program. -/
def version : Text := "0.1.0"

/-- A run that was told what to do. -/
def runOptions (fs : FileSystem) (debug : Bool) (o : Options) : Outcome :=
  let visible (log : List LogRecord) : List LogRecord :=
    log.filter fun r => (logLevel debug o).rank ≤ r.level.rank
  let told (message : Text) (log : List LogRecord) : Outcome :=
    { ending := .error, errors := Terminal.errorText ("Error: " ++ message ++ "\n"), log := visible log, files := fs }
  if o.version then
    { ending := .success, output := "tplc " ++ version ++ "\n", files := fs }
  else
    match o.tree with
    | none => told "No tree document given." []
    | some tree =>
      match (produce fs o tree).run.run [] with
      | (.error (.told message), log) => told message log
      | (.error (.crash c), log) => { ending := .crash c, log := visible log, files := fs }
      | (.ok text, log) =>
        match o.output with
        | none =>
          match printed text with
          | .error c => { ending := .crash c, log := visible log, files := fs }
          | .ok output => { ending := .success, output, log := visible log, files := fs }
        | some path =>
          match deliver fs path text with
          | (files, .error c) => { ending := .crash c, log := visible log, files }
          | (files, .ok ()) =>
            let wrote : LogRecord :=
              ⟨.commandLine, .info, "wrote compiled module to " ++ path.text⟩
            { ending := .success, log := visible (log ++ [wrote]), files }

/-- A run of the command line with some arguments. -/
def run (fs : FileSystem) (debug : Bool) (arguments : List Text) : Outcome :=
  match Options.parse arguments with
  | .error _ => { ending := .badUsage, files := fs }
  | .ok o => runOptions fs debug o

end CommandLine

end TemplateTree
