import TemplateTree.FilePath
import TemplateTree.Text.Lines

/-!
# Files and directories

A file system holds directories and files with their bytes, by the names on the way to them from the
root, and one of its directories is the current one. Paths are looked up name by name, so that a
path through a missing directory, or through a file, leads nowhere (`FileSystem.find`); nor does one
that is too long, or a name that is.
-/

namespace TemplateTree

/-! ## 1. Entries -/

/-- A directory, or a file with its content. -/
inductive Entry where
  | directory
  | file (content : List UInt8)
deriving DecidableEq, Repr

/-- Directories and files, by the names on the way to them from the root. -/
structure FileSystem where
  entries : List (List Text × Entry) := []
  /-- The names on the way to the current directory. -/
  current : List Text := []
deriving Repr

/-- What stands at a path. -/
inductive FileContent where
  | missing
  | directory
  /-- Nothing, since the path or a name on it is too long. -/
  | nameTooLong
  | bytes (content : List UInt8)
deriving DecidableEq, Repr

/-- The text of the bytes of a file, with line feeds for all line ends. -/
def decodeFile? (content : List UInt8) : Option (List Char) :=
  (String.fromUTF8? ⟨content.toArray⟩).map fun s => unifyNewlines s.toList

/-- The bytes of a text; a text with a lone surrogate has none. -/
def encodeFile? (t : Text) : Option (List UInt8) :=
  t.chars?.map fun cs => (String.ofList cs).toUTF8.toList

namespace FileSystem

/-- The entry with the given names on the way to it. The root is always there. -/
def at? (fs : FileSystem) (names : List Text) : Option Entry :=
  if names = [] then some .directory else fs.entries.lookup names

/-- The file system with an entry put in. -/
def put (fs : FileSystem) (names : List Text) (e : Entry) : FileSystem :=
  if (fs.at? names).isSome then
    { fs with entries := fs.entries.map fun f => if f.1 = names then (names, e) else f }
  else
    { fs with entries := fs.entries ++ [(names, e)] }

/-! ## 2. Paths -/

/-- Where a path leads. -/
inductive Place where
  /-- To an entry, or to where a directory has none. -/
  | inside (names : List Text) (entry : Option Entry)
  /-- Nowhere: a directory on the way is missing. -/
  | missing
  /-- Nowhere: something on the way is no directory. -/
  | notDirectory
  /-- Nowhere: the path, or a name that is looked up, is too long. -/
  | nameTooLong
deriving DecidableEq, Repr

/-- The number of bytes that encode a text; a lone surrogate stands for one byte that is no text. -/
def byteCount (t : Text) : Nat :=
  t.foldl (fun n c => match c with
    | .scalar c => n + c.utf8Size
    | .surrogate _ => n + 1) 0

/-- The most bytes of a name. -/
def maxNameBytes : Nat := 255

/-- The most bytes of a path. -/
def maxPathBytes : Nat := 4095

/-- Follows names from a place. -/
def follow (fs : FileSystem) (place : Place) : List Text → Place
  | [] => place
  | name :: rest =>
    match place with
    | .inside names (some .directory) =>
      if name = FilePath.up then
        follow fs (.inside names.dropLast (some .directory)) rest
      else if maxNameBytes < byteCount name then
        .nameTooLong
      else
        let names := names ++ [name]
        follow fs (.inside names (fs.at? names)) rest
    | .inside _ (some (.file _)) => .notDirectory
    | .inside _ none => .missing
    | .missing => .missing
    | .notDirectory => .notDirectory
    | .nameTooLong => .nameTooLong

/-- Where a path leads, from the root or from the current directory. -/
def find (fs : FileSystem) (p : FilePath) : Place :=
  if maxPathBytes < byteCount p.text then
    .nameTooLong
  else
    let start := if p.isAbsolute then [] else fs.current
    follow fs (.inside start (fs.at? start)) p.names

/-- What stands at a path. -/
def content (fs : FileSystem) (p : FilePath) : FileContent :=
  match fs.find p with
  | .inside _ (some (.file content)) => .bytes content
  | .inside _ (some .directory) => .directory
  | .nameTooLong => .nameTooLong
  | _ => .missing

/-- Whether a directory stands at a path. -/
def isDirectory (fs : FileSystem) (p : FilePath) : Bool := fs.content p == .directory

/-! ## 3. Changes -/

/-- Why a file cannot be written. -/
inductive WriteError where
  | isDirectory
  /-- A file stands where a directory is needed. -/
  | fileExists
  /-- A file stands on the way to where a directory is needed. -/
  | notDirectory
  /-- The directory on the way cannot be made. -/
  | missing
  | nameTooLong
deriving DecidableEq, Repr

/-- Makes a directory where nothing stands. -/
def makeDirectory (fs : FileSystem) (p : FilePath) : Except WriteError FileSystem :=
  match fs.find p with
  | .inside _ (some _) => .error .fileExists
  | .inside names none => .ok (fs.put names .directory)
  | .missing => .error .missing
  | .notDirectory => .error .notDirectory
  | .nameTooLong => .error .nameTooLong

/-- Makes a directory that may be there already. -/
def provideDirectory (fs : FileSystem) (p : FilePath) : FileSystem × Except WriteError Unit :=
  match fs.makeDirectory p with
  | .ok fs => (fs, .ok ())
  | .error .missing => (fs, .error .missing)
  | .error e => (fs, if fs.isDirectory p then .ok () else .error e)

/-- Makes a directory, and up to the given number of those on the way to it where one is missing. What
    was made stays, also if something cannot be made. -/
def provideDirectories (fs : FileSystem) (p : FilePath) : Nat → FileSystem × Except WriteError Unit
  | 0 => fs.provideDirectory p
  | parents + 1 =>
    match fs.provideDirectory p with
    | (fs, .error .missing) =>
      match fs.provideDirectories p.parent parents with
      | (fs, .ok ()) => fs.provideDirectory p
      | failed => failed
    | done => done

/-- Writes a file, for which its directory must be there. -/
def write (fs : FileSystem) (p : FilePath) (content : List UInt8) : Except WriteError FileSystem :=
  match fs.find p with
  | .inside _ (some .directory) => .error .isDirectory
  | .inside names _ => .ok (fs.put names (.file content))
  | .missing => .error .missing
  | .notDirectory => .error .notDirectory
  | .nameTooLong => .error .nameTooLong

/-- The files of a file system that another one has not, or with another content. -/
def changed (old new : FileSystem) : List (List Text × List UInt8) :=
  new.entries.filterMap fun e => match e.2 with
    | .directory => none
    | .file content =>
      if old.at? e.1 = some (.file content) then none else some (e.1, content)

/-- The file system with an entry and the directories on the way to it. -/
def add (fs : FileSystem) (names : List Text) (e : Entry) : FileSystem :=
  let parents := (List.range names.length).map names.take
  let fs := (parents.drop 1).foldl
    (fun fs p => if (fs.at? p).isSome then fs else fs.put p .directory) fs
  fs.put names e

end FileSystem

end TemplateTree
