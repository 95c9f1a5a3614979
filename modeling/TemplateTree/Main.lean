import TemplateTree.CommandLine.Run

/-!
# The command

A run of the command line on the files of the machine: what the arguments name is taken into a file
system (`CommandLine.takeIn`), the run is made on it, and what it leaves behind is printed and
written back (`CommandLine.leave`). All decisions are those of `CommandLine.run`.
-/

namespace TemplateTree.CommandLine

/-! ## 1. Texts and paths of the machine -/

/-- A text as the machine prints it, which has no lone surrogates. -/
def machineText (t : Text) : String :=
  String.ofList (t.map fun c => match c with
    | .scalar c => c
    | .surrogate _ => '\ufffd')

/-- The path of the machine with some names on the way from the root. -/
def machinePath (names : List Text) : String := machineText ("/" ++ Text.join "/" names)

/-- The places that are passed on the way along some names, without the first one. -/
def passed (place : List Text) : List Text → List (List Text)
  | [] => []
  | name :: rest =>
    let place := if name = FilePath.up then place.dropLast else place ++ [name]
    place :: passed place rest

/-- The places from the root that are passed on the way along a path. -/
def passedBy (current : List Text) (p : FilePath) : List (List Text) :=
  passed [] (if p.isAbsolute then p.names else current ++ p.names)

/-! ## 2. In and out -/

/-- What stands at a path of the machine; a file that cannot be read does not. -/
def entryAt (path : String) : IO (Option Entry) := do
  let place := (← IO.currentDir) / path
  if ← place.isDir then
    return some .directory
  try
    return some (.file (← IO.FS.readBinFile place).toList)
  catch _ =>
    return none

/-- The file system of what the machine has along the paths that a run looks at. -/
def takeIn (current : List Text) (paths : List FilePath) : IO FileSystem := do
  let mut fs : FileSystem := { current }
  for names in paths.flatMap (passedBy current) do
    if (fs.at? names).isNone then
      if let some entry ← entryAt (machinePath names) then
        fs := fs.put names entry
  return fs

/-- What is told about an ending that says nothing itself. -/
def Ending.notice : Ending → String
  | .success => ""
  | .error => ""
  | .crash _ => "The run was given up.\n"
  | .badUsage => "Usage: tplc [OPTIONS] [TREE]\n"

/-- Prints what a run prints and logs, and writes the files that it changed. -/
def leave (before : FileSystem) (outcome : Outcome) : IO Unit := do
  for (names, entry) in outcome.files.entries do
    if entry = .directory ∧ (before.at? names).isNone then
      IO.FS.createDirAll (machinePath names)
  for (names, content) in FileSystem.changed before outcome.files do
    IO.FS.writeBinFile (machinePath names) ⟨content.toArray⟩
  for r in outcome.log do
    IO.eprintln (machineText r.message)
  IO.eprint (machineText outcome.errors ++ outcome.ending.notice)
  IO.print (machineText outcome.output)

end TemplateTree.CommandLine

open TemplateTree in
/-- Runs the command line. -/
def main (args : List String) : IO UInt32 := do
  let arguments := args.map Text.ofString
  let current := (FilePath.ofText (Text.ofString (← IO.currentDir).toString)).names
  let debug := (← IO.getEnv "TPLC_DEBUG").any (! ·.isEmpty)
  let paths := match Options.parse arguments with
    | .ok o => o.paths
    | .error _ => []
  let fs ← CommandLine.takeIn current (⟨.single, current⟩ :: paths)
  let outcome := CommandLine.run fs debug arguments
  CommandLine.leave fs outcome
  return outcome.ending.exitCode.toUInt32
