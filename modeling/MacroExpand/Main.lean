import MacroExpand.CommandLine.Program

/-!
# The command

The command reads the files below the working directory and below the sources it is given, runs the
program on them, and writes the files that the program changed.
-/

set_option autoImplicit false

namespace MacroExpand

namespace Shell

/-- Add what stands at an entry of a directory, and all below it. -/
partial def addEntry (files : Files) (entry : IO.FS.DirEntry) : IO Files := do
  let path := PathText.posix entry.path.toString.toList
  if (← entry.path.isDir) then
    (← entry.path.readDir).foldlM addEntry (files.add path .directory)
  else if (← entry.path.pathExists) then
    return files.add path (.file (← IO.FS.readBinFile entry.path).toList)
  else return files

def environment : IO (List (Text × Text)) := do
  let bytes ← IO.FS.readBinFile "/proc/self/environ"
  let entries := (utf8DecodeLoosely 0 [] bytes.toList).splitOn '\x00'
  return entries.filterMap fun entry =>
    match entry.dropWhile (· != '=') with
    | [] => none
    | _ :: value => some (entry.takeWhile (· != '='), value)

def world (args : List String) : IO World := do
  let home ← IO.currentDir
  let start : Files := { home := (PathText.posix home.toString.toList).parts }
  let files ← ("." :: args).foldlM (fun files arg => addEntry files ⟨home, arg⟩) start
  return { files, environment := ← environment }

def writeBack (before after : Files) : IO Unit := do
  for (place, node) in after.nodes do
    if before.at? place ≠ some node then
      let path := String.ofList (Files.pathOf place).text
      match node with
      | .directory => IO.FS.createDirAll path
      | .file bytes => IO.FS.writeBinFile path ⟨bytes.toArray⟩

def endingOf : CommandLine.Ending → String × UInt32
  | .exit status => ("", status.toUInt32)
  | .escaped report => (report.kind ++ ": " ++ String.ofList report.text ++ "\n", 1)
  | .unsettled (.refused errors) =>
    ("".intercalate (errors.map fun e => e.field ++ ": " ++ e.fault.code ++ "\n"), 1)
  | .unsettled (.undecodable e) => (e.message ++ "\n", 1)

end Shell

end MacroExpand

open MacroExpand in
def main (args : List String) : IO UInt32 := do
  let world ← Shell.world args
  let outcome := CommandLine.run world (args.map String.toList)
  Shell.writeBack world.files outcome.files
  let (last, status) := Shell.endingOf outcome.ending
  IO.print (String.ofList outcome.output)
  IO.eprint (String.ofList outcome.errors ++ last)
  return status
