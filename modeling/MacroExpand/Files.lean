import MacroExpand.Settings.Basic
import MacroExpand.Value.PathText
import MacroExpand.Text.Quoted
import MacroExpand.Text.Utf8

/-!
# Files

A file system is a list of files and directories by absolute place, seen from a working directory.
There are no links, so a place without double dots names one thing.  Programs see files and variables, look for modules
in some directories, and print.
-/

set_option autoImplicit false

namespace MacroExpand

/-- What stands at a place. -/
inductive FileNode where
  | file (bytes : List UInt8)
  | directory
  deriving DecidableEq, Repr, Inhabited

/-- Why a file operation fails. -/
inductive FileFault where
  | missing
  | exists
  | notDirectory
  | isDirectory
  | notEmpty
  deriving DecidableEq, Repr, Inhabited

namespace FileFault

def code : FileFault → Nat
  | .missing => 2
  | .exists => 17
  | .notDirectory => 20
  | .isDirectory => 21
  | .notEmpty => 39

def name : FileFault → String
  | .missing => "FileNotFoundError"
  | .exists => "FileExistsError"
  | .notDirectory => "NotADirectoryError"
  | .isDirectory => "IsADirectoryError"
  | .notEmpty => "OSError"

def reason : FileFault → String
  | .missing => "No such file or directory"
  | .exists => "File exists"
  | .notDirectory => "Not a directory"
  | .isDirectory => "Is a directory"
  | .notEmpty => "Directory not empty"

end FileFault

/-- A failed file operation on a path. -/
structure FileError where
  fault : FileFault
  path : Text
  deriving DecidableEq, Repr, Inhabited

def FileError.message (e : FileError) : String :=
  "[Errno " ++ toString e.fault.code ++ "] " ++ e.fault.reason ++ ": " ++
    String.ofList (Text.quoted e.path)

/-- An absolute place: the parts from the root on. -/
abbrev Place := List Text

/-- The files and directories there are. -/
structure Files where
  /-- The working directory. -/
  home : Place
  nodes : List (Place × FileNode) := []
  deriving DecidableEq, Repr, Inhabited

namespace Files

def upTo (place : Place) : List Place := (List.range (place.length + 1)).map place.take

def place (files : Files) (path : PathText) : Place :=
  (PathText.resolve ⟨.posix, [], ['/'], files.home⟩ path).parts

def pathOf (place : Place) : PathText := ⟨.posix, [], ['/'], place⟩

def at? (files : Files) (place : Place) : Option FileNode :=
  if place.isPrefixOf files.home then some .directory
  else (files.nodes.find? fun n => n.1 = place).map Prod.snd

def isFile (files : Files) (place : Place) : Bool :=
  match files.at? place with
  | some (.file _) => true
  | _ => false

def isDirectory (files : Files) (place : Place) : Bool := files.at? place = some .directory

def put (files : Files) (place : Place) (node : FileNode) : Files :=
  if files.nodes.any fun n => n.1 = place then
    { files with nodes := files.nodes.map fun n => if n.1 = place then (place, node) else n }
  else { files with nodes := files.nodes ++ [(place, node)] }

def obstacle (files : Files) (place : Place) : Option FileFault :=
  if (upTo place.dropLast).any fun p => files.isFile p then some .notDirectory
  else if files.isDirectory place.dropLast then none
  else some .missing

def read (files : Files) (path : PathText) : Except FileError (List UInt8) :=
  let place := files.place path
  match files.at? place with
  | some (.file bytes) => .ok bytes
  | some .directory => .error ⟨.isDirectory, path.text⟩
  | none => .error ⟨(files.obstacle place).getD .missing, path.text⟩

def write (files : Files) (path : PathText) (bytes : List UInt8) : Except FileError Files :=
  let place := files.place path
  match files.at? place, files.obstacle place with
  | some .directory, _ => .error ⟨.isDirectory, path.text⟩
  | _, some fault => .error ⟨fault, path.text⟩
  | _, none => .ok (files.put place (.file bytes))

def makeDirectory (files : Files) (path : PathText) : Except FileError Files :=
  let place := files.place path
  match files.at? place, files.obstacle place with
  | some _, _ => .error ⟨.exists, path.text⟩
  | none, some fault => .error ⟨fault, path.text⟩
  | none, none => .ok (files.put place .directory)

def drop (files : Files) (path : PathText) (directory : Bool) : Except FileError Files :=
  let place := files.place path
  match files.at? place, directory with
  | none, _ => .error ⟨(files.obstacle place).getD .missing, path.text⟩
  | some .directory, false => .error ⟨.isDirectory, path.text⟩
  | some (.file _), true => .error ⟨.notDirectory, path.text⟩
  | some _, _ =>
    if files.nodes.any fun n => place.isPrefixOf n.1 && n.1 ≠ place then
      .error ⟨.notEmpty, path.text⟩
    else .ok { files with nodes := files.nodes.filter fun n => n.1 ≠ place }

def makeDirectories (files : Files) (path : PathText) : Except FileError Files :=
  let place := files.place path
  if files.isDirectory place then .ok files
  else if files.isFile place then .error ⟨.exists, path.text⟩
  else if (upTo place.dropLast).any fun p => files.isFile p then .error ⟨.notDirectory, path.text⟩
  else .ok ((upTo place).foldl
    (fun files p => if files.isDirectory p then files else files.put p .directory) files)

def add (files : Files) (path : PathText) (node : FileNode) : Files :=
  let place := files.place path
  let files := (upTo place.dropLast).foldl
    (fun files p => if files.isDirectory p then files else files.put p .directory) files
  files.put place node

def placeLE : Place → Place → Bool
  | [], _ => true
  | _ :: _, [] => false
  | a :: as, b :: bs => if a = b then placeLE as bs else a ≤ b

def below (files : Files) (directory : Place) : List Place :=
  let found := files.nodes.filterMap fun n =>
    match n.2 with
    | .file _ => if directory.isPrefixOf n.1 ∧ n.1 ≠ directory then some n.1 else none
    | .directory => none
  found.mergeSort placeLE

def textsBelow (files : Files) (directory : PathText) : List (PathText × Text) :=
  let place := files.place directory
  (files.below place).map fun p =>
    (directory.join ⟨.posix, [], [], p.drop place.length⟩,
      match files.at? p with
      | some (.file b) => utf8DecodeLoosely 0 [] b
      | _ => [])

end Files

/-! ## The world of a program -/

/-- What macros can see and change outside their own memory. -/
structure World where
  files : Files
  environment : List (Text × Text) := []
  /-- The directories in which modules are looked for by name. -/
  searched : List Place := []
  /-- What was printed, last first. -/
  printed : List Text := []
  deriving Repr, Inhabited

namespace World

def output (w : World) : Text := w.printed.reverse.flatten

def variableFile : Text := chars ".env"

def settings (w : World) : Except SettingsError Settings :=
  Settings.load w.environment (w.files.read (.posix variableFile)).toOption

end World

end MacroExpand
