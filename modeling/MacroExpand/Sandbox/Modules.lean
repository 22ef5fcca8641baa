import MacroExpand.Sandbox.Documents
import MacroExpand.Sandbox.Places
import MacroExpand.Sandbox.NumberFunctions
import MacroExpand.Sandbox.Waiting
import MacroExpand.Syntax.Program
import MacroExpand.Syntax.Scope
import MacroExpand.Text.Codec

/-!
# Modules

A module is found next to the file of the program, among the known modules, or in the directories in
which modules are looked for by name.  A module is registered before its body runs, so that modules
may import each other.
-/

set_option autoImplicit false

namespace MacroExpand

namespace Sandbox

/-! ## Known modules -/

def functionsOf (module : String) : List (String × Value) :=
  functionTable.filterMap fun (key, name) =>
    if key == module ++ "." ++ name then some (name, Value.ref (functionCell key)) else none

def classesNamed (names : List String) : List (String × Value) :=
  names.map fun n => (n, classValue n)

def knownModules : List (String × List (String × Value)) := [
  ("math", functionsOf "math" ++ numberConstants.map fun (n, d) => (n, ofFloat d)),
  ("json", functionsOf "json" ++ classesNamed ["JSONDecodeError"]),
  ("tomllib", functionsOf "tomllib" ++ classesNamed ["TOMLDecodeError"]),
  ("os", functionsOf "os" ++ [("sep", ofString "/"), ("linesep", ofString "\n"),
    ("name", ofString "posix"), ("curdir", ofString ".")]),
  ("posixpath", functionsOf "os.path" ++ [("sep", ofString "/")]),
  ("datetime", classesNamed ["date", "datetime", "time", "timedelta", "timezone", "tzinfo"] ++
    [("UTC", .ref utcCell), ("MINYEAR", ofInt 1), ("MAXYEAR", ofInt 9999)]),
  ("pathlib", classesNamed
    ["PurePath", "PurePosixPath", "PureWindowsPath", "Path", "PosixPath"]),
  ("asyncio", functionsOf "asyncio" ++ classesNamed ["CancelledError", "Event", "TimeoutError"] ++
    [("timeout", .ref (functionCell "timeout"))]),
  ("collections", classesNamed ["OrderedDict"]), ("decimal", classesNamed ["Decimal"]),
  ("fractions", classesNamed ["Fraction"]), ("uuid", classesNamed ["UUID"]),
  ("functools", functionsOf "functools"), ("textwrap", functionsOf "textwrap"),
  ("time", functionsOf "time"), ("importlib", functionsOf "importlib"),
  ("httpx", classesNamed ["URL", "QueryParams", "Headers", "Request", "Response", "Client",
    "AsyncClient", "UnsupportedProtocol", "InvalidURL"]),
  ("macrobuild", []), ("macrobuild.services", []), ("macrobuild.core", []),
  ("macrobuild.core.errors",
    classesNamed ["MacroError", "NamingError", "ExecutionError", "SerializationError"]),
  ("macrobuild.services.macros", classesNamed ["MacroCache", "MacroEngine", "SerializedResult",
    "TransformResult"] ++ [("macro_cache", .ref sharedStoreCell)]),
  ("macrobuild.services.macros.cache", classesNamed ["MacroCache"] ++
    [("macro_cache", .ref sharedStoreCell)]),
  ("macrobuild.services.macros.context", classesNamed ["SerializedResult"]),
  ("macrobuild.services.macros.engine", classesNamed ["MacroEngine", "TransformResult"]),
  ("__future__", []),
  ("builtins", (plainFunctions.map fun n => (n, Value.ref (functionCell n))) ++
    (plainClasses.map Prod.fst).map fun n => (n, classValue n))]

def otherModules : List String := [
  "abc", "argparse", "ast", "base64", "binascii", "bisect", "calendar", "cmath", "codecs",
  "collections.abc", "concurrent", "concurrent.futures", "configparser", "contextlib", "copy", "csv",
  "dataclasses", "difflib", "dis", "email", "enum", "errno", "fnmatch", "gc", "getpass", "glob",
  "gzip", "hashlib", "heapq", "hmac", "html", "http", "http.client", "importlib.util", "inspect",
  "io", "ipaddress", "itertools", "json.decoder", "json.encoder", "keyword", "linecache", "locale",
  "logging", "logging.config", "mimetypes", "multiprocessing", "numbers", "operator", "pickle",
  "pkgutil", "platform", "pprint", "queue", "random", "re", "reprlib", "secrets", "select", "shelve",
  "shlex", "shutil", "signal", "site", "socket", "sqlite3", "ssl", "stat", "statistics", "string",
  "struct", "subprocess", "sys", "sysconfig", "tempfile", "threading", "timeit", "token", "tokenize",
  "traceback", "types", "typing", "unicodedata", "unittest", "urllib", "urllib.parse",
  "urllib.request", "warnings", "weakref", "xml", "xml.etree", "xml.etree.ElementTree", "zipfile",
  "zlib", "zoneinfo"]

def packages : List String := [
  "asyncio", "collections", "concurrent", "email", "html", "http", "importlib", "json", "logging",
  "macrobuild", "macrobuild.core", "macrobuild.services", "macrobuild.services.macros",
  "multiprocessing", "tomllib", "unittest", "urllib", "xml", "xml.etree", "zoneinfo", "sqlite3",
  "httpx"]

def ownName (name : String) : String := if name == "os.path" then "posixpath" else name

def knownModule? (name : String) : Option (List (String × Value)) :=
  match knownModules.find? fun m => m.1 == ownName name with
  | some m => some m.2
  | none => if otherModules.contains name then some [] else none

/-! ## Making and running modules -/

def newModule (name : String) (bindings : List (String × Value)) : Eval (Value × Nat) := do
  let scope ← alloc (.scope { bindings })
  match scope with
  | .ref i => do return (← alloc (.module name i), i)
  | .scalar _ => return (scope, 0)

def fileName (path : Text) : Text := (PathText.posix path).name

def raiseSource {α : Type} (file : Text) (fault : SourceFault) : Eval α := do
  if fault.kind = .nullCharacter then valueError fault.message
  throw (.raised (← newExceptionOf (classCell fault.kind.name) [ofString fault.message]
    [("filename", ofText (fileName file)), ("lineno", ofNat fault.line),
      ("offset", ofNat (fault.column + 1))]))

def readSource (path : PathText) : Eval Text := do
  let bytes ← readFile path
  match sourceText bytes with
  | .ok text => return text
  | .error e => raiseSource path.text ⟨.grammar, e.message, e.line bytes, 0⟩

def plainModule (place : Place) : Eval ModuleText := do
  return ⟨← readSource (Files.pathOf place), true⟩

def runText (r : Interpreter) (scope : Nat) (file text : Text) : Eval Unit := do
  match Program.ofText text with
  | .error fault => raiseSource file fault
  | .ok statements => discard (r.exec { scope, globals := scope } statements)

/-! ## Modules next to a program -/

def importerAt (k : Nat) : Eval Importer := do return (← get).importers.getD k default

def register (k : Nat) (place : Place) (module : Value) : Eval Unit :=
  modify fun m => { m with importers := m.importers.modify k fun i =>
    { i with modules := i.modules ++ [(place, module)] } }

/-- The module at a place: the registered one, or one that is made, registered and then filled.  A
module stays registered even if filling it fails. -/
def loadOnce (k : Nat) (place : Place) (make : Eval (Value × Nat)) (fill : Nat → Eval Unit) :
    Eval Value := do
  match (← importerAt k).modules.find? fun e => e.1 = place with
  | some e => return e.2
  | none =>
    let (module, scope) ← make
    register k place module
    fill scope
    return module

def loadPlace (r : Interpreter) (k : Nat) (place : Place) : Eval Value := do
  let path := Files.pathOf place
  let known := (← importerAt k).modules.any fun e => e.1 = place
  if !known && path.suffix ≠ chars ".py" then
    raise "ImportError" ("cannot load module from " ++ String.ofList path.text)
  let name := "__macro__." ++ String.ofList path.stem
  loadOnce k place
    (newModule name [("__name__", ofString name), ("__package__", ofString "__macro__"),
      ("__file__", ofText path.text)])
    fun scope => do
      runText r scope path.text (← readSource path)
      report .debug .sandbox (chars "Loaded sandbox module " ++ path.text)

/-! ## Modules by name -/

def keepModule (name : String) (module : Value) : Eval Unit :=
  modify fun m => { m with modules := bind m.modules name module }

def forgetModule (name : String) : Eval Unit :=
  modify fun m => { m with modules := m.modules.filter fun e => e.1 != name }

def findModule (files : Files) (directory : Place) (short : String) : Option (Place × Bool) :=
  let package := directory ++ [short.toList]
  if files.isFile (package ++ [chars "__init__.py"]) then
    some (package ++ [chars "__init__.py"], true)
  else
    let file := directory ++ [short.toList ++ chars ".py"]
    if files.isFile file then some (file, false)
    else if files.isDirectory package then some (package, true)
    else none

def loadNamed (r : Interpreter) (name : String) (place : Place) (isPackage : Bool) : Eval Value := do
  let files := (← get).files
  let isSpace := files.isDirectory place
  let directory := if isSpace then place else place.dropLast
  let parent := if isPackage then name
    else ".".intercalate ((name.splitOn ".").dropLast)
  let path := Files.pathOf place
  let paths ← newList [ofText (Files.pathOf directory).text]
  let bindings := [("__name__", ofString name), ("__package__", ofString parent)] ++
    (if isSpace then [] else [("__file__", ofText path.text)]) ++
    (if isPackage then [("__path__", paths)] else [])
  let (module, scope) ← newModule name bindings
  keepModule name module
  if isSpace then return module
  tryCatch (do
      let source ← r.prepare place
      match Program.ofText source.text with
      | .error fault => raiseSource path.text fault
      | .ok statements =>
        if source.isKept then modify fun m => { m with compiled := place :: m.compiled }
        discard (r.exec { scope, globals := scope } statements)) fun e => do
    forgetModule name
    throw e
  return ((lookup (← get).modules name).getD module)

def moduleScope? (v : Value) : Eval (Option Nat) := do
  match (← cell? v) with
  | some (.module _ scope) => return some scope
  | _ => return none

def packageDirectory? (v : Value) : Eval (Option Place) := do
  match (← moduleScope? v) with
  | none => return none
  | some scope =>
    match lookup (← scopeAt scope).bindings "__path__" with
    | some paths =>
      match (← core? paths) with
      | some (.list (.scalar (.str t) :: _)) => return some (PathText.posix t).parts
      | _ => return none
    | none => return none

def noModule {α : Type} (name : String) : Eval α :=
  raise "ModuleNotFoundError" ("No module named '" ++ name ++ "'")

def importParts (r : Interpreter) (first : Option Value) (done : String) (parent : Option Value) :
    List String → Eval (Value × Value)
  | [] => return (first.getD nil, parent.getD nil)
  | part :: rest => do
      let name := if done.isEmpty then part else done ++ "." ++ part
      let module ← match lookup (← get).modules name, knownModule? name with
        | some v, _ => pure v
        | none, some bindings => do
            let bindings ← if name == "os" then do
                let path ← importKnown "os.path"
                pure (bindings ++ [("path", path),
                  ("environ", ← alloc (.environment (← get).environment))])
              else if name == "__future__" then
                Program.features.mapM fun n => do
                  return (n, ← alloc (.object (classCell "_Feature") [] none))
              else pure bindings
            let (v, _) ← newModule (ownName name) bindings
            keepModule name v
            pure v
        | none, none => do
            let directories ← match parent with
              | none => pure (← get).searched
              | some p =>
                match (← packageDirectory? p) with
                | some d => pure [d]
                | none =>
                  if packages.contains done then noModule name
                  else raise "ModuleNotFoundError" ("No module named '" ++ name ++ "'; '" ++
                    done ++ "' is not a package")
            let files := (← get).files
            match directories.findSome? fun d => findModule files d part with
            | some (place, isPackage) => loadNamed r name place isPackage
            | none => noModule name
      match parent with
      | some p =>
        match (← moduleScope? p) with
        | some scope => bindIn scope part module
        | none => pure ()
      | none => pure ()
      importParts r (some (first.getD module)) name (some module) rest
where
  importKnown (name : String) : Eval Value := do
    match lookup (← get).modules name with
    | some v => return v
    | none =>
      let (v, _) ← newModule (ownName name) ((knownModule? name).getD [])
      keepModule name v
      return v

def importFull (r : Interpreter) (name : String) : Eval (Value × Value) := do
  if name.isEmpty then valueError "Empty module name"
  importParts r none "" none (name.splitOn ".")

def absoluteName (globals : Nat) (name : String) (level : Nat) : Eval String := do
  if level = 0 then return name
  let bindings := (← scopeAt globals).bindings
  let package := match lookup bindings "__package__" with
    | some (.scalar (.str p)) => String.ofList p
    | _ => ""
  if package.isEmpty then
    raise "ImportError" "attempted relative import with no known parent package"
  let parts := package.splitOn "."
  if parts.length < level then
    raise "ImportError" "attempted relative import beyond top-level package"
  let base := ".".intercalate (parts.take (parts.length - (level - 1)))
  return if name.isEmpty then base else base ++ "." ++ name

/-- Import for a file: a plain name may stand for a file next to the program.  The first module of
the name and the last one. -/
def importFor (r : Interpreter) (globals : Nat) (name : String) (level : Nat) :
    Eval (Value × Value) := do
  let files := (← get).files
  match level, (← scopeAt globals).importer with
  | 0, some k =>
    if !name.toList.contains '.' then
      let place := (← importerAt k).base ++ [name.toList ++ chars ".py"]
      if files.isFile place then
        let v ← loadPlace r k place
        return (v, v)
    importFull r name
  | level, _ => do importFull r (← absoluteName globals name level)

def importedFrom (r : Interpreter) (module : Value) (name : String) : Eval Value := do
  match (← cell? module) with
  | some (.module moduleName scope) =>
    let bindings := (← scopeAt scope).bindings
    match lookup bindings name with
    | some v => return v
    | none =>
      let full := moduleName ++ "." ++ name
      let mayHold := (lookup bindings "__path__").isSome || (knownModule? full).isSome
      let sub ← if mayHold then
          tryCatch (do return some (← importFull r full).2) fun e => do
            match e with
            | .raised exc =>
              if (← isKnown exc "ModuleNotFoundError") then return none else throw e
            | e => throw e
        else pure none
      match sub with
      | some v => return v
      | none =>
        let place := match lookup bindings "__file__" with
          | some (.scalar (.str t)) => String.ofList t
          | _ => "unknown location"
        raise "ImportError" ("cannot import name '" ++ name ++ "' from '" ++ moduleName ++
          "' (" ++ place ++ ")")
  | _ => raise "ImportError" ("cannot import name '" ++ name ++ "'")

/-! ## Functions -/

def fileText (path : PathText) : Eval Text := do
  return Text.unifyLineEnds (← decoded .utf8 (chars "strict") (← readFile path))

def requirePath (r : Interpreter) (k : Nat) (path : PathText) : Eval Value := do
  let base := (← importerAt k).base
  let full := (Files.pathOf base).resolve path
  if full.suffix = chars ".json" then
    readJson r {} (← fileText full)
  else if full.suffix = chars ".toml" then
    readToml (← fileText full)
  else if (← get).files.isDirectory full.parts then
    loadPlace r k (full.parts ++ [chars "__init__.py"])
  else loadPlace r k full.parts

def importPlain (r : Interpreter) (k : Nat) (name : String) : Eval Value := do
  let place := (← importerAt k).base ++ [name.toList ++ chars ".py"]
  if !name.toList.contains '.' && (← get).files.isFile place then loadPlace r k place
  else return (← importFull r name).1

def importByName (r : Interpreter) (k : Nat) (name : String) : Eval Value := do
  if name.startsWith "." then
    typeError ("the 'package' argument is required to perform a relative import for '" ++ name ++ "'")
  if name.toList.contains '.' then return (← importFull r name).2 else importPlain r k name

def moduleNatives : List Native := [
  .method "ScopedImporter" "require" "relpath" fun r _ a => do
    let v := a.under "relpath"
    match (← text? v), (← state? v) with
    | some t, _ => requirePath r 0 (.posix t)
    | none, some (.path p) => requirePath r 0 p
    | none, _ =>
      match (← callOwn? r v "__fspath__" []) with
      | some x => do requirePath r 0 (← pathFrom r .posix x)
      | none =>
        typeError ("unsupported operand type(s) for /: 'PosixPath' and '" ++ (← typeName v) ++
          "'"),
  .method "ScopedImporter" "import_module" "name" fun r _ a => do
    let v := a.under "name"
    match (← text? v) with
    | some t => importByName r 0 (String.ofList t)
    | none =>
      let dotted ← contains r v (ofString ".")
      if dotted then
        raise "AttributeError" ("'" ++ (← typeName v) ++ "' object has no attribute 'startswith'")
      typeError ("__import__() argument 1 must be str, not " ++ (← typeName v)),
  .declared "importlib.import_module" "import_module" "name package=" fun r a => do
    match (← text? (a.under "name")) with
    | some t => return (← importFull r (String.ofList t)).2
    | none => noAttribute (a.under "name") "startswith"]

end Sandbox

end MacroExpand
