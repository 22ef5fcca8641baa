import MacroExpand.Files
import MacroExpand.Log
import MacroExpand.Text.Pattern
import MacroExpand.Report

/-!
# Builds

A build collects the files that it is made of and loads one after another.
-/

set_option autoImplicit false

namespace MacroExpand

/-!
## What a build is made of

Sources are files and directories.  A directory stands for all files below it that are expanded, in
order, at the paths they have in it; any other source stands for itself, at its last part.
-/

/-- A file to build, and where its result goes below the output directory. -/
structure BuildItem where
  source : PathText
  relative : PathText
  deriving DecidableEq, Repr, Inhabited

namespace BuildItem

def isWanted (pattern : Pattern) (path : PathText) : Bool := pattern.occursIn path.text

def below (directory : PathText) (parts : List Text) : BuildItem :=
  ⟨{ directory with parts := directory.parts ++ parts }, ⟨.posix, [], [], parts⟩⟩

def alone (source : PathText) : BuildItem := ⟨source, ⟨.posix, [], [], [source.name]⟩⟩

def inDirectory (pattern : Pattern) (files : Files) (directory : PathText) : List BuildItem :=
  let place := files.place directory
  let found := (files.below place).map fun p => below directory (p.drop place.length)
  found.filter fun item => isWanted pattern item.source

def ofSource (pattern : Pattern) (files : Files) (source : PathText) : List BuildItem :=
  if files.isDirectory (files.place source) then inDirectory pattern files source
  else if isWanted pattern source then [alone source]
  else []

end BuildItem

/-- The files that sources stand for, source after source. -/
def collect (pattern : Pattern) (files : Files) (sources : List PathText) : List BuildItem :=
  sources.flatMap (BuildItem.ofSource pattern files)

def passedOver (pattern : Pattern) (patternText : Text) (files : Files) (sources : List PathText) :
    List LogEntry :=
  (sources.filter fun source =>
      !files.isDirectory (files.place source) && !BuildItem.isWanted pattern source).map fun source =>
    ⟨.debug, .loading, chars "Skipping " ++ source.text ++ chars " (does not match " ++
      patternText ++ chars ")"⟩

/-!
## Loading and building files

Loading a file reads it and expands its macros.  Building loads files one after another and writes
each result, with its source map beside it, below an output directory.  The first failure ends a
build, and what was written before it stays.
-/

/-- Why a file cannot be loaded or its result not be written. -/
inductive LoadError where
  | file (error : FileError)
  | encoding (error : Utf8Error)
  /-- The pass over a file failed. -/
  | pass (path : Text) (error : PassError)
  deriving Repr, Inhabited

def LoadError.toReport : LoadError → Report
  | .file e => e.toReport
  | .encoding e => e.toReport
  | .pass _ e => e.toReport

abbrev BuildM := ExceptT LoadError (StateM (PassState World))

/-- A loaded file. -/
structure Loaded where
  contents : Text
  /-- The ending of the file without its dots. -/
  kind : Text
  sourceMap : Option SourceMap
  /-- The macros that were defined. -/
  names : List String
  deriving Repr, Inhabited

namespace Build

/-- What a build works with. -/
structure Context where
  settings : Settings
  pattern : Pattern
  execute : Executor World

def orFail {α : Type} : Except FileError α → BuildM α
  | .ok a => return a
  | .error e => throw (.file e)

def report (entries : List LogEntry) : BuildM Unit :=
  modify fun s => { s with log := s.log ++ entries }

def files : BuildM Files := do return (← get).world.files

def change (result : Except FileError Files) : BuildM Unit := do
  let files ← orFail result
  modify fun s => { s with world := { s.world with files } }

def readText (path : PathText) : BuildM Text := do
  let bytes ← orFail ((← files).read path)
  match utf8Decode bytes with
  | .ok text => return text
  | .error e => throw (.encoding e)

def writeText (path : PathText) (text : Text) : BuildM Unit := do
  change ((← files).write path text.utf8)

/-- Read a file and expand its macros. -/
def load (c : Context) (path : PathText) : BuildM Loaded := do
  let source ← readText path
  let expanded ← ExceptT.adapt (LoadError.pass path.text)
    (expandMacros c.settings c.execute source path.text)
  return { contents := expanded.emitted.code, kind := path.suffix.dropWhile (· == '.')
           sourceMap := if c.settings.emitSourceMaps then some expanded.emitted.sourceMap else none
           names := expanded.names }

def items (c : Context) (sources : List PathText) : BuildM (List BuildItem) := do
  let files ← files
  report (passedOver c.pattern c.settings.filePattern files sources)
  return collect c.pattern files sources

/-- A built file. -/
structure Output where
  source : PathText
  target : PathText
  mapPath : Option PathText
  names : List String
  deriving Repr, Inhabited

def mapPathOf (target : PathText) : PathText :=
  { target with parts := target.parts.dropLast ++ [target.name ++ chars ".map"] }

def writeMap (target : PathText) (map : SourceMap) : BuildM PathText := do
  let path := mapPathOf target
  writeText path ({ map with file := target.name } : SourceMap).toJson.render
  return path

def buildItem (c : Context) (directory : PathText) (item : BuildItem) : BuildM Output := do
  let target := directory.join item.relative
  change ((← files).makeDirectories target.parent)
  let loaded ← load c item.source
  writeText target loaded.contents
  let mapPath ← loaded.sourceMap.mapM (writeMap target)
  report [⟨.info, .loading,
    chars "Built " ++ item.source.text ++ chars " -> " ++ target.text⟩]
  return ⟨item.source, target, mapPath, loaded.names⟩

/-- Build the files that sources stand for below a directory. -/
def run (c : Context) (sources : List PathText) (directory : PathText) : BuildM (List Output) := do
  (← items c sources).mapM (buildItem c directory)

def print (c : Context) (sources : List PathText) : BuildM Unit := do
  (← items c sources).forM fun item => do
    let loaded ← load c item.source
    modify fun s => { s with world := { s.world with printed := loaded.contents :: s.world.printed } }

end Build

end MacroExpand
