import MacroExpand.Macro.Scan
import MacroExpand.Macro.Rewriting
import MacroExpand.Macro.Removal
import MacroExpand.Value.Drain
import MacroExpand.Cache
import MacroExpand.Emit

/-!
# Expanding a file

A pass scans a file, runs every macro that is called, replaces the calls by the results, removes the
definitions and emits the code.  How a macro runs is a parameter of the pass.  Calls between macros
are expanded in the calling macro before it runs, and a macro that reaches itself that way fails.
-/

set_option autoImplicit false

namespace MacroExpand

/-- Why running a macro gives no expression. -/
inductive RunError where
  /-- The macro failed. -/
  | failed (failure : Failure)
  /-- Its result cannot be written. -/
  | unwritable (error : SerializeError)
  /-- It ended the whole pass. -/
  | interrupted (kind message : String)
  deriving Repr, Inhabited

/-- Why a pass fails. -/
inductive PassError where
  | fault (fault : SourceFault)
  | scan (error : ScanError)
  | failure (failure : Failure)
  | unwritable (error : SerializeError)
  | interrupted (kind message : String)
  | expansion (error : ExpansionError)
  | emit (error : EmitError)
  /-- Somebody else is computing the result. -/
  | waiting (ticket : Nat)
  deriving Repr, Inhabited

/-- One run of a macro: the definition with the calls in it expanded, the text of the arguments, and
the call it is run for. -/
structure Invocation where
  definition : Definition
  arguments : Text
  site : CallSite
  deriving Repr, Inhabited

/-- The outcome of a run, what was logged, and the world after it. -/
structure Ran (σ : Type) where
  outcome : Except RunError Text
  log : List LogEntry
  world : σ

/-- How macros run: the world is whatever runs can change. -/
abbrev Executor (σ : Type) := Invocation → σ → Ran σ

/-- What passes share and leave behind. -/
structure PassState (σ : Type) where
  cache : Cache CacheKey Text := {}
  runs : List Invocation := []
  log : List LogEntry := []
  world : σ

/-- A step of a pass.  A step that fails keeps what it changed. -/
abbrev PassM (σ : Type) := ExceptT PassError (StateM (PassState σ))

/-- The result of a pass. -/
structure Expanded where
  emitted : Emitted
  /-- The macros that were defined, in alphabetical order. -/
  names : List String := []
  deriving Repr, Inhabited

namespace Pass

variable {σ : Type}

def report (entries : List LogEntry) : PassM σ Unit :=
  modify fun s => { s with log := s.log ++ entries }

def reportDebug (area : LogArea) (parts : List Text) : PassM σ Unit :=
  report [⟨.debug, area, parts.flatten⟩]

/-- What a pass over a file works with. -/
structure Context (σ : Type) where
  settings : Settings
  execute : Executor σ
  source : Text
  lines : List Text
  scan : Scan

def failureOf (kind : FailureKind) (d : Definition) (message : String) : Failure :=
  { kind, message, path := some (String.ofList d.path), line := some d.line
    column := some d.column, name := some d.name }

def failedRun (d : Definition) (kind text : String) : Failure :=
  failureOf .execution d ("macro " ++ quotedString d.name ++ " failed: " ++ kind ++ ": " ++ text)

/-- A macro reaches itself through the calls in `chain`. -/
def cycle (d : Definition) (chain : List String) : PassError :=
  .failure (failureOf .execution d ("macro " ++ quotedString d.name ++ " calls itself: " ++
    " -> ".intercalate (chain ++ [d.name])))

def ofRunError (d : Definition) : RunError → PassError
  | .failed f => .failure f
  | .interrupted kind message => .interrupted kind message
  | .unwritable .requestNotRead => .unwritable .requestNotRead
  | .unwritable .responseNotRead => .unwritable .responseNotRead
  | .unwritable e => .failure (failureOf .serialization d
      ("result of macro " ++ quotedString d.name ++ ": " ++ e.message))

def run (c : Context σ) (call : Invocation) : PassM σ Text := do
  reportDebug .pass
    [chars "Executing macro ", call.definition.name.toList, chars " from ", call.definition.path]
  modify fun s => { s with runs := s.runs ++ [call] }
  let s ← get
  let ran := c.execute call s.world
  set { s with world := ran.world, log := s.log ++ ran.log }
  match ran.outcome with
  | .ok expression => return expression
  | .error e => throw (ofRunError call.definition e)

def cached (key : CacheKey) (compute : PassM σ Text) : PassM σ Text := do
  let s ← get
  let (cache, claim) := s.cache.claim key
  match claim with
  | .hit expression => do
      reportDebug .cache [chars "Cache hit: ", key.text]
      return expression
  | .wait ticket => do
      reportDebug .cache [chars "Waiting for in-flight computation: ", key.text]
      throw (.waiting ticket)
  | .own _ => do
      set { s with cache }
      let expression ← tryCatch compute fun e => do
        modify fun s => { s with cache := s.cache.release key }
        throw e
      let s ← get
      let (cache, stored) := s.cache.settle key expression
      set { s with cache }
      reportDebug .cache [chars "Cache store: ", key.text]
      return stored

def replace (r : Rewriting) (site : CallSite) (expression : Text) : PassM σ Rewriting := do
  match r.expand site expression with
  | .error e => throw (.expansion e)
  | .ok (r, _) => do
      report [Rewriting.entry site]
      return r

/-- The arguments of a call, where calls in them are replaced. -/
def argumentsOf (c : Context σ) (r : Rewriting) (site : CallSite) : PassM σ Text :=
  match c.source.splice r.edits (some (site.argsSpan.start, site.argsSpan.stop)) with
  | .ok text => return text
  | .error e => throw (.emit (.edit e))

/-- Expand calls one after another with a given way to get the result of a call. -/
def expandSites (c : Context σ) (result : Definition → CallSite → Text → PassM σ Text) :
    Rewriting → List CallSite → PassM σ Rewriting
  | r, [] => return r
  | r, site :: rest => do
      match c.scan.definition? site.name with
      | none => expandSites c result r rest
      | some callee => do
          let arguments ← argumentsOf c r site
          let expression ← result callee site arguments
          expandSites c result (← replace r site expression) rest

def expandBody (c : Context σ) (result : Definition → CallSite → Text → PassM σ Text)
    (d : Definition) : PassM σ Definition := do
  if d.calls.isEmpty then return d
  let r ← expandSites c result {} d.calls
  reportDebug .pass [chars "Expanded ", Nat.toDigits 10 d.calls.length,
    chars " macro call(s) inside ", d.name.toList]
  return { d with tree := Rewriting.apply r.expansions d.tree }

/-- The result of a macro for a call.  `chain` holds the macros that are being expanded, outermost
first; a name that is in it again is a cycle.  `free` counts the macros that are not in it. -/
def expandMacro (c : Context σ) :
    Nat → List String → Definition → CallSite → Text → PassM σ Text
  | free, chain, d, site, arguments =>
    if chain.contains d.name then throw (cycle d chain)
    else match free with
      | 0 => throw (cycle d chain)
      | free + 1 =>
        cached (d.cacheKey c.settings.cachePolicy) do
          let ready ← expandBody c (expandMacro c free (chain ++ [d.name])) d
          run c ⟨ready, arguments, site⟩

def emitOptions (settings : Settings) (path : Text) : EmitOptions :=
  { retainLines := settings.retainLines, provenance := settings.provenanceComments
    provenanceTag := settings.provenanceTag, fileName := path }

def emitOrFail (tree : Tree) (source : Text) (edits : List Edit) (options : EmitOptions) :
    PassM σ Emitted :=
  match emit tree source edits options with
  | .ok emitted => return emitted
  | .error e => throw (.emit e)

def expandFile (c : Context σ) (path : Text) (tree : Tree) : PassM σ Expanded := do
  let definitions := c.scan.definitions
  let r ← expandSites c (expandMacro c definitions.length []) {} c.scan.sites
  let rewritten := Rewriting.apply r.expansions tree
  let removal := (Removal.Context.of definitions c.lines).strip rewritten
  report removal.log
  let emitted ← emitOrFail removal.kept c.source (r.edits ++ removal.edits)
    (emitOptions c.settings path)
  report [⟨.info, .pass, chars "Expanded " ++ path ++ chars ": " ++
    Nat.toDigits 10 definitions.length ++ chars " macro(s), " ++
    Nat.toDigits 10 c.scan.sites.length ++ chars " call site(s)"⟩]
  return ⟨emitted, c.scan.names⟩

end Pass

/-- Expand the macros of a file. -/
def expandMacros {σ : Type} (settings : Settings) (execute : Executor σ) (source path : Text) :
    PassM σ Expanded := do
  let tree ← match parseModule source (settings.typeCommentsFor path) with
    | .ok tree => pure tree
    | .error fault => throw (.fault fault)
  let lines := source.lines
  let (log, scanned) := scanTree path settings.directive lines tree
  Pass.report log
  match scanned with
  | .error e => throw (.scan e)
  | .ok scan =>
    if scan.definitions.isEmpty then
      Pass.reportDebug .pass [chars "No macros in ", path]
      let emitted ← Pass.emitOrFail tree source []
        { Pass.emitOptions settings path with retainLines := true, provenance := false }
      return ⟨emitted, []⟩
    else Pass.expandFile ⟨settings, execute, source, lines, scan⟩ path tree

end MacroExpand
