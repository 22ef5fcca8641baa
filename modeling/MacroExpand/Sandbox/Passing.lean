import MacroExpand.Report
import MacroExpand.Sandbox.Starting

/-!
# Coroutines that follow scripts

A coroutine that computes a result for a cache, or expands a source text, follows a script.  It hands out
what its calls hand out while they are awaited, and a future while it waits for the computation of somebody
else.  What it is resumed with arrives where it stands.
-/

set_option autoImplicit false

namespace MacroExpand

namespace Sandbox

/-! ## Failures of passes -/

def raiseFailure {α : Type} (f : Failure) : Eval α := do
  let text := fun (name : String) (v : Option String) => (name, (v.map ofString).getD nil)
  let number := fun (name : String) (v : Option Int) => (name, (v.map ofInt).getD nil)
  throw (.raised (← newExceptionOf (classCell f.kind.name) [ofString f.report]
    [("message", ofString f.message), text "path" f.path, number "lineno" f.line,
      number "col_offset" f.column, text "macro" f.name]))

def raisePass {α : Type} (path : Text) (e : PassError) : Eval α := do
  match e with
  | .fault f => raiseSource path f
  | .expansion (.fault f) => raiseSource (chars "<unknown>") f
  | e =>
    let report := e.toReport
    match report.failure with
    | some f => raiseFailure f
    | none => raise report.kind (String.ofList report.text)

def delegateStep (r : Interpreter) (iterator : Value) (arrival : Arrival) :
    Eval (Except Value Step) := do
  let kind := match (← cell? iterator) with
    | some (.generator ..) => some "generator"
    | some (.coroutine ..) => some "coroutine"
    | _ => none
  match arrival with
  | .raised e =>
    let isExit ← isKnown e "GeneratorExit"
    match kind with
    | some kind =>
      if isExit then
        discard (closeGenerator r kind (generatorCell iterator))
        return .error e
      return .ok (← r.resume (generatorCell iterator) (.throw e))
    | none =>
      match (← getAttribute? r iterator (if isExit then "close" else "throw")) with
      | none => return .error e
      | some f =>
        if isExit then
          discard (r.call f {})
          return .error e
        return .ok (← stepping (r.call f ⟨[e], []⟩))
  | .value v =>
    if kind.isSome then return .ok (← r.resume (generatorCell iterator) (.send v))
    if v = nil then return .ok (← r.advance iterator)
    return .ok (← stepping (do r.call (← getAttribute r iterator "send") ⟨[v], []⟩))
  | .flow _ => return .ok (← r.advance iterator)

/-! ## Scripts in memory -/

inductive Begun where
  | result (value : Value)
  /-- It has to be awaited. -/
  | awaited (iterator : Value)

/-- How the steps of a script are made by a program. -/
structure Desk (κ ρ ν ε : Type) where
  key : κ → Eval Value
  start : ρ → Eval Begun
  /-- What a value that a call gave, or that was awaited, means. -/
  finish : ρ → Finished → Eval (Except ε ν)
  /-- What an exception that ended a call means. -/
  failed : ρ → Value → Eval ε
  /-- What an exception that arrives from outside means, and the exception that a failure is told as. -/
  caught : Value → ε
  told : ε → Eval Value
  /-- A result as it is stored, and the other way round. -/
  wrap : κ → ν → Eval Value
  unwrap : Value → Eval ν

namespace Desk

variable {κ ρ ν ε α : Type}

/-- Where a coroutine gets to: its end, or a value that it hands out. -/
inductive Halt (κ ρ ν ε α : Type) where
  | ended (result : Except ε α)
  | handing (value : Value) (stage : Stage κ ρ ν ε α)

def await (desk : Desk κ ρ ν ε) (r : Interpreter) (call : ρ) (iterator : Value) (arrival : Arrival) :
    Eval (Except Value (Except ε ν)) := do
  match (← attempt (delegateStep r iterator arrival)) with
  | .ok (.ok (.item v)) => return .error v
  | .ok (.ok (.stop v)) => return .ok (← desk.finish call ⟨v, true⟩)
  | .ok (.error e) | .error (.raised e) => return .ok (.error (← desk.failed call e))
  | .error s => throw s

def stepLimit : Nat := 10000000

def follow (desk : Desk κ ρ ν ε) (r : Interpreter) (store : Nat) :
    Nat → Script κ ρ ν ε α → Eval (Halt κ ρ ν ε α)
  | 0, _ => throw .exhausted
  | fuel + 1, script => do
      match script with
      | .done result => return .ended result
      | .report entries rest =>
        modify fun m => { m with log := m.log ++ entries }
        follow desk r store fuel rest
      | .claim key rest =>
        let number ← keyNumber r store (← desk.key key)
        match (← changeStore store fun cache => cache.claim number) with
        | .hit v => do follow desk r store fuel (rest (.hit (← desk.unwrap v)))
        | .wait ticket => follow desk r store fuel (rest (.wait ticket))
        | .own ticket => follow desk r store fuel (rest (.own ticket))
      | .await _ ticket rest =>
        return .handing (← alloc (.object (classCell "Future") [] none)) (.waiting ticket rest)
      | .run call rest =>
        match (← attempt (desk.start call)) with
        | .ok (.result v) => do follow desk r store fuel (rest (← desk.finish call ⟨v, false⟩))
        | .ok (.awaited iterator) =>
          match (← desk.await r call iterator (.value nil)) with
          | .error v => return .handing v (.calling iterator call rest)
          | .ok outcome => follow desk r store fuel (rest outcome)
        | .error (.raised e) => do follow desk r store fuel (rest (.error (← desk.failed call e)))
        | .error s => throw s
      | .settle key _ value rest =>
        let number ← keyNumber r store (← desk.key key)
        let wrapped ← desk.wrap key value
        let stored ← changeStore store fun cache => cache.settle number wrapped
        follow desk r store fuel (rest (← desk.unwrap stored))
      | .release key _ _ rest =>
        let number ← keyNumber r store (← desk.key key)
        changeStore store fun cache => (cache.release number, ())
        follow desk r store fuel rest
      -- a future is told by the event loop, which takes no turn while a program goes on by itself
      | .publish key ticket outcome rest =>
        publishOutcome store ticket (← match outcome with
          | .ok value => Except.ok <$> desk.wrap key value
          | .error e => Except.error <$> desk.told e)
        follow desk r store fuel rest

def resume (desk : Desk κ ρ ν ε) (r : Interpreter) (store : Nat) (input : Resumption) :
    Stage κ ρ ν ε α → Eval (Halt κ ρ ν ε α)
  | .fresh script =>
    match input with
    | .send _ => desk.follow r store stepLimit script
    | .throw e => throw (.raised e)
  | .calling iterator call rest => do
      let arrival := match input with
        | .send v => Arrival.value v
        | .throw e => .raised e
      match (← desk.await r call iterator arrival) with
      | .error v => return .handing v (.calling iterator call rest)
      | .ok outcome => desk.follow r store stepLimit (rest outcome)
  | .waiting ticket rest => do
      let outcome ← match input, (← toldOutcome? store ticket) with
        | .send _, some (.ok v) => Except.ok <$> desk.unwrap v
        | .send _, some (.error e) | .throw e, _ => pure (.error (desk.caught e))
        | .send _, none => do
          let e ← newExceptionOf (classCell "RuntimeError") [ofString "await wasn't used with future"] []
          pure (.error (desk.caught e))
      desk.follow r store stepLimit (rest outcome)

end Desk

/-! ## Computations for a cache -/

def factoryDesk (r : Interpreter) : Desk Value Value Value Value where
  key := pure
  start factory := do return .awaited (← awaitedBy r (← r.call factory {}))
  finish _ finished := return .ok finished.value
  failed _ e := return e
  caught := id
  told := pure
  wrap _ v := return v
  unwrap := pure

/-! ## Passes -/

def keyValue : CacheKey → Eval Value
  | .name name => return ofString name
  | .file path name => newTuple [ofText path, ofString name]
  | .content name digest => newTuple [ofString name, ofText digest]

def keyName : CacheKey → String
  | .name name | .file _ name | .content name _ => name

def beginMacro (r : Interpreter) (settings : Settings) (call : Invocation) : Eval Begun := do
  let m ← get
  let importer : Importer := { base := (m.files.place (.posix call.definition.path)).dropLast }
  set { m with importers := m.importers ++ [importer] }
  let v ← startProgram r settings (worldOf m) m.importers.length call.definition call.arguments
    call.site.line
  if (← isAwaitable v) then return .awaited (← awaitedBy r v) else return .result v

def macroTrouble (r : Interpreter) (d : Definition) (e : Value) : Eval Trouble := do
  if !(← isKnown e "Exception") then return .raised e
  match (← attempt (plainText r e)) with
  | .ok text =>
    let kind := (← classData (← classOf e)).name
    return .own (.failure (Pass.failedRun d kind (String.ofList text)))
  | .error (.raised e) => return .raised e
  | .error s => throw s

def writeFinished (d : Definition) (finished : Finished) : Eval (Except Trouble Text) := do
  finished.log d
  let (graph, v) := finished.graph (← get).heap
  match serialize Registry.standard nestingLimit graph v with
  | .ok (text, drained) =>
    modify fun m => { m with log := m.log ++ drained.map drainedEntry }
    return .ok text
  | .error e => return .error (.own (Pass.ofRunError d (.unwritable e)))

def troubleException (path : Text) : Trouble → Eval Value
  | .raised e => return e
  | .own e => do
    match (← attempt (raisePass path e)) with
    | .ok e | .error (.raised e) => return e
    | .error s => throw s

def passDesk (r : Interpreter) (settings : Settings) (path : Text) : Desk CacheKey Invocation Text Trouble where
  key := keyValue
  start := beginMacro r settings
  finish call finished := writeFinished call.definition finished
  failed call e := macroTrouble r call.definition e
  caught := .raised
  told := troubleException path
  wrap key expression := do
    alloc (.object (classCell "SerializedResult") [("key", ← keyValue key),
      ("expression", ofText expression), ("macro", ofString (keyName key))] none)
  unwrap v := do
    match (← cell? v) with
    | some cell => return (textAttribute (instanceAttributes cell) "expression").getD []
    | none => return []

def expandedValue (expanded : Expanded) : Eval Value := do
  let map := expanded.emitted.sourceMap
  let sources ← newList (map.sources.map ofText)
  let names ← newList (map.names.map ofText)
  let map ← alloc (.object (classCell "SourceMap") [("version", ofNat SourceMap.version),
    ("file", ofText map.file), ("sources", sources), ("names", names),
    ("mappings", ofText map.mappings)] none)
  let macros ← newList (expanded.names.map ofString)
  alloc (.object (classCell "TransformResult")
    [("code", ofText expanded.emitted.code), ("source_map", map), ("macros", macros)] none)

/-! ## Resuming -/

def resumeCoroutine (r : Interpreter) (i : Nat) (name : String) (task : Task) (input : Resumption) :
    Eval Step := do
  let isFresh := match task with
    | .obtain _ (.fresh _) | .transform _ _ _ (.fresh _) => true
    | .obtain .. | .transform .. => false
    | _ => true
  match input with
  | .send v =>
    if isFresh && v ≠ nil then typeError "can't send non-None value to a just-started coroutine"
  | .throw _ => pure ()
  match task, input with
  | .obtain store stage, input => do
      setCell i (.coroutine name .done)
      match (← (factoryDesk r).resume r store input stage) with
      | .ended (.ok v) => return .stop v
      | .ended (.error e) => throw (.raised e)
      | .handing v stage =>
        setCell i (.coroutine name (.obtain store stage))
        return .item v
  | .transform settings store path stage, input => do
      setCell i (.coroutine name .done)
      match (← (passDesk r settings path).resume r store input stage) with
      | .ended (.ok expanded) => return .stop (← expandedValue expanded)
      | .ended (.error e) => throw (.raised (← troubleException path e))
      | .handing v stage =>
        setCell i (.coroutine name (.transform settings store path stage))
        return .item v
  | task, .send _ => return .stop (← awaitCoroutine r i name task)
  | .done, .throw _ => raise "RuntimeError" "cannot reuse already awaited coroutine"
  | _, .throw e => do
      setCell i (.coroutine name .done)
      throw (.raised e)

end Sandbox

end MacroExpand
