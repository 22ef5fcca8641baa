import MacroExpand.Macro.Pass

/-!
# Passes side by side

Passes that share a cache may go on in turns.  A script is what a pass still has to do: it stops
wherever the pass logs something, asks the cache, waits for somebody else's result or runs a macro, and
goes on with the answer.
-/

set_option autoImplicit false

namespace MacroExpand

/-- What a client of a cache with keys `κ` and results `ν` still has to do, until it fails with an `ε`
or ends with an `α`.  The calls that it makes meanwhile are a `ρ` each. -/
inductive Script (κ ρ ν ε α : Type) where
  | done (result : Except ε α)
  | report (entries : List LogEntry) (rest : Script κ ρ ν ε α)
  /-- Ask for a key. -/
  | claim (key : κ) (rest : Claim ν → Script κ ρ ν ε α)
  /-- Wait for the outcome of somebody else's ticket. -/
  | await (key : κ) (ticket : Nat) (rest : Except ε ν → Script κ ρ ν ε α)
  | run (call : ρ) (rest : Except ε ν → Script κ ρ ν ε α)
  /-- Store the result of a computation; the stored result is the answer. -/
  | settle (key : κ) (ticket : Nat) (value : ν) (rest : ν → Script κ ρ ν ε α)
  /-- Withdraw a computation that failed. -/
  | release (key : κ) (ticket : Nat) (error : ε) (rest : Script κ ρ ν ε α)
  /-- Tell those who wait for a ticket. -/
  | publish (key : κ) (ticket : Nat) (outcome : Except ε ν) (rest : Script κ ρ ν ε α)

/-- What is left of a pass: its calls are runs of macros. -/
abbrev PassScript (ε α : Type) := Script CacheKey Invocation Text ε α

namespace Script

section Parts

variable {κ ρ ν ε α β : Type}

instance [Inhabited ε] : Inhabited (Script κ ρ ν ε α) := ⟨.done (.error default)⟩

def andThen : Script κ ρ ν ε α → (Except ε α → Script κ ρ ν ε β) → Script κ ρ ν ε β
  | .done result, next => next result
  | .report entries rest, next => .report entries (rest.andThen next)
  | .claim key rest, next => .claim key fun answer => (rest answer).andThen next
  | .await key ticket rest, next => .await key ticket fun outcome => (rest outcome).andThen next
  | .run call rest, next => .run call fun outcome => (rest outcome).andThen next
  | .settle key ticket value rest, next => .settle key ticket value fun stored => (rest stored).andThen next
  | .release key ticket error rest, next => .release key ticket error (rest.andThen next)
  | .publish key ticket outcome rest, next => .publish key ticket outcome (rest.andThen next)

def bind (script : Script κ ρ ν ε α) (next : α → Script κ ρ ν ε β) : Script κ ρ ν ε β :=
  script.andThen fun result => match result with
    | .ok a => next a
    | .error e => .done (.error e)

def note (area : LogArea) (parts : List Text) (rest : Script κ ρ ν ε α) : Script κ ρ ν ε α :=
  .report [⟨.debug, area, parts.flatten⟩] rest

def cached (shown : Text) (key : κ) (compute : Script κ ρ ν ε ν) : Script κ ρ ν ε ν :=
  .claim key fun answer => match answer with
    | .hit stored => note .cache [chars "Cache hit: ", shown] (.done (.ok stored))
    | .wait ticket =>
      note .cache [chars "Waiting for in-flight computation: ", shown] (.await key ticket .done)
    | .own ticket => compute.andThen fun result => match result with
        | .error e => .release key ticket e (.publish key ticket (.error e) (.done (.error e)))
        | .ok value => .settle key ticket value fun stored =>
            .publish key ticket (.ok stored)
              (note .cache [chars "Cache store: ", shown] (.done (.ok stored)))

end Parts

variable {ε : Type}

/-- What a pass works with; `fault` is how its own failures are told. -/
structure Context (ε : Type) where
  settings : Settings
  fault : PassError → ε
  source : Text
  lines : List Text
  scan : Scan

def expandSites (c : Context ε) (result : Definition → CallSite → Text → PassScript ε Text) :
    Rewriting → List CallSite → PassScript ε Rewriting
  | r, [] => .done (.ok r)
  | r, site :: rest =>
    match c.scan.definition? site.name with
    | none => expandSites c result r rest
    | some callee =>
      match c.source.splice r.edits (some (site.argsSpan.start, site.argsSpan.stop)) with
      | .error e => .done (.error (c.fault (.emit (.edit e))))
      | .ok arguments => (result callee site arguments).bind fun expression =>
          match r.expand site expression with
          | .error e => .done (.error (c.fault (.expansion e)))
          | .ok (r, _) => .report [Rewriting.entry site] (expandSites c result r rest)

def expandBody (c : Context ε) (result : Definition → CallSite → Text → PassScript ε Text) (d : Definition) :
    PassScript ε Definition :=
  if d.calls.isEmpty then .done (.ok d)
  else (expandSites c result {} d.calls).bind fun r =>
    note .pass [chars "Expanded ", Nat.toDigits 10 d.calls.length, chars " macro call(s) inside ",
      d.name.toList] (.done (.ok { d with tree := Rewriting.apply r.expansions d.tree }))

def invoke (call : Invocation) : PassScript ε Text :=
  note .pass [chars "Executing macro ", call.definition.name.toList, chars " from ", call.definition.path]
    (.run call .done)

def expandMacro (c : Context ε) : Nat → List String → Definition → CallSite → Text → PassScript ε Text
  | free, chain, d, site, arguments =>
    if chain.contains d.name then .done (.error (c.fault (Pass.cycle d chain)))
    else match free with
      | 0 => .done (.error (c.fault (Pass.cycle d chain)))
      | free + 1 =>
        let key := d.cacheKey c.settings.cachePolicy
        cached key.text key
          ((expandBody c (expandMacro c free (chain ++ [d.name])) d).bind fun ready =>
            invoke ⟨ready, arguments, site⟩)

def expandFile (c : Context ε) (path : Text) (tree : Tree) : PassScript ε Expanded :=
  (expandSites c (expandMacro c c.scan.definitions.length []) {} c.scan.sites).bind fun r =>
    let removal := (Removal.Context.of c.scan.definitions c.lines).strip (Rewriting.apply r.expansions tree)
    .report removal.log <|
      match emit removal.kept c.source (r.edits ++ removal.edits) (Pass.emitOptions c.settings path) with
      | .error e => .done (.error (c.fault (.emit e)))
      | .ok emitted =>
        .report [⟨.info, .pass, chars "Expanded " ++ path ++ chars ": " ++
          Nat.toDigits 10 c.scan.definitions.length ++ chars " macro(s), " ++
          Nat.toDigits 10 c.scan.sites.length ++ chars " call site(s)"⟩]
          (.done (.ok ⟨emitted, c.scan.names⟩))

def expandMacros (settings : Settings) (fault : PassError → ε) (source path : Text) : PassScript ε Expanded :=
  match parseModule source (settings.typeCommentsFor path) with
  | .error e => .done (.error (fault (.fault e)))
  | .ok tree =>
    let (log, scanned) := scanTree path settings.directive source.lines tree
    .report log <|
      match scanned with
      | .error e => .done (.error (fault (.scan e)))
      | .ok scan =>
        if scan.definitions.isEmpty then
          note .pass [chars "No macros in ", path] <|
            match emit tree source []
                { Pass.emitOptions settings path with retainLines := true, provenance := false } with
            | .error e => .done (.error (fault (.emit e)))
            | .ok emitted => .done (.ok ⟨emitted, []⟩)
        else expandFile ⟨settings, fault, source, source.lines, scan⟩ path tree

end Script

end MacroExpand
