import MacroExpand.Macro.Definition
import MacroExpand.Syntax.Annotations
import MacroExpand.Log

/-!
# Finding macros and their calls

A macro is a function whose body opens with the directive, or a lambda, bound to a name, whose body
is a tuple that opens with it.  A scan finds the definitions first, then the calls outside them,
then the calls between them.  Whatever else reads the name of a macro is a reference, of which the
scan warns, because the name is gone after the expansion.
-/

set_option autoImplicit false

namespace MacroExpand

/-- Why a scan fails. -/
inductive ScanError where
  | naming (failure : Failure)
  | unprintable (error : PrintError)
  deriving DecidableEq, Repr, Inhabited

namespace Scan

/-! ## Definitions -/

/-- The file that is looked at. -/
structure Context where
  path : Text
  directive : Text
  lines : List Text

def Context.isDirective (c : Context) (t : Tree) : Bool :=
  match t.kind with
  | .constant (.str s) _ => s == c.directive
  | _ => false

def Context.opens (c : Context) (body : List Tree) : Bool :=
  match body with
  | first :: _ => first.kind = .exprStmt && c.isDirective (first.part 0)
  | [] => false

/-- What a definition scan meets. -/
inductive Candidate where
  | definition (found : Definition)
  /-- A method that opens with the directive, which makes no macro. -/
  | method (name : String) (line : Nat)
  /-- A lambda that opens with the directive and has no name. -/
  | unnamed (line column : Nat)
  | unprintable (error : PrintError)

def Context.column (c : Context) (t : Tree) : Nat := (t.span c.lines).start.column

def Context.define (c : Context) (name : String) (tree statement : Tree) (typed : Bool) : Candidate :=
  match tree.print with
  | .error e => .unprintable e
  | .ok source => .definition
      { name, path := c.path, tree, typed, statement, line := statement.mark.line
        column := c.column statement, source }

def runnable : Tree → Tree
  | .node m kind [parameters, body, _, result] => .node m kind [parameters, body, [], result]
  | t => t

/-- The function that runs for a lambda: the elements behind the directive become statements, the
last of which is returned. -/
def ofLambda (name : String) (lambda : Tree) : Tree :=
  let place := fun (t : Tree) => { t.mark with label := 0 }
  let rest := ((lambda.part 1).slot 0).drop 1
  let effects := rest.dropLast.map fun t => Tree.node (place t) .exprStmt [[t]]
  let result := rest.getLast?.toList.map fun t => Tree.node (place t) .returnStmt [[t]]
  .node (place lambda) (.functionDef name false none) [lambda.slot 0, effects ++ result, [], []]

def binding? (parent lambda : Tree) : Option String :=
  match parent.kind, parent.slots with
  | .assign _, [[.node _ (.name id _) _], [value]] =>
    if value.mark.label = lambda.mark.label then some id else none
  | .annAssign _, [[.node _ (.name id _) _], _, [value]] =>
    if value.mark.label = lambda.mark.label then some id else none
  | _, _ => none

def Context.opensLambda (c : Context) (lambda : Tree) : Bool :=
  let body := lambda.part 1
  match body.kind with
  | .tuple _ => 2 ≤ (body.slot 0).length && (body.slot 0).head?.any c.isDirective
  | _ => false

def Context.recognise (c : Context) (parent t : Tree) : List Candidate × Bool :=
  match t.kind with
  | .functionDef name _ _ =>
    if !c.opens (t.slot 1) then ([], true)
    else match parent.kind with
      | .classDef _ => ([.method name t.mark.line], true)
      | _ => ([c.define name (runnable t) t t.hasAnnotations], false)
  | .lambdaExpr =>
    if !c.opensLambda t then ([], true)
    else match binding? parent t with
      | none => ([.unnamed t.mark.line (c.column t)], false)
      | some name =>
        let typed := match parent.kind with
          | .annAssign _ => true
          | _ => false
        ([c.define name (ofLambda name t) parent typed], false)
  | _ => ([], true)

mutual

def Context.candidates (c : Context) (parent : Tree) : Tree → List Candidate
  | .node m kind slots =>
    let self := Tree.node m kind slots
    let (found, enter) := c.recognise parent self
    if enter then found ++ c.candidatesSlots self slots else found

def Context.candidatesSlots (c : Context) (parent : Tree) : List (List Tree) → List Candidate
  | [] => []
  | slot :: rest => c.candidatesAll parent slot ++ c.candidatesSlots parent rest

def Context.candidatesAll (c : Context) (parent : Tree) : List Tree → List Candidate
  | [] => []
  | t :: rest => c.candidates parent t ++ c.candidatesAll parent rest

end

/-- The definitions and the log so far. -/
structure Registered where
  definitions : List Definition := []
  log : List LogEntry := []

def entry (level : LogLevel) (parts : List Text) : LogEntry := ⟨level, .scan, parts.flatten⟩

def number (n : Nat) : Text := Nat.toDigits 10 n

def Context.misnamed (c : Context) (message : String) (line column : Nat) (name : Option String) :
    ScanError :=
  .naming { kind := .naming, message, path := some (String.ofList c.path), line := some line
            column := some column, name }

def Context.register (c : Context) (r : Registered) : Candidate → Registered × Option ScanError
  | .definition d =>
    match r.definitions.find? fun e => e.name == d.name with
    | some earlier =>
      (r, some (c.misnamed ("macro " ++ quotedString d.name ++ " is already defined at line " ++
        toString earlier.line) d.line d.column (some d.name)))
    | none =>
      ({ definitions := r.definitions ++ [d]
         log := r.log ++ [entry .debug [chars "Registered macro: ", d.name.toList,
           chars " (async=", chars (if d.isAsync then "True)" else "False)")]] }, none)
  | .method name line =>
    ({ r with log := r.log ++ [entry .warning [c.path, [':'], number line, chars ": method ",
      Text.quoted name.toList,
      chars " carries the macro directive; methods are not expanded"]] }, none)
  | .unnamed line column =>
    (r, some (c.misnamed ("macro function must have a name; bind it with a plain assignment " ++
      "(immediately invoked or unbound lambdas are not supported)") line column none))
  | .unprintable e => (r, some (.unprintable e))

def Context.registerAll (c : Context) (r : Registered) :
    List Candidate → Registered × Option ScanError
  | [] => (r, none)
  | candidate :: rest =>
    match c.register r candidate with
    | (r, none) => c.registerAll r rest
    | failed => failed

/-! ## Calls -/

inductive Use where
  | call (site : CallSite)
  | reference (name : Tree)
  deriving Repr, Inhabited

def isFree (kind : Kind) (slot : Nat) : Bool :=
  match kind with
  | .assign _ => slot == 1
  | .annAssign _ => slot == 2
  | .returnStmt | .exprStmt => true
  | .call => slot == 1
  | .list _ | .tuple _ | .set | .dict | .keyword _ => true
  | _ => false

/-- What the calls are looked for with: the names of the macros, the labels of nodes that are not
entered, and the lines of the file. -/
structure CallContext where
  names : List String
  skipped : List Nat
  lines : List Text

def CallContext.site (c : CallContext) (name : String) (free : Bool) (call : Tree) : CallSite :=
  let span := call.span c.lines
  { name, label := call.mark.label, span
    argsSpan := ⟨((call.part 0).span c.lines).stop, span.stop⟩
    line := call.mark.line, column := span.start.column, free }

def CallContext.callee? (c : CallContext) (call : Tree) : Option String :=
  match call.kind, (call.part 0).kind with
  | .call, .name id _ => if c.names.contains id then some id else none
  | _, _ => none

mutual

def CallContext.uses (c : CallContext) (free : Bool) : Tree → List Use
  | .node m kind slots =>
    let self := Tree.node m kind slots
    if m.label ≠ 0 ∧ c.skipped.contains m.label then []
    else
      let inner := c.usesSlots kind 0 slots
      match c.callee? self with
      | some name => (inner.drop 1).flatten ++ [.call (c.site name free self)]
      | none =>
        match kind with
        | .name id .load => if c.names.contains id then [.reference self] else []
        | _ => inner.flatten

def CallContext.usesSlots (c : CallContext) (kind : Kind) (k : Nat) :
    List (List Tree) → List (List Use)
  | [] => []
  | slot :: rest => c.usesAll (isFree kind k) slot :: c.usesSlots kind (k + 1) rest

def CallContext.usesAll (c : CallContext) (free : Bool) : List Tree → List Use
  | [] => []
  | t :: rest => c.uses free t ++ c.usesAll free rest

end

def callsOf (uses : List Use) : List CallSite := uses.filterMap fun u => match u with
  | .call site => some site
  | .reference _ => none

def referencesOf (uses : List Use) : List Tree := uses.filterMap fun u => match u with
  | .call _ => none
  | .reference t => some t

end Scan

/-- What a scan finds. -/
structure Scan where
  definitions : List Definition := []
  sites : List CallSite := []
  references : List Tree := []
  deriving Repr, Inhabited

namespace Scan

def definition? (s : Scan) (name : String) : Option Definition :=
  s.definitions.find? fun d => d.name == name

def names (s : Scan) : List String := (s.definitions.map Definition.name).mergeSort fun a b => a ≤ b

def Context.referenceEntry (c : Context) (t : Tree) : LogEntry :=
  let id := match t.kind with
    | .name id _ => id
    | _ => ""
  entry .warning [c.path, [':'], number t.mark.line, chars ": macro ", Text.quoted id.toList,
    chars " referenced outside a call; the name will not exist after expansion"]

def Context.findCalls (c : Context) (tree : Tree) (definitions : List Definition) : Scan :=
  let names := definitions.map Definition.name
  let outer : CallContext :=
    ⟨names, definitions.map fun d => d.statement.mark.label, c.lines⟩
  let inner : CallContext := ⟨names, [], c.lines⟩
  let uses := outer.uses false tree
  { definitions := definitions.map fun d => { d with calls := callsOf (inner.uses false d.tree) }
    sites := callsOf uses, references := referencesOf uses }

end Scan

/-- Scan a file.  The log is kept if the scan fails. -/
def scanTree (path directive : Text) (lines : List Text) (tree : Tree) :
    List LogEntry × Except ScanError Scan :=
  let c : Scan.Context := ⟨path, directive, lines⟩
  match c.registerAll {} (c.candidates Tree.absent tree) with
  | (r, some e) => (r.log, .error e)
  | (r, none) =>
    if r.definitions.isEmpty then (r.log, .ok {})
    else
      let found := c.findCalls tree r.definitions
      (r.log ++ found.references.map c.referenceEntry ++
        [Scan.entry .debug [chars "Scanned ", path, chars ": ",
          Scan.number found.definitions.length, chars " macro(s), ",
          Scan.number found.sites.length, chars " call site(s)"]], .ok found)

end MacroExpand
