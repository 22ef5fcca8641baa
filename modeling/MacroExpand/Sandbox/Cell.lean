import MacroExpand.Value.Reduction
import MacroExpand.Syntax.Tree
import MacroExpand.Files
import MacroExpand.Log
import MacroExpand.Macro.Script

/-!
# The memory of a running program

Everything a program makes lives in a numbered cell.  The values of a program are those of an object
graph, so memory can be seen as a graph by showing each cell as an object.
-/

set_option autoImplicit false

namespace MacroExpand

namespace Sandbox

/-- A class.  Its lineage are the cells of the classes it descends from, itself first. -/
structure ClassData where
  name : String
  qualname : String
  module : String
  lineage : List Nat
  /-- The cells of the classes that it directly descends from. -/
  bases : List Nat := []
  attributes : List (String × Value) := []
  /-- Whether the program itself defines the class. -/
  own : Bool := false

structure Closure where
  name : String
  qualname : String
  module : String
  parameters : Tree
  body : List Tree
  isAsync : Bool
  isGenerator : Bool
  /-- The scope around the definition and the scope of the file. -/
  scope : Nat
  globals : Nat
  /-- The names that belong to a call. -/
  names : List String
  globalNames : List String
  outerNames : List String
  defaults : List Value
  keywordDefaults : List (String × Value)
  doc : Value
  annotations : Value
  attributes : List (String × Value) := []

structure ScopeData where
  bindings : List (String × Value) := []
  /-- The names that belong here, bound or not; parameters stand first. -/
  names : List String := []
  /-- How many of the names are parameters that can be given by place. -/
  places : Nat := 0
  /-- The scope around this one in which names are looked up. -/
  parent : Option Nat := none
  isClass : Bool := false
  isComprehension : Bool := false
  /-- Which importer looks for modules first. -/
  importer : Option Nat := none

/-- How a statement ends. -/
inductive Flow where
  | next
  | breakLoop
  | continueLoop
  | result (value : Value)
  deriving DecidableEq, Repr, Inhabited

/-- What arrives where a body goes on: the end of a block, a value from outside, or an exception. -/
inductive Arrival where
  | flow (ending : Flow)
  | value (v : Value)
  | raised (exception : Value)
  deriving DecidableEq, Repr, Inhabited

/-- What a suspended body still has to do; the innermost part stands first in a list. -/
inductive Pending where
  /-- The statements behind the current one. -/
  | statements (rest : List Tree)
  /-- The next round of a loop with a test. -/
  | rounds (loop : Tree)
  /-- The next round of a loop over an iterator. -/
  | walk (loop : Tree) (iterator : Value)
  /-- The handlers around a block. -/
  | guarded (block : Tree)
  /-- The end of a handler, whose name for the exception is dropped. -/
  | handling (name : Option String) (exception : Value)
  /-- The last block, which runs however the blocks before it end. -/
  | ensured (block : Tree)
  /-- What goes on behind the last block. -/
  | restored (arrival : Arrival)
  /-- The end of a block with a context. -/
  | context (manager leaver : Value) (isAsync : Bool)
  /-- The value from outside is bound to a name. -/
  | store (name : Option String)
  /-- An iterator that hands out values in place of the body. -/
  | delegate (iterator : Value)

/-- How far the body of a generator has come. -/
inductive Progress where
  | fresh
  | suspended (rest : List Pending)
  | running
  | finished

inductive Resumption where
  | send (value : Value)
  | throw (exception : Value)
  deriving DecidableEq, Repr, Inhabited

/-- A step of an iterator: the next value, or its end with the value that a generator returns. -/
inductive Step where
  | item (value : Value)
  | stop (value : Value)
  deriving DecidableEq, Repr, Inhabited

/-- Where a coroutine that follows a script stands. -/
inductive Stage (κ ρ ν ε α : Type) where
  | fresh (script : Script κ ρ ν ε α)
  /-- It goes through what a call gave to be awaited. -/
  | calling (awaited : Value) (call : ρ) (rest : Except ε ν → Script κ ρ ν ε α)
  /-- It waits for the outcome of somebody else's ticket. -/
  | waiting (ticket : Nat) (rest : Except ε ν → Script κ ρ ν ε α)

/-- Why a pass that a program asked for fails: by itself, or by an exception. -/
inductive Trouble where
  | own (error : PassError)
  | raised (exception : Value)
  deriving Inhabited

inductive Task where
  /-- Run the body of a function in a scope. -/
  | call (function : Closure) (scope : Nat)
  /-- Let some seconds pass, then give a value. -/
  | sleep (seconds : Double) (result : Value)
  /-- Wait for an event. -/
  | wait (event : Nat)
  /-- Resume an asynchronous generator. -/
  | resume (generator : Nat) (input : Resumption)
  /-- Get the result of a key from a cache; the calls are those of the factory. -/
  | obtain (store : Nat) (stage : Stage Value Value Value Value Value)
  /-- Expand a source text; the results are kept in a cache. -/
  | transform (settings : Settings) (store : Nat) (path : Text)
      (stage : Stage CacheKey Invocation Text Trouble Expanded)
  | fail (exception : Value)
  /-- It was awaited before. -/
  | done

structure ExceptionData where
  cls : Nat
  args : List Value
  attributes : List (String × Value) := []
  /-- The exception that it was raised from. -/
  cause : Value := .scalar .nil
  /-- The exception that was being handled when it was raised. -/
  context : Value := .scalar .nil
  /-- Whether the context is not worth showing. -/
  isFinal : Bool := false
  /-- How many statements raised it by name; one that only passes it on does not count. -/
  raisings : Nat := 0

/-- The published outcome of a ticket: a result, or the exception that the computation ended with. -/
structure Outcome where
  ticket : Nat
  result : Except Value Value
  /-- How many turns of the event loop there were before. -/
  turn : Nat

/-- A cache of results that a program uses. -/
structure Store where
  /-- The keys that it was asked for with their numbers; equal values are one key. -/
  keys : List (Value × Value) := []
  cache : Cache Nat Value := {}
  outcomes : List Outcome := []
  deriving Inhabited

inductive Cell where
  | list (items : List Value)
  | tuple (items : List Value)
  | dict (entries : List (Value × Value))
  | set (items : List Value)
  | frozenset (items : List Value)
  | cls (data : ClassData)
  | function (data : Closure)
  /-- A built-in function. -/
  | native (name : String)
  /-- A built-in method of a value, by class and name. -/
  | nativeMethod (self : Value) (cls name : String)
  | method (self function : Value)
  /-- A built-in method as an attribute of its class. -/
  | unbound (cls name : String)
  /-- An instance of a class of the program; `base` is the built-in object it extends. -/
  | object (cls : Nat) (attributes : List (String × Value)) (base : Option Value)
  | exception (data : ExceptionData)
  | module (name : String) (scope : Nat)
  | scope (data : ScopeData)
  /-- Values still to come. -/
  | iterator (cls : String) (items : List Value)
  /-- A place in a list that may change meanwhile. -/
  | listIterator (list index : Nat)
  /-- A place in a list that is walked towards its front; places in front of it are still to come. -/
  | listReverse (list count : Nat)
  /-- A place in a dictionary or a set that had some size when the walk began. -/
  | tableIterator (cls : String) (table index size : Nat)
  /-- A place in a value that is read by numbers. -/
  | indexIterator (source : Value) (index : Nat)
  /-- The results of a function up to a last value. -/
  | callIterator (function last : Value)
  /-- The results of a function on the values of some iterators. -/
  | mapped (function : Value) (sources : List Value)
  /-- The values of an iterator that pass a test. -/
  | filtered (test source : Value)
  /-- Rows of the values of some iterators; all must end together if `strict`. -/
  | zipped (sources : List Value) (strict : Bool)
  /-- The values of an iterator with their numbers. -/
  | numbered (source : Value) (next : Int)
  | generator (function : Closure) (scope : Nat) (progress : Progress)
  | coroutine (qualname : String) (task : Task)
  | range (start stop step : Int)
  | slice (lower upper step : Value)
  /-- A read-only view of the environment. -/
  | environment (entries : List (Text × Text))
  /-- A live view of a dictionary: its keys, its values or both. -/
  | view (cls : String) (dict : Nat)
  | timezone (offset : Duration) (name : Option Text)
  | event (isSet : Bool)
  /-- A limit on the time that a block may take. -/
  | limit (seconds : Option Double)
  /-- A function wrapped so that it binds in another way. -/
  | descriptor (cls : String) (function : Value)
  /-- An attribute that is computed, and what sets and drops it. -/
  | property (getter setter deleter doc : Value)
  /-- A class with the classes of what it holds. -/
  | parametrized (origin : Value) (args : List Value)
  /-- One of several classes. -/
  | union (members : List Value)
  /-- A view of an object as an instance of the classes behind one. -/
  | superView (cls : Nat) (self : Value)
  | store (data : Store)
  /-- What expands source texts, with the cell of its cache. -/
  | engine (settings : Settings) (store : Nat)
  /-- A value of a known class. -/
  | known (cls : String) (state : State)

instance : Inhabited Cell := ⟨.list []⟩

/-- Why evaluation stops. -/
inductive Signal where
  | raised (exception : Value)
  /-- The evaluation went deeper than it may. -/
  | exhausted
  deriving DecidableEq, Repr, Inhabited

/-- A table of modules loaded from files next to a program. -/
structure Importer where
  base : Place
  modules : List (Place × Value) := []
  deriving Repr, Inhabited

/-- All that a running program can change. -/
structure Machine where
  heap : Array Cell
  files : Files
  environment : List (Text × Text) := []
  /-- What was printed, last first. -/
  printed : List Text := []
  log : List LogEntry := []
  importers : List Importer := []
  /-- The modules that were imported by name. -/
  modules : List (String × Value) := []
  /-- The directories in which modules are looked for by name. -/
  searched : List Place := []
  /-- How many calls are under way. -/
  depth : Nat := 0
  /-- The exceptions that are being handled, innermost first. -/
  handled : List Value := []
  /-- The time left to the blocks under way that have a limit, innermost first. -/
  limits : List (Option Double) := []
  /-- The results of the macros that were run for imported modules. -/
  expanded : Cache CacheKey Text := {}
  /-- The modules whose compiled form was kept. -/
  compiled : List Place := []
  /-- How many undefined numbers were made. -/
  undefinedCount : Nat := 0
  /-- How often the event loop took a turn because the program paused. -/
  turns : Nat := 0

abbrev Eval := ExceptT Signal (StateM Machine)

structure Frame where
  scope : Nat
  globals : Nat
  globalNames : List String := []
  outerNames : List String := []
  /-- What the full names of definitions here begin with. -/
  qualifier : String := ""
  deriving Repr, Inhabited

structure Arguments where
  positional : List Value := []
  keyword : List (String × Value) := []
  deriving Repr, Inhabited

/-- The text that a module runs, and whether its compiled form is kept. -/
structure ModuleText where
  text : Text
  isKept : Bool
  deriving DecidableEq, Repr, Inhabited

/-- What is the same at every depth of evaluation. -/
structure Ground where
  /-- The text that a module at a place runs. -/
  prepare : Place → Eval ModuleText
  /-- How deep values are compared. -/
  compareDepth : Nat := 400

/-- Evaluation at the next smaller depth. -/
structure Interpreter extends Ground where
  eval : Frame → Tree → Eval Value
  exec : Frame → List Tree → Eval Flow
  call : Value → Arguments → Eval Value
  /-- The next step of an iterator. -/
  advance : Value → Eval Step
  /-- Resume the generator in a cell. -/
  resume : Nat → Resumption → Eval Step

/-! ## Scalars -/

abbrev nil : Value := .scalar .nil

def ofBool (b : Bool) : Value := .scalar (.bool b)
def ofInt (n : Int) : Value := .scalar (.int n)
def ofNat (n : Nat) : Value := .scalar (.int n)
def ofText (t : Text) : Value := .scalar (.str t)
def ofPoints (points : List CodePoint) : Value := .scalar (.ofPoints points)
def ofString (s : String) : Value := .scalar (.str s.toList)
def ofFloat (d : Double) : Value := .scalar (.float d)
def ofBytes (b : List UInt8) : Value := .scalar (.bytes b)

/-! ## Cells -/

def alloc (cell : Cell) : Eval Value :=
  modifyGet fun m => (.ref m.heap.size, { m with heap := m.heap.push cell })

def cellAt (i : Nat) : Eval Cell := do
  let m ← get
  return m.heap.getD i default

def cell? (v : Value) : Eval (Option Cell) :=
  match v with
  | .ref i => do
      let m ← get
      return m.heap[i]?
  | .scalar _ => return none

def setCell (i : Nat) (cell : Cell) : Eval Unit :=
  modify fun m => { m with heap := m.heap.setIfInBounds i cell }

def newList (items : List Value) : Eval Value := alloc (.list items)
def newDict (entries : List (Value × Value)) : Eval Value := alloc (.dict entries)

/-! ## Bindings -/

def bind (bindings : List (String × Value)) (name : String) (value : Value) :
    List (String × Value) :=
  if bindings.any fun b => b.1 == name then
    bindings.map fun b => if b.1 == name then (name, value) else b
  else bindings ++ [(name, value)]

def lookup (bindings : List (String × Value)) (name : String) : Option Value :=
  (bindings.find? fun b => b.1 == name).map Prod.snd

def scopeAt (i : Nat) : Eval ScopeData := do
  match (← cellAt i) with
  | .scope data => return data
  | _ => return {}

def bindIn (i : Nat) (name : String) (value : Value) : Eval Unit := do
  let s ← scopeAt i
  setCell i (.scope { s with bindings := bind s.bindings name value })

end Sandbox

end MacroExpand
