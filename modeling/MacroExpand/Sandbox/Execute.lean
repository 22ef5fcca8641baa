import MacroExpand.Sandbox.Generators

/-!
# Execution

Evaluation is nested up to some depth; a macro runs in a fresh memory, and what stops it is reported.
-/

set_option autoImplicit false

namespace MacroExpand

/-!
## The interpreter

Evaluation is defined one step at a time; nesting the steps gives evaluation up to any depth.
-/

namespace Sandbox

def interpreter (ground : Ground) : Nat → Interpreter
  | 0 =>
    { ground with
      eval := fun _ _ => throw .exhausted
      exec := fun _ _ => throw .exhausted
      call := fun _ _ => throw .exhausted
      advance := fun _ => throw .exhausted
      resume := fun _ _ => throw .exhausted }
  | depth + 1 =>
    { ground with
      eval := fun f t => evalStep (interpreter ground depth) f t
      exec := fun f ts => execStep (interpreter ground depth) f ts
      call := fun v a => callStep (interpreter ground depth) v a
      advance := fun v => advanceStep (interpreter ground depth) v
      resume := fun i input => resumeStep (interpreter ground depth) i input }

def depthLimit : Nat := 100000

/-- Evaluation in which modules run as they are. -/
def plainInterpreter : Interpreter := interpreter { prepare := plainModule } depthLimit

def perform {α : Type} (machine : Machine) (action : Eval α) : Except Signal α × Machine :=
  (action.run).run machine

end Sandbox

/-!
## Exceptions as reports

An exception that nothing handles is reported by its class and its text.
-/

namespace Sandbox

def intAttribute (attributes : List (String × Value)) (name : String) : Option Int :=
  (lookup attributes name).bind index?

def failureIn (kind : FailureKind) (attributes : List (String × Value)) : Failure :=
  let text := fun (name : String) => (textAttribute attributes name).map String.ofList
  { kind, message := (text "message").getD "", path := text "path"
    line := intAttribute attributes "lineno", column := intAttribute attributes "col_offset"
    name := text "macro" }

def failureKind? (name : String) : Option FailureKind :=
  [FailureKind.general, .naming, .execution, .serialization].find? fun k => k.name == name

def reportOf (e : Value) : Eval Report := do
  let cls ← classData (← classOf e)
  let attributes := match (← cell? e) with
    | some (.exception e) => e.attributes
    | _ => []
  let text ← plainText plainInterpreter e
  let is := fun (key : String) => cls.lineage.contains (classCell key)
  return { kind := cls.name, text, isOrdinary := is "Exception", isSyntax := is "SyntaxError"
           line := intAttribute attributes "lineno"
           failure := if is "MacroError" then
             (failureKind? cls.name).map fun k => failureIn k attributes else none }

/-- The report of a signal that ended an action on a machine.  An exception that cannot be reported is
replaced by the one that its text ends with, which is then no ordinary failure. -/
def reportSignal (machine : Machine) : Signal → Report
  | .exhausted => { kind := "RecursionError", text := chars "maximum recursion depth exceeded" }
  | .raised e =>
    match perform machine (reportOf e) with
    | (.ok report, _) => report
    | (.error (.raised inner), machine) =>
      match perform machine (reportOf inner) with
      | (.ok report, _) => { report with isOrdinary := false }
      | (.error _, _) => { kind := "Exception", text := [] }
    | (.error .exhausted, _) => { kind := "Exception", text := [] }

end Sandbox

/-!
## Running macros

A macro runs in a fresh memory, with a fixed table of names beside those that need no import.  What
it returns is written as an expression; an awaitable result is awaited first.
-/

namespace Sandbox

def machineFor (w : World) (path : Text) : Machine :=
  { heap := startingHeap, files := w.files, environment := w.environment
    importers := [{ base := (w.files.place (.posix path)).dropLast }]
    searched := w.searched, printed := w.printed }

/-! ### Running -/

def runProgram (settings : Settings) (w : World) (d : Definition) (arguments : Text) (line : Nat) :
    Eval Finished := do
  let result ← startProgram plainInterpreter settings w 0 d arguments line
  let finished ← if (← isAwaitable result) then do
      pure ⟨← awaitValue plainInterpreter result, true⟩
    else pure ⟨result, false⟩
  finished.log d
  return finished

def runError (d : Definition) (report : Report) : RunError :=
  let text := String.ofList report.text
  if report.isOrdinary then .failed (Pass.failedRun d report.kind text)
  else .interrupted report.kind text

/-- A run of a macro: how it ended, and the memory behind it. -/
structure Run where
  outcome : Except RunError Finished
  machine : Machine

def run (settings : Settings) (w : World) (d : Definition) (arguments : Text) (line : Nat := 1) :
    Run :=
  match perform (machineFor w d.path) (runProgram settings w d arguments line) with
  | (.ok finished, machine) => ⟨.ok finished, machine⟩
  | (.error signal, machine) => ⟨.error (runError d (reportSignal machine signal)), machine⟩

namespace Run

def world (r : Run) (w : World) : World := { w with files := r.machine.files, printed := r.machine.printed }

def graph (r : Run) (finished : Finished) : Graph × Value := finished.graph r.machine.heap

end Run

def executor (settings : Settings) : Executor World := fun call w =>
  let r := run settings w call.definition call.arguments call.site.line
  let log := r.machine.log
  match r.outcome with
  | .error e => ⟨.error e, log, r.world w⟩
  | .ok finished =>
    let (graph, value) := r.graph finished
    match serialize Registry.standard nestingLimit graph value with
    | .ok (text, drained) => ⟨.ok text, log ++ drained.map drainedEntry, r.world w⟩
    | .error e => ⟨.error (.unwritable e), log, r.world w⟩

end Sandbox

end MacroExpand
