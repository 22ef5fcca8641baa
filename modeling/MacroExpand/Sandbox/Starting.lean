import MacroExpand.Sandbox.Snapshot
import MacroExpand.Sandbox.Statements
import MacroExpand.Syntax.Annotations
import MacroExpand.Files

/-!
# The programs of macros

The program of a macro is its definition and a call.  It runs with a fixed table of names beside those
that need no import.
-/

set_option autoImplicit false

namespace MacroExpand

namespace Sandbox

def worldOf (m : Machine) : World :=
  { files := m.files, environment := m.environment, searched := m.searched, printed := m.printed }

/-! ## The names that a macro is offered -/

def offeredFunctions : List String := [
  "now", "monotonic", "sleep", "require", "import_module", "fetch", "timeout", "log"]

def offeredClasses : List String := [
  "datetime", "date", "time", "timedelta", "timezone", "URL", "QueryParams", "Headers", "Request",
  "Response", "Client", "AsyncClient", "FormData", "Event", "CancelledError"]

def platformText : String := "Linux"

def macroModule : String := "__macro__"

def namespaceFor (settings : Settings) (w : World) (path : Text) : Eval (List (String × Value)) := do
  let place := w.files.place (.posix path)
  let environ ← alloc (.environment (settings.visible w.environment))
  let here ← newPath "PosixPath" (Files.pathOf place.dropLast)
  let builtins ← newDict []
  return [("__builtins__", builtins), ("__name__", ofString macroModule),
      ("__file__", ofText (Files.pathOf place).text), ("environ", environ),
      ("platform", ofString platformText), ("here", here), ("is_macro_context", ofBool true)] ++
    (offeredFunctions.map fun n => (n, Value.ref (functionCell n))) ++
    offeredClasses.map fun n => (n, classValue n)

/-! ## Programs -/

def resultName : String := "__macro_result__"

/-- The function and the call that make up the program of a macro; the call stands on a line. -/
def programOf (settings : Settings) (d : Definition) (arguments : Text) (line : Nat) :
    Except SourceFault (List Tree) := do
  let function := if d.typed && settings.stripAnnotations then d.tree.stripAnnotations else d.tree
  let call := (← parseExpression (d.name.toList ++ arguments)).shiftLines (line - 1)
  return [function,
    .node call.mark (.assign none) [[.node call.mark (.name resultName .store) []], [call]]]

/-- How a run ended: the value and whether it was awaited. -/
structure Finished where
  value : Value
  settled : Bool
  deriving DecidableEq, Repr, Inhabited

/-- Run the program of a macro up to its end: the value of the call.  An importer looks for modules
next to the macro's file. -/
def startProgram (r : Interpreter) (settings : Settings) (w : World) (importer : Nat) (d : Definition)
    (arguments : Text) (line : Nat) : Eval Value := do
  let bindings ← namespaceFor settings w d.path
  let scope ← newScope { bindings, importer := some importer }
  match programOf settings d arguments line with
  | .error fault => raiseSource (chars "<unknown>") fault
  | .ok statements =>
    let program ← match Program.ofStatements statements with
      | .error fault => raiseSource d.path fault
      | .ok program => pure program
    discard (r.exec { scope, globals := scope } program)
    return (lookup (← scopeAt scope).bindings resultName).getD nil

def Finished.log (d : Definition) (finished : Finished) : Eval Unit := do
  report .debug .sandbox (chars ("Macro " ++ d.name ++
    (if finished.settled then " resolved to " else " returned ")) ++
    (← classData (← classOf finished.value)).name.toList)

def Finished.graph (heap : Array Cell) (finished : Finished) : Graph × Value :=
  let graph := graphOf heap
  if finished.settled then graph.alloc (.inst Class.settled (.pending finished.value))
  else (graph, finished.value)

def drainedEntry (d : Drained) : LogEntry :=
  let kind := match d.kind with
    | .request => "Request"
    | .response => "Response"
  ⟨.debug, .writing, chars ("Drained " ++ kind ++ " body (" ++ toString d.size ++ " bytes)")⟩

end Sandbox

end MacroExpand
