import MacroExpand.Sandbox.Execute

/-!
# Expanding modules on import

While the hook is installed, a module whose text holds the directive is expanded before it runs, and
its compiled form is not kept.  All modules share one cache of results.
-/

set_option autoImplicit false

namespace MacroExpand

/-- Whether a text holds the directive anywhere as it is.  Modules that do not are not expanded. -/
def Settings.mentionsDirective (settings : Settings) (text : Text) : Bool :=
  Text.containsText text settings.directive

namespace Sandbox

def readDeclared (path : PathText) : Eval Text := do
  let bytes ← readFile path
  if hasBadHead bytes then raise "SyntaxError" "invalid or missing encoding declaration"
  match sourceText bytes with
  | .ok text => return Text.unifyLineEnds text
  | .error (.badUtf8 e) => raise "UnicodeDecodeError" e.message
  | .error (.unfit e) => raise "UnicodeDecodeError" e.decodeMessage
  | .error e => raise "SyntaxError" e.message

def expandText (settings : Settings) (path text : Text) : Eval Text := do
  report .debug .importing (chars "Expanding macros on import: " ++ path)
  let m ← get
  let (result, state) := (expandMacros settings (executor settings) text path).run.run
    { cache := m.expanded, world := worldOf m }
  set { m with expanded := state.cache, files := state.world.files
               printed := state.world.printed, log := m.log ++ state.log }
  match result with
  | .ok expanded => return expanded.emitted.code
  | .error e => raisePass path e

def expandedModule (settings : Settings) (place : Place) : Eval ModuleText := do
  let path := Files.pathOf place
  let text ← readDeclared path
  if settings.mentionsDirective text then return ⟨← expandText settings path.text text, false⟩
  else return ⟨text, true⟩

end Sandbox

structure ImportSession where
  settings : Settings
  machine : Sandbox.Machine
  /-- Whether modules are expanded. -/
  isInstalled : Bool := false

namespace ImportSession

def start (settings : Settings) (w : World) : ImportSession :=
  { settings
    machine := { heap := Sandbox.startingHeap, files := w.files, environment := w.environment
                 searched := [w.files.home] } }

def install (s : ImportSession) : ImportSession := { s with isInstalled := true }

def uninstall (s : ImportSession) : ImportSession := { s with isInstalled := false }

def interpreter (s : ImportSession) : Sandbox.Interpreter :=
  if s.isInstalled then
    Sandbox.interpreter { prepare := Sandbox.expandedModule s.settings } Sandbox.depthLimit
  else Sandbox.plainInterpreter

/-- An imported module: its attributes, and whether its compiled form is kept. -/
structure Imported where
  attributes : List (String × Value)
  isKept : Bool

def attributesOf (m : Sandbox.Machine) (module : Value) : List (String × Value) :=
  match Sandbox.perform m (Sandbox.moduleScope? module) with
  | (.ok (some scope), _) =>
    match m.heap[scope]? with
    | some (.scope s) => s.bindings
    | _ => []
  | _ => []

def isKept (m : Sandbox.Machine) (attributes : List (String × Value)) : Bool :=
  match Sandbox.lookup attributes "__file__" with
  | some (.scalar (.str path)) => m.compiled.contains (PathText.posix path).parts
  | _ => false

def importModule (s : ImportSession) (name : String) : ImportSession × Except Report Imported :=
  let start := { s.machine with printed := [], depth := 0, handled := [], limits := [] }
  match Sandbox.perform start (Sandbox.importFull s.interpreter name) with
  | (.ok (_, module), machine) =>
    let attributes := attributesOf machine module
    ({ s with machine }, .ok ⟨attributes, isKept machine attributes⟩)
  | (.error signal, machine) =>
    ({ s with machine }, .error (Sandbox.reportSignal machine signal))

def forget (s : ImportSession) (name : String) : ImportSession :=
  { s with machine := (Sandbox.perform s.machine (Sandbox.forgetModule name)).2 }

def cacheSize (s : ImportSession) : Nat := s.machine.expanded.entries.length

def output (s : ImportSession) : Text := s.machine.printed.reverse.flatten

end ImportSession

end MacroExpand
