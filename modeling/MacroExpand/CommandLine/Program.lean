import MacroExpand.CommandLine.Arguments
import MacroExpand.CommandLine.Help
import MacroExpand.Build.Loading
import MacroExpand.Sandbox.Execute

/-!
# The program

The program expands the macros of files into a directory, or prints the expanded files.  A file that
cannot be read or expanded ends it with status one, a command line that is refused with status two.
-/

set_option autoImplicit false

namespace MacroExpand

namespace CommandLine

/-- How the program ends. -/
inductive Ending where
  | exit (status : Nat)
  /-- By an error that the program does not handle. -/
  | escaped (report : Report)
  /-- By settings that are refused. -/
  | unsettled (error : SettingsError)
  deriving Repr, Inhabited

/-- What a run of the program leaves behind. -/
structure Outcome where
  ending : Ending
  output : Text := []
  errors : Text := []
  files : Files
  deriving Repr, Inhabited

def columns (environment : List (Text × Text)) : Nat :=
  let given := (environment.reverse.find? fun e => e.1 = chars "COLUMNS").bind fun e =>
    Number.readInt 10 e.2
  match given with
  | some n => if 0 < n then n.toNat - 2 else 78
  | none => 78

def adjust (a : Arguments) (s : Settings) : Settings :=
  { s with
    cachePolicy := a.cachePolicy.getD s.cachePolicy
    retainLines := s.retainLines && !a.noRetainLines
    emitSourceMaps := s.emitSourceMaps && a.outDir.isSome }

def work (c : Build.Context) (a : Arguments) : BuildM Unit := do
  let sources := a.sources.map PathText.posix
  match a.outDir with
  | none => Build.print c sources
  | some directory => do
      let outputs ← Build.run c sources (.posix directory)
      Build.report [⟨.info, .program, chars ("Wrote " ++ toString outputs.length ++ " file(s) to ") ++
        directory⟩]

def faultLine (path : Text) (f : SourceFault) : Text :=
  path ++ chars (":" ++ toString f.line ++ ":" ++ toString (f.column + 1) ++ ": " ++ f.message)

def errorLine? : LoadError → Option Text
  | .file e => some (e.path ++ chars (": " ++ e.fault.reason))
  | .encoding _ => none
  | .pass path e =>
    match e with
    | .fault f => if f.kind = .nullCharacter then none else some (faultLine path f)
    | .expansion (.fault f) =>
      if f.kind = .nullCharacter then none else some (faultLine (chars "<unknown>") f)
    | .emit (.scan (.indentation line)) =>
      some (faultLine (chars "<tokenize>")
        ⟨.indentation, (LineScanError.indentation line).message, line, 0⟩)
    | e => e.toReport.failure.map fun f => f.report.toList

/-- How a load that failed ends the program, and what is said about it. -/
def ended : Except LoadError Unit → Ending × Text
  | .ok () => (.exit 0, [])
  | .error e =>
    match errorLine? e with
    | some line => (.exit 1, line ++ ['\n'])
    | none => (.escaped e.toReport, [])

def perform (w : World) (settings : Settings) (a : Arguments) : Outcome :=
  let settings := adjust a settings
  match if a.verbose then some LogLevel.debug.weight else LogLevel.weightOf? settings.logLevel with
  | none =>
    { ending := .escaped (.value ("Unknown level: " ++
        String.ofList (Text.quoted settings.logLevel)))
      files := w.files }
  | some threshold =>
    match Pattern.ofText settings.filePattern with
    | .error e => { ending := .escaped e.toReport, files := w.files }
    | .ok pattern =>
      let c : Build.Context := ⟨settings, pattern, Sandbox.executor settings⟩
      let (result, state) := (work c a).run.run { world := { w with printed := [] } }
      let (ending, last) := ended result
      { ending, output := state.world.output, files := state.world.files
        errors := (state.log.filter (LogEntry.weighs threshold)).flatMap LogEntry.line ++ last }

def filledVersion (w : World) (settings : Settings) : Except Report Text :=
  let fill : Sandbox.Eval Text := do
    let names ← Sandbox.newDict [(Sandbox.ofString "prog", Sandbox.ofText settings.appName)]
    Sandbox.percentText Sandbox.plainInterpreter false (chars "%(prog)s " ++ settings.appVersion) names
  match Sandbox.perform { heap := Sandbox.startingHeap, files := w.files } fill with
  | (.ok text, _) => .ok text
  | (.error signal, machine) => .error (Sandbox.reportSignal machine signal)

/-- Run the program. -/
def run (w : World) (words : List Text) : Outcome :=
  match w.settings with
  | .error e => { ending := .unsettled e, files := w.files }
  | .ok settings =>
    let width := columns w.environment
    match read words with
    | .ok a => perform w settings a
    | .error .help =>
      { ending := .exit 0, output := helpText width settings.appName, files := w.files }
    | .error .version =>
      match filledVersion w settings with
      | .ok text => { ending := .exit 0, files := w.files, output := versionText width text }
      | .error report => { ending := .escaped report, files := w.files }
    | .error (.refused e) =>
      { ending := .exit 2, files := w.files
        errors := usage width settings.appName ++ '\n' :: (settings.appName ++
          chars ": error: " ++ e.message ++ ['\n']) }

end CommandLine

end MacroExpand
