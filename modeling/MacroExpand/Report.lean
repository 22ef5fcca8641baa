import MacroExpand.Macro.Pass
import MacroExpand.Files
import MacroExpand.Syntax.Annotations
import MacroExpand.Text.PatternText

/-!
# Reports

Whatever goes wrong is reported by the name of a kind of error with a text.  Faults of programs also
name a line, and failures of macros their place.
-/

set_option autoImplicit false

namespace MacroExpand

/-- What is said about an error. -/
structure Report where
  /-- The name of its kind. -/
  kind : String
  text : Text := []
  /-- Whether it is one of those that programs handle. -/
  isOrdinary : Bool := true
  /-- Whether it says that a text is no program. -/
  isSyntax : Bool := false
  /-- The line that is at fault. -/
  line : Option Int := none
  /-- The failure of a macro that it stands for. -/
  failure : Option Failure := none
  deriving DecidableEq, Repr, Inhabited

def Report.plain (kind text : String) : Report := { kind, text := text.toList }

def Report.value (text : String) : Report := .plain "ValueError" text

def Failure.toReport (f : Failure) : Report :=
  { kind := f.kind.name, text := f.report.toList, failure := some f }

def SourceFault.toReport (f : SourceFault) : Report :=
  if f.kind = .nullCharacter then .value f.message
  else { kind := f.kind.name, text := f.message.toList, isSyntax := true, line := some f.line }

def PrintError.toReport (e : PrintError) : Report := .value e.message

def RewriteError.toReport : RewriteError → Report
  | .fault f => f.toReport
  | .unprintable e => e.toReport

def EditError.toReport (e : EditError) : Report :=
  if e = .noSuchLine then .plain "IndexError" e.message else .value e.message

def EmitError.toReport : EmitError → Report
  | .edit e => e.toReport
  | .scan (.indentation line) =>
    { kind := "IndentationError", text := (LineScanError.indentation line).message.toList
      isSyntax := true, line := some line }
  | .scan e => .plain "TokenError" e.message
  | .unprintable e => e.toReport

def ExpansionError.toReport : ExpansionError → Report
  | .fault f => f.toReport
  | e => .value e.message

def ScanError.toReport : ScanError → Report
  | .naming f => f.toReport
  | .unprintable e => e.toReport

def SerializeError.toReport (e : SerializeError) : Report :=
  match e with
  | .requestNotRead => .plain "RequestNotRead" e.message
  | .responseNotRead => .plain "ResponseNotRead" e.message
  | e => ({ kind := .serialization, message := e.message } : Failure).toReport

def RunError.toReport : RunError → Report
  | .failed f => f.toReport
  | .unwritable e => e.toReport
  | .interrupted kind message => { Report.plain kind message with isOrdinary := false }

def PassError.toReport : PassError → Report
  | .fault f => f.toReport
  | .scan e => e.toReport
  | .failure f => f.toReport
  | .unwritable e => e.toReport
  | .interrupted kind message => (RunError.interrupted kind message).toReport
  | .expansion e => e.toReport
  | .emit e => e.toReport
  | .waiting _ => .plain "RuntimeError" "the result is being computed elsewhere"

def PatternError.toReport (e : PatternError) : Report :=
  match e with
  | .tooMany => .plain "OverflowError" e.message
  | .mixedAlphabets => .value e.message
  | e => .plain "error" e.message

def FileError.toReport (e : FileError) : Report := .plain e.fault.name e.message

def Utf8Error.toReport (e : Utf8Error) : Report := .plain "UnicodeDecodeError" e.message

end MacroExpand
