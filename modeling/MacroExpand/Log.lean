import MacroExpand.Text.Lines

/-!
# The log

Every part of an expansion reports what it does under a name of its own.
-/

set_option autoImplicit false

namespace MacroExpand

/-- How much an entry matters, least first. -/
inductive LogLevel where
  | debug
  | info
  | warning
  | error
  | critical
  deriving DecidableEq, Repr, Inhabited

namespace LogLevel

def name : LogLevel → String
  | .debug => "DEBUG"
  | .info => "INFO"
  | .warning => "WARNING"
  | .error => "ERROR"
  | .critical => "CRITICAL"

def weight : LogLevel → Nat
  | .debug => 10
  | .info => 20
  | .warning => 30
  | .error => 40
  | .critical => 50

def weightOf? (name : Text) : Option Nat :=
  ([("CRITICAL", 50), ("FATAL", 50), ("ERROR", 40), ("WARN", 30), ("WARNING", 30), ("INFO", 20),
    ("DEBUG", 10), ("NOTSET", 0)].find? fun e => e.1.toList = name).map Prod.snd

end LogLevel

/-- The part of an expansion that reports something. -/
inductive LogArea where
  | scan
  | pass
  | sandbox
  | cache
  | rewriting
  | writing
  | loading
  | importing
  /-- What macros report themselves. -/
  | messages
  | program
  deriving DecidableEq, Repr, Inhabited

def LogArea.name : LogArea → String
  | .scan => "macrobuild.services.macros.registry"
  | .pass => "macrobuild.services.macros.engine"
  | .sandbox => "macrobuild.services.macros.sandbox"
  | .cache => "macrobuild.services.macros.cache"
  | .rewriting => "macrobuild.services.macros.rewriter"
  | .writing => "macrobuild.services.macros.serializer"
  | .loading => "macrobuild.services.loader"
  | .importing => "macrobuild.services.importhook"
  | .messages => "macrobuild.macro"
  | .program => "macrobuild"

/-- One entry of the log. -/
structure LogEntry where
  level : LogLevel
  area : LogArea
  message : Text
  deriving DecidableEq, Repr, Inhabited

namespace LogEntry

def line (e : LogEntry) : Text :=
  e.level.name.toList ++ ' ' :: (e.area.name.toList ++ ':' :: ' ' :: (e.message ++ ['\n']))

def weighs (threshold : Nat) (e : LogEntry) : Bool := threshold ≤ e.level.weight

end LogEntry

end MacroExpand
