import MacroExpand.Settings.Basic
import MacroExpand.Syntax.Printer
import MacroExpand.Hash.Sha256
import MacroExpand.Text.Utf8

/-!
# Macro definitions and calls

However a macro is written, it is kept as one function definition.  Calls are told apart by the
label of their node.  Three things can go wrong with a macro: it has no usable name, running it
fails, or its result cannot be written as source.  A failure says where it happened as far as that is
known.
-/

set_option autoImplicit false

namespace MacroExpand

/-! ## Failures of an expansion -/

/-- What went wrong with a macro. -/
inductive FailureKind where
  | general
  | naming
  | execution
  | serialization
  deriving DecidableEq, Repr, Inhabited

/-- The name that a kind of failure is reported under. -/
def FailureKind.name : FailureKind → String
  | .general => "MacroError"
  | .naming => "NamingError"
  | .execution => "ExecutionError"
  | .serialization => "SerializationError"

/-- A failed expansion, with its place and the macro it concerns as far as they are known. -/
structure Failure where
  kind : FailureKind
  message : String
  path : Option String := none
  line : Option Int := none
  column : Option Int := none
  name : Option String := none
  deriving DecidableEq, Repr, Inhabited

namespace Failure

/-- The place of a failure: path, line and column, as far as they are known.  A column is given only
together with a line, and an empty path counts as unknown. -/
def location (failure : Failure) : String :=
  let path := match failure.path with
    | none => "<unknown>"
    | some p => if p.isEmpty then "<unknown>" else p
  match failure.line, failure.column with
  | none, _ => path
  | some line, none => path ++ ":" ++ toString line
  | some line, some column => path ++ ":" ++ toString line ++ ":" ++ toString column

def report (failure : Failure) : String := failure.location ++ ": " ++ failure.message

end Failure

/-! ## Macros and calls -/

/-- A call of a macro. -/
structure CallSite where
  name : String
  /-- The label of the call's node. -/
  label : Nat
  span : Span
  /-- The brackets with the arguments. -/
  argsSpan : Span
  line : Nat
  column : Nat
  /-- Whether any expression may stand in the place of the call without brackets. -/
  free : Bool
  deriving DecidableEq, Repr, Inhabited

/-- Under what a result is stored. -/
inductive CacheKey where
  | name (name : String)
  | file (path : Text) (name : String)
  | content (name : String) (digest : Text)
  deriving DecidableEq, Repr, Inhabited

namespace CacheKey

def text : CacheKey → Text
  | .name n => Text.quoted n.toList
  | .file path n => pair path n.toList
  | .content n digest => pair n.toList digest
where
  pair (a b : Text) : Text := '(' :: (Text.quoted a ++ ',' :: ' ' :: (Text.quoted b ++ [')']))

end CacheKey

/-- A macro.  `tree` is the function definition that runs, `statement` the statement that disappears,
`source` the text of the definition before calls in it are expanded. -/
structure Definition where
  name : String
  path : Text
  tree : Tree
  /-- Whether annotations have to be dropped before it runs. -/
  typed : Bool
  statement : Tree
  line : Nat
  column : Nat
  source : Text
  /-- The calls of macros in the body. -/
  calls : List CallSite := []
  deriving Repr, Inhabited

namespace Definition

def isAsync (d : Definition) : Bool :=
  match d.tree.kind with
  | .functionDef _ isAsync _ => isAsync
  | _ => false

def parameters (d : Definition) : Except PrintError Text := Printer.expression (d.tree.part 0)

/-- Under what the result of a macro is stored. -/
def cacheKey (d : Definition) : CachePolicy → CacheKey
  | .name => .name d.name
  | .content => .content d.name (Sha256.hex d.source.utf8)
  | .file => .file d.path d.name

end Definition

/-- The place of a node in characters. -/
def Tree.span (lines : List Text) (t : Tree) : Span :=
  let m := t.mark
  let place := fun (line column : Nat) =>
    (⟨line, Text.charsBefore (lines.getD (line - 1) []) column⟩ : Position)
  ⟨place m.line m.column, place m.endLine m.endColumn⟩

end MacroExpand
