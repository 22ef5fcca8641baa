import MacroExpand.Syntax.Naming
import MacroExpand.Syntax.Parser
import MacroExpand.Syntax.Placement
import MacroExpand.Syntax.Printer
import MacroExpand.Syntax.Private

/-!
# Programs

A text that can be parsed is a program if the imports that change the language come first, what it
says about names does not contradict itself, and each statement may stand where it does.
-/

set_option autoImplicit false

namespace MacroExpand

namespace Program

def features : List String := [
  "nested_scopes", "generators", "division", "absolute_import", "with_statement", "print_function",
  "unicode_literals", "barry_as_FLUFL", "generator_stop", "annotations"]

/-- The imports that change the language: their last line, and the features asked for. -/
structure Future where
  lastLine : Nat := 0
  asked : List String := []
  deriving DecidableEq, Repr, Inhabited

def Future.ask (line : Nat) (future : Future) : List Tree → Except SourceFault Future
  | [] => .ok { future with lastLine := line }
  | t :: rest =>
    match t.kind with
    | .alias name _ =>
      if features.contains name then
        { future with asked := future.asked ++ [name] }.ask line rest
      else if name = "braces" then .error ⟨.grammar, "not a chance", line, 0⟩
      else .error ⟨.grammar, "future feature " ++ name ++ " is not defined", line, 0⟩
    | _ => future.ask line rest

def Future.ofStatements (future : Future) : List Tree → Except SourceFault Future
  | [] => .ok future
  | t :: rest =>
    match t.kind with
    | .importFrom (some "__future__") _ => do
        let future ← future.ask t.mark.line (t.slot 0)
        future.ofStatements rest
    | _ => .ok future

def isText (t : Tree) : Bool :=
  match t.kind, (t.part 0).kind with
  | .exprStmt, .constant value _ => value.points?.isSome
  | _, _ => false

/-! ## Annotations that are never evaluated -/

def isAnnotation (kind : Kind) (slot : Nat) : Bool :=
  match kind, slot with
  | .arg _ _, 0 | .functionDef _ _ _, 3 | .annAssign _, 1 => true
  | _, _ => false

def quoted (t : Tree) : Tree :=
  match Printer.expression t with
  | .ok text => .node t.mark (.constant (.str text) false) []
  | .error _ => t

mutual

def withQuoted : Tree → Tree
  | .node m kind slots => .node m kind (withQuotedSlots kind 0 slots)

def withQuotedSlots (kind : Kind) (k : Nat) : List (List Tree) → List (List Tree)
  | [] => []
  | slot :: rest =>
    (if isAnnotation kind k then slot.map quoted else withQuotedAll slot) ::
      withQuotedSlots kind (k + 1) rest

def withQuotedAll : List Tree → List Tree
  | [] => []
  | t :: rest => withQuoted t :: withQuotedAll rest

end

/-! ## Programs -/

/-- Check trees: the private names of classes are written out, and
annotations that are never evaluated stand for their texts. -/
def checked (future : Future) (trees : List Tree) : Except SourceFault (List Tree) :=
  let postponed := future.asked.contains "annotations"
  let named := withPrivateNames trees
  match Naming.fault? postponed named with
  | some fault => .error fault
  | none =>
    match Placement.fault? postponed future.lastLine named with
    | some fault => .error fault
    | none => .ok (if postponed then withQuotedAll named else named)

def ofStatements (statements : List Tree) : Except SourceFault (List Tree) := do
  let documented := (statements.head?.map isText).getD false
  let future ← Future.ofStatements {} (if documented then statements.tail else statements)
  checked future statements

def ofText (text : Text) : Except SourceFault (List Tree) := do
  ofStatements ((← parseModule text).slot 0)

def expressionOf (text : Text) : Except SourceFault Tree := do
  let t ← parseExpression text
  return (← checked {} [t]).headD t

end Program

end MacroExpand
