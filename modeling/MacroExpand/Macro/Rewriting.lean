import MacroExpand.Macro.Definition
import MacroExpand.Syntax.Parser
import MacroExpand.Edit
import MacroExpand.Log

/-!
# Replacing calls by results

A call is replaced twice: in the text by an edit and in the tree by the parsed expression.  The edit
has as many line feeds as the call has lines behind its first, and brackets where the expression
would otherwise come apart.
-/

set_option autoImplicit false

namespace MacroExpand

/-- Why a call cannot be replaced. -/
inductive ExpansionError where
  | alreadyExpanded (name : String) (line : Nat)
  /-- The result is no expression. -/
  | fault (fault : SourceFault)
  deriving DecidableEq, Repr, Inhabited

namespace ExpansionError

def message : ExpansionError → String
  | .alreadyExpanded name line =>
    "call to " ++ quotedString name ++ " at line " ++ toString line ++ " was already rewritten"
  | .fault e => e.message

end ExpansionError

def Tree.isAtomic (t : Tree) : Bool :=
  match t.kind with
  | .constant (.str _) _ | .constant (.codes _) _ | .constant (.bytes _) _ | .constant (.bool _) _
  | .constant .nil _ => true
  | .list _ | .dict | .set | .tuple _ | .call | .attribute .. | .name .. => true
  | _ => false

/-- A result for a call. -/
structure Expansion where
  site : CallSite
  result : Tree
  deriving Repr, Inhabited

/-- The calls replaced so far. -/
structure Rewriting where
  edits : List Edit := []
  expansions : List Expansion := []
  deriving Repr, Inhabited

namespace Rewriting

def replacement (site : CallSite) (result : Tree) (expression : Text) : Text :=
  let feeds := site.span.stop.line - site.span.start.line
  if feeds ≠ 0 then '(' :: (expression ++ List.replicate feeds '\n' ++ [')'])
  else if result.isAtomic || site.free then expression
  else '(' :: (expression ++ [')'])

/-- Replace a call by an expression. -/
def expand (r : Rewriting) (site : CallSite) (expression : Text) :
    Except ExpansionError (Rewriting × Edit) :=
  if r.expansions.any fun e => e.site.label = site.label then
    .error (.alreadyExpanded site.name site.line)
  else match parseExpression expression with
    | .error fault => .error (.fault fault)
    | .ok result =>
      let edit : Edit :=
        ⟨site.span.start, site.span.stop, replacement site result expression, some site.name⟩
      .ok ({ edits := r.edits ++ [edit], expansions := r.expansions ++ [⟨site, result⟩] }, edit)

def entry (site : CallSite) : LogEntry :=
  ⟨.debug, .rewriting, chars "Expanded " ++ site.name.toList ++ chars " at line " ++
    Nat.toDigits 10 site.line⟩

/-- The result of a call in its place, marked with the macro it comes from. -/
def Expansion.inserted (e : Expansion) (place : Mark) : Tree :=
  match e.result.stamp place with
  | .node m kind slots => .node { m with origin := some e.site.name } kind slots

def swap (expansions : List Expansion) (t : Tree) : Tree :=
  match t.kind with
  | .call =>
    match expansions.find? fun e => e.site.label = t.mark.label with
    | some e => Expansion.inserted e t.mark
    | none => t
  | _ => t

mutual

/-- Replace the calls in a tree. -/
def apply (expansions : List Expansion) : Tree → Tree
  | .node m kind slots => swap expansions (.node m kind (applySlots expansions slots))

def applySlots (expansions : List Expansion) : List (List Tree) → List (List Tree)
  | [] => []
  | slot :: rest => applyAll expansions slot :: applySlots expansions rest

def applyAll (expansions : List Expansion) : List Tree → List Tree
  | [] => []
  | t :: rest => apply expansions t :: applyAll expansions rest

end

end Rewriting

def Tree.origins (t : Tree) : List String := t.breadthFirst.filterMap fun n => n.mark.origin

end MacroExpand
