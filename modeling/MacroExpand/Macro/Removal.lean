import MacroExpand.Macro.Definition
import MacroExpand.Edit
import MacroExpand.Log
import MacroExpand.Text.Lines

/-!
# Removing definitions

The statement of every macro leaves the tree and the text.  A block that would be left empty gets a
`pass`.  In the text, the lines of a statement are emptied, or, if it shares a line with other code,
the statement becomes a `pass` of as many lines.
-/

set_option autoImplicit false

namespace MacroExpand

namespace Removal

/-- What is removed: the labels of statements with the names of their macros, and the lines of the
file. -/
structure Context where
  removed : List (Nat × String)
  lines : List Text

def Context.of (definitions : List Definition) (lines : List Text) : Context :=
  ⟨definitions.map fun d => (d.statement.mark.label, d.name), lines⟩

def Context.line (c : Context) (number : Nat) : Text := c.lines.getD (number - 1) []

def Context.name? (c : Context) (t : Tree) : Option String :=
  if t.mark.label = 0 then none
  else (c.removed.find? fun e => e.1 = t.mark.label).map Prod.snd

/-- Where a statement begins: at its first decorator, if it has any. -/
def Context.start (c : Context) (t : Tree) : Position :=
  let decorators : List Nat := match t.kind with
    | .functionDef .. => (t.slot 2).map fun d => d.mark.line
    | _ => []
  match decorators.min? with
  | some first =>
    let line := c.line first
    ⟨first, line.length - line.trimLeft.length⟩
  | none => (t.span c.lines).start

def Context.edit (c : Context) (withPass : Bool) (t : Tree) : Edit :=
  let start := c.start t
  let stop := (t.span c.lines).stop
  let last := (c.line stop.line).dropTerminator
  let front : Text := (c.line start.line).take start.column
  let back := Text.trim (last.drop stop.column)
  let feeds := stop.line - start.line
  if !(Text.trim front).isEmpty || (!back.isEmpty && back.head? != some '#') then
    { start, stop
      replacement := chars "pass" ++ (List.replicate feeds [' ', '\\', '\n']).flatten }
  else
    let empty := List.replicate feeds '\n'
    { start := ⟨start.line, 0⟩, stop := ⟨stop.line, last.length⟩
      replacement := if withPass then front ++ chars "pass" ++ empty else empty }

/-- A tree without some statements, the edits that remove them, and what is logged. -/
structure Result (α : Type) where
  kept : α
  edits : List Edit := []
  log : List LogEntry := []

def entry (name : String) : LogEntry := ⟨.debug, .rewriting, chars "Removed macro " ++ name.toList⟩

/-- The edits that remove the statements of a block. -/
def Context.edits (c : Context) (needsPass : Bool) : List Tree → List Edit
  | [] => []
  | first :: rest => c.edit needsPass first :: rest.map (c.edit false)

def Context.close (c : Context) (isModule : Bool) (removed : List Tree) (kept : Result (List Tree)) :
    Result (List Tree) :=
  match removed with
  | [] => kept
  | first :: _ =>
    let needsPass := kept.kept.isEmpty && !isModule
    { kept := if needsPass then [.node { first.mark with label := 0 } .pass []] else kept.kept
      edits := kept.edits ++ c.edits needsPass removed
      log := kept.log ++ removed.map fun t => entry ((c.name? t).getD "") }

def isModule : Kind → Bool
  | .module _ => true
  | _ => false

mutual

/-- Remove the statements below a node. -/
def Context.strip (c : Context) : Tree → Result Tree
  | .node m kind slots =>
    let r := c.stripSlots (isModule kind) slots
    ⟨.node m kind r.kept, r.edits, r.log⟩

def Context.stripSlots (c : Context) (inModule : Bool) :
    List (List Tree) → Result (List (List Tree))
  | [] => { kept := [] }
  | slot :: rest =>
    let a := c.close inModule (slot.filter fun t => (c.name? t).isSome) (c.stripAll slot)
    let b := c.stripSlots inModule rest
    ⟨a.kept :: b.kept, a.edits ++ b.edits, a.log ++ b.log⟩

def Context.stripAll (c : Context) : List Tree → Result (List Tree)
  | [] => { kept := [] }
  | t :: rest =>
    let b := c.stripAll rest
    if (c.name? t).isSome then b
    else
      let a := c.strip t
      ⟨a.kept :: b.kept, a.edits ++ b.edits, a.log ++ b.log⟩

end

end Removal

end MacroExpand
