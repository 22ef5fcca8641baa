import MacroExpand.Text.Lines

/-!
# Edits of a text

An edit replaces a span of a text.  Edits inside another edit have no effect, and edits that overlap
without one holding the other are refused.  `Text.splice` applies edits to a text or to a slice of
it.
-/

set_option autoImplicit false

namespace MacroExpand

/-- Replace a span by a text.  An edit that writes a macro's result names the macro. -/
structure Edit where
  start : Anchor
  stop : Anchor
  replacement : Text
  source : Option String := none
  deriving DecidableEq, Repr, Inhabited

/-- Why edits cannot be applied. -/
inductive EditError where
  /-- The place names a line that the text does not have. -/
  | noSuchLine
  /-- Two edits overlap and neither holds the other; `line` is where the later one starts. -/
  | overlapping (line : Int)
  /-- An edit would change the number of line feeds. -/
  | changesLines (line : Int)
  deriving DecidableEq, Repr, Inhabited

namespace EditError

def message : EditError → String
  | .noSuchLine => "list index out of range"
  | .overlapping line => "overlapping edits at line " ++ toString line
  | .changesLines line => "edit at line " ++ toString line ++ " changes the line count"

end EditError

/-- An edit together with the offsets of its span. -/
structure PlacedEdit where
  edit : Edit
  start : Int
  stop : Int
  deriving DecidableEq, Repr, Inhabited

namespace PlacedEdit

def precedes (a b : PlacedEdit) : Bool :=
  a.start < b.start || (a.start == b.start && b.stop ≤ a.stop)

def sweep (last : Option PlacedEdit) : List PlacedEdit → Except EditError (List PlacedEdit)
  | [] => .ok []
  | e :: rest =>
    match last with
    | none => return e :: (← sweep (some e) rest)
    | some k =>
      if e.stop ≤ k.stop then sweep (some k) rest
      else if e.start < k.stop then .error (.overlapping e.edit.start.line)
      else return e :: (← sweep (some e) rest)

def write (text : Text) (cursor stop : Int) : List PlacedEdit → Text
  | [] => text.slice cursor stop
  | e :: rest => text.slice cursor e.start ++ e.edit.replacement ++ write text e.stop stop rest

end PlacedEdit

namespace Edit

def place (starts : List Nat) (edit : Edit) : Except EditError PlacedEdit :=
  match Text.offsetIn starts edit.start, Text.offsetIn starts edit.stop with
  | some start, some stop => .ok ⟨edit, start, stop⟩
  | _, _ => .error .noSuchLine

/-- The edits that lie in no other, in increasing position. -/
def outermost (starts : List Nat) (edits : List Edit) : Except EditError (List PlacedEdit) := do
  let placed ← edits.mapM (place starts)
  PlacedEdit.sweep none (placed.mergeSort PlacedEdit.precedes)

end Edit

namespace Text

def splice (text : Text) (edits : List Edit) (span : Option (Anchor × Anchor) := none) :
    Except EditError Text := do
  let starts := text.lineStarts
  let place := fun p => match offsetIn starts p with
    | some n => Except.ok n
    | none => Except.error EditError.noSuchLine
  let lo ← match span with
    | some s => place s.1
    | none => .ok 0
  let hi ← match span with
    | some s => place s.2
    | none => .ok (text.length : Int)
  let kept ← Edit.outermost starts edits
  return PlacedEdit.write text lo hi (kept.filter fun e => lo ≤ e.start && e.stop ≤ hi)

end Text

end MacroExpand
