import MacroExpand.Text.Lines
import MacroExpand.Data.Json
import MacroExpand.Edit
import MacroExpand.Syntax.CommentLines
import MacroExpand.Syntax.Printer

/-!
# Emission

An expansion is emitted as its code and a source map.
-/

set_option autoImplicit false

namespace MacroExpand

/-!
## Source maps

A source map (revision 3) of an expansion that keeps its lines: every line of the output comes from
the line with the same number of the one source.
-/

/-- A source map. -/
structure SourceMap where
  file : Text
  sources : List Text
  names : List Text := []
  mappings : Text := []
  deriving DecidableEq, Repr, Inhabited

namespace SourceMap

def version : Nat := 3

def followingLines : Nat → Text
  | 0 => []
  | n + 1 => chars ";AACA" ++ followingLines n

def lineMappings : Nat → Text
  | 0 => []
  | n + 1 => chars "AAAA" ++ followingLines n

def ofFile (name : Text) : SourceMap := { file := name, sources := [name] }

def toJson (m : SourceMap) : Json :=
  .obj [(chars "version", .int version), (chars "file", .str m.file),
    (chars "sources", .arr (m.sources.map .str)), (chars "names", .arr (m.names.map .str)),
    (chars "mappings", .str m.mappings)]

end SourceMap

/-!
## Emitting expanded code

With lines retained, the source text is kept and only the edited spans change, so every line keeps
its number; each line on which an expanded call ends can get a comment that names the macro.
Otherwise the tree is printed afresh.
-/

/-- How code is emitted. -/
structure EmitOptions where
  retainLines : Bool := true
  /-- Name the macros behind the lines they expanded on. -/
  provenance : Bool := true
  provenanceTag : Text := chars "@__MACRO__"
  fileName : Text := chars "<unknown>"
  deriving DecidableEq, Repr, Inhabited

/-- Expanded code with its source map. -/
structure Emitted where
  code : Text
  sourceMap : SourceMap
  deriving DecidableEq, Repr, Inhabited

/-- Why code cannot be emitted. -/
inductive EmitError where
  | edit (error : EditError)
  | scan (error : LineScanError)
  | unprintable (error : PrintError)
  deriving DecidableEq, Repr, Inhabited

namespace Emit

def checkLines (source : Text) : List PlacedEdit → Except EditError Unit
  | [] => .ok ()
  | e :: rest =>
    if (source.slice e.start e.stop).countFeeds = e.edit.replacement.countFeeds then
      checkLines source rest
    else .error (.changesLines e.edit.start.line)

def noteLine (safe : List Nat) (line : Int) : Nat :=
  (safe.find? fun (n : Nat) => decide (line ≤ n)).getD line.toNat

def addNote (line : Nat) (name : String) : List (Nat × List String) → List (Nat × List String)
  | [] => [(line, [name])]
  | (n, names) :: rest =>
    if n = line then (n, if names.contains name then names else names ++ [name]) :: rest
    else (n, names) :: addNote line name rest

def notes (safe : List Nat) (edits : List Edit) : List (Nat × List String) :=
  edits.foldl (fun notes e => match e.source with
    | some name => addNote (noteLine safe e.stop.line) name notes
    | none => notes) []

def noteOn (tag : Text) (names : List String) (line : Text) : Text :=
  let body := line.dropTerminator
  let comment := Text.joinWith (chars ", ") (names.map fun n => tag ++ ' ' :: n.toList)
  body ++ chars "  # " ++ comment ++ line.drop body.length

def writeNote (tag : Text) (lines : List Text) (note : Nat × List String) :
    Except EditError (List Text) :=
  if lines.length < note.1 then .ok lines
  else if note.1 = 0 then
    if lines.isEmpty then .error .noSuchLine
    else .ok (lines.modify (lines.length - 1) (noteOn tag note.2))
  else .ok (lines.modify (note.1 - 1) (noteOn tag note.2))

def annotate (code source : Text) (edits : List Edit) (tag : Text) : Except EmitError Text := do
  let safe ← match source.commentLines with
    | .ok safe => pure safe
    | .error e => throw (.scan e)
  match (notes safe edits).foldlM (writeNote tag) code.lines with
  | .ok lines => return lines.flatten
  | .error e => throw (.edit e)

end Emit

def EmitError.orEdit {α : Type} : Except EditError α → Except EmitError α
  | .ok a => .ok a
  | .error e => .error (.edit e)

/-- Emit the code of a rewritten tree. -/
def emit (tree : Tree) (source : Text) (edits : List Edit) (options : EmitOptions := {}) :
    Except EmitError Emitted := do
  let sourceMap := SourceMap.ofFile options.fileName
  if options.retainLines then
    let kept ← EmitError.orEdit (Edit.outermost source.lineStarts edits)
    EmitError.orEdit (Emit.checkLines source kept)
    let keptEdits := kept.map PlacedEdit.edit
    let code ← EmitError.orEdit (source.splice keptEdits)
    let code ← if options.provenance then
        Emit.annotate code source keptEdits options.provenanceTag
      else pure code
    return ⟨code, { sourceMap with mappings := SourceMap.lineMappings code.lines.length }⟩
  else match tree.print with
    | .error e => throw (.unprintable e)
    | .ok code => return ⟨if code.isEmpty then code else code ++ ['\n'], sourceMap⟩

end MacroExpand
