import MacroExpand.Syntax.Printer
import MacroExpand.Syntax.Parser

/-!
# Type annotations

Annotations are evaluated when a definition runs, so a definition that is run somewhere else has to
lose them first.  `Tree.stripAnnotations` drops them and changes nothing else: a declaration without
a value becomes `pass`, one with a value an assignment.
-/

set_option autoImplicit false

namespace MacroExpand

namespace Tree

def passAt (place : Mark) : Tree := .node { place with label := 0, origin := none } .pass []

def stripParameter (keepComment : Bool) : Tree → Tree
  | .node m (.arg name comment) _ => .node m (.arg name (if keepComment then comment else none)) [[]]
  | t => t

def stripParameters (slots : List (List Tree)) : List (List Tree) :=
  match slots with
  | [posOnly, args, variadic, kwOnly, kwDefaults, kwVariadic, defaults] =>
    [posOnly.map (stripParameter false), args.map (stripParameter false),
      variadic.map (stripParameter true), kwOnly.map (stripParameter false), kwDefaults,
      kwVariadic.map (stripParameter true), defaults]
  | slots => slots

def stripSignature : Tree → Tree
  | .node m .arguments slots => .node m .arguments (stripParameters slots)
  | t => t

def bodySlot? : Kind → Option Nat
  | .module _ => some 0
  | .functionDef .. => some 1
  | .classDef _ => some 2
  | .forLoop .. => some 2
  | .whileLoop => some 1
  | .ifStmt => some 1
  | .withStmt .. => some 1
  | .tryStmt _ => some 0
  | .exceptHandler _ => some 1
  | .matchCase => some 2
  | _ => none

def fillBody (kind : Kind) (slots : List (List Tree)) : List (List Tree) :=
  match bodySlot? kind with
  | some k => slots.modify k fun body => if body.isEmpty then [passAt {}] else body
  | none => slots

def stripNode (m : Mark) (kind : Kind) (slots : List (List Tree)) : Tree :=
  match kind, slots with
  | .annAssign _, [target, _, value] =>
    if value.isEmpty then passAt m
    else .node { m with label := 0, origin := none } (.assign none) [target, value]
  | .functionDef name isAsync _, [parameters, body, decorators, _] =>
    .node m (.functionDef name isAsync none)
      (fillBody kind [parameters.map stripSignature, body, decorators, []])
  | kind, slots => .node m kind (fillBody kind slots)

mutual

/-- Drop the annotations of a tree. -/
def stripAnnotations : Tree → Tree
  | .node m kind slots => stripNode m kind (stripAnnotationsSlots slots)

def stripAnnotationsSlots : List (List Tree) → List (List Tree)
  | [] => []
  | slot :: rest => stripAnnotationsAll slot :: stripAnnotationsSlots rest

def stripAnnotationsAll : List Tree → List Tree
  | [] => []
  | t :: rest => stripAnnotations t :: stripAnnotationsAll rest

end

def isAnnotated (t : Tree) : Bool :=
  match t.kind with
  | .annAssign _ => true
  | .functionDef .. => !(t.slot 3).isEmpty
  | .arg .. => !(t.slot 0).isEmpty
  | _ => false

mutual

/-- Whether a tree carries an annotation anywhere. -/
def hasAnnotations : Tree → Bool
  | .node m kind slots => isAnnotated (.node m kind slots) || hasAnnotationsSlots slots

def hasAnnotationsSlots : List (List Tree) → Bool
  | [] => false
  | slot :: rest => hasAnnotationsAll slot || hasAnnotationsSlots rest

def hasAnnotationsAll : List Tree → Bool
  | [] => false
  | t :: rest => hasAnnotations t || hasAnnotationsAll rest

end

end Tree

/-- Why a text cannot be rewritten as a whole. -/
inductive RewriteError where
  | fault (fault : SourceFault)
  | unprintable (error : PrintError)
  deriving DecidableEq, Repr, Inhabited

/-- A program without its annotations. -/
def Text.stripAnnotations (text : Text) : Except RewriteError Text :=
  match parseModule text with
  | .error fault => .error (.fault fault)
  | .ok tree =>
    match tree.stripAnnotations.print with
    | .error e => .error (.unprintable e)
    | .ok text => .ok text

end MacroExpand
