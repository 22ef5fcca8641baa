import MacroExpand.Syntax.Tree

/-!
# Scopes

A name belongs to the function in which it is bound: a parameter, or a name that the body assigns,
imports, defines, catches or matches.  Bodies of nested functions and classes have scopes of their
own; so has a comprehension, but an assignment expression in one binds outside it.
-/

set_option autoImplicit false

namespace MacroExpand

namespace Scope

def firstPart (name : String) : String := String.ofList (name.toList.takeWhile (· != '.'))

def importedName (whole : Bool) (t : Tree) : List String :=
  match t.kind with
  | .alias name (some asName) => if name = "*" then [] else [asName]
  | .alias name none =>
    if name = "*" then [] else [if whole then firstPart name else name]
  | _ => []

def ownName (nested : Bool) (t : Tree) : List String :=
  match t.kind with
  | .name id .store | .name id .del => if nested then [] else [id]
  | .functionDef name _ _ | .classDef name => [name]
  | .namedExpr =>
    match (t.part 0).kind with
    | .name id _ => [id]
    | _ => []
  | .importStmt => (t.slot 0).flatMap (importedName true)
  | .importFrom .. => (t.slot 0).flatMap (importedName false)
  | .exceptHandler (some name) | .matchAs (some name) | .matchStar (some name)
  | .matchMapping (some name) => [name]
  | _ => []

def isForeign (kind : Kind) (slot : Nat) : Bool :=
  match kind with
  | .functionDef .. => slot == 1
  | .classDef _ => slot == 2
  | .lambdaExpr => slot == 1
  | _ => false

/-- Whether a slot holds a name in brackets that is declared without a value.  Such a name is not bound. -/
def isUnboundTarget (kind : Kind) (k : Nat) (slot : List Tree) (rest : List (List Tree)) : Bool :=
  match kind, k, slot, rest with
  | .annAssign false, 0, [.node _ (.name _ _) _], [_, []] => true
  | _, _, _, _ => false

def isComprehension : Kind → Bool
  | .listComp | .setComp | .dictComp | .generatorExp => true
  | _ => false

mutual

def bound (nested : Bool) : Tree → List String
  | .node m kind slots =>
    ownName nested (.node m kind slots) ++
      boundSlots (nested || isComprehension kind) kind 0 slots

def boundSlots (nested : Bool) (kind : Kind) (k : Nat) : List (List Tree) → List String
  | [] => []
  | slot :: rest =>
    (if isForeign kind k || isUnboundTarget kind k slot rest then [] else boundAll nested slot) ++
      boundSlots nested kind (k + 1) rest

def boundAll (nested : Bool) : List Tree → List String
  | [] => []
  | t :: rest => bound nested t ++ boundAll nested rest

end

def globalNames (t : Tree) : List String :=
  match t.kind with
  | .globalDecl names => names
  | _ => []

def outerNames (t : Tree) : List String :=
  match t.kind with
  | .nonlocalDecl names => names
  | _ => []

mutual

def declared (names : Tree → List String) : Tree → List String
  | .node m kind slots => names (.node m kind slots) ++ declaredSlots names kind 0 slots

def declaredSlots (names : Tree → List String) (kind : Kind) (k : Nat) :
    List (List Tree) → List String
  | [] => []
  | slot :: rest =>
    (if isForeign kind k then [] else declaredAll names slot) ++
      declaredSlots names kind (k + 1) rest

def declaredAll (names : Tree → List String) : List Tree → List String
  | [] => []
  | t :: rest => declared names t ++ declaredAll names rest

end

def parameterNames (parameters : Tree) : List String :=
  [0, 1, 2, 3, 5].flatMap fun k => (parameters.slot k).filterMap fun t =>
    match t.kind with
    | .arg name _ => some name
    | _ => none

def keptHere (body : List Tree) (names : List String) : List String :=
  let elsewhere := declaredAll globalNames body ++ declaredAll outerNames body
  names.eraseDups.filter fun n => !elsewhere.contains n

def localNames (parameters : Tree) (body : List Tree) : List String :=
  keptHere body (parameterNames parameters ++ boundAll false body)

def ownNames (body : List Tree) : List String := keptHere body (boundAll false body)

def yields (body : List Tree) : Bool :=
  !(declaredAll (fun t => match t.kind with
    | .yieldExpr | .yieldFrom => ["yield"]
    | _ => []) body).isEmpty

def awaits (ts : List Tree) : Bool :=
  !(declaredAll (fun t => match t.kind with
    | .awaitExpr | .comprehension true => ["await"]
    | _ => []) ts).isEmpty

end Scope

end MacroExpand
