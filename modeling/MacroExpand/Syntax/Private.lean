import MacroExpand.Syntax.Tree

/-!
# Private names

A name that begins with two underscores and does not end with two belongs to the class in whose
body it is written: it means the name with the class's own name in front.  `withPrivateNames`
writes the names of classes out.
-/

set_option autoImplicit false

namespace MacroExpand

namespace Private

/-- What a class puts in front of its private names; nothing if its name is all underscores. -/
def mark? (owner : String) : Option String :=
  match owner.toList.dropWhile (· == '_') with
  | [] => none
  | cs => some (String.ofList ('_' :: cs))

def isPrivate (name : String) : Bool :=
  name.startsWith "__" && !name.endsWith "__" && !name.toList.contains '.'

def inside (owner : Option String) (name : String) : String :=
  match owner.bind mark? with
  | some mark => if isPrivate name then mark ++ name else name
  | none => name

def kindInside (owner : Option String) : Kind → Kind
  | .functionDef name isAsync comment => .functionDef (inside owner name) isAsync comment
  | .classDef name => .classDef (inside owner name)
  | .importFrom module level => .importFrom (module.map (inside owner)) level
  | .globalDecl names => .globalDecl (names.map (inside owner))
  | .nonlocalDecl names => .nonlocalDecl (names.map (inside owner))
  | .attribute name usage => .attribute (inside owner name) usage
  | .name id usage => .name (inside owner id) usage
  | .exceptHandler name => .exceptHandler (name.map (inside owner))
  | .arg name comment => .arg (inside owner name) comment
  | .alias name asName => .alias (inside owner name) (asName.map (inside owner))
  | .matchMapping rest => .matchMapping (rest.map (inside owner))
  | .matchStar name => .matchStar (name.map (inside owner))
  | .matchAs name => .matchAs (name.map (inside owner))
  | kind => kind

def slotOwner (owner : Option String) (kind : Kind) (slot : Nat) : Option String :=
  match kind, slot with
  | .classDef name, 2 => some name
  | _, _ => owner

mutual

def written (owner : Option String) : Tree → Tree
  | .node m kind slots => .node m (kindInside owner kind) (writtenSlots owner kind 0 slots)

def writtenSlots (owner : Option String) (kind : Kind) (k : Nat) :
    List (List Tree) → List (List Tree)
  | [] => []
  | slot :: rest =>
    writtenAll (slotOwner owner kind k) slot :: writtenSlots owner kind (k + 1) rest

def writtenAll (owner : Option String) : List Tree → List Tree
  | [] => []
  | t :: rest => written owner t :: writtenAll owner rest

end

/-- The innermost class around a definition, given what the full names of definitions there begin
with: each function in it is followed by a part that stands for its names. -/
def classIn : List String → Option String
  | _ :: "<locals>" :: rest => classIn rest
  | name :: rest => (classIn rest).or (if name = "" then none else some name)
  | [] => none

def shown (qualifier name : String) : String :=
  match (classIn (qualifier.splitOn ".")).bind mark? with
  | some mark =>
    if name.startsWith (mark ++ "__") then String.ofList (name.toList.drop mark.length) else name
  | none => name

end Private

def withPrivateNames (statements : List Tree) : List Tree := Private.writtenAll none statements

end MacroExpand
