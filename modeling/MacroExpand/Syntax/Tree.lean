import MacroExpand.Value.Scalar

/-!
# Syntax trees

A tree is a node of some kind with slots, each of which holds a list of trees.  A slot for one tree
holds exactly one, a slot for an optional tree at most one.  What a node says beside its subtrees
(names, operators, literals) is in its kind; where it stands in the text is in its mark.

| kind | slots |
|---|---|
| `module` | body |
| `functionDef` | parameters, body, decorators, result annotation |
| `classDef` | bases, keywords, body, decorators |
| `returnStmt`, `exprStmt` | value |
| `delete` | targets |
| `assign` | targets, value |
| `augAssign` | target, value |
| `annAssign` | target, annotation, value |
| `forLoop` | target, iterable, body, else |
| `whileLoop`, `ifStmt` | test, body, else |
| `withStmt` | items, body |
| `matchStmt` | subject, cases |
| `raiseStmt` | exception, cause |
| `tryStmt` | body, handlers, else, finally |
| `assertStmt` | test, message |
| `importStmt`, `importFrom` | names |
| `boolOp` | operands |
| `namedExpr` | target, value |
| `binOp` | left, right |
| `unaryOp`, `awaitExpr`, `yieldExpr`, `yieldFrom`, `starred`, `attribute` | operand |
| `lambdaExpr` | parameters, body |
| `ifExp` | test, then, else |
| `dict` | keys (`absent` for an unpacked mapping), values |
| `set`, `list`, `tuple` | elements |
| `listComp`, `setComp`, `generatorExp` | element, clauses |
| `dictComp` | key, value, clauses |
| `compare` | first operand, other operands |
| `call` | callee, arguments, keywords |
| `formattedValue` | value, format |
| `joinedStr` | parts |
| `subscript` | value, index |
| `slice` | lower, upper, step |
| `comprehension` | target, iterable, conditions |
| `exceptHandler` | type, body |
| `arguments` | positional-only, positional, variadic, keyword-only, their defaults (`absent` if none), keyword variadic, defaults |
| `arg` | annotation |
| `keyword` | value |
| `withItem` | context, target |
| `matchCase` | pattern, guard, body |
| `matchValue` | value |
| `matchSequence`, `matchOr` | patterns |
| `matchMapping` | keys, patterns |
| `matchClass` | class, patterns, keyword patterns |
| `matchAs` | pattern |
-/

set_option autoImplicit false

namespace MacroExpand

/-- Whether a place is read, written or deleted. -/
inductive Usage where
  | load
  | store
  | del
  deriving DecidableEq, Repr, Inhabited

inductive BoolOperator where
  | conj
  | disj
  deriving DecidableEq, Repr, Inhabited

inductive BinaryOperator where
  | add
  | sub
  | mult
  | matMult
  | div
  | mod
  | pow
  | lShift
  | rShift
  | bitOr
  | bitXor
  | bitAnd
  | floorDiv
  deriving DecidableEq, Repr, Inhabited

inductive UnaryOperator where
  | invert
  | not
  | plus
  | minus
  deriving DecidableEq, Repr, Inhabited

inductive CompareOperator where
  | eq
  | notEq
  | lt
  | ltE
  | gt
  | gtE
  | is
  | isNot
  | isIn
  | notIn
  deriving DecidableEq, Repr, Inhabited

/-- What a node is. -/
inductive Kind where
  /-- A file; the comments that ask type checkers to look away are kept by line. -/
  | module (ignores : List (Nat × Text))
  | functionDef (name : String) (isAsync : Bool) (typeComment : Option Text)
  | classDef (name : String)
  | returnStmt
  | delete
  | assign (typeComment : Option Text)
  | augAssign (op : BinaryOperator)
  /-- An annotated assignment; `simple` if its target is a bare name. -/
  | annAssign (simple : Bool)
  | forLoop (isAsync : Bool) (typeComment : Option Text)
  | whileLoop
  | ifStmt
  | withStmt (isAsync : Bool) (typeComment : Option Text)
  | matchStmt
  | raiseStmt
  | tryStmt (star : Bool)
  | assertStmt
  | importStmt
  | importFrom (module : Option String) (level : Nat)
  | globalDecl (names : List String)
  | nonlocalDecl (names : List String)
  | exprStmt
  | pass
  | breakStmt
  | continueStmt
  | boolOp (op : BoolOperator)
  | namedExpr
  | binOp (op : BinaryOperator)
  | unaryOp (op : UnaryOperator)
  | lambdaExpr
  | ifExp
  | dict
  | set
  | listComp
  | setComp
  | dictComp
  | generatorExp
  | awaitExpr
  | yieldExpr
  | yieldFrom
  | compare (ops : List CompareOperator)
  | call
  | formattedValue (conversion : Option Char)
  | joinedStr
  /-- A literal; `marked` if it was written with a letter that has no meaning. -/
  | constant (value : Scalar) (marked : Bool)
  | attribute (name : String) (usage : Usage)
  | subscript (usage : Usage)
  | starred (usage : Usage)
  | name (id : String) (usage : Usage)
  | list (usage : Usage)
  | tuple (usage : Usage)
  | slice
  | comprehension (isAsync : Bool)
  | exceptHandler (name : Option String)
  | arguments
  | arg (name : String) (typeComment : Option Text)
  | keyword (name : Option String)
  | alias (name : String) (asName : Option String)
  | withItem
  | matchCase
  | matchValue
  | matchSingleton (value : Scalar)
  | matchSequence
  | matchMapping (rest : Option String)
  | matchClass (attributes : List String)
  | matchStar (name : Option String)
  | matchAs (name : Option String)
  | matchOr
  /-- Nothing, where a list needs an entry. -/
  | absent
  deriving DecidableEq, Repr, Inhabited

/-- Where a node stands: lines from one and columns in bytes from zero.  `label` tells the nodes of
one file apart and is zero for nodes that were made later.  `origin` names the macro whose result
the node is. -/
structure Mark where
  label : Nat := 0
  line : Nat := 0
  column : Nat := 0
  endLine : Nat := 0
  endColumn : Nat := 0
  origin : Option String := none
  deriving DecidableEq, Repr, Inhabited

/-- A syntax tree. -/
inductive Tree where
  | node (mark : Mark) (kind : Kind) (slots : List (List Tree))
  deriving Repr, Inhabited

namespace Tree

def mark : Tree → Mark
  | .node mark _ _ => mark

def kind : Tree → Kind
  | .node _ kind _ => kind

def slots : Tree → List (List Tree)
  | .node _ _ slots => slots

def slot (t : Tree) (k : Nat) : List Tree := t.slots.getD k []

def part? (t : Tree) (k : Nat) : Option Tree := (t.slot k).head?

def part (t : Tree) (k : Nat) : Tree := (t.part? k).getD (.node {} .absent [])

def children (t : Tree) : List Tree := t.slots.flatten

def absent : Tree := .node {} .absent []

def isAbsent (t : Tree) : Bool := t.kind = .absent

mutual

def size : Tree → Nat
  | .node _ _ slots => 1 + sizeSlots slots

def sizeSlots : List (List Tree) → Nat
  | [] => 0
  | slot :: rest => sizeAll slot + sizeSlots rest

def sizeAll : List Tree → Nat
  | [] => 0
  | t :: rest => size t + sizeAll rest

end

mutual

def remark (change : Mark → Mark) : Tree → Tree
  | .node m kind slots => .node (change m) kind (remarkSlots change slots)

def remarkSlots (change : Mark → Mark) : List (List Tree) → List (List Tree)
  | [] => []
  | slot :: rest => remarkAll change slot :: remarkSlots change rest

def remarkAll (change : Mark → Mark) : List Tree → List Tree
  | [] => []
  | t :: rest => remark change t :: remarkAll change rest

end

def stamp (place : Mark) : Tree → Tree :=
  remark fun m => { place with label := m.label, origin := m.origin }

def shiftLines (count : Nat) : Tree → Tree :=
  remark fun m => { m with line := m.line + count, endLine := m.endLine + count }

mutual

def label (next : Nat) : Tree → Tree × Nat
  | .node m kind slots =>
    let (slots, after) := labelSlots (next + 1) slots
    (.node { m with label := next } kind slots, after)

def labelSlots (next : Nat) : List (List Tree) → List (List Tree) × Nat
  | [] => ([], next)
  | slot :: rest =>
    let (slot, next) := labelAll next slot
    let (rest, next) := labelSlots next rest
    (slot :: rest, next)

def labelAll (next : Nat) : List Tree → List Tree × Nat
  | [] => ([], next)
  | t :: rest =>
    let (t, next) := label next t
    let (rest, next) := labelAll next rest
    (t :: rest, next)

end

def levels : Nat → List Tree → List Tree
  | 0, _ => []
  | depth + 1, ts => if ts.isEmpty then [] else ts ++ levels depth (ts.flatMap children)

def breadthFirst (t : Tree) : List Tree := levels t.size [t]

end Tree

end MacroExpand
