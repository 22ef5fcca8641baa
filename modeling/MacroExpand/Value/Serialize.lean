import MacroExpand.Value.Reduction
import MacroExpand.Number.Shortest

/-!
# Values as expressions

`uneval` writes a value as an expression that rebuilds it.  A first walk over the graph finds the
lists, dictionaries and sets that are reached more than once or lie on a cycle.  Those become
parameters of a surrounding function: they are created empty and filled in place, so that sharing
and cycles survive.  Everything else is written where it is used.
-/

set_option autoImplicit false

namespace MacroExpand

namespace Object

def fillable : Object → Bool
  | .list _ | .dict _ | .set _ => true
  | _ => false

def typeName : Object → String
  | .list _ => "list"
  | .tuple _ => "tuple"
  | .dict _ => "dict"
  | .set _ => "set"
  | .frozenset _ => "frozenset"
  | .inst cls _ => cls.name.qualname

def elements : Object → List Value
  | .list items | .tuple items | .set items | .frozenset items => items
  | .dict entries => entries.flatMap fun (k, v) => [k, v]
  | .inst _ _ => []

end Object

/-- Why an instance that cannot be reduced cannot be written. -/
def refusal (cls : Class) : State → SerializeError
  | .callable qualname => .callable qualname
  | _ => .unsupported cls.name

/-- What the walk over a value has found. -/
structure Survey where
  graph : Graph
  /-- Objects that were reduced, with their recipes. -/
  recipes : List (Nat × Recipe) := []
  /-- Fillable objects that are direct arguments of a recipe. -/
  synthetic : List Nat := []
  /-- Other fillable objects in the order in which they were met, the last one first. -/
  order : List Nat := []
  /-- Those of them that are met again or break a cycle. -/
  hoisted : List Nat := []

namespace Survey

def object (s : Survey) (i : Nat) : Object := s.graph.getD i (.tuple [])

def hoistable (s : Survey) (i : Nat) : Bool := (s.object i).fillable && !s.synthetic.contains i

def recipe? (s : Survey) (i : Nat) : Option Recipe :=
  (s.recipes.find? fun e => e.1 = i).map Prod.snd

def reduce (registry : Registry) (s : Survey) (i : Nat) (cls : Class) (state : State) :
    Except SerializeError (Survey × Recipe) :=
  match s.recipe? i with
  | some recipe => .ok (s, recipe)
  | none =>
    match registry.reduce cls state with
    | .error e => .error e
    | .ok none => .error (refusal cls state)
    | .ok (some fresh) =>
      let (graph, recipe) := fresh.alloc s.graph
      let direct := recipe.values.filterMap fun v => match v with
        | .ref j => if (graph.getD j (.tuple [])).fillable then some j else none
        | .scalar _ => none
      .ok ({ s with graph, recipes := (i, recipe) :: s.recipes,
                    synthetic := direct ++ s.synthetic }, recipe)

def children (registry : Registry) (s : Survey) (i : Nat) :
    Except SerializeError (Survey × List Value) :=
  match s.object i with
  | .inst cls state =>
    match s.reduce registry i cls state with
    | .error e => .error e
    | .ok (s, recipe) => .ok (s, recipe.values)
  | object => .ok (s, object.elements)

/-- Choose the object of a cycle that becomes a parameter: the first hoistable one from `target`
inwards.  `path` holds the objects around the current one, innermost first. -/
def breakCycle (s : Survey) (target : Nat) (path : List Nat) : Except SerializeError Survey :=
  match (path.reverse.dropWhile (· ≠ target)).find? s.hoistable with
  | some i => .ok { s with hoisted := i :: s.hoisted }
  | none => .error (.cyclic (s.object target).typeName)

/-- Walk over a value, at most `depth` objects deep. -/
def scan (registry : Registry) : Nat → List Nat → Survey → Value → Except SerializeError Survey
  | _, _, s, .scalar _ => .ok s
  | 0, _, _, .ref _ => .error .tooDeep
  | depth + 1, path, s, .ref i =>
    if path.contains i then s.breakCycle i path
    else if s.hoistable i && s.order.contains i then .ok { s with hoisted := i :: s.hoisted }
    else
      let s := if s.hoistable i then { s with order := i :: s.order } else s
      match s.children registry i with
      | .error e => .error e
      | .ok (s, values) => values.foldlM (scan registry depth (i :: path)) s

/-- The objects that become parameters, in the order in which they were met. -/
def shared (s : Survey) : List Nat := s.order.reverse.filter s.hoisted.contains

end Survey

/-! ## Writing -/

def Scalar.text : Scalar → Text
  | .nil => chars "None"
  | .bool true => chars "True"
  | .bool false => chars "False"
  | .ellipsis => chars "..."
  | .int n =>
    if n.natAbs < 10 ^ 1000 then intText n
    else
      let hex := chars "0x" ++ Nat.toDigits 16 n.natAbs
      chars "int(" ++ Text.quoted (if n < 0 then '-' :: hex else hex) ++ chars ", 16)"
  | .float d => floatText d
  | .complex re im => chars "complex(" ++ floatText re ++ chars ", " ++ floatText im ++ [')']
  | .str s => Text.quoted s
  | .codes s => Text.quotedPoints s.points
  | .bytes b => quotedBytes b
where
  /-- A double, where those that have no literal are read from their names. -/
  floatText (d : Double) : Text :=
    match d.kind with
    | .undefined => chars "float('nan')"
    | .infinite => if d.negative then chars "float('-inf')" else chars "float('inf')"
    | .finite _ _ => d.text

/-- The expression that names what a recipe calls. -/
def Recipe.target (recipe : Recipe) : Text :=
  if recipe.module = "builtins" then recipe.qualname.toList
  else
    let module := Text.quoted recipe.module.toList
    let head := Text.quoted (recipe.qualname.toList.takeWhile (· != '.'))
    let source := if recipe.module.toList.contains '.' then
      module ++ chars ", fromlist=[" ++ head ++ chars "]" else module
    chars "__import__(" ++ source ++ chars ")." ++ recipe.qualname.toList

def commaList (parts : List Text) : Text := Text.joinWith [',', ' '] parts

namespace Survey

def paramName (shared : List Nat) (i : Nat) : Option Text :=
  (shared.findIdx? (· = i)).map fun k => '_' :: decimalDigits k

def layout (s : Survey) (i : Nat) (render : Value → Except SerializeError Text) :
    Except SerializeError Text :=
  match s.object i with
  | .list items => do return '[' :: (commaList (← items.mapM render) ++ [']'])
  | .tuple [item] => do return '(' :: ((← render item) ++ [',', ')'])
  | .tuple items => do return '(' :: (commaList (← items.mapM render) ++ [')'])
  | .dict entries => do return '\x7b' :: (commaList (← entries.mapM pair) ++ ['\x7d'])
  | .set [] => return chars "set()"
  | .set items => do return '\x7b' :: (commaList (← items.mapM render) ++ ['\x7d'])
  | .frozenset [] => return chars "frozenset()"
  | .frozenset items => do
      return chars "frozenset(\x7b" ++ commaList (← items.mapM render) ++ chars "\x7d)"
  | .inst cls state =>
    match s.recipe? i with
    | none => .error (refusal cls state)
    | some recipe =>
      match recipe.args with
      | none => return recipe.target
      | some args => do
          let args ← args.mapM render
          let kwargs ← recipe.kwargs.mapM fun (name, v) => do
            return name.toList ++ '=' :: (← render v)
          return recipe.target ++ '(' :: (commaList (args ++ kwargs) ++ [')'])
where
  pair (entry : Value × Value) : Except SerializeError Text := do
    return (← render entry.1) ++ ':' :: ' ' :: (← render entry.2)

def render (s : Survey) (shared : List Nat) : Nat → Value → Except SerializeError Text
  | _, .scalar v => .ok v.text
  | 0, .ref _ => .error .tooDeep
  | depth + 1, .ref i =>
    match paramName shared i with
    | some name => .ok name
    | none => s.layout i (render s shared depth)

def fill (s : Survey) (shared : List Nat) (depth : Nat) (i : Nat) :
    Except SerializeError (Option Text) := do
  let name := (paramName shared i).getD []
  match s.object i with
  | .list [] | .dict [] | .set [] => return none
  | .list _ => return some (name ++ chars ".extend(" ++ (← s.layout i (s.render shared depth)) ++ [')'])
  | _ => return some (name ++ chars ".update(" ++ (← s.layout i (s.render shared depth)) ++ [')'])

def emptyText (s : Survey) (i : Nat) : Text :=
  match s.object i with
  | .list _ => chars "[]"
  | .dict _ => chars "\x7b\x7d"
  | _ => chars "set()"

/-- The whole expression. -/
def expression (s : Survey) (depth : Nat) (root : Value) : Except SerializeError Text := do
  let shared := s.shared
  let body ← s.render shared depth root
  if shared.isEmpty then return body
  let params := commaList (shared.filterMap (paramName shared))
  let inits := commaList (shared.map s.emptyText)
  let fills ← shared.mapM (s.fill shared depth)
  let fills := fills.filterMap id
  let inner := if fills.isEmpty then body
    else '(' :: (commaList (fills ++ [body]) ++ chars ")[-1]")
  return chars "(lambda " ++ params ++ chars ": " ++ inner ++ chars ")(" ++ inits ++ [')']

end Survey

/-- How deep the program lets a value be nested: a walk goes one call deeper for a level, and calls can
not go on without end.  What is said of written values holds of every limit. -/
def nestingLimit : Nat := 320

/-- Write a value as an expression that rebuilds it. -/
def uneval (registry : Registry) (limit : Nat) (graph : Graph) (root : Value) :
    Except SerializeError Text :=
  match Survey.scan registry limit [] { graph } root with
  | .error e => .error e
  | .ok survey => survey.expression limit root

end MacroExpand
