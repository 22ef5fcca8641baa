import MacroExpand.Sandbox.Calls
import MacroExpand.Sandbox.Known

/-!
# Names and targets

A name is looked for in the scope where it is used, in the scopes of the functions around it, in the
file and among the names that need no import.  The scope of a class is seen only from its own body.
-/

set_option autoImplicit false

namespace MacroExpand

namespace Sandbox

def scopeDepth : Nat := 2000

def fileScope : Nat → Nat → Eval Nat
  | 0, i => return i
  | fuel + 1, i => do
      match (← scopeAt i).parent with
      | some p => fileScope fuel p
      | none => return i

/-- Look a name up from a scope outwards; `inside` in the scope where the name is used.  A name that
the body of a class binds belongs to the file as long as it is not bound there. -/
def findName (name : String) : Nat → Bool → Nat → Eval (Option Value)
  | 0, _, _ => return none
  | fuel + 1, inside, i => do
      let s ← scopeAt i
      let outwards := match s.parent with
        | some p => findName name fuel false p
        | none => return none
      if s.isClass && !inside then outwards
      else
        match lookup s.bindings name with
        | some v => return some v
        | none =>
          if !s.names.contains name then outwards
          else if s.isClass then
            return lookup (← scopeAt (← fileScope fuel i)).bindings name
          else
            if inside then
              raise "UnboundLocalError" ("cannot access local variable '" ++ name ++
                "' where it is not associated with a value")
            else
              raise "NameError" ("cannot access free variable '" ++ name ++
                "' where it is not associated with a value in enclosing scope")

def lookupName (f : Frame) (name : String) : Eval Value := do
  let start := if f.globalNames.contains name then f.globals else f.scope
  match (← findName name scopeDepth true start) with
  | some v => return v
  | none =>
    match plainValue? name with
    | some v => return v
    | none => raise "NameError" ("name '" ++ name ++ "' is not defined")

def outerScope (name : String) : Nat → Nat → Eval Nat
  | 0, i => return i
  | fuel + 1, i => do
      let s ← scopeAt i
      match s.parent with
      | none => return i
      | some p =>
        let around ← scopeAt p
        if !around.isClass && (around.names.contains name || (lookup around.bindings name).isSome)
        then return p
        else outerScope name fuel p

def plainScope : Nat → Nat → Eval Nat
  | 0, i => return i
  | fuel + 1, i => do
      let s ← scopeAt i
      match s.isComprehension, s.parent with
      | true, some p => plainScope fuel p
      | _, _ => return i

def bindingScope (f : Frame) (name : String) : Eval Nat := do
  if f.globalNames.contains name then return f.globals
  else if f.outerNames.contains name then outerScope name scopeDepth f.scope
  else return f.scope

def assignName (f : Frame) (name : String) (v : Value) : Eval Unit := do
  bindIn (← bindingScope f name) name v

def assignOutside (f : Frame) (name : String) (v : Value) : Eval Unit := do
  if f.globalNames.contains name || f.outerNames.contains name then assignName f name v
  else bindIn (← plainScope scopeDepth f.scope) name v

def deleteName (f : Frame) (name : String) : Eval Unit := do
  let i ← bindingScope f name
  let s ← scopeAt i
  if (lookup s.bindings name).isSome then
    setCell i (.scope { s with bindings := s.bindings.filter fun b => b.1 != name })
  else if s.parent.isSome && !s.isClass then
    raise "UnboundLocalError" ("cannot access local variable '" ++ name ++
      "' where it is not associated with a value")
  else raise "NameError" ("name '" ++ name ++ "' is not defined")

/-!
## Targets

What can stand on the left of an assignment: names, attributes, subscripts and lists of such.
-/

def spread (r : Interpreter) (targets : List Tree) (v : Value) : Eval (List (Tree × Value)) := do
  let isStar := fun (t : Tree) => match t.kind with
    | .starred _ => true
    | _ => false
  match targets.findIdx? isStar with
  | none => return targets.zip (← unpack r targets.length v)
  | some k =>
    let (first, middle, last) ← unpackAround r k (targets.length - 1 - k) v
    let star := (targets.getD k .absent).part 0
    return (targets.take k).zip first ++ [(star, ← newList middle)] ++
      (targets.drop (k + 1)).zip last

def assignTo (r : Interpreter) (f : Frame) : Nat → Tree → Value → Eval Unit
  | 0, _, _ => return ()
  | fuel + 1, t, v => do
      match t.kind with
      | .name id _ => assignName f id v
      | .attribute name _ => do setAttribute r (← r.eval f (t.part 0)) name v
      | .subscript _ =>
        let container ← r.eval f (t.part 0)
        setItem r container (← r.eval f (t.part 1)) v
      | .starred _ => assignTo r f fuel (t.part 0) v
      | .tuple _ | .list _ =>
        (← spread r (t.slot 0) v).forM fun (target, x) => assignTo r f fuel target x
      | _ => return ()

def assign (r : Interpreter) (f : Frame) (t : Tree) (v : Value) : Eval Unit := assignTo r f t.size t v

def deleteTargets (r : Interpreter) (f : Frame) : Nat → List Tree → Eval Unit
  | 0, _ => return ()
  | _ + 1, [] => return ()
  | fuel + 1, t :: rest => do
      match t.kind with
      | .name id _ => deleteName f id
      | .attribute name _ => do delAttribute r (← r.eval f (t.part 0)) name
      | .subscript _ =>
        let container ← r.eval f (t.part 0)
        delItem r container (← r.eval f (t.part 1))
      | .tuple _ | .list _ => deleteTargets r f fuel (t.slot 0)
      | _ => return ()
      deleteTargets r f fuel rest

def augment (r : Interpreter) (f : Frame) (op : BinaryOperator) (t value : Tree) : Eval Unit := do
  match t.kind with
  | .name id _ =>
    let old ← lookupName f id
    assignName f id (← augmented r op old (← r.eval f value))
  | .attribute name _ =>
    let owner ← r.eval f (t.part 0)
    let old ← getAttribute r owner name
    setAttribute r owner name (← augmented r op old (← r.eval f value))
  | .subscript _ =>
    let container ← r.eval f (t.part 0)
    let key ← r.eval f (t.part 1)
    let old ← getItem r container key
    setItem r container key (← augmented r op old (← r.eval f value))
  | _ => return ()

end Sandbox

end MacroExpand
