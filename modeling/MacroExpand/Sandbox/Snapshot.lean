import MacroExpand.Sandbox.Attributes
import MacroExpand.Value.Drain

/-!
# Memory as an object graph

Each cell is seen as an object, so a value of a program is a value of the graph and can be written
as an expression.
-/

set_option autoImplicit false

namespace MacroExpand

namespace Sandbox

def classKeyIn (heap : Array Cell) (cls : Nat) : ClassKey :=
  match heap[cls]? with
  | some (.cls c) => if c.own then .own cls else .known ⟨c.module, c.qualname⟩
  | _ => .own cls

def classIn (heap : Array Cell) (cls : Nat) : Class :=
  match heap[cls]? with
  | some (.cls c) => ⟨⟨c.module, c.qualname⟩, c.lineage.map (classKeyIn heap)⟩
  | _ => ⟨⟨"builtins", "object"⟩, []⟩

def extendedState (heap : Array Cell) : Value → State
  | .scalar _ => .opaqueObject []
  | .ref i =>
    match heap[i]? with
    | some (.known _ s) => s
    | some (.list xs) | some (.tuple xs) | some (.set xs) | some (.frozenset xs) => .opaqueObject xs
    | some (.dict es) => .opaqueObject (es.flatMap fun (k, v) => [k, v])
    | _ => .opaqueObject []

def objectOf (heap : Array Cell) (cell : Cell) : Object :=
  let cls := classIn heap (cellClass cell)
  match cell with
  | .list xs => .list xs
  | .tuple xs => .tuple xs
  | .dict es => .dict es
  | .set xs => .set xs
  | .frozenset xs => .frozenset xs
  | .function f => .inst cls (.callable f.qualname.toList)
  | .native name => .inst cls (.callable (nativeName name).toList)
  | .nativeMethod _ owner name => .inst cls (.callable (methodName owner name).toList)
  | .method _ f =>
    match f with
    | .ref i =>
      match heap[i]? with
      | some (.function g) => .inst cls (.callable g.qualname.toList)
      | _ => .inst cls (.callable [])
    | .scalar _ => .inst cls (.callable [])
  | .object _ _ (some base) => .inst cls (extendedState heap base)
  | .known _ s => .inst cls s
  | _ => .inst cls (.opaqueObject [])

/-- Memory as an object graph. -/
def graphOf (heap : Array Cell) : Graph := heap.map (objectOf heap)

def publicAttributes (m : Machine) (scope : Nat) : List (String × Value) :=
  let bindings := match m.heap[scope]? with
    | some (.scope data) => data.bindings
    | _ => []
  let isModule := fun (v : Value) => match v with
    | .ref i =>
      match m.heap[i]? with
      | some (.module ..) => true
      | _ => false
    | .scalar _ => false
  (bindings.filter fun (n, v) => !n.startsWith "__" && !isModule v).mergeSort fun a b => a.1 ≤ b.1

end Sandbox

end MacroExpand
