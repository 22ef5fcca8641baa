import MacroExpand.Value.Serialize
import MacroExpand.Web.Fields

/-!
# Reading message bodies

Before a value is written, the body of every request and response in it is read, so that it can be
written too.  `serialize` also resolves an awaitable result and writes it as an awaitable again.
-/

set_option autoImplicit false

namespace MacroExpand

inductive MessageKind where
  | request
  | response
  deriving DecidableEq, Repr, Inhabited

/-- A body that was read: which message it belongs to, and its size. -/
structure Drained where
  kind : MessageKind
  size : Nat
  deriving DecidableEq, Repr, Inhabited

def Body.drain (consumed : SerializeError) (undecodable : String → SerializeError)
    (decode : List (List UInt8) → Except String (List UInt8)) :
    Body → Except SerializeError (Body × Option Nat)
  | .read bytes => .ok (.read bytes, none)
  | .waiting chunks _ =>
    match decode chunks with
    | .ok bytes => .ok (.read bytes, some bytes.length)
    | .error reason => .error (undecodable reason)
  | .consumed => .error consumed

def lastEntries (pairs : List (Value × Value)) : List (Value × Value) :=
  (pairs.map Prod.fst).eraseDups.filterMap fun key =>
    (pairs.reverse.find? fun e => e.1 = key)

def Object.drainable : Object → List Value
  | .inst _ (.opaqueObject contents) => contents
  | .inst _ (.ordered entries) => entries.flatMap fun (k, v) => [k, v]
  | .inst _ (.formData pairs) => (lastEntries pairs).flatMap fun (k, v) => [k, v]
  | .inst _ (.response r) => r.request.toList
  | object => object.elements

/-- Read the body of one object. -/
def Object.drain : Object → Except SerializeError (Object × Option Drained)
  | .inst cls (.request r) => do
      let (body, size) ← r.body.drain .requestConsumed .undecodable fun chunks => .ok chunks.flatten
      return (.inst cls (.request { r with body }), size.map (⟨.request, ·⟩))
  | .inst cls (.response r) => do
      let (body, size) ← r.body.drain .responseConsumed .undecodable r.headers.decodeContent
      return (.inst cls (.response { r with body }), size.map (⟨.response, ·⟩))
  | object => .ok (object, none)

def drainStack : Nat → List Nat → List Drained → Graph → List Value →
    Except SerializeError (Graph × List Drained)
  | _, _, log, graph, [] => .ok (graph, log.reverse)
  | 0, _, log, graph, _ => .ok (graph, log.reverse)
  | fuel + 1, seen, log, graph, .scalar _ :: rest => drainStack fuel seen log graph rest
  | fuel + 1, seen, log, graph, .ref i :: rest =>
    if seen.contains i then drainStack fuel seen log graph rest
    else
      match graph[i]? with
      | none => drainStack fuel (i :: seen) log graph rest
      | some object =>
        match object.drain with
        | .error e => .error e
        | .ok (object, drained) =>
          drainStack fuel (i :: seen) (drained.toList ++ log) (graph.setIfInBounds i object)
            (object.drainable.reverse ++ rest)

def drainFuel (graph : Graph) : Nat :=
  2 + (graph.toList.map fun object => object.drainable.length + 1).sum

/-- Read every body that a value reaches. -/
def drain (graph : Graph) (root : Value) : Except SerializeError (Graph × List Drained) :=
  drainStack (drainFuel graph) [] [] graph [root]

def awaited? (graph : Graph) : Value → Option Value
  | .ref i =>
    match graph[i]? with
    | some (.inst _ (.pending value)) => some value
    | _ => none
  | .scalar _ => none

def serialize (registry : Registry) (limit : Nat) (graph : Graph) (root : Value) :
    Except SerializeError (Text × List Drained) := do
  let (graph, log) ← drain graph ((awaited? graph root).getD root)
  let expression ← uneval registry limit graph ((awaited? graph root).getD root)
  match awaited? graph root with
  | none => return (expression, log)
  | some _ => return (chars "__import__('asyncio').sleep(0, result=" ++ expression ++ [')'], log)

end MacroExpand
