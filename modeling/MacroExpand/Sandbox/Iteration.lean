import MacroExpand.Sandbox.Comparison

/-!
# Iteration

An iterator gives its values one at a time.  Values of containers that cannot change are listed when
the walk begins; a list, a dictionary or a set is looked at anew for every value.
-/

set_option autoImplicit false

namespace MacroExpand

namespace Sandbox

/-! ## Calls under way -/

def callLimit : Nat := 480

def nested {α : Type} (action : Eval α) : Eval α := do
  let m ← get
  if callLimit ≤ m.depth then raise "RecursionError" "maximum recursion depth exceeded"
  set { m with depth := m.depth + 1 }
  let result ← tryCatch (Except.ok <$> action) fun e => return Except.error e
  modify fun after => { after with depth := m.depth }
  match result with
  | .ok a => return a
  | .error e => throw e

def attempt {α : Type} (action : Eval α) : Eval (Except Signal α) :=
  tryCatch (Except.ok <$> action) fun e => return Except.error e

/-! ## Values of containers -/

def notIterable {α : Type} (v : Value) : Eval α := do
  typeError ("'" ++ (← typeName v) ++ "' object is not iterable")

def rangeValues (start stop step : Int) : List Value :=
  (List.range (rangeLength start stop step)).map fun (k : Nat) => ofInt (start + step * (k : Int))

def viewValues (name : String) (entries : List (Value × Value)) : Eval (List Value) :=
  match name with
  | "dict_items" => entries.mapM fun (k, v) => newTuple [k, v]
  | "dict_keys" => return entries.map Prod.fst
  | _ => return entries.map Prod.snd

def contents? (v : Value) : Eval (Option (List Value)) := do
  match v with
  | .scalar (.str s) => return some (s.map fun c => ofText [c])
  | .scalar (.codes s) => return some (s.points.map fun p => ofPoints [p])
  | .scalar (.bytes b) => return some (b.map fun x => ofNat x.toNat)
  | .scalar _ => return none
  | .ref i =>
    match (← cellAt i) with
    | .list xs | .tuple xs | .set xs | .frozenset xs => return some xs
    | .range a b s => return some (rangeValues a b s)
    | .view name d => return some (← viewValues name (← entriesAt d))
    | .known _ (.bytearray b) | .known _ (.memoryview b _) =>
      return some (b.map fun x => ofNat x.toNat)
    | cell => return (entries? cell).map fun es => es.map Prod.fst

def isUsedUp : Cell → Bool
  | .iterator .. | .listIterator .. | .listReverse .. | .tableIterator .. | .indexIterator ..
  | .callIterator .. | .mapped .. | .filtered .. | .zipped .. | .numbered .. => true
  | .generator f _ _ => !f.isAsync
  | _ => false

/-! ## Steps -/

def stopValue? (e : Value) : Eval (Option Value) := do
  if !(← isKnown e "StopIteration") then return none
  match (← cell? e) with
  | some (.exception data) => return some (data.args.headD nil)
  | _ => return some nil

def stepping (action : Eval Value) : Eval Step := do
  match (← attempt action) with
  | .ok v => return .item v
  | .error (.raised e) =>
    match (← stopValue? e) with
    | some v => return .stop v
    | none => throw (.raised e)
  | .error e => throw e

def raiseStop {α : Type} (v : Value) : Eval α :=
  raiseWith "StopIteration" (if v = nil then [] else [v])

def advanceAll (r : Interpreter) (place : Nat) (done : List Value) :
    List Value → Eval (Except Nat (List Value))
  | [] => return .ok done.reverse
  | v :: rest => do
      match (← r.advance v) with
      | .item x => advanceAll r (place + 1) (x :: done) rest
      | .stop _ => return .error place

def unevenRows {α : Type} (place : Nat) (relation : String) : Eval α :=
  valueError ("zip() argument " ++ toString (place + 1) ++ " is " ++ relation ++ " than argument" ++
    (if place = 1 then " 1" else "s 1-" ++ toString place))

def checkEnded (r : Interpreter) (place : Nat) : List Value → Eval Unit
  | [] => return ()
  | v :: rest => do
      match (← r.advance v) with
      | .item _ => unevenRows place "longer"
      | .stop _ => checkEnded r (place + 1) rest

def filterLimit : Nat := 10000000

def advanceFiltered (r : Interpreter) (test source : Value) : Nat → Eval Step
  | 0 => throw .exhausted
  | fuel + 1 => do
      match (← r.advance source) with
      | .stop _ => return .stop nil
      | .item x =>
        let passed ← if test = nil then pure x else r.call test ⟨[x], []⟩
        if (← truthy r passed) then return .item x else advanceFiltered r test source fuel

def tableValues (cls : String) (cell : Cell) : Eval (String × Nat × (Nat → Eval (Option Value))) := do
  match cell with
  | .set xs | .frozenset xs => return ("Set", xs.length, fun k => return xs[k]?)
  | cell =>
    let es := (entries? cell).getD []
    let es := if cls.startsWith "dict_reverse" then es.reverse else es
    return ("dictionary", es.length, fun k => do
      match es[k]? with
      | none => return none
      | some (key, value) =>
        if cls.endsWith "itemiterator" then return some (← newTuple [key, value])
        else return some (if cls.endsWith "keyiterator" then key else value))

def advanceStep (r : Interpreter) (v : Value) : Eval Step := do
  let refuse : Eval Step := do typeError ("'" ++ (← typeName v) ++ "' object is not an iterator")
  match v with
  | .scalar _ => refuse
  | .ref i =>
    let finish := fun (cls : String) => do
      setCell i (.iterator cls [])
      return Step.stop nil
    match (← cellAt i) with
    | .iterator _ [] => return .stop nil
    | .iterator cls (x :: rest) =>
      setCell i (.iterator cls rest)
      return .item x
    | .listIterator list index =>
      match (← cellAt list) with
      | .list xs =>
        match xs[index]? with
        | some x =>
          setCell i (.listIterator list (index + 1))
          return .item x
        | none => finish "list_iterator"
      | _ => finish "list_iterator"
    | .listReverse list count =>
      match (← cellAt list) with
      | .list xs =>
        match count, xs[count - 1]? with
        | k + 1, some x =>
          setCell i (.listReverse list k)
          return .item x
        | _, _ => finish "list_reverseiterator"
      | _ => finish "list_reverseiterator"
    | .tableIterator cls table index size =>
      let (kind, now, valueOf) ← tableValues cls (← cellAt table)
      if now ≠ size then
        raise "RuntimeError" (kind ++ " changed size during iteration")
      match (← valueOf index) with
      | some x =>
        setCell i (.tableIterator cls table (index + 1) size)
        return .item x
      | none => finish cls
    | .indexIterator source index =>
      match (← attempt (r.call (.ref (functionCell "operator.getitem"))
          ⟨[source, ofNat index], []⟩)) with
      | .ok x =>
        setCell i (.indexIterator source (index + 1))
        return .item x
      | .error (.raised e) =>
        if (← isKnown e "IndexError") || (← isKnown e "StopIteration") then finish "iterator"
        else throw (.raised e)
      | .error e => throw e
    | .callIterator f last =>
      match (← stepping (r.call f {})) with
      | .item x =>
        if (← alike r x last) then finish "callable_iterator" else return .item x
      | .stop _ => finish "callable_iterator"
    | .mapped f sources =>
      match (← advanceAll r 0 [] sources) with
      | .ok row => stepping (r.call f ⟨row, []⟩)
      | .error _ => return .stop nil
    | .filtered test source => advanceFiltered r test source filterLimit
    | .zipped sources strict =>
      if sources.isEmpty then return .stop nil
      match (← advanceAll r 0 [] sources) with
      | .ok row => return .item (← newTuple row)
      | .error place =>
        if strict then
          if place = 0 then checkEnded r 1 sources.tail else unevenRows place "shorter"
        return .stop nil
    | .numbered source next =>
      match (← r.advance source) with
      | .item x =>
        setCell i (.numbered source (next + 1))
        return .item (← newTuple [ofInt next, x])
      | .stop _ => return .stop nil
    | .generator f _ _ => if f.isAsync then refuse else r.resume i (.send nil)
    | .object .. =>
      match (← ownAttribute? (← classOf v) "__next__") with
      | some f => stepping (r.call f ⟨[v], []⟩)
      | none => refuse
    | _ => refuse

/-! ## Iterators over values -/

def iteratorClass (v : Value) : Eval String := do
  match v with
  | .scalar (.str s) =>
    return if s.all (·.toNat < 128) then "str_ascii_iterator" else "str_iterator"
  | .scalar (.codes _) => return "str_iterator"
  | .scalar _ => return "bytes_iterator"
  | .ref i =>
    match (← cellAt i) with
    | .tuple _ => return "tuple_iterator"
    | .range a b s =>
      let fits := fun (n : Int) => n.natAbs < 2 ^ 63
      return if fits a && fits b && fits s then "range_iterator" else "longrange_iterator"
    | .known _ (.bytearray _) => return "bytearray_iterator"
    | .known _ (.memoryview ..) => return "memory_iterator"
    | _ => return "dict_keyiterator"

def isIterator (v : Value) : Eval Bool := do
  match (← cell? v) with
  | some (.object cls _ _) => return (← ownAttribute? cls "__next__").isSome
  | some cell => return isUsedUp cell
  | none => return false

def plainIterator (v : Value) : Eval Value := do
  let table := fun (cls : String) (i : Nat) => do
    let (_, size, _) ← tableValues cls (← cellAt i)
    alloc (.tableIterator cls i 0 size)
  match v with
  | .ref i =>
    match (← cellAt i) with
    | .list _ => alloc (.listIterator i 0)
    | .set _ | .frozenset _ => table "set_iterator" i
    | .dict _ | .known _ (.ordered _) => table "dict_keyiterator" i
    | .view "dict_items" d => table "dict_itemiterator" d
    | .view "dict_keys" d => table "dict_keyiterator" d
    | .view _ d => table "dict_valueiterator" d
    | cell =>
      if isUsedUp cell then return v
      match (← contents? v) with
      | some xs => alloc (.iterator (← iteratorClass v) xs)
      | none => notIterable v
  | .scalar _ =>
    match (← contents? v) with
    | some xs => alloc (.iterator (← iteratorClass v) xs)
    | none => notIterable v

def iteratorOf (r : Interpreter) (v : Value) : Eval Value := do
  match (← cell? v) with
  | some (.object cls _ base) =>
    match (← ownAttribute? cls "__iter__") with
    | some (.scalar .nil) => notIterable v
    | some f =>
      let iterator ← r.call f ⟨[v], []⟩
      if (← isIterator iterator) then return iterator
      typeError ("iter() returned non-iterator of type '" ++ (← typeName iterator) ++ "'")
    | none =>
      match base, (← ownAttribute? cls "__getitem__") with
      | some b, _ => plainIterator b
      | none, some _ => alloc (.indexIterator v 0)
      | none, none => notIterable v
  | _ => plainIterator v

def iterationLimit : Nat := 10000000

def drain (r : Interpreter) (iterator : Value) : Nat → List Value → Eval (List Value)
  | 0, _ => throw .exhausted
  | fuel + 1, done => do
      match (← r.advance iterator) with
      | .item v => drain r iterator fuel (v :: done)
      | .stop _ => return done.reverse

def iterate (r : Interpreter) (v : Value) : Eval (List Value) := do
  let plain ← match (← cell? v) with
    | some (.object cls _ (some base)) =>
      if (← ownAttribute? cls "__iter__").isSome then pure none else contents? base
    | some (.object ..) => pure none
    | _ => contents? v
  match plain with
  | some xs => return xs
  | none => drain r (← iteratorOf r v) iterationLimit []

def isIterable (v : Value) : Eval Bool := do
  match (← cell? v) with
  | some (.object cls _ base) =>
    match (← ownAttribute? cls "__iter__"), (← ownAttribute? cls "__getitem__"), base with
    | some f, _, _ => return f ≠ nil
    | none, some _, _ => return true
    | none, none, some b => return (← contents? b).isSome
    | none, none, none => return false
  | some cell => return isUsedUp cell || (← contents? v).isSome
  | none => return (← contents? v).isSome

/-! ## Unpacking -/

def takeItems (r : Interpreter) (iterator : Value) : Nat → List Value → Eval (List Value)
  | 0, done => return done.reverse
  | n + 1, done => do
      match (← r.advance iterator) with
      | .item v => takeItems r iterator n (v :: done)
      | .stop _ => return done.reverse

def unpackIterator (r : Interpreter) (v : Value) : Eval Value := do
  if !(← isIterable v) then
    typeError ("cannot unpack non-iterable " ++ (← typeName v) ++ " object")
  iteratorOf r v

def unpack (r : Interpreter) (count : Nat) (v : Value) : Eval (List Value) := do
  let iterator ← unpackIterator r v
  let items ← takeItems r iterator count []
  if items.length < count then
    valueError ("not enough values to unpack (expected " ++ toString count ++ ", got " ++
      toString items.length ++ ")")
  match (← r.advance iterator) with
  | .stop _ => return items
  | .item _ => valueError ("too many values to unpack (expected " ++ toString count ++ ")")

def unpackAround (r : Interpreter) (before behind : Nat) (v : Value) :
    Eval (List Value × List Value × List Value) := do
  let iterator ← unpackIterator r v
  let first ← takeItems r iterator before []
  let rest ← if first.length < before then pure [] else drain r iterator iterationLimit []
  let total := first.length + rest.length
  if total < before + behind then
    valueError ("not enough values to unpack (expected at least " ++ toString (before + behind) ++
      ", got " ++ toString total ++ ")")
  let middle := rest.length - behind
  return (first, rest.take middle, rest.drop middle)

end Sandbox

end MacroExpand
