import MacroExpand.Sandbox.Native

/-!
# Methods of containers
-/

set_option autoImplicit false

namespace MacroExpand

namespace Sandbox

/-! ## Sorting -/

def insertByKey (before : Value → Value → Eval Bool) (x : Value × Value) :
    List (Value × Value) → Eval (List (Value × Value))
  | [] => return [x]
  | y :: rest => do
      if (← before x.1 y.1) then return x :: y :: rest
      else return y :: (← insertByKey before x rest)

def sortByKey (before : Value → Value → Eval Bool) :
    List (Value × Value) → List (Value × Value) → Eval (List (Value × Value))
  | done, [] => return done
  | done, x :: rest => do sortByKey before (← insertByKey before x done) rest

def sortParameters : Parameters := { names := ["key", "reverse"], places := 0 }

def sortValues (r : Interpreter) (a : Arguments) (items : List Value) : Eval (List Value) := do
  let reverse ← match lookup a.keyword "reverse" with
    | some v => do pure (decide ((← needWhole r v) ≠ 0))
    | none => pure false
  let keys ← match lookup a.keyword "key" with
    | none | some (.scalar .nil) => pure items
    | some f => items.mapM fun x => r.call f ⟨[x], []⟩
  let pairs := keys.zip items
  let sorted ← sortByKey (less r) [] (if reverse then pairs.reverse else pairs)
  let values := sorted.map Prod.snd
  return if reverse then values.reverse else values

/-! ## Lists and tuples -/

def listItems (v : Value) : Eval (Nat × List Value) := do
  match (← unwrap v), (← core? v) with
  | .ref i, some (.list xs) | .ref i, some (.tuple xs) => return (i, xs)
  | .ref i, _ => return (i, [])
  | .scalar _, _ => return (0, [])

def updateList (v : Value) (f : List Value → List Value) : Eval Value := do
  let (i, xs) ← listItems v
  setCell i (.list (f xs))
  return nil

def findElement (r : Interpreter) (x : Value) (k : Nat) : List Value → Eval (Option Nat)
  | [] => return none
  | y :: rest => do if (← alike r y x) then return some k else findElement r x (k + 1) rest

def countElements (r : Interpreter) (x : Value) : List Value → Eval Nat
  | [] => return 0
  | y :: rest => do
      let same ← alike r y x
      return (if same then 1 else 0) + (← countElements r x rest)

def searchBound (r : Interpreter) (length : Nat) (standard : Int) (v : Option Value) : Eval Int := do
  match v with
  | none => return standard
  | some v =>
    match (← wholeOf? r v) with
    | some n => return if n < 0 then max (n + length) 0 else n
    | none => typeError "slice indices must be integers or have an __index__ method"

def indexMethod (missing : Interpreter → Value → Eval String) : Native :=
  .placed "index" 1 3 fun r v a => do
    let (_, xs) ← listItems v
    let start ← searchBound r xs.length 0 a.positional[1]?
    let stop ← searchBound r xs.length xs.length a.positional[2]?
    match (← findElement r a.at0 0 (between xs start.toNat stop.toNat)) with
    | some k => return ofNat (start.toNat + k)
    | none => valueError (← missing r a.at0)
where
  /-- The items between two places. -/
  between (items : List Value) (start stop : Nat) : List Value :=
    (items.drop start).take (stop - start)

def countMethod : Native :=
  .single "count" fun r v x => do
    let (_, xs) ← listItems v
    return ofNat (← countElements r x xs)

def listMethods : List Native := [
  .single "append" fun _ v x => updateList v (· ++ [x]),
  .single "extend" fun r v items => do
    let items ← iterate r items
    updateList v (· ++ items),
  .plain "clear" fun _ v => updateList v fun _ => [],
  .plain "reverse" fun _ v => updateList v List.reverse,
  .plain "copy" fun _ v => do newList (← listItems v).2,
  .placed "insert" 2 2 fun r v a => do
    let n ← needSize r a.at0
    updateList v fun xs =>
      let size : Int := xs.length
      let n := if n < 0 then max 0 (n + size) else min n size
      xs.take n.toNat ++ a.at1 :: xs.drop n.toNat,
  .placed "pop" 0 1 fun r v a => do
    let n ← match a.positional[0]? with
      | some n => needSize r n
      | none => pure (-1)
    let (i, xs) ← listItems v
    if xs.isEmpty then raise "IndexError" "pop from empty list"
    match placeOf xs.length n with
    | some k =>
      setCell i (.list (xs.eraseIdx k))
      return xs.getD k nil
    | none => raise "IndexError" "pop index out of range",
  .single "remove" fun r v x => do
    let (i, xs) ← listItems v
    match (← findElement r x 0 xs) with
    | some k =>
      setCell i (.list (xs.eraseIdx k))
      return nil
    | none => valueError "list.remove(x): x not in list",
  .named "sort" sortParameters fun r v a => do
    let (i, xs) ← listItems v
    setCell i (.list (← sortValues r a xs))
    return nil,
  indexMethod fun r x => do return String.ofList (← codeText r x) ++ " is not in list",
  countMethod]

def tupleMethods : List Native := [
  indexMethod fun _ _ => return "tuple.index(x): x not in tuple", countMethod]

def rangeMethods : List Native := [
  .single "index" fun r v x => do
    match (← core? v), index? x with
    | some (.range start stop step), some n =>
      let k := Int.fdiv (n - start) step
      if (n - start) % step = 0 && 0 ≤ k && k < rangeLength start stop step then return ofInt k
      valueError (toString n ++ " is not in range")
    | _, _ =>
      match (← findElement r x 0 (← iterate r v)) with
      | some k => return ofNat k
      | none => valueError "sequence.index(x): x not in sequence",
  .single "count" fun r v x => do return ofNat (← countElements r x (← iterate r v))]

def sliceMethods : List Native := [
  .single "indices" fun r v length => do
    let n ← needWhole r length
    if n < 0 then valueError "length should not be negative"
    match (← core? v) with
    | some (.slice a b c) =>
      let (start, stop, step, _) ← slicesOf r n.toNat a b c
      newTuple [ofInt start, ofInt stop, ofInt step]
    | _ => return nil]

/-! ## Dictionaries -/

def dictEntries (v : Value) : Eval (Nat × List (Value × Value)) := do
  match (← unwrap v) with
  | .ref i => return (i, ← entriesAt i)
  | .scalar _ => return (0, [])

def setEntriesOf (i : Nat) (entries : List (Value × Value)) : Eval Unit := do
  match (← cellAt i) with
  | .known cls (.ordered _) => setCell i (.known cls (.ordered entries))
  | _ => setCell i (.dict entries)

def entriesFrom (r : Interpreter) (name : String) (a : Arguments) : Eval (List (Value × Value)) := do
  expects name 0 1 a
  let first ← match a.positional[0]? with
    | none => pure []
    | some v => entriesOf r v
  return first ++ a.keyword.map fun (k, v) => (ofString k, v)

def viewMethod (name cls : String) : Native :=
  .plain name fun _ v => do
    match (← unwrap v) with
    | .ref i => alloc (.view cls i)
    | v => return v

def mappingMethods : List Native := [
  viewMethod "keys" "dict_keys", viewMethod "values" "dict_values", viewMethod "items" "dict_items",
  .placed "get" 1 2 fun r v a => do
    let (_, es) ← dictEntries v
    return (← valueAt? r es a.at0).getD a.at1,
  .plain "copy" fun _ v => do newDict (← dictEntries v).2]

def dictMethods : List Native := mappingMethods ++ [
  .placed "setdefault" 1 2 fun r v a => do
    let (i, es) ← dictEntries v
    let key := a.at0
    match (← valueAt? r es key) with
    | some x => return x
    | none =>
      let x := a.positional.getD 1 nil
      setEntriesOf i (← setEntry r es key x)
      return x,
  .placed "pop" 1 2 fun r v a => do
    let (i, es) ← dictEntries v
    let key := a.at0
    match (← dropEntry r es key), a.positional[1]? with
    | some (x, es), _ =>
      setEntriesOf i es
      return x
    | none, some x => return x
    | none, none => noKey key,
  .plain "popitem" fun _ v => do
    let (i, es) ← dictEntries v
    match es.getLast? with
    | some (k, x) =>
      setEntriesOf i es.dropLast
      newTuple [k, x]
    | none => raiseWith "KeyError" [ofString "popitem(): dictionary is empty"],
  .free "update" fun r v a => do
    let news ← entriesFrom r "update" a
    let (i, es) ← dictEntries v
    setEntriesOf i (← setEntries r es news)
    return nil,
  .plain "clear" fun _ v => do
    setEntriesOf (← dictEntries v).1 []
    return nil]

def dictClassMethods : List Native := [
  .placed "fromkeys" 1 2 fun r _ a => do
    let keys ← iterate r a.at0
    newDict (← setEntries r [] (keys.map fun k => (k, a.at1)))]

/-! ## Sets -/

def setItems (v : Value) : Eval (Nat × List Value) := do
  match (← unwrap v), (← core? v) with
  | .ref i, some (.set xs) | .ref i, some (.frozenset xs) => return (i, xs)
  | .ref i, _ => return (i, [])
  | .scalar _, _ => return (0, [])

def requireElement (v : Value) : Eval Unit := do
  match (← core? v) with
  | some (.set _) => return ()
  | _ => requireKey v

def setLike (v : Value) (items : List Value) : Eval Value := do
  match (← core? v) with
  | some (.frozenset _) => alloc (.frozenset items)
  | _ => alloc (.set items)

def hashedItems (r : Interpreter) (v : Value) : Eval (List Value) := do
  let items ← iterate r v
  items.forM requireKey
  return items

def combining (owner name : String) (inPlace : Bool)
    (f : Interpreter → List Value → List Value → Eval (List Value)) : Native :=
  .free name fun r v a => do
    if !a.keyword.isEmpty then typeError (owner ++ "." ++ name ++ "() takes no keyword arguments")
    let (i, xs) ← setItems v
    let result ← a.positional.foldlM (fun done items => do f r done (← hashedItems r items)) xs
    if inPlace then
      setCell i (.set result)
      return nil
    else setLike v result

def comparing (name : String) (f : Interpreter → List Value → List Value → Eval Bool) : Native :=
  .single name fun r v items => do
    let (_, xs) ← setItems v
    return ofBool (← f r xs (← hashedItems r items))

def shared (r : Interpreter) (xs ys : List Value) : Eval (List Value) := do
  if xs.length < ys.length then selectElements r true ys xs
  else do addElements r [] (← selectElements r true xs ys)

def exclusive (r : Interpreter) (xs ys : List Value) : Eval (List Value) := do
  let left ← selectElements r false ys xs
  return left ++ (← selectElements r false xs ys)

def frozensetMethods (owner : String) : List Native := [
  combining owner "union" false fun r xs ys => addElements r xs ys,
  combining owner "intersection" false shared,
  combining owner "difference" false fun r xs ys => selectElements r false ys xs,
  .single "symmetric_difference" fun r v items => do
    let ys ← addElements r [] (← iterate r items)
    setLike v (← exclusive r (← setItems v).2 ys),
  comparing "issubset" fun r xs ys => everyElement (hasElement r ys) xs,
  comparing "issuperset" fun r xs ys => everyElement (hasElement r xs) ys,
  comparing "isdisjoint" fun r xs ys => do return !(← someElement (hasElement r ys) xs),
  .plain "copy" fun _ v => do
    match (← core? v) with
    | some (.frozenset _) => return v
    | _ => setLike v (← setItems v).2]

def setMethods : List Native := frozensetMethods "set" ++ [
  combining "set" "update" true fun r xs ys => addElements r xs ys,
  combining "set" "intersection_update" true shared,
  combining "set" "difference_update" true fun r xs ys => selectElements r false ys xs,
  .single "symmetric_difference_update" fun r v items => do
    let (i, xs) ← setItems v
    setCell i (.set (← exclusive r xs (← addElements r [] (← iterate r items))))
    return nil,
  .single "add" fun r v x => do
    let (i, xs) ← setItems v
    setCell i (.set (← addElement r xs x))
    return nil,
  .single "discard" fun r v x => do
    let (i, xs) ← setItems v
    requireElement x
    setCell i (.set (← selectElements r false [x] xs))
    return nil,
  .single "remove" fun r v x => do
    let (i, xs) ← setItems v
    requireElement x
    if (← hasElement r xs x) then
      setCell i (.set (← selectElements r false [x] xs))
      return nil
    else noKey x,
  .plain "pop" fun _ v => do
    let (i, xs) ← setItems v
    match xs with
    | x :: rest =>
      setCell i (.set rest)
      return x
    | [] => raiseWith "KeyError" [ofString "pop from an empty set"],
  .plain "clear" fun _ v => do
    setCell (← setItems v).1 (.set [])
    return nil]

def viewMethods : List Native := [
  .single "isdisjoint" fun r v items => do
    let xs ← iterate r v
    return ofBool (!(← someElement (hasElement r (← iterate r items)) xs))]

end Sandbox

end MacroExpand
