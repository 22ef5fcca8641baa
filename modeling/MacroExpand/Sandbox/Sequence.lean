import MacroExpand.Sandbox.Iteration

/-!
# Length and subscripts

Subscripts of sequences are whole numbers, counted from the end if they are negative, and slices;
subscripts of mappings are keys.
-/

set_option autoImplicit false

namespace MacroExpand

namespace Sandbox

/-! ## Whole numbers -/

def index? : Value → Option Int
  | .scalar (.int n) => some n
  | .scalar (.bool b) => some (if b then 1 else 0)
  | _ => none

def wholeOf? (r : Interpreter) (v : Value) : Eval (Option Int) := do
  match v with
  | .scalar _ => return index? v
  | .ref _ =>
    match index? (← unwrap v) with
    | some n => return some n
    | none =>
      match (← callOwn? r v "__index__" []) with
      | none => return none
      | some x =>
        match index? (← unwrap x) with
        | some n => return some n
        | none =>
          typeError ("__index__ returned non-int (type " ++ (← typeName x) ++ ")")

def needWhole (r : Interpreter) (v : Value) : Eval Int := do
  match (← wholeOf? r v) with
  | some n => return n
  | none => typeError ("'" ++ (← typeName v) ++ "' object cannot be interpreted as an integer")

def sizeLimit : Int := 2 ^ 63 - 1

def needSize (r : Interpreter) (v : Value) : Eval Int := do
  let n ← needWhole r v
  if n < -sizeLimit - 1 ∨ sizeLimit < n then
    raise "OverflowError" "Python int too large to convert to C ssize_t"
  return n

/-! ## Length -/

def plainSize? (v : Value) : Eval (Option Nat) := do
  match v with
  | .scalar (.str s) => return some s.length
  | .scalar (.codes s) => return some s.points.length
  | .scalar (.bytes b) => return some b.length
  | .scalar _ => return none
  | .ref i =>
    match (← cellAt i) with
    | .list xs | .tuple xs | .set xs | .frozenset xs => return some xs.length
    | .range a b s => return some (rangeLength a b s)
    | .view _ d => return some (← entriesAt d).length
    | .known _ (.bytearray b) | .known _ (.memoryview b _) => return some b.length
    | .known _ (.headers h) => return some h.fields.length
    | .store s => return some s.cache.entries.length
    | cell => return (entries? cell).map List.length

def size? (r : Interpreter) (v : Value) : Eval (Option Nat) := do
  match (← callOwn? r v "__len__" []) with
  | some x =>
    match index? (← unwrap x) with
    | some n =>
      if n < 0 then valueError "__len__() should return >= 0"
      if sizeLimit < n then
        raise "OverflowError" "cannot fit 'int' into an index-sized integer"
      return some n.toNat
    | none => typeError ("'" ++ (← typeName x) ++ "' object cannot be interpreted as an integer")
  | none => do plainSize? (← unwrap v)

/-! ## Slices -/

def placeOf (length : Nat) (index : Int) : Option Nat :=
  let k := if index < 0 then index + length else index
  if 0 ≤ k ∧ k < length then some k.toNat else none

def sliceBound (r : Interpreter) (v : Value) : Eval (Option Int) := do
  match v with
  | .scalar .nil => return none
  | v =>
    match (← wholeOf? r v) with
    | some n => return some n
    | none => typeError "slice indices must be integers or None or have an __index__ method"

def slicePlaces (length : Nat) (lower upper : Option Int) (step : Int) : Int × Int × List Nat :=
  let size : Int := length
  let clip := fun (low high n : Int) =>
    let n := if n < 0 then n + size else n
    if n < low then low else if high < n then high else n
  let places := fun (start stop : Int) => (List.range (rangeLength start stop step)).map
    fun (k : Nat) => (start + step * (k : Int)).toNat
  if 0 < step then
    let start := (lower.map (clip 0 size)).getD 0
    let stop := (upper.map (clip 0 size)).getD size
    (start, stop, places start stop)
  else
    let start := (lower.map (clip (-1) (size - 1))).getD (size - 1)
    let stop := (upper.map (clip (-1) (size - 1))).getD (-1)
    (start, stop, places start stop)

def slicesOf (r : Interpreter) (length : Nat) (lower upper step : Value) :
    Eval (Int × Int × Int × List Nat) := do
  let step := (← sliceBound r step).getD 1
  if step = 0 then valueError "slice step cannot be zero"
  let lower ← sliceBound r lower
  let (start, stop, places) := slicePlaces length lower (← sliceBound r upper) step
  return (start, stop, step, places)

def pick {α : Type} (items : List α) (places : List Nat) : List α :=
  let items := items.toArray
  places.filterMap fun k => items[k]?

/-! ## Reading -/

def indexKey? (r : Interpreter) (key : Value) : Eval (Option Int) := do
  match (← wholeOf? r key) with
  | none => return none
  | some n =>
    if n < -sizeLimit - 1 ∨ sizeLimit < n then
      raise "IndexError" "cannot fit 'int' into an index-sized integer"
    return some n

def subscriptOf {α : Type} (r : Interpreter) (items : List α) (one : α → Eval Value)
    (many : List α → Eval Value) (range : String) (badIndex : String → String) (key : Value) :
    Eval Value := do
  match (← cell? key) with
  | some (.slice a b c) =>
    let (_, _, _, places) ← slicesOf r items.length a b c
    many (pick items places)
  | _ =>
    match (← indexKey? r key) with
    | some n =>
      match (placeOf items.length n).bind fun k => items[k]? with
      | some x => one x
      | none => raise "IndexError" range
    | none => typeError (badIndex (← typeName key))

def noKey {α : Type} (key : Value) : Eval α := raiseWith "KeyError" [key]

def parametrizable : List String := [
  "list", "dict", "tuple", "set", "frozenset", "type", "enumerate", "OrderedDict", "filter"]

def classItem (r : Interpreter) (v key : Value) (c : ClassData) (i : Nat) : Eval Value := do
  match (← findAttribute "__class_getitem__" c.lineage) with
  | some f =>
    let f := match (← cell? f) with
      | some (.descriptor _ g) => g
      | _ => f
    r.call f ⟨[v, key], []⟩
  | none =>
    if (parametrizable.map classCell).contains i then
      let args ← match (← cell? key) with
        | some (.tuple xs) => pure xs
        | _ => pure [key]
      alloc (.parametrized v args)
    else typeError ("type '" ++ c.shownName ++ "' is not subscriptable")

def plainItem (r : Interpreter) (v core key : Value) : Eval Value := do
  let refuse := do typeError ("'" ++ (← typeName v) ++ "' object is not subscriptable")
  let named := fun (kind : String) (type : String) =>
    kind ++ " indices must be integers or slices, not " ++ type
  let inString := fun {α : Type} (cs : List α) (ofCodes : List α → Value) =>
    subscriptOf r cs (fun c => return ofCodes [c]) (fun cs => return ofCodes cs)
      "string index out of range"
      (fun t => "string indices must be integers, not '" ++ t ++ "'") key
  match core with
  | .scalar (.str s) => inString s ofText
  | .scalar (.codes s) => inString s.points ofPoints
  | .scalar (.bytes b) =>
    subscriptOf r b (fun x => return ofNat x.toNat) (fun xs => return ofBytes xs)
      "index out of range" (named "byte") key
  | .scalar _ => refuse
  | .ref i =>
    match (← cellAt i) with
    | .list xs => subscriptOf r xs pure newList "list index out of range" (named "list") key
    | .tuple xs => subscriptOf r xs pure newTuple "tuple index out of range" (named "tuple") key
    | .range a b s =>
      match (← cell? key) with
      | some (.slice l u t) =>
        let (start, stop, step, _) ← slicesOf r (rangeLength a b s) l u t
        alloc (.range (a + start * s) (a + stop * s) (s * step))
      | _ =>
        match (← wholeOf? r key) with
        | some n =>
          match placeOf (rangeLength a b s) n with
          | some k => return ofInt (a + s * (k : Int))
          | none => raise "IndexError" "range object index out of range"
        | none => typeError (named "range" (← typeName key))
    | .known _ (.bytearray b) =>
      subscriptOf r b (fun x => return ofNat x.toNat)
        (fun xs => alloc (.known "bytearray" (.bytearray xs)))
        "bytearray index out of range" (named "bytearray") key
    | .known _ (.memoryview b w) =>
      subscriptOf r b (fun x => return ofNat x.toNat)
        (fun xs => alloc (.known "memoryview" (.memoryview xs w)))
        "index out of bounds on dimension 1" (fun _ => "memoryview: invalid slice key") key
    | .known _ (.headers h) =>
      match key with
      | .scalar (.str name) =>
        match h.get? (name.map Char.toLower) with
        | some t => return ofText t
        | none => noKey key
      | _ => raise "AttributeError" ("'" ++ (← typeName key) ++ "' object has no attribute 'lower'")
    | .cls c => classItem r core key c i
    | cell =>
      match entries? cell with
      | some es =>
        match (← valueAt? r es key) with
        | some x => return x
        | none =>
          match (← callOwn? r v "__missing__" [key]) with
          | some x => return x
          | none => noKey key
      | none => refuse

def getItem (r : Interpreter) (v key : Value) : Eval Value := do
  match (← callOwn? r v "__getitem__" [key]) with
  | some x => return x
  | none => do plainItem r v (← unwrap v) key

/-! ## Changing -/

def replaceAt {α : Type} (items : List α) : List (Nat × α) → List α
  | [] => items
  | (k, v) :: rest => replaceAt (items.set k v) rest

def replaceSlice {α : Type} (r : Interpreter) (kind : String) (items news : List α)
    (a b c : Value) : Eval (List α) := do
  let (start, stop, step, places) ← slicesOf r items.length a b c
  if step = 1 then
    return items.take start.toNat ++ news ++ items.drop (max start stop).toNat
  else if news.length = places.length then return replaceAt items (places.zip news)
  else valueError ("attempt to assign " ++ kind ++ " of size " ++ toString news.length ++
    " to extended slice of size " ++ toString places.length)

def sliceValues (r : Interpreter) (step x : Value) : Eval (List Value) := do
  match (← attempt (iterate r x)) with
  | .ok xs => return xs
  | .error (.raised e) =>
    if (← isKnown e "TypeError") && !(← isIterable x) then
      let step ← sliceBound r step
      typeError (if step.getD 1 = 1 then "can only assign an iterable"
        else "must assign iterable to extended slice")
    else throw (.raised e)
  | .error e => throw e

def needByte (r : Interpreter) (v : Value) : Eval UInt8 := do
  let n ← needWhole r v
  if n < 0 ∨ 255 < n then valueError "byte must be in range(0, 256)"
  return n.toNat.toUInt8

def setField (h : Headers) (name value : Text) : Headers :=
  let low := name.map Char.toLower
  let rec go (found : Bool) : List (Text × Text) → List (Text × Text)
    | [] => if found then [] else [(name, value)]
    | f :: rest =>
      if f.1.map Char.toLower = low then (if found then go true rest else (name, value) :: go true rest)
      else f :: go found rest
  ⟨go false h.fields⟩

def setItem (r : Interpreter) (v key x : Value) : Eval Unit := do
  let refuse := do
    typeError ("'" ++ (← typeName v) ++ "' object does not support item assignment")
  match (← callOwn? r v "__setitem__" [key, x]) with
  | some _ => return ()
  | none =>
    match (← unwrap v) with
    | .scalar _ => refuse
    | .ref i =>
      match (← cellAt i), (← cell? key) with
      | .list _, some (.slice a b c) =>
        let news ← sliceValues r c x
        match (← cellAt i) with
        | .list xs => do setCell i (.list (← replaceSlice r "sequence" xs news a b c))
        | _ => return ()
      | .list xs, _ =>
        match (← indexKey? r key) with
        | some n =>
          match placeOf xs.length n with
          | some k => setCell i (.list (xs.set k x))
          | none => raise "IndexError" "list assignment index out of range"
        | none =>
          typeError ("list indices must be integers or slices, not " ++ (← typeName key))
      | .known cls (.bytearray b), some (.slice l u s) =>
        let news ← (← iterate r x).mapM (needByte r)
        setCell i (.known cls (.bytearray (← replaceSlice r "bytes" b news l u s)))
      | .known cls (.bytearray b), _ =>
        match (← indexKey? r key) with
        | some n =>
          match placeOf b.length n with
          | some k => do setCell i (.known cls (.bytearray (b.set k (← needByte r x))))
          | none => raise "IndexError" "bytearray index out of range"
        | none =>
          typeError ("bytearray indices must be integers or slices, not " ++
            (← typeName key))
      | .dict es, _ => do setCell i (.dict (← setEntry r es key x))
      | .known cls (.ordered es), _ => do
          setCell i (.known cls (.ordered (← setEntry r es key x)))
      | .known cls (.headers h), _ =>
        match key, x with
        | .scalar (.str name), .scalar (.str value) =>
          setCell i (.known cls (.headers (setField h name value)))
        | .scalar (.str _), other | other, _ =>
          raise "AttributeError" ("'" ++ (← typeName other) ++
            "' object has no attribute 'encode'")
      | .known _ (.queryParams _), _ =>
        raise "RuntimeError" ("QueryParams are immutable since 0.18.0. Use \x60q = q.set(key, " ++
          "value)\x60 to create an updated copy.")
      | _, _ => refuse

def dropSlice {α : Type} (r : Interpreter) (items : List α) (a b c : Value) : Eval (List α) := do
  let (_, _, _, places) ← slicesOf r items.length a b c
  return pick items ((List.range items.length).filter fun k => !places.contains k)

def delItem (r : Interpreter) (v key : Value) : Eval Unit := do
  let refuse := do
    let isNumber := (← wholeOf? r key).isSome
    let isOwn ← match (← cell? v) with
      | some (.object cls _ _) => do pure (← classData cls).own
      | some (.known _ (.path _)) | some (.known _ (.url _)) | some (.known _ (.request _))
      | some (.known _ (.response _)) => pure true
      | _ => pure false
    let isSized := (← plainSize? (← unwrap v)).isSome
    let verb := if isNumber && (isOwn || isSized) then "doesn't" else "does not"
    typeError ("'" ++ (← typeName v) ++ "' object " ++ verb ++ " support item deletion")
  match (← callOwn? r v "__delitem__" [key]) with
  | some _ => return ()
  | none =>
    match (← unwrap v) with
    | .scalar _ => refuse
    | .ref i =>
      match (← cellAt i), (← cell? key) with
      | .list xs, some (.slice a b c) => do setCell i (.list (← dropSlice r xs a b c))
      | .list xs, _ =>
        match (← indexKey? r key) with
        | some n =>
          match placeOf xs.length n with
          | some k => setCell i (.list (xs.eraseIdx k))
          | none => raise "IndexError" "list assignment index out of range"
        | none =>
          typeError ("list indices must be integers or slices, not " ++ (← typeName key))
      | .known cls (.bytearray xs), some (.slice a b c) => do
          setCell i (.known cls (.bytearray (← dropSlice r xs a b c)))
      | .known cls (.bytearray xs), _ =>
        match (← indexKey? r key) with
        | some n =>
          match placeOf xs.length n with
          | some k => setCell i (.known cls (.bytearray (xs.eraseIdx k)))
          | none => raise "IndexError" "bytearray index out of range"
        | none =>
          typeError ("bytearray indices must be integers or slices, not " ++
            (← typeName key))
      | .dict es, _ =>
        match (← dropEntry r es key) with
        | some (_, es) => setCell i (.dict es)
        | none => noKey key
      | .known cls (.ordered es), _ =>
        match (← dropEntry r es key) with
        | some (_, es) => setCell i (.known cls (.ordered es))
        | none => noKey key
      | .known cls (.headers h), _ =>
        match key with
        | .scalar (.str name) =>
          let low := name.map Char.toLower
          if !h.has low then noKey key
          setCell i (.known cls (.headers ⟨h.fields.filter fun f =>
            f.1.map Char.toLower ≠ low⟩))
        | _ => noKey key
      | .known _ (.memoryview _ w), _ =>
        typeError (if w then "cannot delete memory" else "cannot modify read-only memory")
      | _, _ => refuse

/-! ## Membership -/

def containsRun {α : Type} [BEq α] : List α → List α → Bool
  | [], part => part.isEmpty
  | x :: rest, part => part.isPrefixOf (x :: rest) || containsRun rest part

def meets (r : Interpreter) (iterator x : Value) : Nat → Eval Bool
  | 0 => throw .exhausted
  | fuel + 1 => do
      match (← r.advance iterator) with
      | .item y => if (← alike r y x) then return true else meets r iterator x fuel
      | .stop _ => return false

def bytes? (v : Value) : Eval (Option (List UInt8)) := do
  match (← unwrap v) with
  | .scalar (.bytes b) => return some b
  | .scalar _ => return none
  | .ref i =>
    match (← cellAt i) with
    | .known _ (.bytearray b) | .known _ (.memoryview b _) => return some b
    | _ => return none

def bytesContain (r : Interpreter) (b : List UInt8) (x : Value) : Eval Bool := do
  match (← bytes? x), (← wholeOf? r x) with
  | some part, _ => return containsRun b part
  | none, some n =>
    if n < 0 ∨ 255 < n then valueError "byte must be in range(0, 256)"
    return b.any fun y => (y.toNat : Int) = n
  | none, none => typeError ("a bytes-like object is required, not '" ++ (← typeName x) ++ "'")

def plainContains (r : Interpreter) (v core x : Value) : Eval Bool := do
  let walk := do
    if (← isIterable v) then do meets r (← iteratorOf r v) x iterationLimit
    else typeError ("argument of type '" ++ (← typeName v) ++ "' is not iterable")
  let inString := fun (s : Scalar) => do
    match s.points?, (← unwrap x) with
    | some points, .scalar t =>
      match t.points? with
      | some part => return containsRun points part
      | none => typeError ("'in <string>' requires string as left operand, not " ++ (← typeName x))
    | _, _ => typeError ("'in <string>' requires string as left operand, not " ++ (← typeName x))
  match core with
  | .scalar (.str s) =>
    match (← unwrap x) with
    | .scalar (.str part) => return Text.containsText s part
    | _ => inString (.str s)
  | .scalar (.codes s) => inString (.codes s)
  | .scalar (.bytes b) => bytesContain r b x
  | .scalar _ => walk
  | .ref i =>
    match (← cellAt i) with
    | .list xs | .tuple xs => hasElement r xs x
    | .set xs | .frozenset xs => do
        match (← core? x) with
        | some (.set _) => pure ()
        | _ => requireKey x
        hasElement r xs x
    | .range a b s =>
      match index? x with
      | some n =>
        let inside := if 0 < s then a ≤ n && n < b else b < n && n ≤ a
        return inside && (n - a) % s = 0
      | none => hasElement r (rangeValues a b s) x
    | .known _ (.bytearray b) => bytesContain r b x
    | .known _ (.headers h) =>
      match x with
      | .scalar (.str name) => return h.has (name.map Char.toLower)
      | _ => raise "AttributeError" ("'" ++ (← typeName x) ++ "' object has no attribute 'lower'")
    | .view name d => do
        let es ← entriesAt d
        match name with
        | "dict_keys" => return (← valueAt? r es x).isSome
        | "dict_values" => hasElement r (es.map Prod.snd) x
        | _ =>
          match (← core? x) with
          | some (.tuple [k, y]) =>
            match (← valueAt? r es k) with
            | some z => alike r z y
            | none => return false
          | _ => return false
    | .store _ => return (← resultAt? r i x).isSome
    | cell =>
      match entries? cell with
      | some es => return (← valueAt? r es x).isSome
      | none => walk

def contains (r : Interpreter) (v x : Value) : Eval Bool := do
  match (← ownAttribute? (← classOf v) "__contains__") with
  | some (.scalar .nil) =>
    typeError ("'" ++ (← typeName v) ++ "' object is not a container")
  | some f => do truthy r (← r.call f ⟨[v, x], []⟩)
  | none =>
    match v, (← ownAttribute? (← classOf v) "__iter__") with
    | .ref _, some _ => do meets r (← iteratorOf r v) x iterationLimit
    | _, _ => do plainContains r v (← unwrap v) x

end Sandbox

end MacroExpand
