import MacroExpand.Sandbox.Show
import MacroExpand.Number.Arithmetic

/-!
# Truth, equality and order

Numbers are equal by value and containers by what they hold; values of different kinds are unequal.
Only values of like kinds have an order.  Classes of the program may answer for themselves.
-/

set_option autoImplicit false

namespace MacroExpand

namespace Sandbox

def unwrap (v : Value) : Eval Value := do
  match (← cell? v) with
  | some (.object _ _ (some base)) => return base
  | _ => return v

def core? (v : Value) : Eval (Option Cell) := do cell? (← unwrap v)

def rangeLength (start stop step : Int) : Nat :=
  if 0 < step then (if start < stop then ((stop - start - 1) / step + 1).toNat else 0)
  else if step < 0 then (if stop < start then ((start - stop - 1) / (-step) + 1).toNat else 0)
  else 0

def entries? : Cell → Option (List (Value × Value))
  | .dict es | .known _ (.ordered es) => some es
  | .known _ (.formData es) => some (lastEntries es)
  | .environment vars => some (vars.map fun (k, v) => (ofText k, ofText v))
  | .known _ (.queryParams ps) =>
    some (((ps.map Prod.fst).eraseDups.filterMap fun n => ps.find? fun p => p.1 == n).map
      fun (k, v) => (ofText k, ofText v))
  | .known _ (.headers h) =>
    some ((h.items.map Prod.fst).eraseDups.map fun n => (ofText n, ofText ((h.get? n).getD [])))
  | _ => none
where
  lastEntries (pairs : List (Value × Value)) : List (Value × Value) :=
    (pairs.map Prod.fst).eraseDups.filterMap fun key => pairs.reverse.find? fun e => e.1 = key

def entriesAt (i : Nat) : Eval (List (Value × Value)) := do
  return (entries? (← cellAt i)).getD []

def inclusionElements? : Cell → Eval (Option (List Value))
  | .set xs | .frozenset xs => return some xs
  | .view "dict_keys" d => do return some ((← entriesAt d).map Prod.fst)
  | .view "dict_items" d => do
      return some (← (← entriesAt d).mapM fun (k, v) => newTuple [k, v])
  | _ => return none

/-! ## Truth -/

def scalarTruth : Scalar → Bool
  | .nil => false
  | .bool b => b
  | .int n => n ≠ 0
  | .float d => !d.isZero
  | .complex re im => !(re.isZero && im.isZero)
  | .str s => !s.isEmpty
  | .codes s => !s.points.isEmpty
  | .bytes b => !b.isEmpty
  | .ellipsis => true

def cellTruth (cell : Cell) : Eval Bool := do
  match cell with
  | .list xs | .tuple xs | .set xs | .frozenset xs => return !xs.isEmpty
  | .range a b s => return rangeLength a b s ≠ 0
  | .view _ d => return !(← entriesAt d).isEmpty
  | .store s => return !s.cache.entries.isEmpty
  | .known _ (.timedelta d) => return d.micros ≠ 0
  | .known _ (.bytearray b) | .known _ (.memoryview b _) => return !b.isEmpty
  | .known _ (.fraction n _) => return n ≠ 0
  | .known _ (.decimal ⟨_, .finite digits _⟩) => return digits ≠ 0
  | cell => return (entries? cell).all (!·.isEmpty)

def truthy (r : Interpreter) (v : Value) : Eval Bool := do
  match v with
  | .scalar s => return scalarTruth s
  | .ref _ =>
    match (← callOwn? r v "__bool__" []) with
    | some (.scalar (.bool b)) => return b
    | some x => typeError ("__bool__ should return bool, returned " ++ (← typeName x))
    | none =>
      match (← callOwn? r v "__len__" []) with
      | some (.scalar (.int n)) =>
        if n < 0 then valueError "__len__() should return >= 0"
        return n ≠ 0
      | some (.scalar (.bool b)) => return b
      | some x =>
        typeError ("'" ++ (← typeName x) ++ "' object cannot be interpreted as an integer")
      | none =>
        match (← unwrap v) with
        | .scalar s => return scalarTruth s
        | .ref i => do cellTruth (← cellAt i)

/-! ## Equality -/

def ask (r : Interpreter) (a : Value) (name : String) (b : Value) : Eval (Option Value) := do
  match a with
  | .scalar _ => return none
  | .ref _ =>
    match (← callOwn? r a name [b]) with
    | some v => return if v = .ref notImplementedCell then none else some v
    | none => return none

/-- Whether the class of one value descends from the class of another and is not the same: then the
second value is asked first. -/
def isMoreSpecial (b a : Value) : Eval Bool := do
  let ca ← classOf a
  let cb ← classOf b
  return ca ≠ cb && (← descends cb ca)

/-- What the classes of the program say about an operation of two values: the left one is asked by a
name and the right one by another. -/
def askBoth (r : Interpreter) (a : Value) (name : String) (b : Value) (reflected : String) :
    Eval (Option Value) := do
  let leftFirst := do
    match (← ask r a name b) with
    | some v => return some v
    | none => ask r b reflected a
  match a, b with
  | .scalar _, .scalar _ => return none
  | _, _ =>
    if (← isMoreSpecial b a) then
      match (← ask r b reflected a) with
      | some v => return some v
      | none => ask r a name b
    else leftFirst

def allPairs (test : Value → Value → Eval Bool) : List Value → List Value → Eval Bool
  | [], [] => return true
  | x :: xs, y :: ys => do if (← test x y) then allPairs test xs ys else return false
  | _, _ => return false

def someElement (test : Value → Eval Bool) : List Value → Eval Bool
  | [] => return false
  | x :: xs => do if (← test x) then return true else someElement test xs

def everyElement (test : Value → Eval Bool) : List Value → Eval Bool
  | [] => return true
  | x :: xs => do if (← test x) then everyElement test xs else return false

def findEntry (test : Value → Eval Bool) : List (Value × Value) → Eval (Option (Value × Value))
  | [] => return none
  | e :: es => do if (← test e.1) then return some e else findEntry test es

def plainEqual (same : Value → Value → Eval Bool) (a b : Value) : Eval Bool := do
  let element := fun x y => if x = y then pure true else same x y
  let a ← unwrap a
  let b ← unwrap b
  match a, b with
  | .scalar x, .scalar y => return x.same y
  | .scalar x, .ref j | .ref j, .scalar x =>
    match (← cellAt j), x with
    | .known _ (.url u), .str t =>
      match Url.ofText t with
      | .ok v => return u.text = v.text
      | .error why => raise "InvalidURL" why
    | .known _ state, x => return x.sameAsState state
    | _, _ => return false
  | .ref i, .ref j =>
    if i = j then return true
    let sameElements := fun (xs ys : List Value) => do
      if xs.length ≠ ys.length then return false
      everyElement (fun x => someElement (element x) ys) xs
    match (← cellAt i), (← cellAt j) with
    | .list xs, .list ys | .tuple xs, .tuple ys =>
      if xs.length ≠ ys.length then return false
      allPairs element xs ys
    | .view "dict_items" d, .view "dict_items" e => do
        let es ← entriesAt d
        let es' ← entriesAt e
        if es.length ≠ es'.length then return false
        everyElement (fun k => do
          match es.find? (fun e => e.1 = k), (← findEntry (element k) es') with
          | some e, some e' => element e.2 e'.2
          | _, _ => return false) (es.map Prod.fst)
    | .range a b s, .range a' b' s' =>
      let n := rangeLength a b s
      return n = rangeLength a' b' s' && (n = 0 || (a = a' && (n = 1 || s = s')))
    | .slice a b c, .slice a' b' c' => allPairs element [a, b, c] [a', b', c']
    | .nativeMethod u c n, .nativeMethod v c' n' => return u = v && c = c' && n = n'
    | .unbound c n, .unbound c' n' => return c = c' && n = n'
    | .method u f, .method v g => return u = v && f = g
    | .timezone o _, .timezone p _ => return o = p
    | .parametrized o xs, .parametrized p ys => allPairs element (o :: xs) (p :: ys)
    | .union xs, .union ys => sameElements xs ys
    | .known _ (.ordered es), .known _ (.ordered es') =>
      let flat := fun (es : List (Value × Value)) => es.flatMap fun e => [e.1, e.2]
      if es.length ≠ es'.length then return false
      allPairs element (flat es) (flat es')
    | .known _ (.formData es), .known _ (.formData es') =>
      let held := fun (x : Value × Value) (list : List (Value × Value)) =>
        list.filterM fun y => do
          if (← element x.1 y.1) then element x.2 y.2 else return false
      if es.length ≠ es'.length then return false
      let fits ← es.filterM fun x => do
        return (← held x es).length = (← held x es').length
      return fits.length = es.length
    | .known _ (.headers h), .known _ (.headers h') => return sameFields h h'
    | .known _ (.headers h), .dict es | .dict es, .known _ (.headers h) =>
      let pairs := es.filterMap fun e => match e with
        | (.scalar (.str n), .scalar (.str v)) => some (n, v)
        | _ => none
      return pairs.length = es.length && sameFields h ⟨pairs⟩
    | .known _ s, .known _ t => return s.same t
    | x, y =>
      match entries? x, entries? y with
      | some es, some es' =>
        if es.length ≠ es'.length then return false
        everyElement (fun k => do
          match es.find? (fun e => e.1 = k), (← findEntry (element k) es') with
          | some e, some e' => element e.2 e'.2
          | _, _ => return false) (es.map Prod.fst)
      | _, _ =>
        match (← inclusionElements? x), (← inclusionElements? y) with
        | some xs, some ys => sameElements xs ys
        | _, _ => return false
where
  /-- Whether two messages have the same fields, in any order. -/
  sameFields (h h' : Headers) : Bool :=
    h.items.length == h'.items.length &&
      h.items.all fun x => h.items.count x == h'.items.count x

def equalIn (r : Interpreter) : Nat → Value → Value → Eval Bool
  | 0, _, _ => raise "RecursionError" "maximum recursion depth exceeded in comparison"
  | fuel + 1, a, b => do
      match (← askBoth r a "__eq__" b "__eq__") with
      | some v => truthy r v
      | none => plainEqual (equalIn r fuel) a b

def equal (r : Interpreter) (a b : Value) : Eval Bool := equalIn r r.compareDepth a b

def alike (r : Interpreter) (a b : Value) : Eval Bool :=
  if a = b then return true else equal r a b

/-! ## Order -/

def holds (op : CompareOperator) (o : Ordering) : Bool :=
  match op with
  | .lt => o == .lt
  | .ltE => o != .gt
  | .gt => o == .gt
  | .gtE => o != .lt
  | .eq => o == .eq
  | .notEq => o != .eq
  | _ => false

def compareLists {α : Type} (order : α → α → Ordering) : List α → List α → Ordering
  | [], [] => .eq
  | [], _ :: _ => .lt
  | _ :: _, [] => .gt
  | x :: xs, y :: ys => (order x y).then (compareLists order xs ys)

def compareTexts (a b : Text) : Ordering := compareLists (fun x y => compare x.toNat y.toNat) a b

def comparisonName : CompareOperator → String × String × String
  | .lt => ("<", "__lt__", "__gt__")
  | .ltE => ("<=", "__le__", "__ge__")
  | .gt => (">", "__gt__", "__lt__")
  | .gtE => (">=", "__ge__", "__le__")
  | .eq => ("==", "__eq__", "__eq__")
  | .notEq => ("!=", "__ne__", "__ne__")
  | .is => ("is", "", "")
  | .isNot => ("is not", "", "")
  | .isIn => ("in", "", "")
  | .notIn => ("not in", "", "")

def stateOrder (a b : State) : Option (Except String Ordering) :=
  match a, b with
  | .datetime s, .datetime t =>
    if s.time.offset.isSome != t.time.offset.isSome then
      some (.error "can't compare offset-naive and offset-aware datetimes")
    else some (.ok (compare (s.universalMicros) (t.universalMicros)))
  | .datetime _, .date _ => some (.error "can't compare datetime.datetime to datetime.date")
  | .date _, .datetime _ => some (.error "can't compare datetime.datetime to datetime.date")
  | .date s, .date t => some (.ok (compare s.ordinal t.ordinal))
  | .time s, .time t =>
    if s.offset.isSome != t.offset.isSome then
      some (.error "can't compare offset-naive and offset-aware times")
    else some (.ok (compare s.universalMicros t.universalMicros))
  | .timedelta s, .timedelta t => some (.ok (compare s.micros t.micros))
  | .path p, .path q =>
    some (.ok (compareLists compareTexts (p.root :: p.parts) (q.root :: q.parts)))
  | .uuid u, .uuid v => some (.ok (compareTexts u.text v.text))
  | a, b =>
    match a.rational?, b.rational? with
    | some x, some y => some (.ok (compare (x.num * y.den) (y.num * x.den)))
    | _, _ => none

def notOrdered {α : Type} (op : CompareOperator) (a b : Value) : Eval α := do
  typeError ("'" ++ (comparisonName op).1 ++ "' not supported between instances of '" ++
    (← typeName a) ++ "' and '" ++ (← typeName b) ++ "'")

def orderedLists (r : Interpreter) (test : Value → Value → Eval Bool) (op : CompareOperator) :
    List Value → List Value → Eval Bool
  | x :: xs, y :: ys => do if (← alike r x y) then orderedLists r test op xs ys else test x y
  | xs, ys => return holds op (compare xs.length ys.length)

def orderedSets (r : Interpreter) (op : CompareOperator) (xs ys : List Value) : Eval Bool := do
  let within := fun us vs => everyElement (fun u => someElement (alike r u) vs) us
  match op with
  | .ltE => within xs ys
  | .lt => if xs.length < ys.length then within xs ys else return false
  | .gtE => within ys xs
  | _ => if ys.length < xs.length then within ys xs else return false

def plainOrdered (r : Interpreter) (op : CompareOperator) (test : Value → Value → Eval Bool)
    (a b : Value) : Eval Bool := do
  let bytesOrder := fun (s t : List UInt8) =>
    holds op (compareLists (fun x y => compare x.toNat y.toNat) s t)
  match (← unwrap a), (← unwrap b) with
  | .scalar (.str s), .scalar (.str t) => return holds op (compareTexts s t)
  | .scalar (.bytes s), .scalar (.bytes t) => return bytesOrder s t
  | .scalar x, .scalar y =>
    match Arithmetic.order x y, x.points?, y.points? with
    | some (some o), _, _ => return holds op o
    | some none, _, _ => return false
    | none, some ps, some qs => return holds op (compareLists (fun p q => compare p.toNat q.toNat) ps qs)
    | none, _, _ => notOrdered op a b
  | .ref i, .ref j =>
    match (← cellAt i), (← cellAt j) with
    | .list xs, .list ys | .tuple xs, .tuple ys =>
      orderedLists r test op xs ys
    | .slice u v w, .slice x y z => orderedLists r test op [u, v, w] [x, y, z]
    | .known _ (.bytearray s), .known _ (.bytearray t) => return bytesOrder s t
    | .known _ s, .known _ t =>
      match stateOrder s t with
      | some (.ok o) => return holds op o
      | some (.error why) => typeError why
      | none => notOrdered op a b
    | c, d =>
      match (← inclusionElements? c), (← inclusionElements? d) with
      | some xs, some ys => orderedSets r op xs ys
      | _, _ => notOrdered op a b
  | .scalar x, .ref j =>
    match x, (← cellAt j) with
    | .bytes s, .known _ (.bytearray t) => return bytesOrder s t
    | x, .known _ t =>
      match x.rational?, t.rational? with
      | some p, some q => return holds op (compare (p.num * q.den) (q.num * p.den))
      | _, _ => notOrdered op a b
    | _, _ => notOrdered op a b
  | .ref i, .scalar y =>
    match (← cellAt i), y with
    | .known _ (.bytearray s), .bytes t => return bytesOrder s t
    | .known _ s, y =>
      match s.rational?, y.rational? with
      | some p, some q => return holds op (compare (p.num * q.den) (q.num * p.den))
      | _, _ => notOrdered op a b
    | _, _ => notOrdered op a b

def orderedIn (r : Interpreter) (op : CompareOperator) : Nat → Value → Value → Eval Bool
  | 0, _, _ => raise "RecursionError" "maximum recursion depth exceeded in comparison"
  | fuel + 1, a, b => do
      let (_, name, reflected) := comparisonName op
      match (← askBoth r a name b reflected) with
      | some v => truthy r v
      | none => plainOrdered r op (orderedIn r op fuel) a b

def less (r : Interpreter) (a b : Value) : Eval Bool := orderedIn r .lt r.compareDepth a b

/-! ## Keys -/

def hashDepth : Nat := 400

def requireKeyIn : Nat → Value → Eval Unit
  | 0, _ => return ()
  | _ + 1, .scalar _ => return ()
  | fuel + 1, .ref i => do
      let refuse := do typeError ("unhashable type: '" ++ (← typeName (.ref i)) ++ "'")
      match (← cellAt i) with
      | .list _ | .dict _ | .set _ | .slice .. | .environment _ | .view "dict_items" _
      | .view "dict_keys" _ => refuse
      | .known _ state =>
        match state.keyFault? (← typeName (.ref i)) with
        | some fault => raise fault.kind fault.message
        | none => return ()
      | .tuple xs => xs.forM (requireKeyIn fuel)
      | .object cls _ base =>
        let equality ← ownAttribute? cls "__eq__"
        let hash ← ownAttribute? cls "__hash__"
        match equality, hash, base with
        | some _, none, _ => refuse
        | _, some (.scalar .nil), _ => refuse
        | none, none, some b => requireKeyIn fuel b
        | _, _, _ => return ()
      | _ => return ()

def requireKey (v : Value) : Eval Unit := requireKeyIn hashDepth v

def valueAt? (r : Interpreter) (entries : List (Value × Value)) (key : Value) :
    Eval (Option Value) := do
  requireKey key
  return (← findEntry (fun k => alike r k key) entries).map Prod.snd

def setEntry (r : Interpreter) (entries : List (Value × Value)) (key value : Value) :
    Eval (List (Value × Value)) := do
  requireKey key
  match (← findEntry (fun k => alike r k key) entries) with
  | some (k, _) => return entries.map fun e => if e.1 = k then (k, value) else e
  | none => return entries ++ [(key, value)]

def dropEntry (r : Interpreter) (entries : List (Value × Value)) (key : Value) :
    Eval (Option (Value × List (Value × Value))) := do
  requireKey key
  match (← findEntry (fun k => alike r k key) entries) with
  | some (k, v) => return some (v, entries.filter fun e => e.1 ≠ k)
  | none => return none

def setEntries (r : Interpreter) (entries : List (Value × Value)) :
    List (Value × Value) → Eval (List (Value × Value))
  | [] => return entries
  | (k, v) :: rest => do setEntries r (← setEntry r entries k v) rest

def hasElement (r : Interpreter) (items : List Value) (v : Value) : Eval Bool :=
  someElement (fun x => alike r x v) items

def addElement (r : Interpreter) (items : List Value) (v : Value) : Eval (List Value) := do
  requireKey v
  if (← hasElement r items v) then return items else return items ++ [v]

def addElements (r : Interpreter) (items : List Value) : List Value → Eval (List Value)
  | [] => return items
  | v :: rest => do addElements r (← addElement r items v) rest

def selectElements (r : Interpreter) (keep : Bool) (others : List Value) :
    List Value → Eval (List Value)
  | [] => return []
  | v :: rest => do
      let found ← hasElement r others v
      let rest ← selectElements r keep others rest
      return if found == keep then v :: rest else rest

/-! ## Caches -/

def storeAt (i : Nat) : Eval Store := do
  match (← cellAt i) with
  | .store s => return s
  | _ => return {}

def keyNumber (r : Interpreter) (i : Nat) (key : Value) : Eval Nat := do
  let s ← storeAt i
  match (← valueAt? r s.keys key) with
  | some (.scalar (.int n)) => return n.toNat
  | _ => do
      setCell i (.store { s with keys := s.keys ++ [(key, ofNat s.keys.length)] })
      return s.keys.length

def resultAt? (r : Interpreter) (i : Nat) (key : Value) : Eval (Option Value) := do
  let number ← keyNumber r i key
  return (← storeAt i).cache.get? number

def publishOutcome (i ticket : Nat) (result : Except Value Value) : Eval Unit := do
  let s ← storeAt i
  let m ← get
  setCell i (.store { s with outcomes := ⟨ticket, result, m.turns⟩ :: s.outcomes })

def toldOutcome? (i ticket : Nat) : Eval (Option (Except Value Value)) := do
  let s ← storeAt i
  let m ← get
  return (s.outcomes.find? fun o => o.ticket = ticket && o.turn < m.turns).map Outcome.result

def changeStore {α : Type} (i : Nat) (change : Cache Nat Value → Cache Nat Value × α) : Eval α := do
  let s ← storeAt i
  let (cache, result) := change s.cache
  setCell i (.store { s with cache })
  return result

end Sandbox

end MacroExpand
