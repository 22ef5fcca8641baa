import MacroExpand.Sandbox.NumberMethods
import MacroExpand.Sandbox.ContainerMethods

/-!
# Making values of plain classes
-/

set_option autoImplicit false

namespace MacroExpand

namespace Sandbox

abbrev Maker := Interpreter → Arguments → Eval Value

def refuseNames (name : String) (a : Arguments) : Eval Unit := do
  if !a.keyword.isEmpty then typeError (name ++ "() takes no keyword arguments")

def onlyPlaces (name : String) (low high : Nat) (a : Arguments) : Eval Unit := do
  refuseNames name a
  expects name low high a

/-! ## Numbers -/

def numeral? (v : Value) : Eval (Option Text) := do
  match (← text? v) with
  | some t => return some t
  | none => return (← bytes? v).map latin

def readWhole (r : Interpreter) (v : Value) (base : Nat) (t : Text) : Eval Value := do
  match Number.readInt base t with
  | some n =>
    let count := (t.filter isDecimal).length
    if digitLimit < count && !([2, 4, 8, 16, 32].contains base) && exceedsDigits n then
      valueError ("Exceeds the limit (4300 digits) for integer string conversion: value has " ++
        toString count ++ " digits; use sys.set_int_max_str_digits() to increase the limit")
    return ofInt n
  | none =>
    valueError ("invalid literal for int() with base " ++ toString base ++ ": " ++
      String.ofList ((← codeText r v).take 200))

def wholeFrom (r : Interpreter) (v : Value) : Eval Value := do
  let refuse := do
    typeError ("int() argument must be a string, a bytes-like object or a real number, not '" ++
      (← typeName v) ++ "'")
  match (← numberWhole? r v) with
  | some n => return ofInt n
  | none =>
    match (← callOwn? r v "__trunc__" []) with
    | some x =>
      match (← wholeOf? r x) with
      | some n => return ofInt n
      | none => typeError ("__trunc__ returned non-Integral (type " ++ (← typeName x) ++ ")")
    | none =>
      match (← numeral? v), (← state? v) with
      | some t, _ => readWhole r v 10 t
      | none, some state =>
        match state.rational? with
        | some q => return ofInt (Int.tdiv q.num q.den)
        | none => refuse
      | none, none => refuse

def makeInt : Maker := fun r a => do
  Parameters.check { names := ["", "base"], unnamed := 1 } "int()" a
  match a.positional[0]?, a.get? 1 "base" with
  | none, none => return ofInt 0
  | none, some _ => typeError "int() missing string argument"
  | some v, none => wholeFrom r v
  | some v, some base =>
    let base ← needWhole r base
    if base < 0 ∨ base = 1 ∨ 36 < base then valueError "int() base must be >= 2 and <= 36, or 0"
    match (← numeral? v) with
    | some t => readWhole r v base.toNat t
    | none => typeError "int() can't convert non-string with explicit base"

def doubleFrom (r : Interpreter) (v : Value) : Eval Double := do
  let refuse := do
    typeError ("float() argument must be a string or a real number, not '" ++ (← typeName v) ++ "'")
  match (← numeral? v) with
  | some t =>
    match Number.readDouble t with
    | some d => return d
    | none => valueError ("could not convert string to float: " ++ String.ofList (← codeText r v))
  | none =>
    match (← numberDouble? r v), (← state? v) with
    | some d, _ => return d
    | none, some state =>
      match state.rational? with
      | some q =>
        let d := Double.ofQuotient q.num.natAbs q.den
        return if q.num < 0 then d.neg else d
      | none => refuse
    | none, none => refuse

def makeFloat : Maker := fun r a => do
  onlyPlaces "float" 0 1 a
  match a.positional[0]? with
  | none => return ofFloat .zero
  | some v => do newNumber (.float (← doubleFrom r v))

def complexPart (r : Interpreter) (place : String) (v : Value) : Eval (Double × Double) := do
  match (← unwrap v) with
  | .scalar (.complex re im) => return (re, im)
  | _ =>
    match (← callOwn? r v "__complex__" []) with
    | some (.scalar (.complex re im)) => return (re, im)
    | some x => typeError ("__complex__ returned non-complex (type " ++ (← typeName x) ++ ")")
    | none =>
      match (← numberDouble? r v) with
      | some d => return (d, .zero)
      | none =>
        typeError ("complex() " ++ place ++ " must be " ++
          (if place == "first argument" then "a string or a number" else "a number") ++
          ", not '" ++ (← typeName v) ++ "'")

def makeComplex : Maker := fun r a => do
  Parameters.check { names := ["real", "imag"] } "complex()" a
  let real := a.get? 0 "real"
  let imag := a.get? 1 "imag"
  let text ← match real with
    | some v => text? v
    | none => pure none
  match text, imag with
  | some _, some _ => typeError "complex() can't take second arg if first is a string"
  | some t, none =>
    match Number.readComplex t with
    | some (re, im) => return .scalar (.complex re im)
    | none =>
      if t.contains '_' then
        valueError ("could not convert string to complex: " ++ String.ofList (Text.quoted t))
      valueError "complex() arg is a malformed string"
  | none, imag =>
    if let some v := imag then
      if (← text? v).isSome then typeError "complex() second arg can't be a string"
    let (x, y) ← match real with
      | some v => complexPart r "first argument" v
      | none => pure (.zero, .zero)
    match imag with
    | none => return .scalar (.complex x y)
    | some v =>
      let (u, w) ← complexPart r "second argument" v
      let isComplex := fun (v : Value) => match v with
        | .scalar (.complex ..) => true
        | _ => false
      let re := if isComplex v then x.sub w else x
      return .scalar (.complex re (if real.any isComplex then u.add y else u))

/-! ## Texts and bytes -/

def makeText : Maker := fun r a => do
  Parameters.check { names := ["object", "encoding", "errors"] } "str()" a
  let named := fun (k : Nat) (name standard : String) => do
    match a.get? k name with
    | none => return chars standard
    | some v => needText ("str() argument '" ++ name ++ "'") v
  let encoding ← named 1 "encoding" "utf-8"
  let errors ← named 2 "errors" "strict"
  match a.get? 0 "object", (a.get? 1 "encoding").or (a.get? 2 "errors") with
  | none, _ => return ofText []
  | some v, none =>
    match v with
    | .scalar (.str _) | .scalar (.codes _) => return v
    | v => return ofText (← plainText r v)
  | some v, some _ =>
    match (← bytes? v), (← text? v) with
    | some b, _ => return ofText (← decoded (← codecNamed "decode" encoding) errors b)
    | none, some _ => typeError "decoding str is not supported"
    | none, none =>
      typeError ("decoding to str: need a bytes-like object, " ++ (← typeName v) ++ " found")

def bytesArguments (r : Interpreter) (name : String) (a : Arguments) : Eval (List UInt8) := do
  Parameters.check { names := ["source", "encoding", "errors"] } (name ++ "()") a
  let named := fun (k : Nat) (parameter : String) => do
    match a.get? k parameter with
    | none => return none
    | some v => do return some (← needText (name ++ "() argument '" ++ parameter ++ "'") v)
  let encoding ← named 1 "encoding"
  let errors ← named 2 "errors"
  let source := a.get? 0 "source"
  let text ← match source with
    | some v => text? v
    | none => pure none
  if text.isNone then
    if encoding.isSome then typeError "encoding without a string argument"
    if errors.isSome then typeError "errors without a string argument"
  match source, text with
  | none, _ => return []
  | some _, some t =>
    match encoding with
    | some e => do encoded (← codecNamed "encode" e) (errors.getD (chars "strict")) t
    | none => typeError "string argument without an encoding"
  | some v, none =>
    match (← bytes? v), (← callOwn? r v "__bytes__" []) with
    | some b, _ => return b
    | none, some x =>
      match (← bytes? x) with
      | some b => return b
      | none => typeError ("__bytes__ returned non-bytes (type " ++ (← typeName x) ++ ")")
    | none, none =>
      match (← wholeOf? r v) with
      | some n =>
        if sizeLimit < n ∨ n < -sizeLimit then
          raise "OverflowError" "cannot fit 'int' into an index-sized integer"
        if n < 0 then valueError "negative count"
        if lengthLimit < n then raiseWith "MemoryError" []
        return List.replicate n.toNat 0
      | none =>
        if name == "bytes" then bytesFrom r v
        else
          if !(← isIterable v) then
            typeError ("cannot convert '" ++ (← typeName v) ++ "' object to bytearray")
          (← iterate r v).mapM (needByte r)

/-! ## Containers -/

def makeFrom (name : String) (make : Interpreter → List Value → Eval Value) : Maker := fun r a => do
  onlyPlaces name 0 1 a
  match a.positional[0]? with
  | none => make r []
  | some v =>
    match name, (← cell? v) with
    | "tuple", some (.tuple _) | "frozenset", some (.frozenset _) => return v
    | _, _ => do make r (← iterate r v)

def makeRange : Maker := fun r a => do
  onlyPlaces "range" 1 3 a
  match (← a.positional.mapM (needWhole r)) with
  | [stop] => alloc (.range 0 stop 1)
  | [start, stop] => alloc (.range start stop 1)
  | start :: stop :: step :: _ =>
    if step = 0 then valueError "range() arg 3 must not be zero"
    alloc (.range start stop step)
  | [] => return nil

def makeSlice : Maker := fun _ a => do
  onlyPlaces "slice" 1 3 a
  match a.positional with
  | [stop] => alloc (.slice nil stop nil)
  | [start, stop] => alloc (.slice start stop nil)
  | start :: stop :: step :: _ => alloc (.slice start stop step)
  | [] => return nil

def makeEnumerate : Maker := fun r a => do
  let given := a.positional.length + a.keyword.length
  if 2 < given then
    typeError ("enumerate() takes at most 2 arguments (" ++ toString given ++ " given)")
  let allowed := if a.positional.isEmpty then (if a.keyword.length = 1 then ["iterable"]
    else ["iterable", "start"]) else ["start"]
  match a.keyword.find? fun (k, _) => !allowed.contains k with
  | some (k, _) => typeError ("'" ++ k ++ "' is an invalid keyword argument for enumerate()")
  | none => pure ()
  match a.get? 0 "iterable" with
  | none => typeError "enumerate() missing required argument 'iterable'"
  | some v =>
    let start ← match a.get? 1 "start" with
      | some n => needWhole r n
      | none => pure 0
    alloc (.numbered (← iteratorOf r v) start)

def makeZip : Maker := fun r a => do
  match a.keyword.find? fun (k, _) => k != "strict" with
  | some (k, _) => typeError ("'" ++ k ++ "' is an invalid keyword argument for zip()")
  | none => pure ()
  let strict ← isGiven r a "strict"
  alloc (.zipped (← a.positional.mapM (iteratorOf r)) strict)

def makeReversed : Maker := fun r a => do
  onlyPlaces "reversed" 1 1 a
  let v := a.at0
  let refuse := do typeError ("'" ++ (← typeName v) ++ "' object is not reversible")
  let listed := fun (cls : String) (xs : List Value) => alloc (.iterator cls xs.reverse)
  let table := fun (cls : String) (i : Nat) => do alloc (.tableIterator cls i 0 (← entriesAt i).length)
  match (← ownAttribute? (← classOf v) "__reversed__") with
  | some (.scalar .nil) => refuse
  | some f => r.call f ⟨[v], []⟩
  | none =>
    let getter ← ownAttribute? (← classOf v) "__getitem__"
    let length ← ownAttribute? (← classOf v) "__len__"
    match getter, length with
    | some _, some _ => do
        let n ← size? r v
        let items ← (List.range (n.getD 0)).mapM fun (k : Nat) => getItem r v (ofNat k)
        listed "reversed" items
    | _, _ =>
      match (← unwrap v) with
      | .scalar (.str _) | .scalar (.codes _) | .scalar (.bytes _) => do listed "reversed" (← iterate r v)
      | .scalar _ => refuse
      | .ref i =>
        match (← cellAt i) with
        | .list xs => alloc (.listReverse i xs.length)
        | .tuple xs => listed "reversed" xs
        | .range a b s => listed "range_iterator" (rangeValues a b s)
        | .dict _ | .known _ (.ordered _) => table "dict_reversekeyiterator" i
        | .environment _ => table "dict_reversekeyiterator" i
        | .view "dict_keys" d => table "dict_reversekeyiterator" d
        | .view "dict_values" d => table "dict_reversevalueiterator" d
        | .view _ d => table "dict_reverseitemiterator" d
        | .known _ (.bytearray _) | .known _ (.memoryview ..) => do
            listed "reversed" (← iterate r v)
        | _ => refuse

def makeProperty : Maker := fun _ a => do
  Parameters.check { names := ["fget", "fset", "fdel", "doc"] } "property()" a
  let getter := (a.get? 0 "fget").getD nil
  let doc ← match a.some? 3 "doc", (← cell? getter) with
    | some d, _ => pure d
    | none, some (.function f) => pure f.doc
    | none, _ => pure nil
  alloc (.property getter ((a.get? 1 "fset").getD nil) ((a.get? 2 "fdel").getD nil) doc)

def makeDescriptor (name : String) : Maker := fun _ a => do
  onlyPlaces name 1 1 a
  alloc (.descriptor name a.at0)

def plainMakers : List (String × Maker) := [
  ("int", makeInt), ("float", makeFloat), ("complex", makeComplex), ("str", makeText),
  ("bool", fun r a => do
    onlyPlaces "bool" 0 1 a
    match a.positional[0]? with
    | some v => return ofBool (← truthy r v)
    | none => return ofBool false),
  ("bytes", fun r a => do return ofBytes (← bytesArguments r "bytes" a)),
  ("bytearray", fun r a => do newKnown "bytearray" (.bytearray (← bytesArguments r "bytearray" a))),
  ("memoryview", fun _ a => do
    Parameters.check { names := ["object"], required := 1 } "memoryview()" a
    let v := (a.get? 0 "object").getD nil
    match (← bytes? v), (← core? v) with
    | some b, some (.known _ (.memoryview _ w)) => newKnown "memoryview" (.memoryview b w)
    | some b, c => newKnown "memoryview" (.memoryview b c.isSome)
    | none, _ =>
      typeError ("memoryview: a bytes-like object is required, not '" ++ (← typeName v) ++ "'")),
  ("list", makeFrom "list" fun _ xs => newList xs),
  ("tuple", makeFrom "tuple" fun _ xs => newTuple xs),
  ("set", makeFrom "set" fun r xs => do alloc (.set (← addElements r [] xs))),
  ("frozenset", makeFrom "frozenset" fun r xs => do alloc (.frozenset (← addElements r [] xs))),
  ("dict", fun r a => do newDict (← setEntries r [] (← entriesFrom r "dict" a))),
  ("OrderedDict", fun r a => do
    newKnown "OrderedDict" (.ordered (← setEntries r [] (← entriesFrom r "OrderedDict" a)))),
  ("range", makeRange), ("slice", makeSlice), ("enumerate", makeEnumerate), ("zip", makeZip),
  ("reversed", makeReversed),
  ("map", fun r a => do
    refuseNames "map" a
    match a.positional with
    | f :: s :: rest => do alloc (.mapped f (← (s :: rest).mapM (iteratorOf r)))
    | _ => typeError "map() must have at least two arguments."),
  ("filter", fun r a => do
    onlyPlaces "filter" 2 2 a
    alloc (.filtered a.at0 (← iteratorOf r a.at1))),
  ("property", makeProperty), ("staticmethod", makeDescriptor "staticmethod"),
  ("classmethod", makeDescriptor "classmethod"),
  ("Decimal", fun r a => do
    let t ← plainText r (a.positional.headD (ofInt 0))
    match ExactDecimal.ofText t with
    | some d => newKnown "Decimal" (.decimal d)
    | none => valueError "[<class 'decimal.ConversionSyntax'>]"),
  ("Fraction", fun r a => do
    let num ← needWhole r (a.positional.headD (ofInt 0))
    let den ← needWhole r (a.positional.getD 1 (ofInt 1))
    if den = 0 then raise "ZeroDivisionError" ("Fraction(" ++ toString num ++ ", 0)")
    let q := Quotient.normal num den
    newKnown "Fraction" (.fraction q.num q.den)),
  ("UUID", fun r a => do
    match Uuid.ofText (← plainText r a.at0) with
    | .ok u => newKnown "UUID" (.uuid u)
    | .error e => valueError e.message),
  ("object", fun _ a => do
    if !a.positional.isEmpty || !a.keyword.isEmpty then typeError "object() takes no arguments"
    alloc (.object (classCell "object") [] none))]

end Sandbox

end MacroExpand
