import MacroExpand.Sandbox.Exceptions
import MacroExpand.Sandbox.Places
import MacroExpand.Sandbox.NumberFunctions
import MacroExpand.Sandbox.Library

/-!
# The methods of known classes

Every known class has a table of methods and a table of functions that are given the class itself.
Methods that classes of a program may replace act on the built-in value alone, so that a replaced
method can call them.
-/

set_option autoImplicit false

namespace MacroExpand

namespace Sandbox

def makers : List (String × Maker) :=
  plainMakers ++ momentMakers ++ messageMakers ++ pathMakers ++ waitingMakers ++ libraryMakers

def maker? (key : String) : Option Maker := (makers.find? fun m => m.1 == key).map Prod.snd

/-! ## Operators as methods -/

def notImplemented : Value := .ref notImplementedCell

def operatorStems : List (String × BinaryOperator) := [
  ("add", .add), ("sub", .sub), ("mul", .mult), ("matmul", .matMult), ("truediv", .div),
  ("mod", .mod), ("pow", .pow), ("lshift", .lShift), ("rshift", .rShift), ("or", .bitOr),
  ("xor", .bitXor), ("and", .bitAnd), ("floordiv", .floorDiv)]

def operatorMethods (stems : List String) (reflected : List String) : List Native :=
  (operatorStems.filterMap fun (stem, op) =>
    if stems.contains stem then some (.single ("__" ++ stem ++ "__") fun r v w => do
      return (← builtIn r op (← unwrap v) w).getD notImplemented)
    else none) ++
  operatorStems.filterMap fun (stem, op) =>
    if reflected.contains stem then some (.single ("__r" ++ stem ++ "__") fun r v w => do
      return (← builtIn r op w (← unwrap v)).getD notImplemented)
    else none

def orderMethods : List Native :=
  [("__lt__", CompareOperator.lt), ("__le__", .ltE), ("__gt__", .gt), ("__ge__", .gtE)].map
    fun (name, op) => .single name fun r v w => do
      let a ← unwrap v
      match (← attempt (plainOrdered r op (orderedIn r op r.compareDepth) a (← unwrap w))) with
      | .ok b => return ofBool b
      | .error (.raised e) =>
        if (← isKnown e "TypeError") then return notImplemented else throw (.raised e)
      | .error e => throw e

def arithmeticStems : List String := ["add", "sub", "mul", "truediv", "mod", "pow", "floordiv"]

def wholeStems : List String := arithmeticStems ++ ["lshift", "rshift", "or", "xor", "and"]

def setStems : List String := ["sub", "or", "xor", "and"]

def unaryMethod (name : String) (op : UnaryOperator) : Native :=
  .plain name fun r v => do unary r op (← unwrap v)

def convertingMethod (name : String) (make : Maker) : Native :=
  .plain name fun r v => do make r ⟨[← unwrap v], []⟩

def numberOperators : List Native := orderMethods ++ [
  unaryMethod "__neg__" .minus, unaryMethod "__pos__" .plus,
  convertingMethod "__int__" makeInt, convertingMethod "__float__" makeFloat,
  convertingMethod "__trunc__" makeInt,
  .plain "__bool__" fun r v => do return ofBool (← truthy r (← unwrap v)),
  .plain "__abs__" fun r v => do absFunction.run r nil ⟨[← unwrap v], []⟩,
  .placed "__round__" 0 1 fun r v a => do roundFunction.run r nil ⟨(← unwrap v) :: a.positional, []⟩,
  .single "__divmod__" fun r v w => do
    match (← attempt (divmodFunction.run r nil ⟨[← unwrap v, w], []⟩)) with
    | .ok x => return x
    | .error (.raised e) =>
      if (← isKnown e "TypeError") then return notImplemented else throw (.raised e)
    | .error e => throw e]

/-! ## Objects and containers -/

def objectMethods : List Native := [
  .free "__init__" fun _ _ _ => return nil,
  .plain "__repr__" fun r v => do
    match v, (← cell? v) with
    | .ref i, some (.object cls _ none) => return ofText (objectText (fullName (← classData cls)) i)
    | _, _ => do return ofText (← codeText r (← unwrap v)),
  .plain "__str__" fun r v => do
    match (← cell? v) with
    | some (.object _ _ (some base)) => return ofText (← plainText r base)
    | some (.object ..) => return ofText (← codeText r v)
    | _ => return ofText (← plainText r v),
  .plain "__hash__" fun _ v => do
    let v ← unwrap v
    requireKey v
    return ofInt (← hashIn hashDepth v),
  .single "__format__" fun r v spec => do
    return ofText (← plainFormat r v (← needText "__format__() argument" spec)),
  .single "__eq__" fun r v w => do
    let a ← unwrap v
    let b ← unwrap w
    if (← plainEqual (equal r) a b) then return ofBool true
    let alikeClasses := (← classOf a) = (← classOf b)
    match (← cell? a) with
    | some (.object ..) => return notImplemented
    | _ => return if alikeClasses then ofBool false else notImplemented,
  .single "__ne__" fun r v w => do
    let a ← unwrap v
    let b ← unwrap w
    if (← plainEqual (equal r) a b) then return ofBool false
    if (← classOf a) = (← classOf b) then return ofBool true else return notImplemented,
  .placed "__setattr__" 2 2 fun r v a =>
    r.call (.ref (functionCell "object.__setattr__")) ⟨v :: a.positional, []⟩,
  .single "__delattr__" fun r v name =>
    r.call (.ref (functionCell "object.__delattr__")) ⟨[v, name], []⟩,
  .single "__getattribute__" fun r v name =>
    r.call (.ref (functionCell "object.__getattribute__")) ⟨[v, name], []⟩,
  .plain "__dir__" fun r v => r.call (.ref (functionCell "dir")) ⟨[v], []⟩]

def containerMethods : List Native := [
  .plain "__len__" fun _ v => do return ofNat ((← plainSize? (← unwrap v)).getD 0),
  .plain "__iter__" fun _ v => do plainIterator (← unwrap v),
  .single "__contains__" fun r v x => do
    let core ← unwrap v
    return ofBool (← plainContains r core core x),
  .single "__getitem__" fun r v key => do plainItem r v (← unwrap v) key]

def fillingMethod (key : String) : Native :=
  .free "__init__" fun r v a => do
    match (← unwrap v), maker? key with
    | .ref i, some make =>
      match (← cell? (← make r a)) with
      | some cell => setCell i cell
      | none => pure ()
    | _, _ => pure ()
    return nil

def storingMethods (key : String) : List Native := containerMethods ++ [
  fillingMethod key,
  .placed "__setitem__" 2 2 fun r v a => do
    setItem r (← unwrap v) a.at0 a.at1
    return nil,
  .single "__delitem__" fun r v x => do
    delItem r (← unwrap v) x
    return nil]

def augmentingMethod (name : String) (op : BinaryOperator) : Native :=
  .single name fun r v w => do
    discard (augmented r op (← unwrap v) w)
    return v

/-! ## Iterators and generators -/

def orStop : Step → Eval Value
  | .item v => return v
  | .stop v => raiseStop v

def iteratorMethods : List Native := [
  .plain "__iter__" fun _ v => return v,
  .plain "__next__" fun r v => do orStop (← r.advance v)]

def generatorCell : Value → Nat
  | .ref i => i
  | .scalar _ => 0

def thrownException (r : Interpreter) (a : Arguments) : Eval Value := do
  expects "throw" 1 3 a
  let refusal := "exceptions must be classes or instances deriving from BaseException, not " ++
    (← typeName a.at0)
  match (← cell? a.at0), a.positional[1]? with
  | some (.cls c), some value =>
    if !c.lineage.contains (classCell "BaseException") then typeError refusal
    if value = nil then exceptionOf r refusal a.at0
    else if (← isKnown value "BaseException") then return value
    else do
      let args ← match (← cell? value) with
        | some (.tuple xs) => pure xs
        | _ => pure [value]
      r.call a.at0 ⟨args, []⟩
  | some (.exception _), some value =>
    if value ≠ nil then typeError "instance exception may not have a separate value"
    return a.at0
  | _, _ => exceptionOf r refusal a.at0

def closeGenerator (r : Interpreter) (kind : String) (i : Nat) : Eval Value := do
  let exit ← newExceptionOf (classCell "GeneratorExit") [] []
  match (← attempt (r.resume i (.throw exit))) with
  | .ok (.stop _) => return nil
  | .ok (.item _) => raise "RuntimeError" (kind ++ " ignored GeneratorExit")
  | .error (.raised e) =>
    if (← isKnown e "GeneratorExit") || (← isKnown e "StopIteration") ||
        (← isKnown e "StopAsyncIteration") then return nil
    else throw (.raised e)
  | .error e => throw e

def generatorMethods : List Native := iteratorMethods ++ [
  .single "send" fun r v x => do orStop (← r.resume (generatorCell v) (.send x)),
  .free "throw" fun r v a => do
    let e ← thrownException r a
    orStop (← r.resume (generatorCell v) (.throw e)),
  .plain "close" fun r v => closeGenerator r "generator" (generatorCell v)]

def coroutineMethods : List Native := [
  .single "send" fun r v x => do orStop (← r.resume (generatorCell v) (.send x)),
  .free "throw" fun r v a => do
    let e ← thrownException r a
    orStop (← r.resume (generatorCell v) (.throw e)),
  .plain "close" fun r v => do
    match (← cell? v) with
    | some (.coroutine _ .done) => return nil
    | _ => closeGenerator r "coroutine" (generatorCell v)]

def asyncGeneratorMethods : List Native := [
  .plain "__aiter__" fun _ v => return v,
  .plain "__anext__" fun r v => asyncNext r v,
  .single "asend" fun _ v x =>
    alloc (.coroutine "async_generator_asend" (.resume (generatorCell v) (.send x))),
  .free "athrow" fun r v a => do
    let e ← thrownException r a
    alloc (.coroutine "async_generator_athrow" (.resume (generatorCell v) (.throw e))),
  .plain "aclose" fun r v => postponed "async_generator_athrow" do
    let result ← closeGenerator r "async generator" (generatorCell v)
    alloc (.coroutine "async_generator_athrow" (.sleep .zero result))]

/-! ## Classes and functions -/

def propertyMethod (name : String) (replace : Value → Value → Value → Value → Cell) : Native :=
  .single name fun _ v f => do
    match (← cell? v) with
    | some (.property getter setter deleter doc) =>
      let doc ← match name, (← cell? f) with
        | "getter", some (.function c) => pure (if doc = nil then c.doc else doc)
        | _, _ => pure doc
      alloc (match replace f getter setter deleter with
        | .property g s d _ => .property g s d doc
        | cell => cell)
    | _ => return nil

def propertyMethods : List Native := [
  propertyMethod "getter" fun f _ s d => .property f s d nil,
  propertyMethod "setter" fun f g _ d => .property g f d nil,
  propertyMethod "deleter" fun f g s _ => .property g s f nil]

def classMethods : List Native := [
  .plain "mro" fun _ v => do
    match (← cell? v) with
    | some (.cls c) => newList (c.lineage.map Value.ref)
    | _ => newList []]

/-! ## Tables -/

def iteratorClasses : List String := [
  "list_iterator", "tuple_iterator", "str_ascii_iterator", "str_iterator", "bytes_iterator",
  "dict_keyiterator", "dict_valueiterator", "dict_itemiterator", "set_iterator", "range_iterator",
  "list_reverseiterator", "callable_iterator", "iterator", "bytearray_iterator",
  "dict_reversekeyiterator", "dict_reversevalueiterator", "dict_reverseitemiterator",
  "longrange_iterator", "memory_iterator", "zip", "map", "filter", "enumerate", "reversed"]

def methodTables : List (String × List Native) := [
  ("str", textMethods ++ containerMethods ++ orderMethods ++
    operatorMethods ["add", "mul", "mod"] ["mul", "mod"]),
  ("bytes", bytesMethods ++ containerMethods ++ orderMethods ++
    operatorMethods ["add", "mul", "mod"] ["mul", "mod"]),
  ("bytearray", byteArrayMethods ++ bytesMethods ++ storingMethods "bytearray" ++ orderMethods ++
    operatorMethods ["add", "mul", "mod"] ["mul", "mod"]),
  ("memoryview", memoryMethods ++ containerMethods),
  ("int", intMethods ++ numberOperators ++ operatorMethods wholeStems wholeStems ++
    [unaryMethod "__invert__" .invert, convertingMethod "__index__" makeInt,
      convertingMethod "__floor__" makeInt, convertingMethod "__ceil__" makeInt]),
  ("float", floatMethods ++ numberOperators ++ operatorMethods arithmeticStems arithmeticStems),
  ("complex", complexMethods ++ operatorMethods arithmeticStems arithmeticStems),
  ("list", listMethods ++ storingMethods "list" ++ orderMethods ++
    operatorMethods ["add", "mul"] ["mul"] ++
    [augmentingMethod "__iadd__" .add, augmentingMethod "__imul__" .mult,
      .plain "__reversed__" fun r v => do makeReversed r ⟨[← unwrap v], []⟩]),
  ("tuple", tupleMethods ++ containerMethods ++ orderMethods ++ operatorMethods ["add", "mul"] ["mul"]),
  ("range", rangeMethods ++ containerMethods), ("slice", sliceMethods),
  ("dict", dictMethods ++ storingMethods "dict" ++ operatorMethods ["or"] ["or"] ++
    [augmentingMethod "__ior__" .bitOr]),
  ("OrderedDict", dictMethods),
  ("set", setMethods ++ containerMethods ++ [fillingMethod "set"] ++ orderMethods ++
    operatorMethods setStems setStems),
  ("frozenset", frozensetMethods "frozenset" ++ containerMethods ++ orderMethods ++
    operatorMethods setStems setStems),
  ("mappingproxy", mappingMethods ++ containerMethods),
  ("dict_keys", viewMethods ++ containerMethods), ("dict_items", viewMethods ++ containerMethods),
  ("dict_values", containerMethods),
  ("date", dateMethods), ("datetime", datetimeMethods), ("time", timeMethods),
  ("timedelta", timedeltaMethods), ("timezone", timezoneMethods), ("URL", urlMethods),
  ("QueryParams", parameterMethods), ("Headers", headerMethods), ("FormData", formMethods),
  ("Request", requestMethods), ("Response", responseMethods), ("PurePath", purePathMethods),
  ("Path", pathMethods), ("Event", eventMethods), ("coroutine", coroutineMethods),
  ("MacroCache", storeMethods), ("MacroEngine", engineMethods),
  ("generator", generatorMethods), ("async_generator", asyncGeneratorMethods),
  ("property", propertyMethods), ("type", classMethods),
  ("BaseExceptionGroup", groupMethods), ("BaseException", exceptionMethods),
  ("object", objectMethods)] ++ iteratorClasses.map fun n => (n, iteratorMethods)

def classFunctions : List (String × List Native) := [
  ("date", dateFunctions), ("datetime", datetimeFunctions), ("time", timeFunctions),
  ("Path", pathFunctions), ("dict", dictClassMethods), ("str", textClassMethods),
  ("bytes", bytesClassMethods fun b => return ofBytes b),
  ("bytearray", bytesClassMethods fun b => newKnown "bytearray" (.bytearray b)),
  ("int", intClassMethods), ("float", floatClassMethods),
  ("object", [.free "__init_subclass__" fun _ v a => do
    if !a.positional.isEmpty || !a.keyword.isEmpty then
      let name ← match (← cell? v) with
        | some (.cls c) => pure c.qualname
        | _ => typeName v
      typeError (name ++ ".__init_subclass__() takes no keyword arguments")
    return nil])]

def classKey? (cls : Nat) : Option String := (classTable[cls]?).map KnownClass.key

def findIn (tables : List (String × List Native)) (lineage : List Nat) (name : String) :
    Option (String × Native) :=
  lineage.findSome? fun cls => do
    let key ← classKey? cls
    let table ← tables.find? fun t => t.1 == key
    let native ← findNative table.2 name
    return (key, native)

def methodName (cls name : String) : String :=
  ((classTable.find? fun c => c.key == cls).map KnownClass.name).getD cls ++ "." ++ name

end Sandbox

end MacroExpand
