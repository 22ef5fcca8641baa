import MacroExpand.Sandbox.Attributes
import MacroExpand.Sandbox.Binding
import MacroExpand.Sandbox.Modules

/-!
# Calls

Calling a function runs its body in a new scope; calling a class makes an instance.
-/

set_option autoImplicit false

namespace MacroExpand

namespace Sandbox

/-! ## Functions of values and classes -/

def attributeName (v : Value) : Eval String := do
  match (← text? v) with
  | some t => return String.ofList t
  | none => typeError ("attribute name must be string, not '" ++ (← typeName v) ++ "'")

def answeredTest? (r : Interpreter) (method : String) (cls v : Value) : Eval (Option Bool) := do
  match (← cell? cls) with
  | some (.object ..) =>
    match (← callOwn? r cls method [v]) with
    | some x => return some (← truthy r x)
    | none => return none
  | _ => return none

/-- Whether a value, or a class, with a lineage passes a test for a class, for one of several in a
tuple or for one of a union.  The first class that it passes decides, and a class of the program may
answer for itself. -/
def passesTest (r : Interpreter) (method message : String) (v : Value) (lineage : List Nat) :
    Nat → Value → Eval Bool
  | 0, _ => typeError message
  | fuel + 1, test => do
      match (← answeredTest? r method test v), test with
      | some b, _ => return b
      | none, .scalar _ => typeError message
      | none, .ref i =>
        match (← cellAt i) with
        | .cls _ => return lineage.contains i
        | .tuple tests => tests.anyM (passesTest r method message v lineage fuel)
        | .union tests => tests.anyM fun m =>
            if m = nil then return lineage.contains (classCell "NoneType")
            else passesTest r method message v lineage fuel m
        | .parametrized .. =>
          typeError ((message.takeWhile (· != ' ')).toString ++
            " argument 2 cannot be a parameterized generic")
        | _ => typeError message

def isInstance (r : Interpreter) (v test : Value) : Eval Bool := do
  passesTest r "__instancecheck__" "isinstance() arg 2 must be a type, a tuple of types, or a union"
    v (← classData (← classOf v)).lineage 20 test

def attributeNames (v : Value) : Eval (List String) := do
  let sorted := fun (names : List String) => names.eraseDups.mergeSort fun a b => a ≤ b
  match (← cell? v) with
  | some (.module _ scope) => return sorted ((← scopeAt scope).bindings.map Prod.fst)
  | some cell =>
    let lineage ← match cell with
      | .cls c => pure c.lineage
      | _ => do pure (← classData (← classOf v)).lineage
    let fromClasses ← lineage.mapM fun cls => do
      let data ← classData cls
      let known := ((classKey? cls).bind fun key => methodTables.find? fun t => t.1 == key)
      return data.attributes.map Prod.fst ++ (known.map fun t => t.2.map Native.name).getD []
    return sorted ((instanceAttributes cell).map Prod.fst ++ fromClasses.flatten)
  | none =>
    let lineage := (← classData (← classOf v)).lineage
    let names := lineage.flatMap fun cls =>
      (((classKey? cls).bind fun key => methodTables.find? fun t => t.1 == key).map fun t =>
        t.2.map Native.name).getD []
    return sorted names

def ownDict (r : Interpreter) (v : Value) : Eval Value := do
  match (← getAttribute? r v "__dict__") with
  | some d => return d
  | none => typeError "vars() argument must have __dict__ attribute"

def attributeNatives : List Native := [
  .ofPlaces "getattr" 2 3 fun r a => do
    let name ← attributeName a.at1
    match a.positional[2]? with
    | none => getAttribute r a.at0 name
    | some other => return (← found r a.at0 name).getD other,
  .ofPlaces "hasattr" 2 2 fun r a => do
    return ofBool (← found r a.at0 (← attributeName a.at1)).isSome,
  .ofPlaces "setattr" 3 3 fun r a => do
    setAttribute r a.at0 (← attributeName a.at1) (a.positional.getD 2 nil)
    return nil,
  .ofPlaces "delattr" 2 2 fun r a => do
    delAttribute r a.at0 (← attributeName a.at1)
    return nil,
  .ofPlaces "object.__setattr__" 3 3 fun r a => do
    setPlainly r a.at0 (← attributeName a.at1) (a.positional.getD 2 nil)
    return nil,
  .ofPlaces "object.__delattr__" 2 2 fun r a => do
    dropPlainly r a.at0 (← attributeName a.at1)
    return nil,
  .ofPlaces "object.__getattribute__" 2 2 fun r a => do
    let name ← attributeName a.at1
    match (← plainAttribute? r a.at0 name) with
    | some x => return x
    | none => missingAttribute a.at0 name,
  .ofPlaces "isinstance" 2 2 fun r a => do
    return ofBool (← isInstance r a.at0 a.at1),
  .ofPlaces "issubclass" 2 2 fun r a => do
    let message := "issubclass() arg 2 must be a class, a tuple of classes, or a union"
    match (← answeredTest? r "__subclasscheck__" a.at1 a.at0), (← cell? a.at0) with
    | some b, _ => return ofBool b
    | none, some (.cls c) => do
        return ofBool (← passesTest r "__subclasscheck__" message a.at0 c.lineage 20 a.at1)
    | none, _ => typeError "issubclass() arg 1 must be a class",
  .ofPlaces "dir" 0 1 fun r a => do
    match (← callOwn? r a.at0 "__dir__" []) with
    | some names => do newList (← sortValues r {} (← iterate r names))
    | none => do newList ((← attributeNames a.at0).map ofString),
  .ofPlaces "vars" 0 1 fun r a => ownDict r a.at0,
  .unary "aiter" fun r v => do
    match (← attempt (asyncIteratorOf r v)) with
    | .ok iterator => return iterator
    | .error (.raised e) =>
      if (← isKnown e "TypeError") then
        typeError ("'" ++ (← typeName v) ++ "' object is not an async iterable")
      else throw (.raised e)
    | .error e => throw e,
  .ofPlaces "anext" 1 2 fun r a => do
    let next ← asyncNext r a.at0
    match a.positional[1]? with
    | none => return next
    | some other =>
      let result ← match (← asyncAdvance r a.at0) with
        | .item v => pure v
        | .stop _ => pure other
      alloc (.coroutine "anext" (.sleep .zero result)),
  .function "__build_class__" fun _ _ => typeError "__build_class__: not enough arguments",
  .ofPlaces "input" 0 1 fun r a => do
    match a.positional[0]? with
    | some v => do
        let t ← plainText r v
        modify fun m => { m with printed := t :: m.printed }
    | none => pure ()
    raise "EOFError" "EOF when reading a line",
  .plain "globals" fun _ _ => newDict [],
  .plain "locals" fun _ _ => newDict [],
  .function "__import__" fun r a => do
    match a.get? 0 "name" with
    | none =>
      typeError "ScopedImporter.__call__() missing 1 required positional argument: 'name'"
    | some v =>
      match (← text? v) with
      | some t => return (← importFull r (String.ofList t)).1
      | none => typeError ("argument of type '" ++ (← typeName v) ++ "' is not iterable"),
  .function "breakpoint" fun _ _ => return nil]
where
  found (r : Interpreter) (v : Value) (name : String) : Eval (Option Value) := do
    tryCatch (getAttribute? r v name) fun e => do
      match e with
      | .raised exc => if (← isKnown exc "AttributeError") then return none else throw e
      | e => throw e

def natives : List Native :=
  plainNatives ++ attributeNatives ++ documentNatives ++ placeNatives ++ numberNatives ++
    waitingNatives ++ moduleNatives ++ [
  .function "functools.reduce" fun r a => do
    expects "reduce" 2 3 a
    let items ← iterate r a.at1
    match a.positional[2]?, items with
    | some start, items => fold r a.at0 start items
    | none, first :: rest => fold r a.at0 first rest
    | none, [] => typeError "reduce() of empty iterable with no initial value",
  .unary "textwrap.dedent" fun _ v => do
    let lines := List.splitOn '\n' (← selfText v)
    let filled := lines.filter fun l => !l.all isBlank
    let margin := (filled.map fun l => (l.takeWhile fun c => c == ' ' || c == '\t').length).min?
    return ofText (Text.joinWith ['\n'] (lines.map fun l =>
      if l.all isBlank then [] else l.drop (margin.getD 0)))]
where
  fold (r : Interpreter) (f total : Value) : List Value → Eval Value
    | [] => return total
    | v :: rest => do fold r f (← r.call f ⟨[total, v], []⟩) rest

/-! ## Classes -/

/-- The lineages and the list of bases merged into one order: a class stands behind all classes that
descend from it, and bases keep their order. -/
def mergeLineages : Nat → List (List Nat) → Option (List Nat)
  | 0, _ => none
  | fuel + 1, lists =>
    let lists := lists.filter (!·.isEmpty)
    if lists.isEmpty then some []
    else
      let free := fun (cls : Nat) => lists.all fun l => !l.tail.contains cls
      match (lists.filterMap List.head?).find? free with
      | none => none
      | some cls =>
        (mergeLineages fuel (lists.map fun l => if l.head? = some cls then l.tail else l)).map
          (cls :: ·)

def boundOtherwise (attributes : List (String × Value)) : Eval (List (String × Value)) :=
  attributes.mapM fun (name, v) => do
    let wrapped := fun (key : String) => do
      match (← cell? v) with
      | some (.function _) => return (name, ← alloc (.descriptor key v))
      | _ => return (name, v)
    match name with
    | "__new__" => wrapped "staticmethod"
    | "__init_subclass__" | "__class_getitem__" => wrapped "classmethod"
    | _ => return (name, v)

def finalClasses : List String := [
  "bool", "NoneType", "ellipsis", "NotImplementedType", "function", "builtin_function_or_method",
  "method", "generator", "coroutine", "async_generator", "range", "slice", "memoryview",
  "mappingproxy", "dict_keys", "dict_values", "dict_items", "timezone"]

/-- Why classes cannot be bases of one class together: the built-in values they extend differ. -/
def layoutOf (lineage : List Nat) : Option Nat :=
  lineage.find? fun cls =>
    (["int", "float", "complex", "str", "bytes", "bytearray", "list", "tuple", "dict", "set",
      "frozenset", "BaseException", "type"].map classCell).contains cls

def newClass (r : Interpreter) (name qualname module : String) (bases : List Nat)
    (attributes : List (String × Value)) (options : List (String × Value)) : Eval Value := do
  let bases := if bases.isEmpty then [classCell "object"] else bases
  for b in bases do
    if (finalClasses.map classCell).contains b then
      typeError ("type '" ++ (← classData b).shownName ++ "' is not an acceptable base type")
  if bases.eraseDups.length < bases.length then
    match bases.find? fun b => 1 < bases.count b with
    | some b => typeError ("duplicate base class " ++ (← classData b).name)
    | none => pure ()
  let lineages ← bases.mapM fun b => do return (← classData b).lineage
  if 1 < (lineages.filterMap layoutOf).eraseDups.length then
    typeError "multiple bases have instance lay-out conflict"
  let own := (← get).heap.size
  match mergeLineages ((lineages.map List.length).sum + bases.length + 1) (lineages ++ [bases]) with
  | none =>
    let names ← bases.mapM fun b => do return (← classData b).name
    typeError ("Cannot create a consistent method resolution\norder (MRO) for bases " ++
      ", ".intercalate names)
  | some rest =>
    let cls ← alloc (.cls {
      name, qualname, module, lineage := own :: rest, bases, attributes := [], own := true })
    let attributes ← boundOtherwise attributes
    setCell own (.cls {
      name, qualname, module, lineage := own :: rest, bases, attributes, own := true })
    for (n, v) in attributes do
      match (← cell? v) with
      | some (.object c _ _) =>
        match (← ownAttribute? c "__set_name__") with
        | some f => discard (r.call f ⟨[v, cls, ofString n], []⟩)
        | none => pure ()
      | _ => pure ()
    match (← findAttribute "__init_subclass__" rest) with
    | some f =>
      let f := match (← cell? f) with
        | some (.descriptor _ g) => g
        | _ => f
      discard (r.call f ⟨[cls], options⟩)
    | none =>
      if !options.isEmpty then
        typeError (qualname ++ ".__init_subclass__() takes no keyword arguments")
    return cls

def isFilledFirst (key : String) : Bool := !(["list", "dict", "set", "bytearray"].contains key)

def knownBase? (c : ClassData) : Option String :=
  (c.lineage.findSome? classKey?).bind fun key => if key == "object" then none else some key

def rawInstance (r : Interpreter) (cls : Nat) (c : ClassData) (a : Arguments) : Eval Value := do
  if c.lineage.contains (classCell "BaseException") then
    if c.lineage.contains (classCell "BaseExceptionGroup") then discard (checkGroup c a.positional)
    alloc (.exception { cls, args := a.positional })
  else
    match knownBase? c with
    | none => alloc (.object cls [] none)
    | some key =>
      let prepared := (← findAttribute "__init__" c.lineage).isSome
      let given := if isFilledFirst key || !prepared then a else {}
      let base ← match maker? key with
        | some make => make r given
        | none => alloc (.object (classCell key) [] none)
      alloc (.object cls [] (some base))

def prepareInstance (r : Interpreter) (c : ClassData) (v : Value) (a : Arguments) : Eval Bool := do
  match (← findAttribute "__init__" c.lineage) with
  | none => return false
  | some f =>
    let result ← r.call f { a with positional := v :: a.positional }
    if result ≠ nil then
      typeError ("__init__() should return None, not '" ++ (← typeName result) ++ "'")
    return true

def newInstance (r : Interpreter) (cls : Nat) (c : ClassData) (a : Arguments) : Eval Value := do
  match (← findAttribute "__new__" c.lineage) with
  | some f =>
    let v ← r.call f { a with positional := .ref cls :: a.positional }
    if (← descends (← classOf v) cls) then discard (prepareInstance r (← classData (← classOf v)) v a)
    return v
  | none =>
    let v ← rawInstance r cls c a
    if !(← prepareInstance r c v a) then
      if c.lineage.contains (classCell "BaseException") then
        discard (exceptionMethods.head?.mapM fun n => n.run r v a)
      else if (knownBase? c).isNone && !(a.positional.isEmpty && a.keyword.isEmpty) then
        typeError (c.name ++ "() takes no arguments")
    return v

def callType (r : Interpreter) (a : Arguments) : Eval Value := do
  match a.positional with
  | [v] =>
    if !a.keyword.isEmpty then typeError "type() takes 1 or 3 arguments"
    return .ref (← classOf v)
  | [name, bases, attributes] =>
    let named ← match (← text? name) with
      | some t => pure (String.ofList t)
      | none => badArgument "type.__new__() argument 1" "str" name
    let items ← match (← core? bases) with
      | some (.tuple xs) => pure xs
      | _ => badArgument "type.__new__() argument 2" "tuple" bases
    let entries ← match (← core? attributes) with
      | some (.dict es) => pure es
      | _ => badArgument "type.__new__() argument 3" "dict" attributes
    let cells ← items.mapM fun b => do
      match b, (← cell? b) with
      | .ref i, some (.cls _) => return i
      | _, _ => typeError "bases must be types"
    let bindings ← entries.mapM fun (k, v) => do
      return (String.ofList ((← text? k).getD []), v)
    newClass r named named "__macro__" cells bindings a.keyword
  | _ => typeError "type() takes 1 or 3 arguments"

def callSuper (a : Arguments) : Eval Value := do
  if !a.keyword.isEmpty then typeError "super() takes no keyword arguments"
  if 2 < a.positional.length then
    typeError ("super() expected at most 2 arguments, got " ++ toString a.positional.length)
  match a.positional with
  | [] => raise "RuntimeError" "super(): no arguments"
  | cls :: rest =>
    match cls, (← cell? cls) with
    | .ref start, some (.cls _) =>
      match rest with
      | [] => alloc (.superView start nil)
      | self :: _ =>
        let isInstance ← descends (← classOf self) start
        let isClass ← match (← cell? self) with
          | some (.cls c) => pure (c.lineage.contains start)
          | _ => pure false
        if !(isInstance || isClass) then
          typeError "super(type, obj): obj must be an instance or subtype of type"
        alloc (.superView start self)
    | _, _ => badArgument "super() argument 1" "a type" cls

def instantiate (r : Interpreter) (cls : Nat) (c : ClassData) (a : Arguments) : Eval Value := do
  if c.own then newInstance r cls c a
  else if c.lineage.contains (classCell "BaseException") then newException r cls c a
  else if cls = classCell "type" then callType r a
  else if cls = classCell "super" then callSuper a
  else if cls = classCell "function" then
    match a.positional with
    | [] => typeError "function() missing required argument 'code' (pos 1)"
    | v :: _ => typeError ("function() argument 'code' must be code, not " ++ (← typeName v))
  else if ["NoneType", "ellipsis", "NotImplementedType"].contains c.name then
    if !a.positional.isEmpty || !a.keyword.isEmpty then
      typeError (c.name ++ " takes no arguments")
    return match c.name with
      | "NoneType" => nil
      | "ellipsis" => .scalar .ellipsis
      | _ => notImplemented
  else
    match (classKey? cls).bind maker? with
    | some make => make r a
    | none => typeError ("cannot create '" ++ c.shownName ++ "' instances")

def callNew (r : Interpreter) (a : Arguments) : Eval Value := do
  match a.positional with
  | [] => typeError "object.__new__(): not enough arguments"
  | cls :: rest =>
    match cls, (← cell? cls) with
    | .ref i, some (.cls c) =>
      let given := { a with positional := rest }
      if c.own then
        if (knownBase? c).isNone && !(rest.isEmpty && a.keyword.isEmpty) &&
            (← findAttribute "__new__" c.lineage).isSome then
          typeError "object.__new__() takes exactly one argument (the type to instantiate)"
        rawInstance r i c given
      else instantiate r i c given
    | _, _ =>
      typeError ("object.__new__(X): X is not a type object (" ++ (← typeName cls) ++ ")")

/-! ## Functions of the program -/

def callClosure (r : Interpreter) (f : Closure) (a : Arguments) : Eval Value := do
  let signature := Signature.ofTree f.parameters
  match signature.bind f.defaults f.keywordDefaults a with
  | .error fault => typeError (fault.message f.qualname)
  | .ok bound =>
    let rest ← match signature.rest with
      | some name => do pure [(name, ← newTuple bound.rest)]
      | none => pure []
    let keywords ← match signature.keywords with
      | some name => do
          pure [(name, ← newDict (bound.keywords.map fun (k, v) => (ofString k, v)))]
      | none => pure []
    let scope ← alloc (.scope {
      bindings := bound.single ++ rest ++ keywords, names := f.names, parent := some f.scope
      places := (f.parameters.slot 0 ++ f.parameters.slot 1).length })
    match scope with
    | .scalar _ => return nil
    | .ref i =>
      if f.isGenerator then alloc (.generator f i .fresh)
      else if f.isAsync then alloc (.coroutine f.qualname (.call f i))
      else runBody r f i

def callUnbound (r : Interpreter) (cls name : String) (a : Arguments) : Eval Value := do
  let full := methodName cls name
  let shown := (← classData (classCell cls)).shownName
  let isOperator := name.startsWith "__"
  match a.positional with
  | [] =>
    if isOperator then
      typeError ("descriptor '" ++ name ++ "' of '" ++ shown ++ "' object needs an argument")
    typeError ("unbound method " ++ full ++ "() needs an argument")
  | self :: rest =>
    if !(← isKnown self cls) then
      if isOperator then
        typeError ("descriptor '" ++ name ++ "' requires a '" ++ shown ++
          "' object but received a '" ++ (← typeName self) ++ "'")
      typeError ("descriptor '" ++ name ++ "' for '" ++ shown ++
        "' objects doesn't apply to a '" ++ (← typeName self) ++ "' object")
    match findIn methodTables [classCell cls] name with
    | some (_, n) => n.call full r self { a with positional := rest }
    | none => return nil

def callStep (r : Interpreter) (v : Value) (a : Arguments) : Eval Value := do
  match v with
  | .scalar _ => refuse
  | .ref i =>
    match (← cellAt i) with
    | .function f => callClosure r f a
    | .method self f => r.call f { a with positional := self :: a.positional }
    | .native "object.__new__" => callNew r a
    | .native name =>
      match findNative natives name with
      | some n => n.call name r nil a
      | none => raise "NotImplementedError" (name ++ "() is not available")
    | .nativeMethod self cls name =>
      let tables := methodTables ++ classFunctions
      let native := (tables.filter fun t => t.1 == cls).findSome? fun t => findNative t.2 name
      match native with
      | some n => n.call (methodName cls name) r self a
      | none => return nil
    | .unbound cls name => callUnbound r cls name a
    | .cls c => instantiate r i c a
    | .object .. =>
      match (← ownAttribute? (← classOf v) "__call__") with
      | some f => r.call f { a with positional := v :: a.positional }
      | none => refuse
    | .descriptor "staticmethod" f => r.call f a
    | .parametrized origin _ => r.call origin a
    | _ => refuse
where
  refuse : Eval Value := do typeError ("'" ++ (← typeName v) ++ "' object is not callable")

end Sandbox

end MacroExpand
