import MacroExpand.Sandbox.MethodTables
import MacroExpand.Syntax.Private

/-!
# Attributes

An attribute of a value is looked for in the value itself and then in the classes of its lineage.
A function found in a class becomes a method of the value, and an attribute that is computed is
computed for the value.
-/

set_option autoImplicit false

namespace MacroExpand

namespace Sandbox

/-! ## Attributes of classes -/

/-- How an attribute of a class acts on instances. -/
inductive Binding where
  /-- It is a value. -/
  | value
  /-- It becomes a method. -/
  | method
  /-- It is the function inside. -/
  | inner (function : Value)
  /-- It becomes a method of the class. -/
  | ofClass (function : Value)
  | property (getter setter deleter : Value)
  /-- An object of the program that answers for the attribute; `isData` if it also takes it. -/
  | descriptor (getter : Option Value) (isData : Bool)

def bindingOf (found : Value) : Eval Binding := do
  match (← cell? found) with
  | some (.function _) => return .method
  | some (.descriptor "staticmethod" f) => return .inner f
  | some (.descriptor "classmethod" f) => return .ofClass f
  | some (.property g s d _) => return .property g s d
  | some (.object cls _ _) =>
    let getter ← ownAttribute? cls "__get__"
    let setter ← ownAttribute? cls "__set__"
    let deleter ← ownAttribute? cls "__delete__"
    if getter.isNone && setter.isNone && deleter.isNone then return .value
    return .descriptor getter (setter.isSome || deleter.isSome)
  | _ => return .value

def Binding.isFirst : Binding → Bool
  | .property .. => true
  | .descriptor _ isData => isData
  | _ => false

def bindMethod (r : Interpreter) (self owner found : Value) (name : String) : Eval Value := do
  match (← bindingOf found) with
  | .value => return found
  | .method => alloc (.method self found)
  | .inner f => return f
  | .ofClass f => alloc (.method owner f)
  | .property getter _ _ =>
    if getter = nil then
      raise "AttributeError" ("property '" ++ name ++ "' of '" ++
        (← classData (← classOf self)).qualname ++ "' object has no getter")
    r.call getter ⟨[self], []⟩
  | .descriptor (some f) _ => r.call f ⟨[found, self, owner], []⟩
  | .descriptor none _ => return found

def bindInClass (r : Interpreter) (cls found : Value) : Eval Value := do
  match (← bindingOf found) with
  | .inner f => return f
  | .ofClass f => alloc (.method cls f)
  | .descriptor (some f) _ => r.call f ⟨[found, nil, cls], []⟩
  | _ => return found

def slotsOf (r : Interpreter) (lineage : List Nat) : Eval (Option (List String)) := do
  let own ← lineage.filterM fun cls => do return (← classData cls).own
  let limits ← own.mapM fun cls => do
    let data ← classData cls
    return (data.name, lookup data.attributes "__slots__")
  if own.isEmpty || limits.any fun limit => limit.2.isNone then return none
  let names ← limits.mapM fun (owner, limit) => do
    let names ← match limit with
      | some (.scalar (.str t)) => pure [String.ofList t]
      | some v => (← iterate r v).mapM fun n => do return String.ofList ((← text? n).getD [])
      | none => pure []
    return names.map (Private.inside (some owner))
  return some names.flatten

/-! ## Parts of built-in values -/

def builtInPart? (v : Value) (name : String) : Eval (Option Value) := do
  let run := fun (o : Option (Eval Value)) => match o with
    | some action => do return some (← action)
    | none => return none
  let among := fun (parts : List (String × Value)) => return lookup parts name
  match (← unwrap v) with
  | .scalar s => return numberPart? s name
  | .ref i =>
    match (← cellAt i) with
    | .known cls (.path p) => run (pathPart? cls p name)
    | .known _ (.url u) => run (urlPart? u name)
    | .known _ (.uuid u) => among [("hex", ofText (u.text.filter (· != '-')))]
    | .known _ (.fraction num den) => among [("numerator", ofInt num), ("denominator", ofNat den)]
    | .known _ (.memoryview b w) =>
      among [("nbytes", ofNat b.length), ("itemsize", ofNat 1), ("format", ofString "B"),
        ("ndim", ofNat 1), ("readonly", ofBool (!w))]
    | .known _ s =>
      match momentPart? s name with
      | some action => return some (← action)
      | none => run (messagePart? s name)
    | .slice a b c => among [("start", a), ("stop", b), ("step", c)]
    | .range a b c => among [("start", ofInt a), ("stop", ofInt b), ("step", ofInt c)]
    | .view _ d => among [("mapping", .ref d)]
    | .exception e => exceptionPart? e name
    | .property g s d doc => among [("fget", g), ("fset", s), ("fdel", d), ("__doc__", doc)]
    | .descriptor _ f => among [("__func__", f), ("__wrapped__", f)]
    | .parametrized origin args =>
      match name with
      | "__origin__" => return some origin
      | "__args__" => return some (← newTuple args)
      | _ => return none
    | .union members =>
      if name == "__args__" then return some (← newTuple members) else return none
    | .superView cls self => among [("__thisclass__", .ref cls), ("__self__", self)]
    | _ => return none

def functionPart? (f : Closure) (name : String) : Eval (Option Value) := do
  match lookup f.attributes name with
  | some v => return some v
  | none =>
    match name with
    | "__name__" => return some (ofString f.name)
    | "__qualname__" => return some (ofString f.qualname)
    | "__module__" => return some (ofString f.module)
    | "__doc__" => return some f.doc
    | "__annotations__" => return some f.annotations
    | "__defaults__" =>
      if f.defaults.isEmpty then return some nil else return some (← newTuple f.defaults)
    | "__kwdefaults__" =>
      if f.keywordDefaults.isEmpty then return some nil
      else return some (← newDict (f.keywordDefaults.map fun (k, v) => (ofString k, v)))
    | "__dict__" => return some (← newDict (f.attributes.map fun (k, v) => (ofString k, v)))
    | _ => return none

def scopeDict (i : Nat) : Eval Value := do
  let bindings := (← scopeAt i).bindings.filter fun b => !b.1.startsWith "."
  newDict (bindings.map fun (k, v) => (ofString k, v))

def lastPart (name : String) : String :=
  String.ofList (name.toList.reverse.takeWhile (· != '.')).reverse

def callablePart (full : String) (self : Value) (name : String) : Option Value :=
  match name with
  | "__name__" => some (ofString (lastPart full))
  | "__qualname__" => some (ofString full)
  | "__self__" => some self
  | "__doc__" => some nil
  | "__module__" => some (if self = nil then ofString "builtins" else nil)
  | _ => none

/-! ## Reading -/

def tableAttribute? (v : Value) (lineage : List Nat) (name : String) : Eval (Option Value) := do
  if name == "__new__" then return some (.ref (functionCell "object.__new__"))
  let constant := lineage.findSome? fun cls => do momentConstant? (← classKey? cls) name
  match constant, findIn classFunctions lineage name, findIn methodTables lineage name with
  | some action, _, _ => return some (← action)
  | none, some (key, _), _ => return some (← alloc (.nativeMethod v key name))
  | none, none, some (key, _) => return some (← alloc (.unbound key name))
  | none, none, none => return none

def classAttribute? (r : Interpreter) (v : Value) (c : ClassData) (name : String) :
    Eval (Option Value) := do
  match (← findAttribute name c.lineage) with
  | some found => return some (← bindInClass r v found)
  | none =>
    match name with
    | "__name__" => return some (ofString c.name)
    | "__qualname__" => return some (ofString c.qualname)
    | "__module__" => return some (ofString c.module)
    | "__doc__" => return some nil
    | "__mro__" => return some (← newTuple (c.lineage.map Value.ref))
    | "__bases__" => return some (← newTuple (c.bases.map Value.ref))
    | "__base__" => return some ((c.bases.head?.map Value.ref).getD nil)
    | "__dict__" => return some (← newDict (c.attributes.map fun (k, x) => (ofString k, x)))
    | "__annotations__" => if c.own then return some (← newDict []) else return none
    | name =>
      match (← tableAttribute? v c.lineage name), findIn methodTables [classCell "type"] name with
      | some x, _ => return some x
      | none, some (key, _) => return some (← alloc (.nativeMethod v key name))
      | none, none => return none

def inheritedAttribute? (r : Interpreter) (v : Value) (lineage : List Nat) (name : String) :
    Eval (Option Value) := do
  match (← findAttribute name lineage) with
  | some found => return some (← bindMethod r v (.ref (← classOf v)) found name)
  | none =>
    match (← builtInPart? v name), findIn methodTables lineage name with
    | some x, _ => return some x
    | none, some (key, _) => return some (← alloc (.nativeMethod v key name))
    | none, none =>
      match name with
      | "__module__" => return some (ofString (← classData (lineage.headD 0)).module)
      | "__doc__" => return some nil
      | name =>
        let owner := Value.ref (lineage.headD 0)
        match (← tableAttribute? owner lineage name) with
        | some x => return some x
        | none => return none

def lineageBehind (start : Nat) (self : Value) : Eval (List Nat × Bool) := do
  let behind := fun (lineage : List Nat) => (lineage.dropWhile (· ≠ start)).drop 1
  match (← cell? self) with
  | some (.cls c) =>
    if c.lineage.contains start then return (behind c.lineage, true)
    else return (behind (← classData (classCell "type")).lineage, false)
  | _ => return (behind (← classData (← classOf self)).lineage, false)

def instanceAttributes : Cell → List (String × Value)
  | .object _ attributes _ => attributes
  | .exception e => e.attributes
  | .function f => f.attributes
  | _ => []

def plainAttribute? (r : Interpreter) (v : Value) (name : String) : Eval (Option Value) := do
  let cls ← classOf v
  let lineage := (← classData cls).lineage
  let inherited := inheritedAttribute? r v lineage name
  if name == "__class__" then return some (.ref cls)
  match v with
  | .scalar _ => inherited
  | .ref i =>
    match (← cellAt i) with
    | .cls c => classAttribute? r v c name
    | .module moduleName scope =>
      let bindings := (← scopeAt scope).bindings
      match lookup bindings name, lookup bindings "__getattr__" with
      | some x, _ => return some x
      | none, getter =>
        match name, getter with
        | "__name__", _ => return some (ofString moduleName)
        | "__dict__", _ => return some (← scopeDict scope)
        | "__doc__", _ => return some nil
        | name, some f => return some (← r.call f ⟨[ofString name], []⟩)
        | _, none => return none
    | .function f =>
      match (← functionPart? f name) with
      | some x => return some x
      | none => inherited
    | .method self f =>
      match name with
      | "__self__" => return some self
      | "__func__" => return some f
      | _ =>
        match (← cell? f) with
        | some (.function c) => functionPart? c name
        | _ => return none
    | .native key =>
      match callablePart (nativeName key) nil name with
      | some x => return some x
      | none => inherited
    | .nativeMethod self owner method =>
      match callablePart (methodName owner method) self name with
      | some x => return some x
      | none => inherited
    | .unbound owner method =>
      match name with
      | "__self__" => return none
      | "__objclass__" => return some (classValue owner)
      | name =>
        match callablePart (methodName owner method) nil name with
        | some x => return some x
        | none => inherited
    | .generator f _ _ =>
      match name with
      | "__name__" => return some (ofString f.name)
      | "__qualname__" => return some (ofString f.qualname)
      | _ => inherited
    | .coroutine qualname _ =>
      match name with
      | "__name__" => return some (ofString (lastPart qualname))
      | "__qualname__" => return some (ofString qualname)
      | _ => inherited
    | .parametrized origin _ =>
      match (← inherited) with
      | some x => return some x
      | none =>
        match (← cell? origin) with
        | some (.cls c) => classAttribute? r origin c name
        | _ => return none
    | .superView start self =>
      let (behind, isClass) ← lineageBehind start self
      if !isClass then inheritedAttribute? r self behind name
      else
        match (← findAttribute name behind) with
        | some found => return some (← bindInClass r self found)
        | none => tableAttribute? self behind name
    | cell =>
      let fromClass ← findAttribute name lineage
      let isFirst ← match fromClass with
        | some found => do pure (← bindingOf found).isFirst
        | none => pure false
      match lookup (instanceAttributes cell) name, isFirst with
      | some x, false => return some x
      | _, _ =>
        match cell, name, fromClass with
        | .object cls attributes _, "__dict__", none =>
          if cls = classCell "object" || (← slotsOf r lineage).isSome then return none
          return some (← newDict (attributes.map fun (k, x) => (ofString k, x)))
        | .exception e, "__dict__", none =>
          return some (← newDict (e.attributes.map fun (k, x) => (ofString k, x)))
        | _, _, some found =>
          let slots ← slotsOf r lineage
          if slots.any (·.contains name) then return none
          return some (← bindMethod r v (.ref cls) found name)
        | _, _, none => inherited

def getAttribute? (r : Interpreter) (v : Value) (name : String) : Eval (Option Value) := do
  let cls ← classOf v
  let look := do
    match (← ownAttribute? cls "__getattribute__") with
    | some f => do return some (← r.call f ⟨[v, ofString name], []⟩)
    | none => plainAttribute? r v name
  match (← ownAttribute? cls "__getattr__") with
  | none => look
  | some f =>
    let last := do return some (← r.call f ⟨[v, ofString name], []⟩)
    match (← attempt look) with
    | .ok (some x) => return some x
    | .ok none => last
    | .error (.raised e) => if (← isKnown e "AttributeError") then last else throw (.raised e)
    | .error e => throw e

def missingAttribute {α : Type} (v : Value) (name : String) : Eval α := do
  let message ← match (← cell? v) with
    | some (.cls c) => pure ("type object '" ++ c.shownName ++ "' has no attribute '" ++ name ++ "'")
    | some (.module moduleName _) =>
      pure ("module '" ++ moduleName ++ "' has no attribute '" ++ name ++ "'")
    | some (.parametrized origin _) =>
      match (← cell? origin) with
      | some (.cls c) => pure ("type object '" ++ c.shownName ++ "' has no attribute '" ++ name ++ "'")
      | _ => pure ""
    | _ => do pure ("'" ++ (← typeName v) ++ "' object has no attribute '" ++ name ++ "'")
  throw (.raised (← newExceptionOf (classCell "AttributeError") [ofString message]
    [("name", ofString name), ("obj", v)]))

def getAttribute (r : Interpreter) (v : Value) (name : String) : Eval Value := do
  match (← getAttribute? r v name) with
  | some x => return x
  | none => missingAttribute v name

/-! ## Changing -/

def withAttributes (f : List (String × Value) → List (String × Value)) : Cell → Option Cell
  | .object cls attributes base =>
    if (classKey? cls).isSome then none else some (.object cls (f attributes) base)
  | .exception e => some (.exception { e with attributes := f e.attributes })
  | .function c => some (.function { c with attributes := f c.attributes })
  | .cls c => if c.own then some (.cls { c with attributes := f c.attributes }) else none
  | _ => none

def fixedAttribute {α : Type} (r : Interpreter) (v : Value) (name : String) : Eval α := do
  match (← cell? v), (← unwrap v) with
  | some (.cls c), _ =>
    typeError ("cannot set '" ++ name ++ "' attribute of immutable type '" ++ c.shownName ++ "'")
  | some (.range ..), _ | some (.slice ..), _ =>
    if ["start", "stop", "step"].contains name then raise "AttributeError" "readonly attribute"
    noAttribute v name
  | _, .scalar (.complex ..) =>
    if ["real", "imag"].contains name then raise "AttributeError" "readonly attribute"
    noAttribute v name
  | _, _ =>
    match (← builtInPart? v name), (← plainAttribute? r v name) with
    | some _, _ =>
      raise "AttributeError" ("attribute '" ++ name ++ "' of '" ++ (← typeName v) ++
        "' objects is not writable")
    | none, some _ =>
      raise "AttributeError" ("'" ++ (← typeName v) ++ "' object attribute '" ++ name ++
        "' is read-only")
    | none, none => noAttribute v name

def setFunctionPart (f : Closure) (name : String) (x : Value) : Eval (Option Closure) := do
  let text := fun (change : String → Closure) => do
    match (← text? x) with
    | some t => return some (change (String.ofList t))
    | none => typeError (name ++ " must be set to a string object")
  match name with
  | "__name__" => text fun n => { f with name := n }
  | "__qualname__" => text fun n => { f with qualname := n }
  | "__doc__" => return some { f with doc := x }
  | _ => return none

def setPlainly (r : Interpreter) (v : Value) (name : String) (x : Value) : Eval Unit := do
  match v with
  | .scalar _ => fixedAttribute r v name
  | .ref i =>
    let cell ← cellAt i
    match cell with
    | .module _ scope => bindIn scope name x
    | cell =>
      let lineage := (← classData (← classOf v)).lineage
      let found ← match cell with
        | .cls _ => pure none
        | _ => findAttribute name lineage
      let binding ← match found with
        | some w => bindingOf w
        | none => pure .value
      match binding, found with
      | .property _ setter _, _ =>
        if setter = nil then
          raise "AttributeError" ("property '" ++ name ++ "' of '" ++
            (← classData (← classOf v)).qualname ++ "' object has no setter")
        discard (r.call setter ⟨[v, x], []⟩)
      | .descriptor _ true, some w =>
        match (← callOwn? r w "__set__" [v, x]) with
        | some _ => return ()
        | none => raise "AttributeError" "__set__"
      | _, _ =>
        match cell with
        | .exception _ => if (← setExceptionPart r v name x) then return ()
        | .function f =>
          if let some changed ← setFunctionPart f name x then
            setCell i (.function changed)
            return ()
        | .object .. =>
          match (← slotsOf r lineage) with
          | some slots => if !slots.contains name then noAttribute v name
          | none => pure ()
        | .cls c =>
          if c.own && (name == "__name__" || name == "__qualname__") then
            let t := String.ofList ((← text? x).getD [])
            setCell i (.cls (if name == "__name__" then { c with name := t }
              else { c with qualname := t }))
            return ()
        | _ => pure ()
        match (← cellAt i) with
        | cell =>
          match withAttributes (fun attributes => bind attributes name x) cell with
          | some changed => setCell i changed
          | none => fixedAttribute r v name

def setAttribute (r : Interpreter) (v : Value) (name : String) (x : Value) : Eval Unit := do
  match (← callOwn? r v "__setattr__" [ofString name, x]) with
  | some _ => return ()
  | none => setPlainly r v name x

def dropPlainly (r : Interpreter) (v : Value) (name : String) : Eval Unit := do
  let without := fun (attributes : List (String × Value)) => attributes.filter fun b => b.1 != name
  match v with
  | .scalar _ => fixedAttribute r v name
  | .ref i =>
    match (← cellAt i) with
    | .module _ scope =>
      let s ← scopeAt scope
      if (lookup s.bindings name).isNone then missingAttribute v name
      setCell scope (.scope { s with bindings := without s.bindings })
    | cell =>
      let found ← match cell with
        | .cls _ => pure none
        | _ => ownAttribute? (← classOf v) name
      let binding ← match found with
        | some w => bindingOf w
        | none => pure .value
      match binding, found with
      | .property _ _ deleter, _ =>
        if deleter = nil then
          raise "AttributeError" ("property '" ++ name ++ "' of '" ++
            (← classData (← classOf v)).qualname ++ "' object has no deleter")
        discard (r.call deleter ⟨[v], []⟩)
      | .descriptor _ true, some w =>
        match (← callOwn? r w "__delete__" [v]) with
        | some _ => return ()
        | none => raise "AttributeError" "__delete__"
      | _, _ =>
        let present := match cell with
          | .cls c => (lookup c.attributes name).isSome
          | cell => (lookup (instanceAttributes cell) name).isSome
        match withAttributes without cell, cell with
        | some changed, .cls _ =>
          if present then setCell i changed
          else
            let c ← classData i
            raise "AttributeError" ("type object '" ++ c.shownName ++
              "' has no attribute '" ++ name ++ "'")
        | some changed, _ => if present then setCell i changed else missingAttribute v name
        | none, _ => fixedAttribute r v name

def delAttribute (r : Interpreter) (v : Value) (name : String) : Eval Unit := do
  match (← callOwn? r v "__delattr__" [ofString name]) with
  | some _ => return ()
  | none => dropPlainly r v name

end Sandbox

end MacroExpand
