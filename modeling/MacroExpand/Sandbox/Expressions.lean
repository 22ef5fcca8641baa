import MacroExpand.Sandbox.Names
import MacroExpand.Syntax.Suspension

/-!
# Evaluating expressions
-/

set_option autoImplicit false

namespace MacroExpand

namespace Sandbox

/-! ## Functions and comprehensions -/

def docOf (body : List Tree) : Value :=
  match body with
  | [] => nil
  | t :: _ =>
    match t.kind, (t.part 0).kind with
    | .exprStmt, .constant s _ => if s.points?.isSome then .scalar s else nil
    | _, _ => nil

def moduleName (f : Frame) : Eval String := do
  match lookup (← scopeAt f.globals).bindings "__name__" with
  | some (.scalar (.str t)) => return String.ofList t
  | _ => return "builtins"

def defaultsOf (r : Interpreter) (f : Frame) (parameters : Tree) :
    Eval (List Value × List (String × Value)) := do
  let defaults ← (parameters.slot 6).mapM (r.eval f)
  let named ← ((Signature.namesIn parameters 3).zip (parameters.slot 4)).filterMapM fun (n, t) => do
    if t.isAbsent then return none else return some (n, ← r.eval f t)
  return (defaults, named)

def annotationsOf (r : Interpreter) (f : Frame) (parameters : Tree) (result : List Tree) :
    Eval Value := do
  let annotation := fun (t : Tree) => do
    match t.kind with
    | .starred _ =>
      match (← iterate r (← r.eval f (t.part 0))) with
      | [x] => return x
      | [] => valueError "not enough values to unpack (expected 1, got 0)"
      | _ => valueError "too many values to unpack (expected 1)"
    | _ => r.eval f t
  let noted ← ([0, 1, 2, 3, 5].flatMap parameters.slot).filterMapM fun t => do
    match t.kind, t.part? 0 with
    | .arg name _, some a => do return some (ofString name, ← annotation a)
    | _, _ => return none
  let final ← result.mapM fun t => do return (ofString "return", ← r.eval f t)
  newDict (noted ++ final)

def newFunction (r : Interpreter) (f : Frame) (name : String) (parameters : Tree) (body : List Tree)
    (isAsync : Bool) (result : List Tree) : Eval Value := do
  let (defaults, keywordDefaults) ← defaultsOf r f parameters
  let annotations ← annotationsOf r f parameters result
  let declaredHere := Scope.declaredAll Scope.globalNames body
  let isGenerator := Scope.yields body
  let shown := Private.shown f.qualifier name
  alloc (.function {
    name := shown
    qualname := (if f.globalNames.contains name then "" else f.qualifier) ++ shown
    module := ← moduleName f, parameters, isAsync, isGenerator
    body := if isGenerator then Suspension.ofBody body else body
    scope := f.scope, globals := f.globals
    names := Scope.localNames parameters body
    globalNames := declaredHere
    outerNames := Scope.declaredAll Scope.outerNames body
    defaults, keywordDefaults, doc := docOf body, annotations })

def made (kind : Kind) (slots : List (List Tree)) : Tree := .node {} kind slots

def firstSource : String := ".0"

def nestClauses (innermost : Tree) : List Tree → Tree
  | [] => innermost
  | c :: rest =>
    let inner := nestClauses innermost rest
    let tested := (c.slot 2).foldr (fun test body => made .ifStmt [[test], [body], []]) inner
    let isAsync := match c.kind with
      | .comprehension b => b
      | _ => false
    made (.forLoop isAsync none) [c.slot 0, c.slot 1, [tested], []]

def clauseNames (clauses : List Tree) : List String :=
  clauses.flatMap fun c => Scope.boundAll false (c.slot 0)

def isAsyncClause (c : Tree) : Bool := c.kind = .comprehension true

def comprehensionFrame (f : Frame) (name : String) (clauses : List Tree) : Eval Frame := do
  let names := clauseNames clauses
  let free := fun (outer : List String) => outer.filter fun n => !names.contains n
  match (← alloc (.scope { names, parent := some f.scope, isComprehension := true })) with
  | .ref scope =>
    return { scope, globals := f.globals, globalNames := free f.globalNames
             outerNames := free f.outerNames, qualifier := f.qualifier ++ name ++ "." }
  | .scalar _ => return f

def testsHold (r : Interpreter) (f : Frame) : List Tree → Eval Bool
  | [] => return true
  | t :: rest => do
      if (← truthy r (← r.eval f t)) then testsHold r f rest else return false

def overRounds {σ : Type} (r : Interpreter) (f : Frame) (clause : Tree) (iterator : Value)
    (act : σ → Eval σ) : Nat → σ → Eval σ
  | 0, _ => throw .exhausted
  | fuel + 1, s => do
      match (← loopAdvance r (isAsyncClause clause) iterator) with
      | .stop _ => return s
      | .item v =>
        assign r f (clause.part 0) v
        if (← testsHold r f (clause.slot 2)) then
          overRounds r f clause iterator act fuel (← act s)
        else overRounds r f clause iterator act fuel s

def overClauses {σ : Type} (r : Interpreter) (f : Frame) (act : σ → Eval σ) :
    List Tree → σ → Eval σ
  | [], s => act s
  | c :: rest, s => do
      let iterator ← loopIterator r (isAsyncClause c) (← r.eval f (c.part 1))
      overRounds r f c iterator (overClauses r f act rest) iterationLimit s

def comprehend {σ : Type} (r : Interpreter) (f : Frame) (name : String) (clauses : List Tree)
    (act : Frame → σ → Eval σ) (start : σ) : Eval σ := do
  match clauses with
  | [] => return start
  | c :: rest =>
    let iterator ← loopIterator r (isAsyncClause c) (← r.eval f (c.part 1))
    let inner ← comprehensionFrame f name clauses
    nested (overRounds r inner c iterator (overClauses r inner (act inner) rest) iterationLimit
      start)

def lazyComprehension (r : Interpreter) (f : Frame) (element : Tree) (clauses : List Tree) :
    Eval Value := do
  let name := "<genexpr>"
  let isFirstAsync := clauses.head?.any isAsyncClause
  let source ← match clauses with
    | c :: _ => do loopIterator r isFirstAsync (← r.eval f (c.part 1))
    | [] => newList []
  let rest := clauses.drop 1
  let isAsync := isFirstAsync || Scope.awaits [element] || Scope.awaits rest ||
    Scope.awaits (clauses.head?.map (·.slot 2) |>.getD [])
  let clauses := match clauses with
    | .node m kind (target :: _ :: conditions) :: rest =>
      .node m kind (target :: [made (.name firstSource .load) []] :: conditions) :: rest
    | other => other
  let body := nestClauses (made .exprStmt [[made .yieldExpr [[element]]]]) clauses
  let frame ← comprehensionFrame f name clauses
  bindIn frame.scope firstSource source
  alloc (.generator {
    name, qualname := f.qualifier ++ name, module := ← moduleName f
    parameters := .absent, body := [body], isAsync, isGenerator := true
    scope := f.scope, globals := f.globals, names := clauseNames clauses
    globalNames := frame.globalNames, outerNames := frame.outerNames
    defaults := [], keywordDefaults := [], doc := nil, annotations := nil } frame.scope .fresh)

/-! ## Calls -/

def functionModules : List (String × String) := [
  ("now", "macrobuild.services.macros.sandbox"), ("fetch", "macrobuild.services.macros.sandbox"),
  ("require", "macrobuild.services.macros.sandbox"),
  ("import_module", "macrobuild.services.macros.sandbox"), ("monotonic", "time"),
  ("sleep", "asyncio.tasks"), ("asyncio.sleep", "asyncio.tasks"),
  ("asyncio.gather", "asyncio.tasks"), ("timeout", "asyncio.timeouts"), ("log", "logging"),
  ("tomllib.loads", "tomllib._parser")]

def nativeFullName (key : String) : String :=
  match functionModules.find? fun m => m.1 == key with
  | some (_, module) => module ++ "." ++ nativeName key
  | none => if key.startsWith "os.path." then "posixpath." ++ nativeName key else key

def calleeText (r : Interpreter) (v : Value) : Eval String := do
  let named := fun (module qualname : String) =>
    (if module == "builtins" || module.isEmpty then qualname else module ++ "." ++ qualname) ++ "()"
  match (← cell? v) with
  | some (.function c) => return named c.module c.qualname
  | some (.method _ f) =>
    match (← cell? f) with
    | some (.function c) => return named c.module c.qualname
    | _ => return String.ofList (← plainText r v)
  | some (.cls c) => return named c.module c.qualname
  | some (.native key) => return nativeFullName key ++ "()"
  | some (.nativeMethod _ cls name) => return methodName cls name ++ "()"
  | some (.unbound cls name) => return methodName cls name ++ "()"
  | _ => return String.ofList (← plainText r v)

def starValues (r : Interpreter) (v : Value) (refusal : Eval String) : Eval (List Value) := do
  if (← isIterable v) then iterate r v
  else typeError ((← refusal) ++ " must be an iterable, not " ++ (← typeName v))

def placeArguments (r : Interpreter) (f : Frame) (callee : Value) (ts : List Tree) :
    Eval (List Value) := do
  let refusal := if ts.length = 1 then do return (← calleeText r callee) ++ " argument after *"
    else return "Value after *"
  let parts ← ts.mapM fun t => do
    match t.kind with
    | .starred _ => do starValues r (← r.eval f (t.part 0)) refusal
    | _ => do return [← r.eval f t]
  return parts.flatten

def addNamed (r : Interpreter) (callee : Value) (done : List (String × Value)) (name : String) (v : Value) :
    Eval (List (String × Value)) := do
  if (lookup done name).isSome then
    typeError ((← calleeText r callee) ++ " got multiple values for keyword argument '" ++ name ++ "'")
  return done ++ [(name, v)]

def addMapping (r : Interpreter) (callee : Value) :
    List (String × Value) → List (Value × Value) → Eval (List (String × Value))
  | done, [] => return done
  | done, (k, v) :: rest => do
      match k with
      | .scalar (.str t) => addMapping r callee (← addNamed r callee done (String.ofList t) v) rest
      | _ => typeError "keywords must be strings"

def mappingEntries? (r : Interpreter) (v : Value) : Eval (Option (List (Value × Value))) := do
  if (← ownAttribute? (← classOf v) "keys").isSome then return some (← entriesOf r v)
  return (← core? v).bind entries?

def namedArguments (r : Interpreter) (f : Frame) (callee : Value) :
    List (String × Value) → List Tree → Eval (List (String × Value))
  | done, [] => return done
  | done, t :: rest => do
      let v ← r.eval f (t.part 0)
      match t.kind with
      | .keyword (some name) => do
          namedArguments r f callee (← addNamed r callee done name v) rest
      | _ =>
        match (← mappingEntries? r v) with
        | some es => do namedArguments r f callee (← addMapping r callee done es) rest
        | none =>
          typeError ((← calleeText r callee) ++ " argument after ** must be a mapping, not " ++
            (← typeName v))

/-- A view of the first parameter as an instance of the classes behind the class around. -/
def newSuper (f : Frame) : Eval Value := do
  let s ← scopeAt f.scope
  let refuse := fun {α : Type} (message : String) => (raise "RuntimeError" message : Eval α)
  if s.places = 0 && !s.isComprehension then refuse "super(): no arguments"
  match s.isComprehension, (s.names.head?).bind (lookup s.bindings),
      (← findName "__class__" scopeDepth true f.scope) with
  | false, none, _ => refuse "super(): arg[0] deleted"
  | _, _, none => refuse "super(): __class__ cell not found"
  | false, some self, some (.ref cls) => alloc (.superView cls self)
  | _, _, _ => typeError "super(type, obj): obj must be an instance or subtype of type"

def programText (name : String) (v : Value) : Eval Text := do
  match (← text? v), (← bytes? v) with
  | some t, _ => return t
  | none, some b => decoded .utf8 (chars "strict") b
  | none, none => typeError (name ++ "() arg 1 must be a string, bytes or code object")

def withNames {α : Type} (r : Interpreter) (f : Frame) (name : String) (names : Option Value)
    (act : Frame → Eval α) : Eval α := do
  match names with
  | none | some (.scalar .nil) => act f
  | some v =>
    match (← unwrap v), (← core? v) with
    | .ref i, some (.dict es) =>
      let bindings := es.filterMap fun (k, x) => match k with
        | .scalar (.str t) => some (String.ofList t, x)
        | _ => none
      match (← alloc (.scope { bindings })) with
      | .ref scope =>
        let result ← act { scope, globals := scope }
        let news := (← scopeAt scope).bindings.map fun (k, x) => (ofString k, x)
        setCell i (.dict (← setEntries r es news))
        return result
      | .scalar _ => act f
    | _, _ =>
      let shown ← typeName v
      typeError (name ++ "() globals must be a dict" ++
        (if name == "exec" then ", not " ++ shown else ""))

def callHere? (r : Interpreter) (f : Frame) (callee : Value) (a : Arguments) :
    Eval (Option Value) := do
  match callee with
  | .scalar _ => return none
  | .ref i =>
    if i = classCell "super" && a.positional.isEmpty then return some (← newSuper f)
    match (← cellAt i), a.positional with
    | .native "globals", [] => return some (← scopeDict f.globals)
    | .native "locals", [] | .native "vars", [] => return some (← scopeDict f.scope)
    | .native "dir", [] =>
      let names := (← scopeAt f.scope).bindings.map Prod.fst
      return some (← newList ((names.mergeSort fun a b => a ≤ b).map ofString))
    | .native "__import__", name :: rest =>
      let (first, last) ← importFor r f.globals (String.ofList (← selfText name)) 0
      let given : Option Value := (rest[2]?).or (lookup a.keyword "fromlist")
      match given with
      | some v => do if (← truthy r v) then return some last else return some first
      | none => return some first
    | .native "eval", v :: rest =>
      match Program.expressionOf (Text.trim (← programText "eval" v)) with
      | .ok t => do
          return some (← withNames r f "eval" rest.head? fun inner => r.eval inner t)
      | .error fault => raiseSource (chars "<string>") fault
    | .native "exec", v :: rest =>
      match Program.ofText (← programText "exec" v) with
      | .ok statements => do
          let names := (rest.head?).or (a.named? "globals")
          discard (withNames r f "exec" names fun inner => r.exec inner statements)
          return some nil
      | .error fault => raiseSource (chars "<string>") fault
    | _, _ => return none

def evalCall (r : Interpreter) (f : Frame) (t : Tree) : Eval Value := do
  let callee ← r.eval f (t.part 0)
  let positional ← placeArguments r f callee (t.slot 1)
  let keyword ← namedArguments r f callee [] (t.slot 2)
  let a : Arguments := { positional, keyword }
  match (← callHere? r f callee a) with
  | some v => return v
  | none => r.call callee a

/-! ## Displays -/

def elementsOf (r : Interpreter) (f : Frame) (ts : List Tree) : Eval (List Value) := do
  let parts ← ts.mapM fun t => do
    match t.kind with
    | .starred _ => do starValues r (← r.eval f (t.part 0)) (return "Value after *")
    | _ => do return [← r.eval f t]
  return parts.flatten

def displayEntries (r : Interpreter) (f : Frame) :
    List (Value × Value) → List (Tree × Tree) → Eval (List (Value × Value))
  | done, [] => return done
  | done, (k, v) :: rest => do
      if k.isAbsent then
        let mapping ← r.eval f v
        match (← mappingEntries? r mapping) with
        | some es => do displayEntries r f (← setEntries r done es) rest
        | none => typeError ("'" ++ (← typeName mapping) ++ "' object is not a mapping")
      else
        let key ← r.eval f k
        let value ← r.eval f v
        displayEntries r f (← setEntry r done key value) rest

/-! ## Operators -/

def junction (r : Interpreter) (f : Frame) (stopAt : Bool) : List Tree → Eval Value
  | [] => return nil
  | [t] => r.eval f t
  | t :: rest => do
      let v ← r.eval f t
      if (← truthy r v) == stopAt then return v else junction r f stopAt rest

def chain (r : Interpreter) (f : Frame) (left : Value) :
    List (CompareOperator × Tree) → Eval Value
  | [] => return left
  | [(op, t)] => do compared r op left (← r.eval f t)
  | (op, t) :: rest => do
      let right ← r.eval f t
      let v ← compared r op left right
      if (← truthy r v) then chain r f right rest else return v

def formattedPart (r : Interpreter) (f : Frame) (t : Tree) : Eval (List CodePoint) := do
  match t.kind with
  | .constant s _ => return s.points?.getD []
  | .formattedValue conversion =>
    let v ← converted r (← r.eval f (t.part 0)) conversion
    let spec ← match t.part? 1 with
      | some s => do selfText (← r.eval f s)
      | none => pure []
    match v, spec with
    | .scalar (.codes s), [] => return s.points
    | _, _ => return (← formatted r v spec).map .char
  | _ => return (← selfText (← r.eval f t)).map .char

def evalStep (r : Interpreter) (f : Frame) (t : Tree) : Eval Value := do
  match t.kind with
  | .constant v _ => return .scalar v
  | .name id _ => lookupName f id
  | .attribute name _ => do getAttribute r (← r.eval f (t.part 0)) name
  | .subscript _ =>
    let v ← r.eval f (t.part 0)
    getItem r v (← r.eval f (t.part 1))
  | .slice =>
    let bound := fun (k : Nat) => match t.part? k with
      | some b => r.eval f b
      | none => return nil
    let lower ← bound 0
    let upper ← bound 1
    alloc (.slice lower upper (← bound 2))
  | .list _ => do newList (← elementsOf r f (t.slot 0))
  | .tuple _ => do newTuple (← elementsOf r f (t.slot 0))
  | .set => do alloc (.set (← addElements r [] (← elementsOf r f (t.slot 0))))
  | .dict => do newDict (← displayEntries r f [] ((t.slot 0).zip (t.slot 1)))
  | .joinedStr =>
    let parts ← (t.slot 0).mapM (formattedPart r f)
    return ofPoints parts.flatten
  | .formattedValue _ => do return ofPoints (← formattedPart r f t)
  | .boolOp op => junction r f (op == .disj) (t.slot 0)
  | .unaryOp op => do unary r op (← r.eval f (t.part 0))
  | .binOp op =>
    let a ← r.eval f (t.part 0)
    binary r op a (← r.eval f (t.part 1))
  | .compare ops => do chain r f (← r.eval f (t.part 0)) (ops.zip (t.slot 1))
  | .ifExp =>
    if (← truthy r (← r.eval f (t.part 0))) then r.eval f (t.part 1) else r.eval f (t.part 2)
  | .namedExpr =>
    let v ← r.eval f (t.part 1)
    match (t.part 0).kind with
    | .name id _ => assignOutside f id v
    | _ => pure ()
    return v
  | .lambdaExpr =>
    newFunction r f "<lambda>" (t.part 0) [made .returnStmt [t.slot 1]] false []
  | .call => evalCall r f t
  | .awaitExpr => do awaitValue r (← r.eval f (t.part 0))
  | .listComp => do
      let items ← comprehend r f "<listcomp>" (t.slot 1)
        (fun inner done => do return (← r.eval inner (t.part 0)) :: done) []
      newList items.reverse
  | .setComp => do
      alloc (.set (← comprehend r f "<setcomp>" (t.slot 1)
        (fun inner done => do addElement r done (← r.eval inner (t.part 0))) []))
  | .dictComp => do
      newDict (← comprehend r f "<dictcomp>" (t.slot 2) (fun inner done => do
        let key ← r.eval inner (t.part 0)
        setEntry r done key (← r.eval inner (t.part 1))) [])
  | .generatorExp => lazyComprehension r f (t.part 0) (t.slot 1)
  | .yieldExpr | .yieldFrom => raise "SyntaxError" "'yield' outside function"
  | .starred _ => raise "SyntaxError" "can't use starred expression here"
  | _ => raise "SyntaxError" "invalid syntax"

end Sandbox

end MacroExpand
