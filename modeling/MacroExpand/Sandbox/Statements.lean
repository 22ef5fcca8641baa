import MacroExpand.Sandbox.Expressions

/-!
# Running statements
-/

set_option autoImplicit false

namespace MacroExpand

namespace Sandbox

/-! ## Loops -/

def loopLimit : Nat := 10000000

def afterLoop (r : Interpreter) (f : Frame) (orElse : List Tree) : Eval Flow :=
  if orElse.isEmpty then return .next else r.exec f orElse

def whileLoop (r : Interpreter) (f : Frame) (test : Tree) (body orElse : List Tree) :
    Nat → Eval Flow
  | 0 => throw .exhausted
  | fuel + 1 => do
      if !(← truthy r (← r.eval f test)) then afterLoop r f orElse
      else
        match (← r.exec f body) with
        | .breakLoop => return .next
        | .result v => return .result v
        | _ => whileLoop r f test body orElse fuel

def forLoop (r : Interpreter) (f : Frame) (isAsync : Bool) (target : Tree) (iterator : Value)
    (body orElse : List Tree) : Nat → Eval Flow
  | 0 => throw .exhausted
  | fuel + 1 => do
      match (← loopAdvance r isAsync iterator) with
      | .stop _ => afterLoop r f orElse
      | .item v =>
        assign r f target v
        match (← r.exec f body) with
        | .breakLoop => return .next
        | .result v => return .result v
        | _ => forLoop r f isAsync target iterator body orElse fuel

/-! ## Exceptions -/

def raiseStatement {α : Type} (r : Interpreter) (f : Frame) (t : Tree) : Eval α := do
  match t.part? 0 with
  | none =>
    match (← get).handled with
    | e :: _ => throw (.raised e)
    | [] => raise "RuntimeError" "No active exception to reraise"
  | some expression =>
    let v ← r.eval f expression
    let cause ← match t.part? 1 with
      | some c => do pure (some (← r.eval f c))
      | none => pure none
    let e ← exceptionOf r "exceptions must derive from BaseException" v
    match cause with
    | none => pure ()
    | some c =>
      let c ← if c = nil then pure nil
        else exceptionOf r "exception causes must derive from BaseException" c
      changeException e fun d => { d with cause := c, isFinal := true }
    changeException e fun d => { d with raisings := d.raisings + 1 }
    noteContext e
    throw (.raised e)

def handledClasses (r : Interpreter) (f : Frame) (handler : Tree) : Eval (List Nat) := do
  let message := "catching classes that do not inherit from BaseException is not allowed"
  let classes ← classesIn message 20 (← r.eval f (handler.part 0))
  classes.forM fun cls => do
    if !(← descends cls (classCell "BaseException")) then typeError message
  return classes

def handling {α : Type} (e : Value) (action : Eval α) : Eval α := do
  let before := (← get).handled
  modify fun m => { m with handled := e :: before }
  let result ← attempt action
  modify fun m => { m with handled := before }
  match result with
  | .ok a => return a
  | .error s => throw s

def findHandler (r : Interpreter) (f : Frame) (e : Value) : List Tree → Eval (Option Tree)
  | [] => return none
  | handler :: rest => do
      if (handler.slot 0).isEmpty then return some handler
      let classes ← handledClasses r f handler
      let lineage := (← classData (← classOf e)).lineage
      if classes.any lineage.contains then return some handler else findHandler r f e rest

def handlerName (handler : Tree) : Option String :=
  match handler.kind with
  | .exceptHandler name => name
  | _ => none

def dropHandled (f : Frame) : Option String → Eval Unit
  | some name => tryCatch (deleteName f name) fun _ => return ()
  | none => return ()

def runHandler (r : Interpreter) (f : Frame) (e : Value) (handler : Tree) : Eval Flow := do
  let name := handlerName handler
  match name with
  | some n => assignName f n e
  | none => pure ()
  let result ← attempt (handling e (r.exec f (handler.slot 1)))
  dropHandled f name
  match result with
  | .ok flow => return flow
  | .error s => throw s

def leavesOf : Nat → Value → Eval (List Value)
  | 0, v => return [v]
  | fuel + 1, v => do
      match (← cell? v), (← isKnown v "BaseExceptionGroup") with
      | some (.exception e), true =>
        return (← (← groupMembers e).mapM (leavesOf fuel)).flatten
      | _, _ => return [v]

def handledPart (r : Interpreter) (f : Frame) (e : Value) (handler : Tree) :
    Eval (Option Value × Option Value) := do
  let classes ← handledClasses r f handler
  classes.forM fun cls => do
    if (← descends cls (classCell "BaseExceptionGroup")) then
      typeError "catching ExceptionGroup with except* is not allowed. Use except instead."
  let test := fun (v : Value) => do
    let lineage := (← classData (← classOf v)).lineage
    return classes.any lineage.contains
  match (← splitException r test groupDepth e) with
  | (some part, rest) =>
    if (← isKnown part "BaseExceptionGroup") then return (some part, rest)
    let cls := classCell "BaseExceptionGroup"
    let group ← newException r cls (← classData cls) ⟨[ofString "", ← newTuple [part]], []⟩
    return (some group, rest)
  | (none, rest) => return (none, rest)

def runGroupHandlers (r : Interpreter) (f : Frame) (raised : List Value) (rest : Option Value) :
    List Tree → Eval (List Value × Option Value)
  | [] => return (raised, rest)
  | handler :: others => do
      match rest with
      | none => return (raised, none)
      | some e =>
        match (← handledPart r f e handler) with
        | (none, rest) => runGroupHandlers r f raised rest others
        | (some part, rest) =>
          match (← attempt (runHandler r f part handler)) with
          | .ok _ => runGroupHandlers r f raised rest others
          | .error (.raised x) => runGroupHandlers r f (raised ++ [x]) rest others
          | .error s => throw s

def isPassedOn (group : Value) (e : Value) : Eval Bool := do
  match (← cell? group), (← cell? e) with
  | some (.exception a), some (.exception b) =>
    return a.raisings = b.raisings && a.cause = b.cause && a.context = b.context &&
      lookup a.attributes "__notes__" = lookup b.attributes "__notes__"
  | _, _ => return false

/-- Handle a group by its parts.  What stays unhandled is raised again, together with what the
handlers raise. -/
def handleGroup (r : Interpreter) (f : Frame) (e : Value) (handlers : List Tree) : Eval Flow := do
  let (raised, rest) ← runGroupHandlers r f [] (some e) handlers
  if !(← isKnown e "BaseExceptionGroup") then
    match raised ++ rest.toList with
    | [] => return .next
    | x :: _ => throw (.raised x)
  let news ← raised.filterM fun x => do return !(← isPassedOn e x)
  let olds ← raised.filterM (isPassedOn e)
  let kept := (← (olds ++ rest.toList).mapM (leavesOf groupDepth)).flatten
  let again ← if kept.isEmpty then pure none
    else do
      let test := fun (v : Value) => return kept.contains v
      pure (← splitException r test groupDepth e).1
  match news ++ again.toList with
  | [] => return .next
  | [x] => throw (.raised x)
  | members => do
      let cls := classCell "BaseExceptionGroup"
      let members ← newList members
      let group ← newException r cls (← classData cls) ⟨[ofString "", members], []⟩
      noteContext group
      throw (.raised group)

def handle (r : Interpreter) (f : Frame) (isGrouped : Bool) (e : Value) (handlers : List Tree) :
    Eval Flow := do
  if isGrouped then handling e (handleGroup r f e handlers)
  else
    match (← handling e (findHandler r f e handlers)) with
    | some handler => runHandler r f e handler
    | none => throw (.raised e)

def tryBlock (r : Interpreter) (f : Frame) (isGrouped : Bool) (t : Tree) : Eval Flow := do
  match (← attempt (r.exec f (t.slot 0))) with
  | .ok .next => if (t.slot 2).isEmpty then return .next else r.exec f (t.slot 2)
  | .ok flow => return flow
  | .error (.raised e) => handle r f isGrouped e (t.slot 1)
  | .error s => throw s

def tryStatement (r : Interpreter) (f : Frame) (isGrouped : Bool) (t : Tree) : Eval Flow := do
  if (t.slot 3).isEmpty then tryBlock r f isGrouped t
  else
    match (← attempt (tryBlock r f isGrouped t)) with
    | .error .exhausted => throw .exhausted
    | result =>
      let last ← match result with
        | .error (.raised e) => handling e (r.exec f (t.slot 3))
        | _ => r.exec f (t.slot 3)
      match last, result with
      | .next, .ok flow => return flow
      | .next, .error s => throw s
      | flow, _ => return flow

/-! ## Blocks with a context -/

def contextMethod (v : Value) (name : String) (isAsync : Bool) : Eval Value := do
  match (← ownAttribute? (← classOf v) name) with
  | some m => return m
  | none =>
    typeError ("'" ++ (← typeName v) ++ "' object does not support the " ++
      (if isAsync then "asynchronous " else "") ++ "context manager protocol")

def notAwaitable (method : String) : String :=
  "'async with' received an object from " ++ method ++ " that does not implement __await__"

def leave (r : Interpreter) (isAsync : Bool) (v leaver : Value) (e : Option Value) : Eval Bool := do
  let (kind, value) ← match e with
    | some e => do pure (Value.ref (← classOf e), e)
    | none => pure (nil, nil)
  let result ← r.call leaver ⟨[v, kind, value, nil], []⟩
  let result ← if isAsync then awaitGiven r (notAwaitable "__aexit__") result else pure result
  truthy r result

def withLimit (seconds : Option Double) (body : Eval Flow) : Eval Flow := do
  pushLimit seconds
  let result ← attempt body
  let isOver ← popLimit
  match result with
  | .ok flow => return flow
  | .error (.raised e) => do
      if isOver && (← isKnown e "CancelledError") then raiseWith "TimeoutError" []
      else throw (.raised e)
  | .error s => throw s

def enter (r : Interpreter) (isAsync : Bool) (v : Value) : Eval (Value × Value) := do
  let (enterName, leaveName) :=
    if isAsync then ("__aenter__", "__aexit__") else ("__enter__", "__exit__")
  let enterer ← contextMethod v enterName isAsync
  let leaver ← match (← ownAttribute? (← classOf v) leaveName) with
    | some m => pure m
    | none => do
        let (hint, what) := if isAsync then (" (missed __aexit__ method)", "asynchronous ")
          else (" (missed __exit__ method)", "")
        typeError ("'" ++ (← typeName v) ++ "' object does not support the " ++ what ++
          "context manager protocol" ++ hint)
  let entered ← r.call enterer ⟨[v], []⟩
  return (leaver,
    ← if isAsync then awaitGiven r (notAwaitable "__aenter__") entered else pure entered)

def withItems (r : Interpreter) (f : Frame) (isAsync : Bool) (body : List Tree) :
    List Tree → Eval Flow
  | [] => r.exec f body
  | item :: rest => do
      let v ← r.eval f (item.part 0)
      let bindTarget := fun (x : Value) => match item.part? 1 with
        | some target => assign r f target x
        | none => return ()
      match (← cell? v), isAsync with
      | some (.limit seconds), true =>
        withLimit seconds do
          bindTarget v
          withItems r f isAsync body rest
      | _, _ =>
        let (leaver, entered) ← enter r isAsync v
        match (← attempt (do
            bindTarget entered
            withItems r f isAsync body rest)) with
        | .ok flow => do
            discard (leave r isAsync v leaver none)
            return flow
        | .error (.raised e) => do
            if (← handling e (leave r isAsync v leaver (some e))) then return .next
            else throw (.raised e)
        | .error s => throw s

/-! ## Patterns -/

abbrev Fit := Option (List (String × Value))

def sequenceItems? : Cell → Option (List Value)
  | .list xs | .tuple xs => some xs
  | .range a b s => some (rangeValues a b s)
  | _ => none

def wholeClasses : List String := [
  "bool", "bytearray", "bytes", "dict", "float", "frozenset", "int", "list", "set", "str", "tuple"]

def placesOf (r : Interpreter) (cls : Value) (data : ClassData) (patterns : List Tree) :
    Eval (List Tree × List String) := do
  if patterns.isEmpty then return ([], [])
  let name := data.shownName
  let count := patterns.length
  let accepts := fun (allowed : Nat) =>
    if allowed < count then
      typeError (name ++ "() accepts " ++ toString allowed ++ " positional sub-pattern" ++
        (if allowed = 1 then "" else "s") ++ " (" ++ toString count ++ " given)")
    else pure ()
  match (← getAttribute? r cls "__match_args__") with
  | none =>
    let isWhole := wholeClasses.any fun key => data.lineage.contains (classCell key)
    accepts (if isWhole then 1 else 0)
    return (patterns, [])
  | some names =>
    match (← core? names) with
    | some (.tuple names) =>
      accepts names.length
      let texts ← (names.take count).mapM fun n => do
        match (← text? n) with
        | some t => return String.ofList t
        | none => typeError ("__match_args__ elements must be strings (got " ++ (← typeName n) ++ ")")
      return ([], texts)
    | _ =>
      typeError (name ++ ".__match_args__ must be a tuple (got " ++ (← typeName names) ++ ")")

def attributesOf (r : Interpreter) (v : Value) (cls : String) (seen : List String) :
    List String → Eval (Option (List Value))
  | [] => return some []
  | name :: rest => do
      if seen.contains name then
        typeError (cls ++ "() got multiple sub-patterns for attribute " ++
          String.ofList (Text.quoted name.toList))
      match (← getAttribute? r v name) with
      | none => return none
      | some x => return (← attributesOf r v cls (name :: seen) rest).map (x :: ·)

def fit (r : Interpreter) (f : Frame) : Nat → Tree → Value → Eval Fit
  | 0, _, _ => return none
  | fuel + 1, t, v => do
      let both := fun (a b : Fit) => match a, b with
        | some x, some y => some (x ++ y)
        | _, _ => none
      let fitAll := fun (pairs : List (Tree × Value)) =>
        pairs.foldlM (fun (done : Fit) (p : Tree × Value) => do
          match done with
          | none => return none
          | some _ => return both done (← fit r f fuel p.1 p.2)) (some [])
      match t.kind with
      | .matchValue => do
          if (← equal r v (← r.eval f (t.part 0))) then return some [] else return none
      | .matchSingleton s => return if v = .scalar s then some [] else none
      | .matchAs name => do
          let inner ← match t.part? 0 with
            | some p => fit r f fuel p v
            | none => pure (some [])
          return both inner (some (match name with
            | some n => [(n, v)]
            | none => []))
      | .matchOr =>
        (t.slot 0).foldlM (fun (done : Fit) p => do
          match done with
          | some _ => return done
          | none => fit r f fuel p v) none
      | .matchSequence =>
        match ((← core? v).bind sequenceItems?) with
        | none => return none
        | some items =>
          let patterns := t.slot 0
          let isStar := fun (p : Tree) => match p.kind with
            | .matchStar _ => true
            | _ => false
          match patterns.findIdx? isStar with
          | none =>
            if items.length = patterns.length then fitAll (patterns.zip items) else return none
          | some k =>
            let behind := patterns.length - 1 - k
            if items.length < patterns.length - 1 then return none
            let middle ← newList ((items.drop k).take (items.length - k - behind))
            let star := match (patterns.getD k .absent).kind with
              | .matchStar (some n) => [(n, middle)]
              | _ => []
            let front ← fitAll ((patterns.take k).zip items)
            let back ← fitAll ((patterns.drop (k + 1)).zip (items.drop (items.length - behind)))
            return both (both front (some star)) back
      | .matchMapping rest =>
        match ((← core? v).bind entries?) with
        | none => return none
        | some es =>
          let keys ← (t.slot 0).mapM (r.eval f)
          let found ← keys.mapM (valueAt? r es)
          if found.any Option.isNone then return none
          let inner ← fitAll ((t.slot 1).zip (found.map fun x => x.getD nil))
          let left ← match rest with
            | some n => do
                let others ← es.filterM fun e => do return !(← hasElement r keys e.1)
                pure [(n, ← newDict others)]
            | none => pure []
          return both inner (some left)
      | .matchClass attributes =>
        let cls ← r.eval f (t.part 0)
        let data ← match (← cell? cls) with
          | some (.cls data) => pure data
          | _ => typeError "called match pattern must be a type"
        if !(← isInstance r v cls) then return none
        let (whole, places) ← placesOf r cls data (t.slot 1)
        let parts := (places.zip ((t.slot 1).drop whole.length)) ++ attributes.zip (t.slot 2)
        let found ← attributesOf r v data.shownName [] (parts.map Prod.fst)
        match found with
        | none => return none
        | some xs => fitAll (whole.map (·, v) ++ (parts.map Prod.snd).zip xs)
      | _ => return none

/-- The block of the first case whose pattern fits and whose test holds. -/
def matchingCase (r : Interpreter) (f : Frame) (v : Value) : List Tree → Eval (List Tree)
  | [] => return []
  | c :: rest => do
      match (← fit r f (c.part 0).size (c.part 0) v) with
      | none => matchingCase r f v rest
      | some bindings =>
        bindings.forM fun (n, x) => assignName f n x
        let holds ← match c.part? 1 with
          | some test => do truthy r (← r.eval f test)
          | none => pure true
        if holds then return c.slot 2 else matchingCase r f v rest

/-! ## Definitions -/

def decorate (r : Interpreter) (v : Value) : List Value → Eval Value
  | [] => return v
  | d :: rest => do r.call d ⟨[← decorate r v rest], []⟩

def defineFunction (r : Interpreter) (f : Frame) (name : String) (isAsync : Bool) (t : Tree) :
    Eval Unit := do
  let decorators ← (t.slot 2).mapM (r.eval f)
  let v ← newFunction r f name (t.part 0) (t.slot 1) isAsync (t.slot 3)
  assignName f name (← decorate r v decorators)

def newScope (data : ScopeData) : Eval Nat := do
  match (← alloc (.scope data)) with
  | .ref i => return i
  | .scalar _ => return 0

def classFrom (r : Interpreter) (name qualname module : String) (bases : List Value)
    (attributes : List (String × Value)) (options : List (String × Value)) : Eval Value := do
  let byCall := fun (maker : Value) => do
    let space ← newDict (attributes.map fun (k, v) => (ofString k, v))
    r.call maker ⟨[ofString name, ← newTuple bases, space], options.filter (·.1 != "metaclass")⟩
  match lookup options "metaclass" with
  | some maker =>
    if maker ≠ classValue "type" then return ← byCall maker
  | none => pure ()
  let cells ← bases.mapM fun b => do
    match b, (← cell? b) with
    | .ref i, some (.cls _) => return some i
    | _, _ => return none
  match (bases.zip cells).find? fun p => p.2.isNone with
  | some (b, _) => do byCall (.ref (← classOf b))
  | none =>
    newClass r name qualname module (cells.filterMap id) attributes
      (options.filter (·.1 != "metaclass"))

def defineClass (r : Interpreter) (f : Frame) (name : String) (t : Tree) : Eval Unit := do
  let decorators ← (t.slot 3).mapM (r.eval f)
  let bases ← elementsOf r f (t.slot 0)
  let options ← namedArguments r f nil [] (t.slot 1)
  let body := t.slot 2
  let shown := Private.shown f.qualifier name
  let qualname := (if f.globalNames.contains name then "" else f.qualifier) ++ shown
  let module ← moduleName f
  let around ← newScope { names := ["__class__"], parent := some f.scope }
  let given := [("__module__", ofString module), ("__qualname__", ofString qualname)]
  let scope ← newScope {
    bindings := given, names := Scope.ownNames body, parent := some around, isClass := true }
  let inner : Frame := {
    scope, globals := f.globals, globalNames := Scope.declaredAll Scope.globalNames body
    outerNames := Scope.declaredAll Scope.outerNames body, qualifier := qualname ++ "." }
  discard (nested (r.exec inner body))
  let bound := (← scopeAt scope).bindings
  let text := fun (key standard : String) => match lookup bound key with
    | some (.scalar (.str t)) => String.ofList t
    | _ => standard
  let attributes := bound.filter fun b => !(given.map Prod.fst).contains b.1
  let doc := docOf body
  let attributes := if doc = nil then attributes else bind attributes "__doc__" doc
  let cls ← classFrom r shown (text "__qualname__" qualname) (text "__module__" module) bases attributes
    options
  bindIn around "__class__" cls
  assignName f name (← decorate r cls decorators)

/-! ## Imports -/

def importNames (r : Interpreter) (f : Frame) : List Tree → Eval Unit
  | [] => return ()
  | t :: rest => do
      match t.kind with
      | .alias name asName =>
        let (first, last) ← importFor r f.globals name 0
        match asName with
        | some n => assignName f n last
        | none => assignName f (Scope.firstPart name) first
      | _ => return ()
      importNames r f rest

def publicNames (r : Interpreter) (module : Value) : Eval (List (String × Value)) := do
  match (← moduleScope? module) with
  | none => return []
  | some scope =>
    let bindings := (← scopeAt scope).bindings
    match lookup bindings "__all__" with
    | none => return bindings.filter fun b => !b.1.startsWith "_"
    | some listed =>
      (← iterate r listed).mapM fun n => do
        let name := String.ofList (← selfText n)
        return (name, ← getAttribute r module name)

def importFrom (r : Interpreter) (f : Frame) (module : Option String) (level : Nat)
    (names : List Tree) : Eval Unit := do
  let (_, source) ← importFor r f.globals (module.getD "") level
  names.forM fun t => do
    match t.kind with
    | .alias "*" _ =>
      (← publicNames r source).forM fun (n, v) => assignName f n v
    | .alias name asName => do
        assignName f (asName.getD name) (← importedFrom r source name)
    | _ => return ()

/-! ## Statements -/

def isOutside (f : Frame) : Eval Bool := do
  let s ← scopeAt f.scope
  return s.isClass || s.parent.isNone

def statement (r : Interpreter) (f : Frame) (t : Tree) : Eval Flow := do
  match t.kind with
  | .exprStmt => do
      discard (r.eval f (t.part 0))
      return .next
  | .assign _ =>
    let v ← r.eval f (t.part 1)
    (t.slot 0).forM fun target => assign r f target v
    return .next
  | .augAssign op => do
      augment r f op (t.part 0) (t.part 1)
      return .next
  | .annAssign simple =>
    match t.part? 2 with
    | some value => do assign r f (t.part 0) (← r.eval f value)
    | none => pure ()
    if (← isOutside f) then
      let annotation ← r.eval f (t.part 1)
      match simple, (t.part 0).kind with
      | true, .name id _ =>
        let s ← scopeAt f.scope
        let noted ← match lookup s.bindings "__annotations__" with
          | some d => pure d
          | none => newDict []
        setItem r noted (ofString id) annotation
        bindIn f.scope "__annotations__" noted
      | _, _ => pure ()
    return .next
  | .returnStmt =>
    match t.part? 0 with
    | some e => do return .result (← r.eval f e)
    | none => return .result nil
  | .delete => do
      deleteTargets r f (t.size + 1) (t.slot 0)
      return .next
  | .ifStmt => do
      if (← truthy r (← r.eval f (t.part 0))) then r.exec f (t.slot 1)
      else if (t.slot 2).isEmpty then return .next
      else r.exec f (t.slot 2)
  | .whileLoop => whileLoop r f (t.part 0) (t.slot 1) (t.slot 2) loopLimit
  | .forLoop isAsync _ => do
      let iterator ← loopIterator r isAsync (← r.eval f (t.part 1))
      forLoop r f isAsync (t.part 0) iterator (t.slot 2) (t.slot 3) loopLimit
  | .breakStmt => return .breakLoop
  | .continueStmt => return .continueLoop
  | .pass | .globalDecl _ | .nonlocalDecl _ => return .next
  | .withStmt isAsync _ => withItems r f isAsync (t.slot 1) (t.slot 0)
  | .raiseStmt => raiseStatement r f t
  | .tryStmt isGrouped => tryStatement r f isGrouped t
  | .assertStmt => do
      if (← truthy r (← r.eval f (t.part 0))) then return .next
      match t.part? 1 with
      | some m => do raiseWith "AssertionError" [← r.eval f m]
      | none => raiseWith "AssertionError" []
  | .importStmt => do
      importNames r f (t.slot 0)
      return .next
  | .importFrom module level => do
      importFrom r f module level (t.slot 0)
      return .next
  | .functionDef name isAsync _ => do
      defineFunction r f name isAsync t
      return .next
  | .classDef name => do
      defineClass r f name t
      return .next
  | .matchStmt => do r.exec f (← matchingCase r f (← r.eval f (t.part 0)) (t.slot 1))
  | _ => return .next

def execStep (r : Interpreter) (f : Frame) : List Tree → Eval Flow
  | [] => return .next
  | t :: rest => do
      match (← statement r f t) with
      | .next => execStep r f rest
      | flow => return flow

end Sandbox

end MacroExpand
