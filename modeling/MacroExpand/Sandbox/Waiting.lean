import MacroExpand.Sandbox.Messages
import MacroExpand.Sandbox.Moments

/-!
# Waiting

Coroutines run when they are awaited, one at a time.  Time passes only while a coroutine sleeps or
waits for an event, and a block with a limit is cancelled when its time is over.
-/

set_option autoImplicit false

namespace MacroExpand

namespace Sandbox

def report (level : LogLevel) (area : LogArea) (message : Text) : Eval Unit :=
  modify fun m => { m with log := m.log ++ [⟨level, area, message⟩] }

def comprehensionNames : List String := ["<listcomp>", "<setcomp>", "<dictcomp>", "<genexpr>"]

def Closure.frame (c : Closure) (scope : Nat) : Frame :=
  { scope, globals := c.globals, globalNames := c.globalNames, outerNames := c.outerNames
    qualifier := c.qualname ++ (if comprehensionNames.contains c.name then "." else ".<locals>.") }

def runBody (r : Interpreter) (f : Closure) (scope : Nat) : Eval Value := do
  match (← nested (r.exec (f.frame scope) f.body)) with
  | .result v => return v
  | _ => return nil

/-! ## Time -/

def shortest (limits : List (Option Double)) : Option Double :=
  limits.foldl (fun best limit => match best, limit with
    | some a, some b => if b.lt a then some b else some a
    | none, b => b
    | a, none => a) none

def elapse (seconds : Double) : Eval Unit :=
  modify fun m => { m with limits := m.limits.map (Option.map fun l => l.sub seconds) }

def letPass (seconds : Double) : Eval Unit := do
  match shortest (← get).limits with
  | some limit =>
    if limit.le seconds then
      elapse limit
      raiseWith "CancelledError" []
    else elapse seconds
  | none => return ()

def takeTurn : Eval Unit := modify fun m => { m with turns := m.turns + 1 }

def waitForever : Eval Value := do
  match (shortest (← get).limits) with
  | some limit => do
      elapse limit
      raiseWith "CancelledError" []
  | none => throw .exhausted

/-! ## Awaiting -/

def isAwaitable (v : Value) : Eval Bool := do
  match (← cell? v) with
  | some (.coroutine ..) => return true
  | some (.object cls _ _) => return (← ownAttribute? cls "__await__").isSome
  | _ => return false

def pauseLimit : Nat := 10000000

def awaitSteps (r : Interpreter) (iterator : Value) : Nat → Eval Value
  | 0 => throw .exhausted
  | fuel + 1 => do
      match (← r.advance iterator) with
      | .stop v => return v
      | .item (.scalar .nil) => do
      takeTurn
      awaitSteps r iterator fuel
      | .item v => raise "RuntimeError" ("Task got bad yield: " ++ String.ofList (← codeText r v))

def orStopAsync : Step → Eval Value
  | .item v => return v
  | .stop _ => raiseWith "StopAsyncIteration" []

def awaitedBy (r : Interpreter) (v : Value) : Eval Value := do
  match (← cell? v) with
  | some (.coroutine ..) => return v
  | some (.object ..) =>
    match (← callOwn? r v "__await__" []) with
    | none => refuse
    | some iterator =>
      match (← cell? iterator), (← isIterator iterator) with
      | some (.coroutine ..), _ => typeError "__await__() returned a coroutine"
      | _, true => return iterator
      | _, false =>
        typeError ("__await__() returned non-iterator of type '" ++ (← typeName iterator) ++ "'")
  | _ => refuse
where
  refuse : Eval Value := do
    typeError ("object " ++ (← typeName v) ++ " can't be used in 'await' expression")

def interruption (r : Interpreter) (v : Value) : Eval Value := do
  let ending ← attempt (do
    if (← isKnown v "Future") then waitForever
    else raise "RuntimeError" ("Task got bad yield: " ++ String.ofList (← codeText r v)))
  match ending with
  | .ok e | .error (.raised e) => return e
  | .error s => throw s

/-- Let the coroutine in a cell go on until it ends; nobody else goes on meanwhile. -/
def awaitTurns (r : Interpreter) (i : Nat) : Nat → Resumption → Eval Value
  | 0, _ => throw .exhausted
  | fuel + 1, input => do
      match (← r.resume i input) with
      | .stop v => return v
      | .item v => do
        takeTurn
        awaitTurns r i fuel (← if v = nil then pure (.send nil) else .throw <$> interruption r v)

def awaitCoroutine (r : Interpreter) (i : Nat) (name : String) (task : Task) : Eval Value := do
  setCell i (.coroutine name .done)
  match task with
  | .call f scope => runBody r f scope
  | .sleep seconds result => do
      takeTurn
      letPass (if seconds.negative then .zero else seconds)
      return result
  | .wait event =>
    match (← cellAt event) with
    | .event true => return ofBool true
    | _ => waitForever
  | .resume generator input => do orStopAsync (← r.resume generator input)
  | .obtain .. | .transform .. =>
    setCell i (.coroutine name task)
    awaitTurns r i pauseLimit (.send nil)
  | .fail e => throw (.raised e)
  | .done => raise "RuntimeError" "cannot reuse already awaited coroutine"

def awaitValue (r : Interpreter) (v : Value) : Eval Value := do
  let awaited ← awaitedBy r v
  match awaited, (← cell? awaited) with
  | .ref i, some (.coroutine name task) => awaitCoroutine r i name task
  | _, _ => awaitSteps r awaited pauseLimit

/-! ## Asynchronous iteration -/

def asyncIteratorOf (r : Interpreter) (v : Value) : Eval Value := do
  match (← cell? v) with
  | some (.generator f _ _) => if f.isAsync then return v else refuse
  | some (.object ..) =>
    match (← callOwn? r v "__aiter__" []) with
    | none => refuse
    | some iterator =>
      let hasNext ← match (← cell? iterator) with
        | some (.generator f _ _) => pure f.isAsync
        | _ => do pure (← ownAttribute? (← classOf iterator) "__anext__").isSome
      if hasNext then return iterator
      typeError ("'async for' received an object from __aiter__ that does not implement " ++
        "__anext__: " ++ (← typeName iterator))
  | _ => refuse
where
  refuse : Eval Value := do
    typeError ("'async for' requires an object with __aiter__ method, got " ++ (← typeName v))

def asyncNext (r : Interpreter) (iterator : Value) : Eval Value := do
  match iterator, (← cell? iterator) with
  | .ref i, some (.generator ..) =>
    alloc (.coroutine "async_generator_asend" (.resume i (.send nil)))
  | _, _ =>
    match (← callOwn? r iterator "__anext__" []) with
    | some v => return v
    | none => typeError ("'" ++ (← typeName iterator) ++ "' object is not an async iterator")

def awaitGiven (r : Interpreter) (refusal : String) (v : Value) : Eval Value := do
  if !(← isAwaitable v) then typeError (refusal ++ ": " ++ (← typeName v))
  awaitValue r v

def asyncAdvance (r : Interpreter) (iterator : Value) : Eval Step := do
  let refusal := "'async for' received an invalid object from __anext__"
  match (← attempt (do awaitGiven r refusal (← asyncNext r iterator))) with
  | .ok v => return .item v
  | .error (.raised e) => if (← isKnown e "StopAsyncIteration") then return .stop nil else throw (.raised e)
  | .error e => throw e

def loopIterator (r : Interpreter) (isAsync : Bool) (v : Value) : Eval Value :=
  if isAsync then asyncIteratorOf r v else iteratorOf r v

def loopAdvance (r : Interpreter) (isAsync : Bool) (iterator : Value) : Eval Step :=
  if isAsync then asyncAdvance r iterator else r.advance iterator

def postponed (name : String) (action : Eval Value) : Eval Value := do
  let result ← tryCatch (Except.ok <$> action) fun e => return Except.error e
  match result with
  | .ok v => return v
  | .error (.raised e) => alloc (.coroutine name (.fail e))
  | .error e => throw e

def pushLimit (seconds : Option Double) : Eval Unit :=
  modify fun m => { m with limits := seconds :: m.limits }

def popLimit : Eval Bool := do
  let m ← get
  set { m with limits := m.limits.tail }
  match m.limits.head? with
  | some (some left) => return left.le .zero
  | _ => return false

/-! ## What sandboxes offer -/

def secondsOf (r : Interpreter) (v : Value) : Eval Double := do
  match v with
  | .scalar s =>
    match Arithmetic.double? s with
    | some d => orFault d
    | none => refuse
  | .ref _ => refuse
where
  refuse : Eval Double := do
    discard (orderedIn r .ltE r.compareDepth v (ofInt 0))
    return .zero

/-- The request that a call asks for is refused unless its address has a protocol for the web. -/
def fetchFault (r : Interpreter) (v : Value) : Eval Value := do
  let u ← urlFrom r v []
  if u.scheme.isEmpty then
    raise "UnsupportedProtocol" "Request URL is missing an 'http://' or 'https://' protocol."
  else if ["http", "https"].contains (String.ofList u.scheme) then
    raise "ConnectError" "All connection attempts failed"
  else
    raise "UnsupportedProtocol" ("Request URL has an unsupported protocol '" ++
      String.ofList u.scheme ++ "://'.")

def logOptions : List String := ["exc_info", "extra", "stack_info", "stacklevel"]

def logText (r : Interpreter) (message : Value) (values : List Value) : Eval Text := do
  let text ← plainText r message
  match values with
  | [] => return text
  | [v] =>
    match (← core? v) with
    | some (.dict (_ :: _)) => percentText r false text v
    | _ => do percentText r false text (← newTuple values)
  | values => do percentText r false text (← newTuple values)

def requestOptions : List String := [
  "url", "method", "content", "data", "files", "json", "params", "headers", "cookies", "auth",
  "follow_redirects", "timeout", "extensions"]

def waitingNatives : List Native := [
  .declared "now" "_now" "" fun _ _ => newDateTime clock,
  .function "monotonic" fun _ _ => return ofFloat .zero,
  .function "time.monotonic" fun _ _ => return ofFloat .zero,
  sleeping "sleep", sleeping "asyncio.sleep",
  .function "asyncio.gather" fun r a => do
    for v in a.positional do
      if !(← isAwaitable v) then
        typeError "An asyncio.Future, a coroutine or an awaitable is required"
    let keeps ← match a.named? "return_exceptions" with
      | some v => truthy r v
      | none => pure false
    let results ← a.positional.mapM fun v => attempt (awaitValue r v)
    let failed := results.findSome? fun result => match result with
      | .error (.raised e) => some e
      | _ => none
    match failed, keeps with
    | some e, false => alloc (.coroutine "gather" (.fail e))
    | _, _ => do
        let values ← results.mapM fun result => match result with
          | .ok v | .error (.raised v) => pure v
          | .error s => throw s
        alloc (.coroutine "gather" (.sleep .zero (← newList values))),
  .declared "timeout" "timeout" "delay" fun _ a => do
    match a.under "delay" with
    | .scalar .nil => alloc (.limit none)
    | .scalar s =>
      match Arithmetic.double? s with
      | some d => do alloc (.limit (some (← orFault d)))
      | none => refuse (.scalar s)
    | v => refuse v,
  .declared "fetch" "fetch" "url * method= **kwargs" fun r a => postponed "fetch" do
    match a.keyword.find? fun (k, _) => !requestOptions.contains k with
    | some (k, _) =>
      typeError ("AsyncClient.request() got an unexpected keyword argument '" ++ k ++ "'")
    | none => fetchFault r (a.under "url"),
  .declared "log" "Logger.info" "msg *args **kwargs" fun r a => do
    match a.keyword.find? fun (k, _) => !("msg" :: logOptions).contains k with
    | some (k, _) => typeError ("Logger._log() got an unexpected keyword argument '" ++ k ++ "'")
    | none => pure ()
    report .info .messages (← logText r (a.under "msg") a.positional)
    return nil]
where
  sleeping (name : String) : Native := .declared name "sleep" "delay result=" fun r a =>
    postponed "sleep" do
      alloc (.coroutine "sleep" (.sleep (← secondsOf r (a.under "delay")) (a.under "result")))
  refuse (v : Value) : Eval Value := do
    typeError ("unsupported operand type(s) for +: 'float' and '" ++ (← typeName v) ++ "'")

def selfEvent (v : Value) : Eval (Nat × Bool) := do
  match v with
  | .ref i =>
    match (← cellAt i) with
    | .event b => return (i, b)
    | _ => return (i, false)
  | .scalar _ => return (0, false)

def eventMethods : List Native := [
  .method "Event" "set" "" fun _ v _ => do
    setCell (← selfEvent v).1 (.event true)
    return nil,
  .method "Event" "clear" "" fun _ v _ => do
    setCell (← selfEvent v).1 (.event false)
    return nil,
  .method "Event" "is_set" "" fun _ v _ => do return ofBool (← selfEvent v).2,
  .method "Event" "wait" "" fun _ v _ => do
    alloc (.coroutine "Event.wait" (.wait (← selfEvent v).1))]

def waitingMakers : List (String × Maker) := [
  declaredMaker "Event" "" fun _ _ => alloc (.event false),
  ("Client", fun _ _ => newKnown "Client" (.opaqueObject [])),
  ("AsyncClient", fun _ _ => newKnown "AsyncClient" (.opaqueObject []))]

end Sandbox

end MacroExpand
