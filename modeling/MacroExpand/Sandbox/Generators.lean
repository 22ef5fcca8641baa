import MacroExpand.Sandbox.Passing

/-!
# Generators

The body of a generator runs until it hands out a value.  What it still has to do is then kept as a
list of pending parts, innermost first, and taken up again when the generator is resumed with a value
or an exception.  Statements that hand out nothing run as they do elsewhere.
-/

set_option autoImplicit false

namespace MacroExpand

namespace Sandbox

/-- Where a body stands: what is still to do, and what arrives there. -/
structure Standing where
  rest : List Pending
  arrival : Arrival

/-- A move of a body: it goes on, or it hands out a value. -/
inductive Move where
  | go (standing : Standing)
  | hand (value : Value) (rest : List Pending)

def Move.next (rest : List Pending) : Move := .go ⟨rest, .flow .next⟩

def Move.block (ts : List Tree) (rest : List Pending) : Move :=
  .next (if ts.isEmpty then rest else .statements ts :: rest)

def handledIn (rest : List Pending) : List Value :=
  rest.filterMap fun p => match p with
    | .handling _ e | .restored (.raised e) => some e
    | _ => none

/-! ## Entering statements -/

def handingOut? (t : Tree) : Option (Tree × Option String) :=
  let part := fun (v : Tree) (name : Option String) => match v.kind with
    | .yieldExpr | .yieldFrom => some (v, name)
    | _ => none
  match t.kind with
  | .exprStmt => part (t.part 0) none
  | .assign _ =>
    match t.slot 0 with
    | [target] =>
      match target.kind with
      | .name id _ => part (t.part 1) (some id)
      | _ => none
    | _ => none
  | _ => none

def beginHanding (r : Interpreter) (f : Frame) (v : Tree) (name : Option String)
    (rest : List Pending) : Eval Move := do
  let operand ← match v.part? 0 with
    | some e => r.eval f e
    | none => pure nil
  match v.kind with
  | .yieldFrom =>
    let iterator ← match (← cell? operand) with
      | some (.coroutine ..) =>
        typeError "cannot 'yield from' a coroutine object in a non-coroutine generator"
      | _ => iteratorOf r operand
    return .go ⟨.delegate iterator :: .store name :: rest, .value nil⟩
  | _ => return .hand operand (.store name :: rest)

def enterContexts (r : Interpreter) (f : Frame) (t : Tree) (isAsync : Bool) (rest : List Pending) :
    Eval Move := do
  match t.slot 0 with
  | [] => return .block (t.slot 1) rest
  | item :: items =>
    let v ← r.eval f (item.part 0)
    let (leaver, entered) ← match (← cell? v), isAsync with
      | some (.limit _), true => pure (nil, v)
      | _, _ => enter r isAsync v
    let inner := Pending.context v leaver isAsync :: rest
    let bound ← attempt (match item.part? 1 with
      | some target => assign r f target entered
      | none => return ())
    match bound with
    | .ok _ =>
      if items.isEmpty then return .block (t.slot 1) inner
      return .block [made t.kind [items, t.slot 1]] inner
    | .error (.raised e) => return .go ⟨inner, .raised e⟩
    | .error s => throw s

def enterStatement (r : Interpreter) (f : Frame) (t : Tree) (rest : List Pending) : Eval Move := do
  if !Suspension.isOpen t then return .go ⟨rest, .flow (← statement r f t)⟩
  match handingOut? t with
  | some (v, name) => beginHanding r f v name rest
  | none =>
    match t.kind with
    | .ifStmt =>
      if (← truthy r (← r.eval f (t.part 0))) then return .block (t.slot 1) rest
      else return .block (t.slot 2) rest
    | .whileLoop => return .next (.rounds t :: rest)
    | .forLoop isAsync _ =>
      let iterator ← loopIterator r isAsync (← r.eval f (t.part 1))
      return .next (.walk t iterator :: rest)
    | .withStmt isAsync _ => enterContexts r f t isAsync rest
    | .tryStmt _ =>
      let outer := if (t.slot 3).isEmpty then rest else .ensured t :: rest
      return .block (t.slot 0) (.guarded t :: outer)
    | .matchStmt =>
      return .block (← matchingCase r f (← r.eval f (t.part 0)) (t.slot 1)) rest
    | _ => return .go ⟨rest, .flow (← statement r f t)⟩

/-! ## Arriving at pending parts -/

def nextRound (arrival : Arrival) (rest : List Pending) (round : Eval Move) : Eval Move :=
  match arrival with
  | .flow .next | .flow .continueLoop => round
  | .flow .breakLoop => return .next rest
  | arrival => return .go ⟨rest, arrival⟩

def arrive (r : Interpreter) (f : Frame) (p : Pending) (rest : List Pending) (arrival : Arrival) :
    Eval Move := do
  let pass : Move := .go ⟨rest, arrival⟩
  match p with
  | .statements ts =>
    match arrival, ts with
    | .flow .next, t :: ts =>
      enterStatement r f t (if ts.isEmpty then rest else .statements ts :: rest)
    | _, _ => return pass
  | .rounds t => nextRound arrival rest do
      if (← truthy r (← r.eval f (t.part 0))) then return .block (t.slot 1) (p :: rest)
      else return .block (t.slot 2) rest
  | .walk t iterator => nextRound arrival rest do
      let isAsync := match t.kind with
        | .forLoop b _ => b
        | _ => false
      match (← loopAdvance r isAsync iterator) with
      | .stop _ => return .block (t.slot 3) rest
      | .item v =>
        assign r f (t.part 0) v
        return .block (t.slot 2) (p :: rest)
  | .guarded t =>
    match arrival with
    | .flow .next => return .block (t.slot 2) rest
    | .raised e =>
      match (← handling e (findHandler r f e (t.slot 1))) with
      | none => return pass
      | some handler =>
        let name := handlerName handler
        match name with
        | some n => assignName f n e
        | none => pure ()
        return .block (handler.slot 1) (.handling name e :: rest)
    | _ => return pass
  | .handling name _ => do
      dropHandled f name
      return pass
  | .ensured t => return .block (t.slot 3) (.restored arrival :: rest)
  | .restored before =>
    match arrival with
    | .flow .next => return .go ⟨rest, before⟩
    | _ => return pass
  | .context manager leaver isAsync =>
    if leaver = nil then return pass
    match arrival with
    | .raised e =>
      if (← handling e (leave r isAsync manager leaver (some e))) then return .next rest
      else return pass
    | _ => do
        discard (leave r isAsync manager leaver none)
        return pass
  | .store name =>
    match arrival, name with
    | .value v, some n => do
        assignName f n v
        return .next rest
    | .value _, none => return .next rest
    | _, _ => return pass
  | .delegate iterator =>
    match (← delegateStep r iterator arrival) with
    | .error e => return .go ⟨rest, .raised e⟩
    | .ok (.item v) => return .hand v (p :: rest)
    | .ok (.stop v) => return .go ⟨rest, .value v⟩

/-! ## Running -/

def moveLimit : Nat := 100000000

/-- Move on until a value is handed out or the body ends: the value, and what is left to do if it
was handed out.  `around` are the exceptions that are being handled outside. -/
def proceed (r : Interpreter) (f : Frame) (around : List Value) :
    Nat → Standing → Eval (Value × Option (List Pending))
  | 0, _ => throw .exhausted
  | fuel + 1, ⟨rest, arrival⟩ => do
      match rest with
      | [] =>
        match arrival with
        | .flow (.result v) => return (v, none)
        | .raised e => throw (.raised e)
        | _ => return (nil, none)
      | p :: rest =>
        modify fun m => { m with handled := handledIn rest ++ around }
        match (← attempt (arrive r f p rest arrival)) with
        | .ok (.go standing) => proceed r f around fuel standing
        | .ok (.hand v rest) => return (v, some rest)
        | .error (.raised e) => proceed r f around fuel ⟨rest, .raised e⟩
        | .error s => throw s

def raiseEnded {α : Type} (f : Closure) (e : Value) : Eval α := do
  let kind := if f.isAsync then "async generator" else "generator"
  let stop ← isKnown e "StopIteration"
  let stopAsync ← isKnown e "StopAsyncIteration"
  if stop || (f.isAsync && stopAsync) then
    let name := if stop then "StopIteration" else "StopAsyncIteration"
    let wrapped ← newExceptionOf (classCell "RuntimeError") [ofString (kind ++ " raised " ++ name)] []
    changeException wrapped fun d => { d with cause := e, context := e, isFinal := true }
    throw (.raised wrapped)
  throw (.raised e)

def resumeStep (r : Interpreter) (i : Nat) (input : Resumption) : Eval Step := do
  match (← cellAt i) with
  | .generator f scope progress =>
    let kind := if f.isAsync then "async generator" else "generator"
    let finish := setCell i (.generator f scope .finished)
    let run := fun (standing : Standing) => do
      let around := (← get).handled
      setCell i (.generator f scope .running)
      let result ← attempt (nested (proceed r (f.frame scope) around moveLimit standing))
      modify fun m => { m with handled := around }
      match result with
      | .ok (v, some rest) =>
        setCell i (.generator f scope (.suspended rest))
        return Step.item v
      | .ok (v, none) =>
        finish
        return .stop v
      | .error (.raised e) =>
        finish
        raiseEnded f e
      | .error s => throw s
    match progress, input with
    | .running, _ =>
      if f.isAsync then
        raise "RuntimeError" "anext(): asynchronous generator is already running"
      valueError (kind ++ " already executing")
    | .finished, .send _ => return .stop nil
    | .finished, .throw e => throw (.raised e)
    | .fresh, .send v =>
      if v ≠ nil then typeError ("can't send non-None value to a just-started " ++ kind)
      run ⟨[.statements f.body], .flow .next⟩
    | .fresh, .throw e =>
      finish
      throw (.raised e)
    | .suspended rest, .send v => run ⟨rest, .value v⟩
    | .suspended rest, .throw e =>
      modify fun m => { m with handled := handledIn rest ++ m.handled }
      noteContext e
      modify fun m => { m with handled := m.handled.drop (handledIn rest).length }
      run ⟨rest, .raised e⟩
  | .coroutine name task => resumeCoroutine r i name task input
  | _ => typeError "object is not a generator"

end Sandbox

end MacroExpand
