import MacroExpand.Sandbox.Functions

/-!
# Exceptions

An exception keeps the arguments it was made with.  Some classes read parts out of them, such as the
number of a system error or the place of a fault in a text; groups hold other exceptions.
-/

set_option autoImplicit false

namespace MacroExpand

namespace Sandbox

/-! ## Making -/

def systemErrorClass : Int → Option String
  | 1 | 13 => some "PermissionError"
  | 2 => some "FileNotFoundError"
  | 3 => some "ProcessLookupError"
  | 4 => some "InterruptedError"
  | 10 => some "ChildProcessError"
  | 11 | 114 | 115 => some "BlockingIOError"
  | 17 => some "FileExistsError"
  | 20 => some "NotADirectoryError"
  | 21 => some "IsADirectoryError"
  | 32 | 108 => some "BrokenPipeError"
  | 103 => some "ConnectionAbortedError"
  | 104 => some "ConnectionResetError"
  | 110 => some "TimeoutError"
  | 111 => some "ConnectionRefusedError"
  | _ => none

def exceptionOptions (lineage : List Nat) : List String :=
  let is := fun (key : String) => lineage.contains (classCell key)
  if is "ImportError" then ["name", "path"]
  else if is "AttributeError" then ["name", "obj"]
  else if is "NameError" then ["name"]
  else []

def checkExceptionNames (c : ClassData) (a : Arguments) : Eval Unit := do
  let options := exceptionOptions c.lineage
  match a.keyword.find? fun (k, _) => !options.contains k with
  | none => return ()
  | some (k, _) =>
    if options.isEmpty then typeError (c.name ++ "() takes no keyword arguments")
    let base := if options == ["name", "path"] then "ImportError"
      else if options == ["name"] then "NameError" else "AttributeError"
    typeError ("'" ++ k ++ "' is an invalid keyword argument for " ++ base ++ "()")

def checkCodingError (c : ClassData) (args : List Value) : Eval Unit := do
  let is := fun (key : String) => c.lineage.contains (classCell key)
  let isTranslation := is "UnicodeTranslateError"
  let count := if isTranslation then 4 else 5
  if args.length ≠ count then
    typeError ("function takes exactly " ++ toString count ++ " arguments (" ++
      toString args.length ++ " given)")
  let mustBe := fun (k : Nat) (ok : Bool) (expected : String) => do
    if !ok then
      typeError ("argument " ++ toString (k + 1) ++ " must be " ++ expected ++ ", not " ++
        (← argumentName (args.getD k nil)))
  let isText := fun (k : Nat) => do return (← text? (args.getD k nil)).isSome
  let isWhole := fun (k : Nat) => do
    if (index? (← unwrap (args.getD k nil))).isNone then
      typeError ("'" ++ (← typeName (args.getD k nil)) ++ "' object cannot be interpreted as an integer")
  let start := count - 4
  mustBe 0 (← isText 0) "str"
  if is "UnicodeDecodeError" then
    if (← bytes? (args.getD 1 nil)).isNone then
      typeError ("a bytes-like object is required, not '" ++ (← typeName (args.getD 1 nil)) ++ "'")
  else if !isTranslation then mustBe 1 (← isText 1) "str"
  isWhole (start + 1)
  isWhole (start + 2)
  mustBe (start + 3) (← isText (start + 3)) "str"

def checkGroup (c : ClassData) (args : List Value) : Eval Bool := do
  match args with
  | [message, members] =>
    if (← text? message).isNone then
      typeError ("BaseExceptionGroup.__new__() argument 1 must be str, not " ++
        (← argumentName message))
    let items ← match (← core? members) with
      | some (.list xs) | some (.tuple xs) => pure xs
      | _ => typeError "second argument (exceptions) must be a sequence"
    if items.isEmpty then
      valueError "second argument (exceptions) must be a non-empty sequence"
    let mut onlyErrors := true
    for (x, k) in items.zipIdx do
      if !(← isKnown x "BaseException") then
        valueError ("Item " ++ toString k ++
          " of second argument (exceptions) is not an exception")
      if !(← isKnown x "Exception") then onlyErrors := false
    if !onlyErrors && c.lineage.contains (classCell "Exception") then
      typeError (if c.own then "Cannot nest BaseExceptions in '" ++ c.name ++ "'"
        else "Cannot nest BaseExceptions in an ExceptionGroup")
    return onlyErrors
  | args =>
    typeError ("BaseExceptionGroup.__new__() takes exactly 2 arguments (" ++
      toString args.length ++ " given)")

def exceptionParts (r : Interpreter) (cls : Nat) (c : ClassData) (a : Arguments) :
    Eval (Nat × List Value × List (String × Value)) := do
  let is := fun (key : String) => c.lineage.contains (classCell key)
  let args := a.positional
  if is "OSError" then
    match args with
    | number :: reason :: rest =>
      let cls := match cls == classCell "OSError", number with
        | true, .scalar (.int n) => ((systemErrorClass n).map classCell).getD cls
        | _, _ => cls
      if 5 < args.length then return (cls, args, [])
      let named := fun (k : Nat) (name : String) => match rest[k]? with
        | none | some (.scalar .nil) => []
        | some v => [(name, v)]
      return (cls, if (named 0 "filename").isEmpty then args else [number, reason],
        named 0 "filename" ++ named 2 "filename2")
    | _ => return (cls, args, [])
  else if is "UnicodeError" && !(cls == classCell "UnicodeError") &&
      ["UnicodeDecodeError", "UnicodeEncodeError", "UnicodeTranslateError"].any is then
    checkCodingError c args
    let fixed ← args.mapM fun v => do
      match (← core? v), (← bytes? v) with
      | some (.known ..), some b => return ofBytes b
      | _, _ => return v
    return (cls, fixed, [])
  else if is "SyntaxError" then
    match args with
    | [_, place] =>
      let parts ← iterate r place
      if parts.length < 4 then
        typeError ("function takes at least 4 arguments (" ++ toString parts.length ++ " given)")
      if 6 < parts.length then
        typeError ("function takes at most 6 arguments (" ++ toString parts.length ++ " given)")
      if parts.length = 5 then typeError "end_offset must be provided when end_lineno is provided"
      return (cls, args, ["filename", "lineno", "offset", "text", "end_lineno", "end_offset"].zip parts)
    | _ => return (cls, args, [])
  else if is "BaseExceptionGroup" then
    let onlyErrors ← checkGroup c args
    let cls := if cls == classCell "BaseExceptionGroup" && onlyErrors then classCell "ExceptionGroup"
      else cls
    return (cls, args, [])
  else return (cls, args, a.keyword)

def newException (r : Interpreter) (cls : Nat) (c : ClassData) (a : Arguments) : Eval Value := do
  checkExceptionNames c a
  let (cls, args, attributes) ← exceptionParts r cls c a
  alloc (.exception { cls, args, attributes })

/-! ## Parts -/

def groupMembers (e : ExceptionData) : Eval (List Value) := do
  match e.args with
  | _ :: members :: _ =>
    match (← core? members) with
    | some (.list xs) | some (.tuple xs) => return xs
    | _ => return []
  | _ => return []

def exceptionPart? (e : ExceptionData) (name : String) : Eval (Option Value) := do
  let lineage := (← classData e.cls).lineage
  let is := fun (key : String) => lineage.contains (classCell key)
  let at? := fun (k : Nat) => some (e.args.getD k nil)
  let when := fun (b : Bool) (v : Option Value) => if b then v else none
  let noted := (lookup e.attributes name).getD nil
  let isCoding := ["UnicodeDecodeError", "UnicodeEncodeError"].any is
  match name with
  | "args" => return some (← newTuple e.args)
  | "__cause__" => return some e.cause
  | "__context__" => return some e.context
  | "__suppress_context__" => return some (ofBool e.isFinal)
  | "__traceback__" => return some nil
  | "errno" => return when (is "OSError") (if e.args.length < 2 then some nil else at? 0)
  | "strerror" => return when (is "OSError") (if e.args.length < 2 then some nil else at? 1)
  | "filename" => return when (is "OSError" || is "SyntaxError") (some noted)
  | "filename2" => return when (is "OSError") (some noted)
  | "lineno" | "offset" | "text" | "end_lineno" | "end_offset" =>
    return when (is "SyntaxError") (some noted)
  | "value" => return when (is "StopIteration") (at? 0)
  | "code" =>
    if !is "SystemExit" then return none
    match e.args with
    | [] => return some nil
    | [v] => return some v
    | args => return some (← newTuple args)
  | "msg" =>
    return if is "ImportError" then (if e.args.length = 1 then at? 0 else some nil)
      else when (is "SyntaxError" || is "JSONDecodeError") (at? 0)
  | "name" => return when (is "ImportError" || is "NameError" || is "AttributeError") (some noted)
  | "path" => return when (is "ImportError") (some noted)
  | "obj" => return when (is "AttributeError") (some noted)
  | "encoding" => return when isCoding (at? 0)
  | "object" => return if is "UnicodeTranslateError" then at? 0 else when isCoding (at? 1)
  | "start" => return if is "UnicodeTranslateError" then at? 1 else when isCoding (at? 2)
  | "end" => return if is "UnicodeTranslateError" then at? 2 else when isCoding (at? 3)
  | "reason" => return if is "UnicodeTranslateError" then at? 3 else when isCoding (at? 4)
  | "message" => return when (is "BaseExceptionGroup") (at? 0)
  | "exceptions" =>
    if is "BaseExceptionGroup" then return some (← newTuple (← groupMembers e)) else return none
  | _ => return none

def changeException (v : Value) (change : ExceptionData → ExceptionData) : Eval Unit := do
  match v, (← cell? v) with
  | .ref i, some (.exception e) => setCell i (.exception (change e))
  | _, _ => return ()

def setExceptionPart (r : Interpreter) (v : Value) (name : String) (x : Value) : Eval Bool := do
  let link := fun (what : String) (change : ExceptionData → ExceptionData) => do
    if x ≠ nil && !(← isKnown x "BaseException") then
      typeError ("exception " ++ what ++ " must be None or derive from BaseException")
    changeException v change
    return true
  match name with
  | "args" => do
      let items ← iterate r x
      changeException v fun e => { e with args := items }
      return true
  | "__cause__" => link "cause" fun e => { e with cause := x, isFinal := true }
  | "__context__" => link "context" fun e => { e with context := x }
  | "__suppress_context__" => do
      let b ← truthy r x
      changeException v fun e => { e with isFinal := b }
      return true
  | "__traceback__" =>
    if x ≠ nil then typeError "__traceback__ must be a traceback or None"
    return true
  | _ => return false

/-! ## Groups -/

def groupDepth : Nat := 500

def classesIn (message : String) : Nat → Value → Eval (List Nat)
  | 0, _ => typeError message
  | fuel + 1, v => do
      match v with
      | .scalar _ => typeError message
      | .ref i =>
        match (← cellAt i) with
        | .cls _ => return [i]
        | .tuple vs => do
            let parts ← vs.mapM (classesIn message fuel)
            return parts.flatten
        | _ => typeError message

def regrouped (r : Interpreter) (v : Value) (members : List Value) : Eval (Option Value) := do
  if members.isEmpty then return none
  match (← cell? v) with
  | some (.exception e) =>
    let message := e.args.headD nil
    let derived ← match (← callOwn? r v "derive" [← newList members]) with
      | some d => pure d
      | none =>
        let cls := classCell "BaseExceptionGroup"
        newException r cls (← classData cls) ⟨[message, ← newList members], []⟩
    changeException derived fun d => { d with
      cause := e.cause, context := e.context, isFinal := e.isFinal, raisings := e.raisings
      attributes := match lookup e.attributes "__notes__" with
        | some notes => bind d.attributes "__notes__" notes
        | none => d.attributes }
    return some derived
  | _ => return none

/-- Split an exception by a test: the part that passes and the part that does not.  A group that
passes as a whole is kept. -/
def splitException (r : Interpreter) (test : Value → Eval Bool) :
    Nat → Value → Eval (Option Value × Option Value)
  | 0, v => return (none, some v)
  | fuel + 1, v => do
      if (← test v) then return (some v, none)
      match (← cell? v), (← isKnown v "BaseExceptionGroup") with
      | some (.exception e), true =>
        let parts ← (← groupMembers e).mapM (splitException r test fuel)
        let passing := parts.filterMap Prod.fst
        let others := parts.filterMap Prod.snd
        if passing.isEmpty then return (none, some v)
        return (← regrouped r v passing, ← regrouped r v others)
      | _, _ => return (none, some v)

def groupTest (r : Interpreter) (condition : Value) : Eval (Value → Eval Bool) := do
  let message := "expected a function, exception type or tuple of exception types"
  let isFunction ← match (← cell? condition) with
    | some (.cls _) | some (.tuple _) => pure false
    | _ => isCallable condition
  if isFunction then return fun v => do truthy r (← r.call condition ⟨[v], []⟩)
  let classes ← classesIn message 20 condition
  classes.forM fun cls => do
    if !(← descends cls (classCell "BaseException")) then typeError message
  return fun v => do
    let lineage := (← classData (← classOf v)).lineage
    return classes.any lineage.contains

def groupMethods : List Native := [
  .single "split" fun r v condition => do
    let (passing, others) ← splitException r (← groupTest r condition) groupDepth v
    newTuple [passing.getD nil, others.getD nil],
  .single "subgroup" fun r v condition => do
    return (← splitException r (← groupTest r condition) groupDepth v).1.getD nil,
  .single "derive" fun r v members => do
    match (← cell? v) with
    | some (.exception e) =>
      let cls := classCell "BaseExceptionGroup"
      newException r cls (← classData cls) ⟨[e.args.headD nil, members], []⟩
    | _ => return nil]

/-! ## Methods -/

def exceptionMethods : List Native := [
  .free "__init__" fun r v a => do
    match (← cell? v) with
    | some (.exception e) =>
      let c ← classData e.cls
      checkExceptionNames c a
      let (_, args, attributes) ← exceptionParts r e.cls c a
      changeException v fun e => { e with
        args, attributes := attributes.foldl (fun done b => bind done b.1 b.2) e.attributes }
    | _ => pure ()
    return nil,
  .plain "__str__" fun r v => do
    match (← cell? v) with
    | some (.exception e) => return ofText (← exceptionIn r 8 e)
    | _ => return ofText [],
  .plain "__repr__" fun r v => do
    match (← cell? v) with
    | some (.exception e) =>
      let parts ← e.args.mapM (codeText r)
      return ofText (callText (← classData e.cls).name parts)
    | _ => return ofText [],
  .single "with_traceback" fun _ v x => do
    if x ≠ nil then typeError "__traceback__ must be a traceback or None"
    return v,
  .single "add_note" fun _ v note => do
    if (← text? note).isNone then
      typeError ("note must be a str, not '" ++ (← typeName note) ++ "'")
    match (← cell? v) with
    | some (.exception e) =>
      match lookup e.attributes "__notes__" with
      | some notes => discard (updateList notes (· ++ [note]))
      | none =>
        let notes ← newList [note]
        changeException v fun e => { e with attributes := bind e.attributes "__notes__" notes }
    | _ => pure ()
    return nil]

/-! ## Raising -/

def contextDepth : Nat := 1000

def cutContext (e : Value) : Nat → Value → Eval Unit
  | 0, _ => return ()
  | fuel + 1, v => do
      match (← cell? v) with
      | some (.exception data) =>
        if data.context = e then changeException v fun d => { d with context := nil }
        else if data.context ≠ nil then cutContext e fuel data.context
      | _ => return ()

def noteContext (e : Value) : Eval Unit := do
  match (← get).handled with
  | [] => return ()
  | current :: _ =>
    if current ≠ e then
      cutContext e contextDepth current
      changeException e fun d => { d with context := current }

def exceptionOf (r : Interpreter) (refusal : String) (v : Value) : Eval Value := do
  match (← cell? v) with
  | some (.exception ..) => return v
  | some (.cls c) =>
    if !c.lineage.contains (classCell "BaseException") then typeError refusal
    let made ← r.call v {}
    match (← cell? made) with
    | some (.exception ..) => return made
    | _ =>
      typeError ("calling " ++ String.ofList (← codeText r v) ++
        " should have returned an instance of BaseException, not " ++
        String.ofList (← codeText r (.ref (← classOf made))))
  | _ => typeError refusal

end Sandbox

end MacroExpand
