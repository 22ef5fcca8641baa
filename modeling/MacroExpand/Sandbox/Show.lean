import MacroExpand.Sandbox.Known
import MacroExpand.Number.Shortest
import MacroExpand.Text.Codec
import MacroExpand.Web.Message

/-!
# Values as text

Every value has a text for programmers, which shows what it is, and a text for readers.  Classes of
the program may give texts of their own.
-/

set_option autoImplicit false

namespace MacroExpand

namespace Sandbox

/-! ## Attributes of classes -/

def findAttribute (name : String) : List Nat → Eval (Option Value)
  | [] => return none
  | cls :: rest => do
      match lookup (← classData cls).attributes name with
      | some v => return some v
      | none => findAttribute name rest

def ownAttribute? (cls : Nat) (name : String) : Eval (Option Value) := do
  findAttribute name (← classData cls).lineage

def callOwn? (r : Interpreter) (v : Value) (name : String) (args : List Value) :
    Eval (Option Value) := do
  match (← ownAttribute? (← classOf v) name) with
  | some f => return some (← r.call f ⟨v :: args, []⟩)
  | none => return none

/-! ## Scalars -/

def partText (d : Double) : Text :=
  let t := d.text
  if (chars ".0").isSuffixOf t then t.take (t.length - 2) else t

def complexText (re im : Double) : Text :=
  if re == .zero then partText im ++ ['j']
  else
    let tail := partText im
    let signed := if tail.head? == some '-' then tail else '+' :: tail
    '(' :: (partText re ++ signed ++ ['j', ')'])

def wholeText (n : Int) : Eval Text := do
  if exceedsDigits n then valueError digitLimitMessage
  return intText n

def scalarText : Scalar → Eval Text
  | .nil => return chars "None"
  | .bool b => return chars (if b then "True" else "False")
  | .int n => wholeText n
  | .float d => return d.text
  | .complex re im => return complexText re im
  | .str s => return Text.quoted s
  | .codes s => return Text.quotedPoints s.points
  | .bytes b => return quotedBytes b
  | .ellipsis => return chars "Ellipsis"

/-! ## Calendar -/

def callText (name : String) (args : List Text) : Text :=
  name.toList ++ '(' :: (Text.joinWith (chars ", ") args ++ [')'])

def natText (n : Nat) : Text := Nat.toDigits 10 n

def durationCode (d : Duration) : Text :=
  let part := fun (name : String) (n : Int) =>
    if n = 0 then [] else [name.toList ++ '=' :: intText n]
  let parts := part "days" d.days ++ part "seconds" d.seconds ++ part "microseconds" d.microseconds
  callText "datetime.timedelta" (if parts.isEmpty then [['0']] else parts)

def durationText (d : Duration) : Text :=
  let s := d.seconds.toNat
  let clock := natText (s / 3600) ++ ':' :: (paddedDigits 2 (s / 60 % 60) ++ ':' ::
    paddedDigits 2 (s % 60))
  let fraction := if d.microseconds = 0 then [] else '.' :: paddedDigits 6 d.microseconds.toNat
  let days := if d.days = 0 then []
    else intText d.days ++ chars (if d.days.natAbs = 1 then " day, " else " days, ")
  days ++ clock ++ fraction

def offsetName (offset : Duration) : Text :=
  if offset.micros = 0 then chars "UTC" else chars "UTC" ++ TimeOfDay.offsetText offset

def timezoneCode (offset : Duration) (name : Option Text) : Text :=
  match name with
  | none => if offset.micros = 0 then chars "datetime.timezone.utc"
      else callText "datetime.timezone" [durationCode offset]
  | some n => callText "datetime.timezone" [durationCode offset, Text.quoted n]

def timeParts (t : TimeOfDay) : List Text :=
  let tail := if t.micro ≠ 0 then [natText t.second, natText t.micro]
    else if t.second ≠ 0 then [natText t.second] else []
  [natText t.hour, natText t.minute] ++ tail

def zoneParts (t : TimeOfDay) : List Text :=
  match t.offset with
  | none => []
  | some o => [chars "tzinfo=" ++ timezoneCode o none]

def stateCode (cls : String) : State → Option Text
  | .datetime t => some (callText "datetime.datetime"
      ([natText t.date.year, natText t.date.month, natText t.date.day] ++ timeParts t.time ++
        zoneParts t.time))
  | .date d => some (callText "datetime.date" [natText d.year, natText d.month, natText d.day])
  | .time t => some (callText "datetime.time" (timeParts t ++ zoneParts t))
  | .timedelta d => some (durationCode d)
  | .path p => some (callText cls [Text.quoted p.text])
  | .url u => some (callText "URL" [Text.quoted u.guardedText])
  | .queryParams pairs => some (callText "QueryParams" [Text.quoted (queryText pairs)])
  | .headers h =>
    let items := h.guardedItems
    let between := fun (first middle last : Text) =>
      Text.joinWith (chars ", ") (items.map fun (n, v) =>
        first ++ Text.quoted n ++ middle ++ Text.quoted v ++ last)
    some (callText "Headers" [
      if (items.map Prod.fst).eraseDups.length = items.length then
        '\x7b' :: (between [] (chars ": ") [] ++ ['\x7d'])
      else '[' :: (between ['('] (chars ", ") [')'] ++ [']'])])
  | .request q => some (chars "<Request(" ++ Text.quoted q.method ++ chars ", " ++
      Text.quoted q.url.text ++ chars ")>")
  | .bytearray b => some (callText "bytearray" [quotedBytes b])
  | .decimal d => some (callText "Decimal" [Text.quoted d.text])
  | .uuid u => some (callText "UUID" [Text.quoted u.text])
  | .fraction num den => some (callText "Fraction" [intText num, natText den])
  | .memoryview .. => none
  | _ => none

def statePlain : State → Option Text
  | .datetime t => some (t.textWith ' ')
  | .date d => some d.text
  | .time t => some t.text
  | .timedelta d => some (durationText d)
  | .path p => some p.text
  | .url u => some u.text
  | .queryParams pairs => some (queryText pairs)
  | .decimal d => some d.text
  | .uuid u => some u.text
  | .fraction num den => some (if den = 1 then intText num else intText num ++ '/' :: natText den)
  | _ => none

/-! ## Objects -/

def address (i : Nat) : Text := hexDigits (0x7f0000000000 + 48 * i) 12

def objectText (name : String) (i : Nat) : Text :=
  chars "<" ++ name.toList ++ chars " object at 0x" ++ address i ++ ['>']

def fullName (c : ClassData) : String :=
  if c.module == "builtins" then c.qualname else c.module ++ "." ++ c.qualname

def nativeName (key : String) : String :=
  ((functionTable.find? fun f => f.1 == key).map Prod.snd).getD key

def showDepth : Nat := 330

def codeIn (r : Interpreter) : Nat → List Nat → Value → Eval Text
  | 0, _, _ =>
    raise "RecursionError" "maximum recursion depth exceeded while getting the repr of an object"
  | _ + 1, _, .scalar s => scalarText s
  | fuel + 1, around, .ref i => do
      let inner := codeIn r fuel (i :: around)
      let all := fun (vs : List Value) => do
        return Text.joinWith (chars ", ") (← vs.mapM inner)
      let pairs := fun (es : List (Value × Value)) => do
        let parts ← es.mapM fun (k, v) => do
          let k ← inner k
          return k ++ ':' :: ' ' :: (← inner v)
        return Text.joinWith (chars ", ") parts
      let couples := fun (es : List (Value × Value)) => do
        let parts ← es.mapM fun (k, v) => do
          let k ← inner k
          return '(' :: (k ++ ',' :: ' ' :: ((← inner v) ++ [')']))
        return Text.joinWith (chars ", ") parts
      let again := around.contains i
      let cls ← classData (← classOf (.ref i))
      match (← cellAt i) with
      | .list xs => if again then return chars "[...]" else
          return '[' :: ((← all xs) ++ [']'])
      | .tuple xs => if again then return chars "(...)" else
          match xs with
          | [x] => return '(' :: ((← inner x) ++ [',', ')'])
          | xs => return '(' :: ((← all xs) ++ [')'])
      | .dict es => if again then return chars "\x7b...\x7d" else
          return '\x7b' :: ((← pairs es) ++ ['\x7d'])
      | .set xs => if xs.isEmpty then return chars "set()" else
          return '\x7b' :: ((← all xs) ++ ['\x7d'])
      | .frozenset xs => if xs.isEmpty then return chars "frozenset()" else
          return chars "frozenset(\x7b" ++ (← all xs) ++ ['\x7d', ')']
      | .cls c => return chars "<class '" ++ (fullName c).toList ++ chars "'>"
      | .function f =>
        return chars "<function " ++ f.qualname.toList ++ chars " at 0x" ++ address i ++ ['>']
      | .native name => return chars "<built-in function " ++ (nativeName name).toList ++ ['>']
      | .nativeMethod self _ name =>
        return chars "<built-in method " ++ name.toList ++ chars " of " ++
          (← typeName self).toList ++ chars " object at 0x" ++ address i ++ ['>']
      | .unbound owner name =>
        let shown := (← classData (classCell owner)).shownName
        return chars "<method '" ++ name.toList ++ chars "' of '" ++ shown.toList ++
          chars "' objects>"
      | .method self f =>
        match (← cell? f) with
        | some (.function c) =>
          return chars "<bound method " ++ c.qualname.toList ++ chars " of " ++ (← inner self) ++
            ['>']
        | _ => return objectText (fullName cls) i
      | .generator f _ _ =>
        return chars (if f.isAsync then "<async_generator object " else "<generator object ") ++
          f.qualname.toList ++ chars " at 0x" ++ address i ++ ['>']
      | .coroutine name _ =>
        return chars "<coroutine object " ++ name.toList ++ chars " at 0x" ++ address i ++ ['>']
      | .module name scope =>
        let file := match lookup (← scopeAt scope).bindings "__file__" with
          | some (.scalar (.str t)) => chars " from " ++ Text.quoted t
          | _ => chars " (built-in)"
        return chars "<module '" ++ name.toList ++ '\'' :: (file ++ ['>'])
      | .exception e =>
        match (← callOwn? r (.ref i) "__repr__" []) with
        | some (.scalar (.str t)) => return t
        | some v => typeError ("__repr__ returned non-string (type " ++ (← typeName v) ++ ")")
        | none => if again then return chars (cls.name ++ "(...)") else
            match e.args with
            | [x] => return cls.name.toList ++ '(' :: ((← inner x) ++ [')'])
            | args => return cls.name.toList ++ '(' :: ((← all args) ++ [')'])
      | .range a b s =>
        return callText "range" ([intText a, intText b] ++ if s = 1 then [] else [intText s])
      | .slice a b s => return chars "slice(" ++ (← all [a, b, s]) ++ [')']
      | .environment es =>
        let parts := es.map fun (k, v) => Text.quoted k ++ ':' :: ' ' :: Text.quoted v
        return chars "mappingproxy(\x7b" ++ Text.joinWith (chars ", ") parts ++ ['\x7d', ')']
      | .view name d => if again then return chars "..." else do
          let es := match (← cellAt d) with
            | .dict es | .known _ (.ordered es) | .known _ (.formData es) => es
            | _ => []
          if name == "dict_items" then return chars (name ++ "([") ++ (← couples es) ++ [']', ')']
          else
            let side := if name == "dict_keys" then Prod.fst else Prod.snd
            return chars (name ++ "([") ++ (← all (es.map side)) ++ [']', ')']
      | .timezone o n => return timezoneCode o n
      | .descriptor kind f => return callText ("<" ++ kind) [← inner f] ++ ['>']
      | .superView start self =>
        let shown := fun (c : ClassData) => if c.own then fullName c else c.name
        let object ← match self with
          | .scalar .nil => pure "NULL"
          | v => do pure ("<" ++ shown (← classData (← classOf v)) ++ " object>")
        return chars ("<super: <class '" ++ (← classData start).name ++ "'>, " ++ object ++ ">")
      | .parametrized origin args => do
          let shown := fun (v : Value) => do
            match (← cell? v) with
            | some (.cls c) => return (fullName c).toList
            | _ => inner v
          let parts ← args.mapM shown
          return (← shown origin) ++ '[' :: (Text.joinWith (chars ", ") parts ++ [']'])
      | .union members => do
          let parts ← members.mapM fun v => do
            match (← cell? v) with
            | some (.cls c) =>
              return if v = classValue "NoneType" then chars "None" else (fullName c).toList
            | _ => inner v
          return Text.joinWith (chars " | ") parts
      | .object c attributes base =>
        match (← callOwn? r (.ref i) "__repr__" []) with
        | some (.scalar (.str t)) => return t
        | some v => typeError ("__repr__ returned non-string (type " ++ (← typeName v) ++ ")")
        | none =>
          match base with
          | some (.ref b) =>
            if c = classCell "IsoCalendarDate" then
              let parts ← attributes.mapM fun (n, x) => do return n.toList ++ '=' :: (← inner x)
              return callText (fullName cls) parts
            match (← cellAt b) with
            | .set xs | .frozenset xs =>
              if xs.isEmpty then return chars (cls.name ++ "()")
              else return chars (cls.name ++ "(\x7b") ++ (← all xs) ++ ['\x7d', ')']
            | _ => inner (.ref b)
          | some b => inner b
          | none => return objectText (fullName (← classData c)) i
      | .known name (.ordered es) => if again then return chars "..." else
          if es.isEmpty then return chars (name ++ "()")
          else return chars (name ++ "([") ++ (← couples es) ++ [']', ')']
      | .known _ (.formData es) => return chars "FormData([" ++ (← couples es) ++ [']', ')']
      | .known "NotImplementedType" _ => return chars "NotImplemented"
      | .known _ (.response p) =>
        return chars "<Response [" ++ (← inner p.status) ++ ' ' :: (p.words ++ [']', '>'])
      | .known _ (.memoryview ..) => return chars "<memory at 0x" ++ address i ++ ['>']
      | .known name state =>
        match stateCode name state with
        | some t => return t
        | none => return objectText (fullName cls) i
      | _ => return objectText (fullName cls) i

def codeText (r : Interpreter) (v : Value) : Eval Text := codeIn r showDepth [] v

/-! ## Exceptions -/

def textAttribute (attributes : List (String × Value)) (name : String) : Option Text :=
  match lookup attributes name with
  | some (.scalar (.str t)) => some t
  | _ => none

/-- The text of an error in reading or writing an encoding: `single` says what stands at the place if
that is one thing. -/
def codingText (front doing one many : String) (start stop : Int) (single : Option String)
    (reason : Text) : Text :=
  let place := match single, decide (stop = start + 1) with
    | some what, true => one ++ " " ++ what ++ " in position " ++ toString start
    | _, _ => many ++ " in position " ++ toString start ++ "-" ++ toString (stop - 1)
  chars (front ++ "can't " ++ doing ++ " " ++ place ++ ": ") ++ reason

def codingError? : List Value → Option Text
  | [.scalar (.str codec), .scalar (.bytes b), .scalar (.int start), .scalar (.int stop),
      .scalar (.str reason)] =>
      some (codingText ("'" ++ String.ofList codec ++ "' codec ") "decode" "byte" "bytes" start stop
        ((b[start.toNat]?).map fun x => "0x" ++ String.ofList (hexDigits x.toNat 2)) reason)
  | [.scalar (.str codec), .scalar s, .scalar (.int start), .scalar (.int stop),
      .scalar (.str reason)] =>
      s.points?.map fun points => codingText ("'" ++ String.ofList codec ++ "' codec ") "encode"
        "character" "characters" start stop (shown points start) reason
  | [.scalar (.str t), .scalar (.int start), .scalar (.int stop), .scalar (.str reason)] =>
    some (codingText "" "translate" "character" "characters" start stop (shown (t.map .char) start)
      reason)
  | _ => none
where
  shown (points : List CodePoint) (start : Int) : Option String :=
    (points[start.toNat]?).map fun p => "'" ++ CodecFault.escaped p.toNat ++ "'"

/-- A string that is no text has none to show. -/
def encodingFault {α : Type} (s : Codes) : Eval α :=
  let place := s.points.findIdx fun p => p.char?.isNone
  raiseWith "UnicodeEncodeError" [ofString "utf-8", .scalar (.codes s), ofNat place, ofNat (place + 1),
    ofString "surrogates not allowed"]

mutual

def plainIn (r : Interpreter) : Nat → Value → Eval Text
  | 0, v => codeText r v
  | _ + 1, .scalar (.str s) => return s
  | _ + 1, .scalar (.codes s) => encodingFault s
  | _ + 1, .scalar s => scalarText s
  | fuel + 1, .ref i => do
      match (← cellAt i) with
      | .exception e => do
          match (← callOwn? r (.ref i) "__str__" []) with
          | some (.scalar (.str t)) => return t
          | some v => typeError ("__str__ returned non-string (type " ++ (← typeName v) ++ ")")
          | none => exceptionIn r fuel e
      | .object _ _ base =>
        match (← callOwn? r (.ref i) "__str__" []) with
        | some (.scalar (.str t)) => return t
        | some v => typeError ("__str__ returned non-string (type " ++ (← typeName v) ++ ")")
        | none =>
          match base, (← ownAttribute? (← classOf (.ref i)) "__repr__") with
          | some (.scalar b), none => plainIn r fuel (.scalar b)
          | some (.ref b), none =>
            match (← cellAt b) with
            | .known _ s =>
              match statePlain s with
              | some t => return t
              | none => codeText r (.ref i)
            | _ => codeText r (.ref i)
          | _, _ => codeText r (.ref i)
      | .timezone o n => return n.getD (offsetName o)
      | .known _ state =>
        match statePlain state with
        | some t => return t
        | none => codeText r (.ref i)
      | _ => codeText r (.ref i)

def exceptionIn (r : Interpreter) : Nat → ExceptionData → Eval Text
  | 0, _ => return []
  | fuel + 1, e => do
      let lineage := (← classData e.cls).lineage
      let is := fun (key : String) => lineage.contains (classCell key)
      let located := fun (t : Text) => do
        match lookup e.attributes "filename", lookup e.attributes "lineno" with
        | some (.scalar (.str file)), some (.scalar (.int line)) =>
          return t ++ chars " (" ++ file ++ chars (", line " ++ toString line ++ ")")
        | some (.scalar (.str file)), _ => return t ++ chars " (" ++ file ++ chars ")"
        | _, some (.scalar (.int line)) => return t ++ chars (" (line " ++ toString line ++ ")")
        | _, _ => return t
      if is "UnicodeError" then
        if let some t := codingError? e.args then return t
      match e.args with
      | [] => if is "SyntaxError" then return chars "None" else return []
      | [v] =>
        if is "KeyError" then codeText r v
        else if is "SyntaxError" then do located (← plainIn r fuel v)
        else plainIn r fuel v
      | first :: second :: rest =>
        if is "OSError" && rest.length < 4 then
          let head := chars "[Errno " ++ (← plainIn r fuel first) ++ chars "] " ++
            (← plainIn r fuel second)
          let path := lookup e.attributes "filename"
          match path, lookup e.attributes "filename2" with
          | some p, some q =>
            return head ++ chars ": " ++ (← codeText r p) ++ chars " -> " ++ (← codeText r q)
          | some p, none => return head ++ chars ": " ++ (← codeText r p)
          | none, _ => return head
        else if is "SyntaxError" then do located (← plainIn r fuel first)
        else if is "BaseExceptionGroup" then
          let count := match (← cell? second) with
            | some (.tuple xs) | some (.list xs) => xs.length
            | _ => 0
          return (← plainIn r fuel first) ++ chars (" (" ++ toString count ++ " sub-exception" ++
            (if count = 1 then ")" else "s)"))
        else
          let parts ← (first :: second :: rest).mapM (codeText r)
          return '(' :: (Text.joinWith (chars ", ") parts ++ [')'])

end

def plainText (r : Interpreter) (v : Value) : Eval Text := plainIn r 8 v

end Sandbox

end MacroExpand
