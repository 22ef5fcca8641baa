import MacroExpand.Sandbox.Sequence
import MacroExpand.Text.FormatSpec
import MacroExpand.Value.CalendarText

/-!
# Formatted values

Three ways to put values into a text: a specification behind a colon, fields in braces, and percent
signs with a letter.
-/

set_option autoImplicit false

namespace MacroExpand

namespace Sandbox

def orFormatFault {α : Type} : Except FormatFault α → Eval α
  | .ok a => return a
  | .error (.value message) => valueError message
  | .error (.overflow message) => raise "OverflowError" message
  | .error .memory => raiseWith "MemoryError" []

def asciiOnly (t : Text) : Text :=
  t.flatMap fun c => if c.toNat < 128 then [c] else Text.escapeCode c.toNat

def momentOf : State → Option DateTime
  | .datetime t => some t
  | .date d => some ⟨d, ⟨0, 0, 0, 0, none⟩⟩
  | .time t => some ⟨⟨1900, 1, 1⟩, t⟩
  | _ => none

def plainFormat (r : Interpreter) (v : Value) (spec : Text) : Eval Text := do
  if spec.isEmpty then plainText r v
  else
    let name ← typeName v
    let parsed := fun (kind : Option Char) (align : Char) =>
      FormatSpec.parse name kind align spec
    let refuse := typeError ("unsupported format string passed to " ++ name ++ ".__format__")
    match (← unwrap v) with
    | .scalar (.str t) => orFormatFault do FormatSpec.text name (← parsed (some 's') '<') t
    | .scalar (.int n) => orFormatFault do FormatSpec.int name (← parsed (some 'd') '>') n
    | .scalar (.bool b) =>
      orFormatFault do FormatSpec.int name (← parsed (some 'd') '>') (if b then 1 else 0)
    | .scalar (.float d) => orFormatFault do FormatSpec.double name (← parsed none '>') d
    | .scalar (.complex re im) =>
      orFormatFault do FormatSpec.complex name (← parsed none '>') re im
    | w =>
      match (← cell? w) with
      | some (.known _ state) =>
        match momentOf state with
        | some t => return t.format spec
        | none => refuse
      | _ => refuse

def formatted (r : Interpreter) (v : Value) (spec : Text) : Eval Text := do
  match (← callOwn? r v "__format__" [ofText spec]) with
  | some x =>
    match (← unwrap x) with
    | .scalar (.str t) => return t
    | _ => typeError ("__format__ must return a str, not " ++ (← typeName x))
  | none => plainFormat r v spec

def converted (r : Interpreter) (v : Value) : Option Char → Eval Value
  | none => return v
  | some 'r' => return ofText (← codeText r v)
  | some 's' => return ofText (← plainText r v)
  | some 'a' => return ofText (asciiOnly (← codeText r v))
  | some c => valueError ("Unknown conversion specifier " ++
      (if 32 < c.toNat && c.toNat < 127 then c.toString
       else "\\x" ++ String.ofList (Nat.toDigits 16 c.toNat)))

/-! ## Numbers of objects -/

def truncated (d : Double) : Eval Int := do
  match d.truncate? with
  | some n => return n
  | none =>
    if d.isUndefined then valueError "cannot convert float NaN to integer"
    else raise "OverflowError" "cannot convert float infinity to integer"

def numberWhole? (r : Interpreter) (v : Value) : Eval (Option Int) := do
  match (← unwrap v) with
  | .scalar (.float d) => return some (← truncated d)
  | w =>
    match index? w with
    | some n => return some n
    | none =>
      match (← callOwn? r v "__int__" []) with
      | some x =>
        match index? (← unwrap x) with
        | some n => return some n
        | none => typeError ("__int__ returned non-int (type " ++ (← typeName x) ++ ")")
      | none => wholeOf? r v

def numberDouble? (r : Interpreter) (v : Value) : Eval (Option Double) := do
  let whole := fun (n : Int) => do
    match Arithmetic.toDouble n with
    | .ok d => return some d
    | .error _ => raise "OverflowError" "int too large to convert to float"
  match (← unwrap v) with
  | .scalar (.float d) => return some d
  | w =>
    match index? w with
    | some n => whole n
    | none =>
      match (← callOwn? r v "__float__" []) with
      | some x =>
        match (← unwrap x) with
        | .scalar (.float d) => return some d
        | _ =>
          typeError ((← typeName v) ++ ".__float__ returned non-float (type " ++
            (← typeName x) ++ ")")
      | none =>
        match (← wholeOf? r v) with
        | some n => whole n
        | none => return none

def needDouble (r : Interpreter) (v : Value) : Eval Double := do
  match (← numberDouble? r v) with
  | some d => return d
  | none => typeError ("must be real number, not " ++ (← typeName v))

/-! ## Percent signs -/

structure PercentField where
  left : Bool := false
  plus : Bool := false
  blank : Bool := false
  alternate : Bool := false
  zero : Bool := false
  width : Nat := 0
  precision : Option Nat := none
  kind : Char := 's'

/-- The values that are still to be put in, and the mapping whose values have names. -/
structure PercentState where
  rest : List Value
  mapping : Option Value
  /-- Whether bytes are made, each a character. -/
  isBytes : Bool := false

def nextValue (s : PercentState) : Eval (Value × PercentState) :=
  match s.rest with
  | v :: rest => return (v, { s with rest })
  | [] => typeError "not enough arguments for format string"

def percentDigits (what : String) (limit : Nat) (text : Text) : Eval (Option Nat × Text) := do
  let digits := text.takeWhile Char.isDigit
  let n := digits.foldl (fun n c => n * 10 + (c.toNat - 48)) 0
  if limit < n then valueError (what ++ " too big")
  return (if digits.isEmpty then none else some n, text.drop digits.length)

def starNumber (s : PercentState) (kind : String) (bits : Nat) : Eval (Int × PercentState) := do
  let (v, s) ← nextValue s
  match index? (← unwrap v) with
  | some n =>
    if n < -(2 ^ bits) || 2 ^ bits ≤ n then
      raise "OverflowError" ("Python int too large to convert to C " ++ kind)
    return (n, s)
  | none => typeError "* wants int"

def PercentField.pad (f : PercentField) (t : Text) : Text :=
  let missing := List.replicate (f.width - t.length) ' '
  if f.left then t ++ missing else missing ++ t

def PercentField.number (f : PercentField) (negative : Bool) (front digits : Text) : Text :=
  let sign : Text := if negative then ['-'] else if f.plus then ['+'] else if f.blank then [' '] else []
  if f.zero && !f.left then
    let room := f.width - (sign.length + front.length + digits.length)
    sign ++ front ++ List.replicate room '0' ++ digits
  else f.pad (sign ++ front ++ digits)

def percentWhole (r : Interpreter) (f : PercentField) (isBytes : Bool) (v : Value) :
    Eval Text := do
  let n? ← if f.kind == 'o' || f.kind == 'x' || f.kind == 'X' then wholeOf? r v
    else numberWhole? r v
  match n? with
  | none =>
    let kind := if f.kind == 'o' || f.kind == 'x' || f.kind == 'X' then "an integer"
      else "a real number"
    let letter := if isBytes && f.kind == 'i' then 'd' else f.kind
    typeError ("%" ++ letter.toString ++ " format: " ++ kind ++ " is required, not " ++
      (← typeName v))
  | some n =>
    let based := fun (base : Nat) (front : String) (up : Bool) =>
      let digits := Nat.toDigits base n.natAbs
      let digits := List.replicate (f.precision.getD 0 - digits.length) '0' ++ digits
      f.number (n < 0) (if f.alternate then front.toList else [])
        (if up then digits.map Char.toUpper else digits)
    match f.kind with
    | 'o' => return based 8 "0o" false
    | 'x' => return based 16 "0x" false
    | 'X' => return based 16 "0X" true
    | _ => do
        let _ ← wholeText n
        return based 10 "" false

def percentCharacter (r : Interpreter) (f : PercentField) (isBytes : Bool) (v : Value) :
    Eval Text := do
  let refuse := typeError (if isBytes then
    "%c requires an integer in range(256) or a single byte" else "%c requires int or char")
  let limit : Int := if isBytes then 255 else FormatSpec.codeLimit
  let single : Option Char ← match (← unwrap v) with
    | .scalar (.str [c]) => pure (if isBytes then none else some c)
    | _ => do
        match (← bytes? v) with
        | some [b] => pure (if isBytes then some (Char.ofNat b.toNat) else none)
        | _ => pure none
  match single, (← wholeOf? r v) with
  | some c, _ => return f.pad [c]
  | none, some n =>
    if n < 0 ∨ limit < n then
      raise "OverflowError" ("%c arg not in range(" ++ (if isBytes then "256)" else "0x110000)"))
    return f.pad [Char.ofNat n.toNat]
  | none, none => refuse

def bytesOf (r : Interpreter) (v : Value) : Eval Text := do
  let shown := fun (b : List UInt8) => b.map fun x => Char.ofNat x.toNat
  match (← bytes? v) with
  | some b => return shown b
  | none =>
    match (← callOwn? r v "__bytes__" []) with
    | some x =>
      match (← bytes? x) with
      | some b => return shown b
      | none => typeError ("__bytes__ returned non-bytes (type " ++ (← typeName x) ++ ")")
    | none =>
      typeError ("%b requires a bytes-like object, or an object that implements __bytes__, not '" ++
        (← typeName v) ++ "'")

def percentValue (r : Interpreter) (f : PercentField) (isBytes : Bool) (v : Value) (place : Nat) :
    Eval Text := do
  let cut := fun (t : Text) => f.pad (match f.precision with
    | some p => t.take p
    | none => t)
  let ascii := do return cut (asciiOnly (← codeText r v))
  let unknown := fun (k : Char) =>
    valueError ("unsupported format character '" ++
      (if 31 ≤ k.toNat && k.toNat ≤ 126 then k else '?').toString ++ "' (0x" ++
      String.ofList (Nat.toDigits 16 k.toNat) ++ ") at index " ++ toString place)
  match f.kind with
  | 's' => do return cut (← if isBytes then bytesOf r v else plainText r v)
  | 'b' => do if isBytes then return cut (← bytesOf r v) else unknown 'b'
  | 'r' => do if isBytes then ascii else return cut (← codeText r v)
  | 'a' => ascii
  | 'd' | 'i' | 'u' | 'x' | 'X' | 'o' => percentWhole r f isBytes v
  | 'c' => percentCharacter r f isBytes v
  | k =>
    if "eEfFgG".toList.contains k then
      let d ← if isBytes then do
          match (← numberDouble? r v) with
          | some d => pure d
          | none => typeError ("float argument required, not " ++ (← typeName v))
        else needDouble r v
      let spec : FormatSpec := { precision := f.precision, alternate := f.alternate }
      let (negative, whole, tail) := spec.parts (some k) false d
      return f.number negative [] (whole ++ tail)
    else unknown k

def percentName (depth : Nat) : Text → Option (Text × Text)
  | [] => none
  | ')' :: rest =>
    match depth with
    | 0 => some ([], rest)
    | depth + 1 => (percentName depth rest).map fun (t, rest) => (')' :: t, rest)
  | c :: rest =>
    (percentName (if c == '(' then depth + 1 else depth) rest).map fun (t, rest) => (c :: t, rest)

def percentField (r : Interpreter) (total : Nat) (s : PercentState) (text : Text) :
    Eval (Text × PercentState × Text) := do
  let (s, text) ← match text with
    | '(' :: more => do
        match s.mapping with
        | none => typeError "format requires a mapping"
        | some m =>
          match percentName 0 more with
          | none => valueError "incomplete format key"
          | some (name, more) =>
            let key := if s.isBytes then ofBytes (name.map fun c => c.toNat.toUInt8)
              else ofText name
            let x ← getItem r m key
            pure ({ s with rest := [x] }, more)
    | more => pure (s, more)
  let isFlag := fun c => "-+ #0".toList.contains c
  let flags := text.takeWhile isFlag
  let f : PercentField := {
    left := flags.contains '-', plus := flags.contains '+', blank := flags.contains ' '
    alternate := flags.contains '#', zero := flags.contains '0' }
  let (f, s, text) : PercentField × PercentState × Text ← match text.drop flags.length with
    | '*' :: more => do
        let (n, s) ← starNumber s "ssize_t" 63
        pure ({ f with width := n.natAbs, left := f.left || n < 0 }, s, more)
    | more => do
        let (n, more) ← percentDigits "width" (2 ^ 63 - 1) more
        pure ({ f with width := n.getD 0 }, s, more)
  let (f, s, text) : PercentField × PercentState × Text ← match text with
    | '.' :: '*' :: more => do
        let (n, s) ← starNumber s "int" 31
        pure ({ f with precision := some n.toNat }, s, more)
    | '.' :: more => do
        let (n, more) ← percentDigits "precision" FormatSpec.precisionLimit more
        pure ({ f with precision := some (n.getD 0) }, s, more)
    | more => pure (f, s, more)
  let text := match text with
    | 'h' :: more | 'l' :: more | 'L' :: more => more
    | more => more
  match text with
  | [] => valueError "incomplete format"
  | kind :: rest =>
    let (v, s) ← nextValue s
    if FormatSpec.widthLimit < f.width then raiseWith "MemoryError" []
    let out ← percentValue r { f with kind } s.isBytes v (total - rest.length - 1)
    return (out, s, rest)

def percentLoop (r : Interpreter) (total : Nat) :
    Nat → PercentState → Text → Text → Eval (Text × PercentState)
  | 0, s, done, _ => return (done.reverse, s)
  | _ + 1, s, done, [] => return (done.reverse, s)
  | fuel + 1, s, done, '%' :: '%' :: rest => percentLoop r total fuel s ('%' :: done) rest
  | fuel + 1, s, done, '%' :: rest => do
      let (out, s, rest) ← percentField r total s rest
      percentLoop r total fuel s (out.reverse ++ done) rest
  | fuel + 1, s, done, c :: rest => percentLoop r total fuel s (c :: done) rest

def hasItems (v : Value) : Eval Bool := do
  if (← ownAttribute? (← classOf v) "__getitem__").isSome then return true
  match (← unwrap v) with
  | .scalar (.bytes _) => return true
  | .scalar _ => return false
  | .ref i =>
    match (← cellAt i) with
    | .list _ | .range .. | .known _ (.bytearray _) | .known _ (.memoryview ..)
    | .parametrized .. => return true
    | cell => return (entries? cell).isSome

def percentText (r : Interpreter) (isBytes : Bool) (text : Text) (v : Value) : Eval Text := do
  let isMapping ← if isBytes && (← bytes? v).isSome then pure false else hasItems v
  let mapping := if isMapping then some v else none
  let items := match (← core? v) with
    | some (.tuple xs) => xs
    | _ => [v]
  let (out, s) ← percentLoop r text.length (text.length + 1)
    { rest := items, mapping, isBytes } [] text
  if s.rest.isEmpty || mapping.isSome then return out
  typeError ("not all arguments converted during " ++ (if isBytes then "bytes" else "string") ++
    " formatting")

/-! ## Braces -/

/-- A name or an index behind a field's first name. -/
inductive Access where
  | attribute (name : Text)
  | item (key : Text)

def accessesOf : Nat → Text → Eval (List Access)
  | 0, _ => return []
  | _ + 1, [] => return []
  | fuel + 1, '.' :: rest => do
      let name := rest.takeWhile fun c => c != '.' && c != '['
      if name.isEmpty then valueError "Empty attribute in format string"
      return .attribute name :: (← accessesOf fuel (rest.drop name.length))
  | fuel + 1, '[' :: rest => do
      let key := rest.takeWhile (· != ']')
      if key.length = rest.length then valueError "Missing ']' in format string"
      if key.isEmpty then valueError "Empty attribute in format string"
      return .item key :: (← accessesOf fuel (rest.drop (key.length + 1)))
  | _ + 1, _ :: _ => valueError "Only '.' or '[' may follow ']' in format field specifier"

def numberText? (t : Text) : Eval (Option Nat) := do
  if t.isEmpty || !t.all isDecimal then return none
  let (n, _) ← orFormatFault (FormatSpec.takeNumber t)
  return n

def follow (r : Interpreter) (v : Value) : Access → Eval Value
  | .attribute name => r.call (.ref (functionCell "getattr")) ⟨[v, ofText name], []⟩
  | .item key => do
      match (← numberText? key) with
      | some n => getItem r v (ofNat n)
      | none => getItem r v (ofText key)

structure FieldSource where
  /-- The values of fields with numbers, if there may be such fields. -/
  numbered : Option (List Value)
  /-- The values of fields with names. -/
  named : Text → Eval Value

/-- How fields without names get their numbers. -/
inductive Numbering where
  | undecided
  | automatic (next : Nat)
  | manual
  deriving DecidableEq, Repr, Inhabited

/-- A field: its name, a letter for its form and its specification. -/
structure BraceField where
  name : Text
  conversion : Option Char := none
  spec : Text := []

def fieldName (inItem : Bool) (name : Text) : Text → Eval (Text × Char × Text)
  | [] => valueError "expected '\x7d' before end of string"
  | c :: rest =>
    if inItem then fieldName (c != ']') (c :: name) rest
    else if c == '\x7b' then valueError "unexpected '\x7b' in field name"
    else if c == '\x7d' || c == ':' || c == '!' then return (name.reverse, c, rest)
    else fieldName (c == '[') (c :: name) rest

def fieldSpec (depth : Nat) (spec : Text) : Text → Eval (Text × Text)
  | [] => valueError "unmatched '\x7b' in format spec"
  | '\x7d' :: rest =>
    match depth with
    | 0 => return (spec.reverse, rest)
    | depth + 1 => fieldSpec depth ('\x7d' :: spec) rest
  | c :: rest => fieldSpec (if c == '\x7b' then depth + 1 else depth) (c :: spec) rest

def takeField (text : Text) : Eval (BraceField × Text) := do
  let (name, last, rest) ← fieldName false [] text
  match last, rest with
  | ':', rest =>
    let (spec, rest) ← fieldSpec 0 [] rest
    return ({ name, spec }, rest)
  | '!', [] => valueError "end of string while looking for conversion specifier"
  | '!', c :: '\x7d' :: rest => return ({ name, conversion := some c }, rest)
  | '!', c :: ':' :: rest =>
    let (spec, rest) ← fieldSpec 0 [] rest
    return ({ name, conversion := some c, spec }, rest)
  | '!', [_] => valueError "unmatched '\x7b' in format spec"
  | '!', _ => valueError "expected ':' after conversion specifier"
  | _, rest => return ({ name }, rest)

def fieldNumber (state : Numbering) (n : Option Nat) : Eval (Nat × Numbering) :=
  match state, n with
  | .undecided, none => return (0, .automatic 1)
  | .automatic k, none => return (k, .automatic (k + 1))
  | .manual, none => valueError
      "cannot switch from manual field specification to automatic field numbering"
  | .automatic _, some _ => valueError
      "cannot switch from automatic field numbering to manual field specification"
  | _, some k => return (k, .manual)

def fieldValue (r : Interpreter) (source : FieldSource) (state : Numbering) (name : Text) :
    Eval (Value × Numbering) := do
  let first := name.takeWhile fun c => c != '.' && c != '['
  let n ← numberText? first
  let (v, state) : Value × Numbering ← do
    if first.isEmpty || n.isSome then
      let (k, state) ← fieldNumber state n
      match source.numbered with
      | none => valueError "Format string contains positional fields"
      | some values =>
        match values[k]? with
        | some v => pure (v, state)
        | none => raise "IndexError" ("Replacement index " ++ toString k ++
            " out of range for positional args tuple")
    else pure (← source.named first, state)
  let accesses ← accessesOf name.length (name.drop first.length)
  return (← accesses.foldlM (follow r) v, state)

def bracesLoop (r : Interpreter) (source : FieldSource)
    (nested : Numbering → Text → Eval (Text × Numbering)) :
    Nat → Numbering → Text → Text → Eval (Text × Numbering)
  | 0, state, done, _ => return (done.reverse, state)
  | _ + 1, state, done, [] => return (done.reverse, state)
  | fuel + 1, state, done, '\x7b' :: '\x7b' :: rest =>
    bracesLoop r source nested fuel state ('\x7b' :: done) rest
  | fuel + 1, state, done, '\x7d' :: '\x7d' :: rest =>
    bracesLoop r source nested fuel state ('\x7d' :: done) rest
  | _ + 1, _, _, '\x7d' :: _ => valueError "Single '\x7d' encountered in format string"
  | _ + 1, _, _, ['\x7b'] => valueError "Single '\x7b' encountered in format string"
  | fuel + 1, state, done, '\x7b' :: rest => do
      let (field, rest) ← takeField rest
      let (v, state) ← fieldValue r source state field.name
      let v ← converted r v field.conversion
      let (spec, state) ← if field.spec.contains '\x7b' then nested state field.spec
        else pure (field.spec, state)
      let text ← formatted r v spec
      bracesLoop r source nested fuel state (text.reverse ++ done) rest
  | fuel + 1, state, done, c :: rest => bracesLoop r source nested fuel state (c :: done) rest

/-- Put values into a text with fields in braces; a specification may hold fields whose own
specifications hold none. -/
def bracesText (r : Interpreter) (text : Text) (source : FieldSource) : Eval Text := do
  let tooDeep : Numbering → Text → Eval (Text × Numbering) :=
    fun _ _ => valueError "Max string recursion exceeded"
  let inner := fun (state : Numbering) (spec : Text) =>
    bracesLoop r source tooDeep (spec.length + 1) state [] spec
  return (← bracesLoop r source inner (text.length + 1) .undecided [] text).1

end Sandbox

end MacroExpand
