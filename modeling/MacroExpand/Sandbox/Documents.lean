import MacroExpand.Sandbox.Construct
import MacroExpand.Data.Json
import MacroExpand.Data.Toml

/-!
# Documents as values

A document is read into plain values, and a value made of plain ones is written as a document.
-/

set_option autoImplicit false

namespace MacroExpand

namespace Sandbox

/-! ## Reading -/

/-- Functions that make values from the parts of a document in place of the usual ones. -/
structure DocumentHooks where
  object : Option Value := none
  pairs : Option Value := none
  whole : Option Value := none
  double : Option Value := none
  constant : Option Value := none

def documentWhole (n : Int) : Eval Value := do
  if exceedsDigits n then
    valueError ("Exceeds the limit (4300 digits) for integer string conversion: value has " ++
      toString (decimalDigits n.natAbs).length ++
      " digits; use sys.set_int_max_str_digits() to increase the limit")
  return ofInt n

def documentNumber (r : Interpreter) (hooks : DocumentHooks) (d : Double) : Eval Value := do
  let called := fun (f : Option Value) (t : Text) => match f with
    | some f => r.call f ⟨[ofText t], []⟩
    | none => newNumber (.float d)
  match d.kind with
  | .undefined => called hooks.constant (chars "NaN")
  | .infinite => called hooks.constant (chars (if d.negative then "-Infinity" else "Infinity"))
  | .finite _ _ => called hooks.double d.text

mutual

def ofJson (r : Interpreter) (hooks : DocumentHooks) : Json → Eval Value
  | .null => return nil
  | .bool b => return ofBool b
  | .int n =>
    match hooks.whole with
    | some f => r.call f ⟨[ofText (intText n)], []⟩
    | none => documentWhole n
  | .float d => documentNumber r hooks d
  | .str s => return ofText s
  | .arr items => do newList (← ofJsonItems r hooks items)
  | .obj members => do
      let es ← ofJsonMembers r hooks members
      match hooks.pairs, hooks.object with
      | some f, _ => do
          let pairs ← es.mapM fun (k, v) => newTuple [k, v]
          r.call f ⟨[← newList pairs], []⟩
      | none, some f => do r.call f ⟨[← newDict es], []⟩
      | none, none => newDict es

def ofJsonItems (r : Interpreter) (hooks : DocumentHooks) : List Json → Eval (List Value)
  | [] => return []
  | v :: rest => do
      let v ← ofJson r hooks v
      return v :: (← ofJsonItems r hooks rest)

def ofJsonMembers (r : Interpreter) (hooks : DocumentHooks) :
    List (Text × Json) → Eval (List (Value × Value))
  | [] => return []
  | (name, v) :: rest => do
      let v ← ofJson r hooks v
      return (ofText name, v) :: (← ofJsonMembers r hooks rest)

end

mutual

def ofToml : Toml → Eval Value
  | .str s => return ofText s
  | .int n => return ofInt n
  | .float d => newNumber (.float d)
  | .bool b => return ofBool b
  | .datetime t => newKnown "datetime" (.datetime t)
  | .date d => newKnown "date" (.date d)
  | .time t => newKnown "time" (.time t)
  | .arr items => do newList (← ofTomlItems items)
  | .table members => do newDict (← ofTomlMembers members)

def ofTomlItems : List Toml → Eval (List Value)
  | [] => return []
  | v :: rest => do
      let v ← ofToml v
      return v :: (← ofTomlItems rest)

def ofTomlMembers : List (Text × Toml) → Eval (List (Value × Value))
  | [] => return []
  | (name, v) :: rest => do
      let v ← ofToml v
      return (ofText name, v) :: (← ofTomlMembers rest)

end

def raiseJson {α : Type} (text : Text) (e : JsonError) : Eval α := do
  let (line, column) := e.location text
  throw (.raised (← newExceptionOf (classCell "JSONDecodeError") [ofString (e.message text)]
    [("msg", ofString e.fault.message), ("doc", ofText text), ("pos", ofNat (e.position text)),
      ("lineno", ofNat line), ("colno", ofNat column)]))

def readJson (r : Interpreter) (hooks : DocumentHooks) (text : Text) : Eval Value :=
  match Json.parse text with
  | .ok j => ofJson r hooks j
  | .error e => raiseJson text e

def jsonCodec : List UInt8 → Codec
  | 0 :: 0 :: 254 :: 255 :: _ | 255 :: 254 :: 0 :: 0 :: _ => .utf32 none
  | 254 :: 255 :: _ | 255 :: 254 :: _ => .utf16 none
  | 239 :: 187 :: 191 :: _ => .utf8Signed
  | 0 :: b :: _ :: _ :: _ => if b ≠ 0 then .utf16 (some .big) else .utf32 (some .big)
  | _ :: 0 :: c :: d :: _ => if c ≠ 0 || d ≠ 0 then .utf16 (some .little) else .utf32 (some .little)
  | [0, _] => .utf16 (some .big)
  | [_, 0] => .utf16 (some .little)
  | _ => .utf8

def readToml (text : Text) : Eval Value :=
  match Toml.parse text with
  | .ok members => do newDict (← ofTomlMembers members)
  | .error message => raise "TOMLDecodeError" message

/-! ## Writing -/

structure DocumentStyle where
  indent : Option Text := none
  betweenItems : Text := [',', ' ']
  betweenNames : Text := [':', ' ']
  ascii : Bool := true
  sorted : Bool := false
  /-- Whether numbers that have no literal are written by their names. -/
  named : Bool := true
  /-- Whether members whose names are no names are left out. -/
  skipping : Bool := false
  /-- What gives a value in place of one that has no document. -/
  other : Option Value := none

def escapedUnits (c : Char) : Text :=
  let n := c.toNat
  let unit := fun (k : Nat) => '\\' :: 'u' :: hexDigits k 4
  if n < 0x10000 then unit n
  else unit (0xD800 + (n - 0x10000) / 1024) ++ unit (0xDC00 + (n - 0x10000) % 1024)

def documentText (style : DocumentStyle) (t : Text) : Text :=
  '"' :: (t.flatMap (fun c =>
    if style.ascii && 127 ≤ c.toNat then escapedUnits c else Json.escapeChar c) ++ ['"'])

def documentDouble (style : DocumentStyle) (d : Double) : Eval Text := do
  match d.kind with
  | .finite _ _ => return d.text
  | kind =>
    if !style.named then
      valueError ("Out of range float values are not JSON compliant" ++
        (if style.indent.isSome then ": " ++ String.ofList d.text else ""))
    if kind = .undefined then return chars "NaN"
    return chars (if d.negative then "-Infinity" else "Infinity")

def memberName? (style : DocumentStyle) (k : Value) : Eval (Option Text) := do
  match (← unwrap k) with
  | .scalar (.str t) => return some t
  | .scalar (.int n) => return some (← wholeText n)
  | .scalar (.float d) => return some (← documentDouble style d)
  | .scalar (.bool b) => return some (chars (if b then "true" else "false"))
  | .scalar .nil => return some (chars "null")
  | _ =>
    if style.skipping then return none
    typeError ("keys must be str, int, float, bool or None, not " ++
      (← classData (← classOf k)).name)

def documentParts (style : DocumentStyle) (level : Nat) (first last : Char) (parts : List Text) :
    Text :=
  if parts.isEmpty then [first, last]
  else
    match style.indent with
    | none => first :: (Text.joinWith style.betweenItems parts ++ [last])
    | some unit =>
      let line := fun (n : Nat) => '\n' :: (List.replicate n unit).flatten
      first :: (line (level + 1) ++
        Text.joinWith (style.betweenItems ++ line (level + 1)) parts ++ line level ++ [last])

def documentIn (r : Interpreter) (style : DocumentStyle) :
    Nat → List Nat → Nat → Value → Eval Text
  | 0, _, _, _ =>
    raise "RecursionError" "maximum recursion depth exceeded while encoding a JSON object"
  | fuel + 1, around, level, v => do
      let plain ← unwrap v
      let around ← match plain with
        | .ref i => do
            if around.contains i then valueError "Circular reference detected"
            pure (i :: around)
        | .scalar _ => pure around
      let inner := documentIn r style fuel around (level + 1)
      let replace := match style.other with
        | some f => do documentIn r style fuel around level (← r.call f ⟨[v], []⟩)
        | none => do
            typeError ("Object of type " ++ (← classData (← classOf v)).name ++
              " is not JSON serializable")
      match plain with
      | .scalar .nil => return chars "null"
      | .scalar (.bool b) => return chars (if b then "true" else "false")
      | .scalar (.int n) => wholeText n
      | .scalar (.float d) => documentDouble style d
      | .scalar (.str t) => return documentText style t
      | .scalar _ => replace
      | .ref i =>
        match (← cellAt i) with
        | .list xs | .tuple xs => return documentParts style level '[' ']' (← xs.mapM inner)
        | .dict es | .known _ (.ordered es) => do
            let es ← if style.sorted then sortByKey (less r) [] es else pure es
            let parts ← es.filterMapM fun (k, x) => do
              match (← memberName? style k) with
              | none => return none
              | some n => return some (documentText style n ++ style.betweenNames ++ (← inner x))
            return documentParts style level '\x7b' '\x7d' parts
        | _ => replace

def writeJson (r : Interpreter) (style : DocumentStyle) (v : Value) : Eval Text :=
  documentIn r style hashDepth [] 0 v

def styleOf (r : Interpreter) (a : Arguments) : Eval DocumentStyle := do
  let question := fun (name : String) (standard : Bool) => do
    match a.named? name with
    | some v => truthy r v
    | none => return standard
  let indent ← match a.under "indent" with
    | .scalar .nil => pure none
    | v =>
      match (← text? v) with
      | some t => pure (some t)
      | none => do pure (some (← selfText (← repeated r (.text [.char ' ']) v)))
  let (items, names) ← match a.under "separators" with
    | .scalar .nil => pure (if indent.isSome then [','] else [',', ' '], [':', ' '])
    | v => do
        let parts ← unpack r 2 v
        let part := fun (k : Nat) (place : String) =>
          needText ("make_encoder() argument " ++ place) (parts.getD k nil)
        let names ← part 1 "5"
        pure (← part 0 "6", names)
  return { indent, betweenItems := items, betweenNames := names
           ascii := ← question "ensure_ascii" true, sorted := ← question "sort_keys" false
           named := ← question "allow_nan" true, skipping := ← question "skipkeys" false
           other := a.some? 0 "default" }

def refuseOthers (function : String) (known : List String) (a : Arguments) : Eval Unit := do
  match a.keyword.find? fun (k, _) => !known.contains k with
  | some (k, _) => typeError (BindFault.message function (.unexpected k))
  | none => return ()

def documentNatives : List Native := [
  .declared "json.loads" "loads" ("s * cls= object_hook= parse_float= parse_int= " ++
      "parse_constant= object_pairs_hook= **kw") fun r a => do
    let v := a.under "s"
    let text ← match (← text? v), (← bytes? v) with
      | some t, _ => pure t
      | none, some b => decoded (jsonCodec b) (chars "surrogatepass") b
      | none, none =>
        typeError ("the JSON object must be str, bytes or bytearray, not " ++
          (← classData (← classOf v)).name)
    refuseOthers "JSONDecoder.__init__" ["s", "cls", "object_hook", "parse_float", "parse_int",
      "parse_constant", "object_pairs_hook", "strict"] a
    readJson r { object := a.some? 0 "object_hook", pairs := a.some? 0 "object_pairs_hook"
                 whole := a.some? 0 "parse_int", double := a.some? 0 "parse_float"
                 constant := a.some? 0 "parse_constant" } text,
  .declared "json.dumps" "dumps" ("obj * skipkeys= ensure_ascii= check_circular= allow_nan= cls= " ++
      "indent= separators= default= sort_keys= **kw") fun r a => do
    refuseOthers "JSONEncoder.__init__" ["obj", "skipkeys", "ensure_ascii", "check_circular",
      "allow_nan", "cls", "indent", "separators", "default", "sort_keys"] a
    return ofText (← writeJson r (← styleOf r a) (a.under "obj")),
  .declared "tomllib.loads" "loads" "s / * parse_float=" fun _ a => do
    let v := a.under "s"
    match (← text? v) with
    | some t => readToml t
    | none => typeError ("Expected str object, not '" ++ (← typeName v) ++ "'")]

end Sandbox

end MacroExpand
