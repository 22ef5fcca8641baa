import MacroExpand.Sandbox.Native
import MacroExpand.Text.Search
import MacroExpand.Text.Case
import MacroExpand.Text.Identifier
import MacroExpand.Text.Codec

/-!
# Methods of texts
-/

set_option autoImplicit false

namespace MacroExpand

namespace Sandbox

/-! ## Sequences of letters

Texts and bytes have most methods in common. -/

/-- The letters that a text or bytes are made of. -/
structure Letters (α : Type) where
  /-- The letters of a value that is made of them. -/
  self : Value → Eval (List α)
  /-- Make a value from letters, of the same class as another. -/
  make : Value → List α → Eval Value
  /-- The letters of a part that is looked for. -/
  part : Interpreter → Value → Eval (List α)
  /-- The letters of an argument; the text says which it is. -/
  argument : String → Value → Eval (List α)
  /-- What is said if a part is not found. -/
  missing : String

def limitOf (r : Interpreter) (a : Arguments) (place : Nat) (name : String) :
    Eval (Option Nat) := do
  match a.get? place name with
  | none => return none
  | some v =>
    let n ← needSize r v
    return if n < 0 then none else some n.toNat

/-- The places between two optional bounds, unless the first lies behind the second. -/
def window (r : Interpreter) (length : Nat) (a : Arguments) (place : Nat) :
    Eval (Option (Nat × Nat)) := do
  let bound := fun (k : Nat) => do
    match a.positional[k]? with
    | some v => sliceBound r v
    | none => return none
  let fromEnd := fun (n : Int) => if n < 0 then max (n + length) 0 else n
  let start := ((← bound place).map fromEnd).getD 0
  let stop := min (((← bound (place + 1)).map fromEnd).getD length) length
  return if stop < start then none else some (start.toNat, stop.toNat)

def between {α : Type} (items : List α) (start stop : Nat) : List α :=
  (items.drop start).take (stop - start)

namespace Letters

variable {α : Type} [BEq α]

def finding (k : Letters α) (name : String) (back : Bool) (missing : Eval Value) : Native :=
  .counted name 1 3 fun r v a => do
    let items ← k.self v
    let place ← window r items.length a 1
    let part ← k.part r a.at0
    match place with
    | none => missing
    | some (start, stop) =>
      let items := between items start stop
      match (if back then Search.last part items else Search.first part items) with
      | some k => return ofNat (start + k)
      | none => missing

def counting (k : Letters α) : Native :=
  .counted "count" 1 3 fun r v a => do
    let items ← k.self v
    let place ← window r items.length a 1
    let part ← k.part r a.at0
    match place with
    | none => return ofNat 0
    | some (start, stop) => return ofNat (Search.count part (between items start stop))

def cutting (k : Letters α) (isBetween : α → Bool) (name : String) (back : Bool) : Native :=
  .named name { names := ["sep", "maxsplit"] } fun r v a => do
    let limit ← limitOf r a 1 "maxsplit"
    let items ← k.self v
    let parts ← match a.some? 0 "sep" with
      | none => pure (if back then Search.splitWordsBack isBetween items limit
          else Search.splitWords isBetween items limit)
      | some part => do
          let part ← k.argument "" part
          if part.isEmpty then valueError "empty separator"
          pure (if back then Search.splitBack part items limit else Search.split part items limit)
    newList (← parts.mapM (k.make v))

def partition (k : Letters α) (name : String) (back : Bool) : Native :=
  .single name fun _ v part => do
    let part ← k.argument "three" part
    if part.isEmpty then valueError "empty separator"
    let items ← k.self v
    let three := fun (x y z : List α) => do newTuple (← [x, y, z].mapM (k.make v))
    match (if back then Search.last part items else Search.first part items) with
    | some n => three (items.take n) part (items.drop (n + part.length))
    | none => if back then three [] [] items else three items [] []

def stripping (k : Letters α) (isBetween : α → Bool) (name : String) (left right : Bool) : Native :=
  .placed name 0 1 fun _ v a => do
    let items ← k.self v
    match a.some? 0 "" with
    | none => k.make v (Search.strip left right isBetween items)
    | some set =>
      let set ← k.argument name set
      k.make v (Search.strip left right set.contains items)

def padding (k : Letters α) (blank : α) (fillOf : String → Value → Eval α) (name : String)
    (align : Char) : Native :=
  .placed name 1 2 fun r v a => do
    let width := (← needSize r a.at0).toNat
    let fill ← match a.positional[1]? with
      | none => pure blank
      | some f => fillOf name f
    let items ← k.self v
    if FormatSpec.widthLimit < width then raiseWith "MemoryError" []
    let missing := width - items.length
    let left := match align with
      | '>' => missing
      | '^' => missing / 2 + (missing % 2) * (width % 2)
      | _ => 0
    k.make v (List.replicate left fill ++ items ++ List.replicate (missing - left) fill)

def zeroFilling (k : Letters α) (zero : α) (isSign : α → Bool) : Native :=
  .single "zfill" fun r v width => do
    let width := (← needSize r width).toNat
    if FormatSpec.widthLimit < width then raiseWith "MemoryError" []
    let items ← k.self v
    let zeros := List.replicate (width - items.length) zero
    let sign := if items.head?.any isSign then items.take 1 else []
    k.make v (sign ++ zeros ++ items.drop sign.length)

end Letters

/-! ## Texts -/

def selfText (v : Value) : Eval Text := do return (← text? v).getD []

def textPart (v : Value) : Eval Text := do
  match (← text? v) with
  | some t => return t
  | none => typeError ("must be str, not " ++ (← typeName v))

def characters : Letters Char where
  self := selfText
  make := fun _ t => return ofText t
  part := fun _ v => textPart v
  argument := fun which v => do
    match (← text? v), which with
    | some t, _ => return t
    | none, "" => typeError ("must be str or None, not " ++ (← typeName v))
    | none, "three" => textPart v
    | none, name => typeError (name ++ " arg must be None or str")
  missing := "substring not found"

def textual (name : String) (f : Text → Text) : Native :=
  .plain name fun _ v => do return ofText (f (← selfText v))

def textTest (name : String) (f : Text → Bool) : Native :=
  .plain name fun _ v => do return ofBool (f (← selfText v))

def madeOf (name : String) (test : Char → Bool) : Native :=
  textTest name fun t => !t.isEmpty && t.all test

def fillCharacter (_ : String) (v : Value) : Eval Char := do
  match (← text? v) with
  | some [c] => return c
  | some _ => typeError "The fill character must be exactly one character long"
  | none => typeError ("The fill character must be a unicode character, not " ++ (← typeName v))

def bordering (name : String) (test : Text → Text → Bool) : Native :=
  .counted name 1 3 fun r v a => do
    let t ← selfText v
    let place ← window r t.length a 1
    let holds := fun (part : Text) => match place with
      | none => false
      | some (start, stop) => test (between t start stop) part
    match (← core? a.at0) with
    | some (.tuple xs) =>
      let parts ← xs.mapM fun x => do
        match (← text? x) with
        | some t => return t
        | none =>
          typeError ("tuple for " ++ name ++ " must only contain str, not " ++ (← typeName x))
      return ofBool (parts.any holds)
    | _ =>
      match (← text? a.at0) with
      | some t => return ofBool (holds t)
      | none =>
        typeError (name ++ " first arg must be str or a tuple of str, not " ++
          (← typeName a.at0))

def joinParts (r : Interpreter) (kind : String) (get : Value → Eval (Option Text)) (items : Value) :
    Eval (List Text) := do
  if !(← isIterable items) then typeError "can only join an iterable"
  parts 0 (← iterate r items)
where
  parts (k : Nat) : List Value → Eval (List Text)
    | [] => return []
    | v :: rest => do
        match (← get v) with
        | some t => return t :: (← parts (k + 1) rest)
        | none =>
          typeError ("sequence item " ++ toString k ++ ": expected " ++ kind ++ ", " ++
            (← typeName v) ++ " found")

/-! ## Encodings -/

def handlerNamed? (name : Text) : Option FaultHandler :=
  match String.ofList name with
  | "strict" => some .strict
  | "ignore" => some .ignore
  | "replace" => some .replace
  | "backslashreplace" => some .backslash
  | "xmlcharrefreplace" => some .reference
  | "surrogateescape" | "surrogatepass" | "namereplace" => some .strict
  | _ => none

def otherCodecs : List String := [
  "hex", "hex_codec", "base64", "base64_codec", "base_64", "bz2", "bz2_codec", "zlib", "zlib_codec",
  "zip", "quopri", "quopri_codec", "quoted_printable", "uu", "uu_codec", "rot13", "rot_13"]

def codecNamed (doing : String) (name : Text) : Eval Codec := do
  let shown := String.ofList name
  match Codec.named? name with
  | some codec => return codec
  | none =>
    if otherCodecs.contains (String.ofList (Codec.plainLabel false name)) then
      raise "LookupError" ("'" ++ shown ++ "' is not a text encoding; use codecs." ++ doing ++
        "() to handle arbitrary codecs")
    raise "LookupError" ("unknown encoding: " ++ shown)

def codecParameters : Parameters := { names := ["encoding", "errors"] }

def codecArguments (doing : String) (a : Arguments) (place : Nat) : Eval (Codec × Text) := do
  let named := fun (k : Nat) (parameter standard : String) => do
    match a.get? k parameter with
    | none => return chars standard
    | some v => needText (doing ++ "() argument '" ++ parameter ++ "'") v
  let encoding ← named place "encoding" "utf-8"
  let errors ← named (place + 1) "errors" "strict"
  return (← codecNamed doing encoding, errors)

def encoded (codec : Codec) (errors : Text) (t : Text) : Eval (List UInt8) := do
  match codec.encode t, handlerNamed? errors with
  | .ok b, _ => return b
  | .error _, none =>
    raise "LookupError" ("unknown error handler name '" ++ String.ofList errors ++ "'")
  | .error _, some handler =>
    match codec.encode t handler with
    | .ok b => return b
    | .error e =>
      raiseWith "UnicodeEncodeError" [ofString e.codec, ofText t, ofNat e.first,
        ofNat (e.last + 1), ofString e.reason]

def decoded (codec : Codec) (errors : Text) (b : List UInt8) : Eval Text := do
  match codec.decode b, handlerNamed? errors with
  | .ok t, _ => return t
  | .error _, none =>
    raise "LookupError" ("unknown error handler name '" ++ String.ofList errors ++ "'")
  | .error _, some .reference =>
    typeError "don't know how to handle UnicodeDecodeError in error callback"
  | .error _, some handler =>
    match codec.decode b handler with
    | .ok t => return t
    | .error e =>
      raiseWith "UnicodeDecodeError" [ofString e.codec, ofBytes b, ofNat e.first,
        ofNat (e.last + 1), ofString e.reason]

/-! ## Replacing characters -/

def replaced (r : Interpreter) (table : Value) (c : Char) : Eval Text := do
  match (← attempt (getItem r table (ofNat c.toNat))) with
  | .ok (.scalar .nil) => return []
  | .ok v =>
    match (← text? v), index? (← unwrap v) with
    | some t, _ => return t
    | none, some n =>
      if n < 0 ∨ FormatSpec.codeLimit < n then
        valueError "character mapping must be in range(0x110000)"
      return [Char.ofNat n.toNat]
    | none, none => typeError "character mapping must return integer, None or str"
  | .error (.raised e) => if (← isKnown e "LookupError") then return [c] else throw (.raised e)
  | .error e => throw e

def newTable (r : Interpreter) (a : Arguments) : Eval Value := do
  match a.positional with
  | [x] =>
    match (← core? x) with
    | some (.dict es) =>
      let rows ← es.mapM fun (k, v) => do
        match (← text? k), index? (← unwrap k) with
        | some [c], _ => return (ofNat c.toNat, v)
        | some _, _ => valueError "string keys in translate table must be of length 1"
        | none, some _ => return (k, v)
        | none, none => typeError "keys in translate table must be strings or integers"
      newDict (← setEntries r [] rows)
    | _ => typeError "if you give only one argument to maketrans it must be a dict"
  | x :: y :: rest =>
    let news ← needText "maketrans() argument 2" y
    let dropped ← match rest with
      | z :: _ => needText "maketrans() argument 3" z
      | [] => pure []
    match (← text? x) with
    | none =>
      typeError "first maketrans argument must be a string if there is a second argument"
    | some olds =>
      if olds.length ≠ news.length then
        valueError "the first two maketrans arguments must have equal length"
      let rows := (olds.zip news).map fun ((c, d) : Char × Char) => (ofNat c.toNat, ofNat d.toNat)
      newDict (← setEntries r [] (rows ++ dropped.map fun c => (ofNat c.toNat, nil)))
  | [] => return nil

def textMethods : List Native := [
  textual "upper" Text.upper, textual "lower" Text.lower, textual "casefold" Text.folded,
  textual "title" Text.title, textual "capitalize" Text.capitalize,
  textual "swapcase" Text.swapCase,
  madeOf "isdigit" isDigitLike, madeOf "isdecimal" isDecimal, madeOf "isnumeric" isNumeric,
  madeOf "isalpha" isLetter, madeOf "isalnum" isAlnum, madeOf "isspace" isBlank,
  textTest "isupper" (Text.allInCase true), textTest "islower" (Text.allInCase false),
  textTest "istitle" Text.isTitle, textTest "isascii" (fun t => t.all (·.toNat < 128)),
  textTest "isprintable" (fun t => t.all isPrintable), textTest "isidentifier" Text.isName,
  characters.stripping isBlank "strip" true true, characters.stripping isBlank "lstrip" true false,
  characters.stripping isBlank "rstrip" false true,
  characters.finding "find" false (pure (ofInt (-1))),
  characters.finding "rfind" true (pure (ofInt (-1))),
  characters.finding "index" false (valueError characters.missing),
  characters.finding "rindex" true (valueError characters.missing),
  characters.counting,
  bordering "startswith" Text.startsWith, bordering "endswith" Text.endsWith,
  characters.padding ' ' fillCharacter "ljust" '<',
  characters.padding ' ' fillCharacter "rjust" '>',
  characters.padding ' ' fillCharacter "center" '^',
  characters.zeroFilling '0' (fun c => c == '+' || c == '-'),
  characters.partition "partition" false, characters.partition "rpartition" true,
  characters.cutting isBlank "split" false, characters.cutting isBlank "rsplit" true,
  .placed "replace" 2 3 fun r v a => do
    let old ← needText "replace() argument 1" a.at0
    let news ← needText "replace() argument 2" a.at1
    let limit ← limitOf r a 2 "count"
    return ofText (Search.replace old news (← selfText v) limit),
  .single "join" fun r v items => do
    let parts ← joinParts r "str instance" text? items
    return ofText (Text.joinWith (← selfText v) parts),
  .named "splitlines" { names := ["keepends"] } fun r v a => do
    let keep ← match a.get? 0 "keepends" with
      | some k => do pure (decide ((← needWhole r k) ≠ 0))
      | none => pure false
    newList ((Text.allLines keep [] (← selfText v)).map ofText),
  .free "format" fun r v a => do
    return ofText (← bracesText r (← selfText v) {
      numbered := some a.positional
      named := fun name => match lookup a.keyword (String.ofList name) with
        | some x => return x
        | none => noKey (ofText name) }),
  .single "format_map" fun r v mapping => do
    return ofText (← bracesText r (← selfText v) {
      numbered := none, named := fun name => getItem r mapping (ofText name) }),
  .named "encode" codecParameters fun _ v a => do
    let (codec, errors) ← codecArguments "encode" a 0
    return ofBytes (← encoded codec errors (← selfText v)),
  .named "expandtabs" { names := ["tabsize"] } fun r v a => do
    let size ← match a.get? 0 "tabsize" with
      | some n => needWhole r n
      | none => pure 8
    if 2 ^ 31 ≤ size then raise "OverflowError" "Python int too large to convert to C int"
    return ofText (Text.expandTabs size.toNat 0 (← selfText v)),
  .single "removeprefix" fun _ v part => do
    let part ← needText "removeprefix() argument" part
    let t ← selfText v
    return ofText (if Text.startsWith t part then t.drop part.length else t),
  .single "removesuffix" fun _ v part => do
    let part ← needText "removesuffix() argument" part
    let t ← selfText v
    return ofText (if Text.endsWith t part then t.take (t.length - part.length) else t),
  .single "translate" fun r v table => do
    return ofText (← (← selfText v).mapM (replaced r table)).flatten]

def textClassMethods : List Native := [.placed "maketrans" 1 3 fun r _ a => newTable r a]

end Sandbox

end MacroExpand
