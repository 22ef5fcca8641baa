import MacroExpand.Sandbox.TextMethods

/-!
# Methods of bytes

Bytes are letters of the ASCII alphabet as far as they lie in it, and nothing else beyond it.
-/

set_option autoImplicit false

namespace MacroExpand

namespace Sandbox

/-! ## Letters of ASCII -/

def latin (b : List UInt8) : Text := b.map fun x => Char.ofNat x.toNat

def unlatin (t : Text) : List UInt8 := t.map fun c => c.toNat.toUInt8

def isBlankByte (b : UInt8) : Bool := b == 32 || (9 ≤ b && b ≤ 13)

def asciiTitle (inWord : Bool) : Text → Text
  | [] => []
  | c :: rest =>
    if c.isAlpha then (if inWord then c.toLower else c.toUpper) :: asciiTitle true rest
    else c :: asciiTitle false rest

def asciiInCase (test : Char → Bool) (t : Text) : Bool :=
  t.any Char.isAlpha && t.all fun c => !c.isAlpha || test c

def byteLines (keep : Bool) (line : Text) : Text → List Text
  | [] => if line.isEmpty then [] else [line.reverse]
  | '\r' :: '\n' :: rest =>
    (if keep then '\n' :: '\r' :: line else line).reverse :: byteLines keep [] rest
  | c :: rest =>
    if c == '\n' || c == '\r' then
      (if keep then c :: line else line).reverse :: byteLines keep [] rest
    else byteLines keep (c :: line) rest

/-! ## Bytes as letters -/

def selfBytes (v : Value) : Eval (List UInt8) := do return (← bytes? v).getD []

def needBytes (v : Value) : Eval (List UInt8) := do
  match (← bytes? v) with
  | some b => return b
  | none => typeError ("a bytes-like object is required, not '" ++ (← typeName v) ++ "'")

def bytesLike (v : Value) (b : List UInt8) : Eval Value := do
  match (← core? v) with
  | some (.known _ (.bytearray _)) => newKnown "bytearray" (.bytearray b)
  | _ => return ofBytes b

def bytesPart (r : Interpreter) (v : Value) : Eval (List UInt8) := do
  match (← bytes? v) with
  | some b => return b
  | none =>
    match (← wholeOf? r v) with
    | some n =>
      if n < 0 ∨ 255 < n then valueError "byte must be in range(0, 256)"
      return [n.toNat.toUInt8]
    | none =>
      typeError ("argument should be integer or bytes-like object, not '" ++ (← typeName v) ++ "'")

def octets : Letters UInt8 where
  self := selfBytes
  make := bytesLike
  part := bytesPart
  argument := fun _ v => needBytes v
  missing := "subsection not found"

def fillByte (name : String) (v : Value) : Eval UInt8 := do
  match (← core? v), v with
  | some (.known _ (.bytearray [b])), _ | _, .scalar (.bytes [b]) => return b
  | _, _ =>
    typeError (name ++ "() argument 2 must be a byte string of length 1, not " ++ (← argumentName v))

def bytewise (name : String) (f : Text → Text) : Native :=
  .plain name fun _ v => do bytesLike v (unlatin (f (latin (← selfBytes v))))

def bytesTest (name : String) (f : Text → Bool) : Native :=
  .plain name fun _ v => do return ofBool (f (latin (← selfBytes v)))

def bytesMadeOf (name : String) (test : Char → Bool) : Native :=
  bytesTest name fun t => !t.isEmpty && t.all test

def bytesBordering (name : String) (test : List UInt8 → List UInt8 → Bool) : Native :=
  .counted name 1 3 fun r v a => do
    let b ← selfBytes v
    let place ← window r b.length a 1
    let holds := fun (part : List UInt8) => match place with
      | none => false
      | some (start, stop) => test (between b start stop) part
    match (← core? a.at0) with
    | some (.tuple xs) => return ofBool ((← xs.mapM needBytes).any holds)
    | _ =>
      match (← bytes? a.at0) with
      | some part => return ofBool (holds part)
      | none =>
        typeError (name ++ " first arg must be bytes or a tuple of bytes, not " ++
          (← typeName a.at0))

/-! ## Hexadecimal digits -/

def hexGroups (mark : Option Char) (size : Int) (b : List UInt8) : Text :=
  match mark with
  | none => b.flatMap fun x => hexDigits x.toNat 2
  | some c =>
    let n := size.natAbs
    (b.zipIdx.map fun (x, k) =>
      let isCut := k ≠ 0 && n ≠ 0 &&
        (if 0 < size then (b.length - k) % n = 0 else k % n = 0)
      (if isCut then [c] else []) ++ hexDigits x.toNat 2).flatten

def hexMethod : Native :=
  .named "hex" { names := ["sep", "bytes_per_sep"] } fun r v a => do
    let size ← match a.get? 1 "bytes_per_sep" with
      | some n => needWhole r n
      | none => pure 1
    let mark ← match a.get? 0 "sep" with
      | none => pure none
      | some s => do
          match (← size? r s) with
          | none => typeError ("object of type '" ++ (← typeName s) ++ "' has no len()")
          | some n =>
            if n ≠ 1 then valueError "sep must be length 1."
            match (← text? s), (← bytes? s) with
            | some t, _ =>
              if t.any (128 ≤ ·.toNat) then valueError "sep must be ASCII."
              pure t.head?
            | none, some b => pure (latin b).head?
            | none, none => typeError "sep must be str or bytes."
    return ofText (hexGroups mark size (← selfBytes v))

/-- The bytes that pairs of hexadecimal digits stand for; blanks may stand between pairs. -/
def readHex (total : Nat) : Nat → Text → Except Nat (List UInt8)
  | 0, _ => .ok []
  | _ + 1, [] => .ok []
  | fuel + 1, c :: rest =>
    if c == ' ' || (9 ≤ c.toNat && c.toNat ≤ 13) then readHex total fuel rest
    else
      match digit c, rest with
      | none, _ => .error (total - rest.length - 1)
      | some _, [] => .error total
      | some x, d :: rest =>
        match digit d with
        | none => .error (total - rest.length - 1)
        | some y => (readHex total fuel rest).map ((16 * x + y).toUInt8 :: ·)
where
  digit (c : Char) : Option Nat :=
    if c.isDigit then some (c.toNat - 48)
    else if 'a' ≤ c ∧ c ≤ 'f' then some (c.toNat - 87)
    else if 'A' ≤ c ∧ c ≤ 'F' then some (c.toNat - 55) else none

def bytesFromHex (v : Value) : Eval (List UInt8) := do
  let t ← needText "fromhex() argument" v
  let wrong := match t.findIdx? fun c => 128 ≤ c.toNat with
    | some k => Except.error k
    | none => readHex t.length (t.length + 1) t
  match wrong with
  | .ok b => return b
  | .error k =>
    valueError ("non-hexadecimal number found in fromhex() arg at position " ++ toString k)

/-! ## Methods -/

def translated (v : Value) (table dropped : Value) : Eval Value := do
  let rows ← if table = nil then pure none else do
    let t ← needBytes table
    if t.length ≠ 256 then valueError "translation table must be 256 characters long"
    pure (some t.toArray)
  let dropped ← if dropped = nil then pure [] else needBytes dropped
  let kept := (← selfBytes v).filter fun x => !dropped.contains x
  bytesLike v (match rows with
    | some t => kept.map fun x => t.getD x.toNat x
    | none => kept)

def bytesMethods : List Native := [
  .named "decode" codecParameters fun _ v a => do
    let (codec, errors) ← codecArguments "decode" a 0
    return ofText (← decoded codec errors (← selfBytes v)),
  hexMethod,
  bytewise "upper" (·.map Char.toUpper), bytewise "lower" (·.map Char.toLower),
  bytewise "title" (asciiTitle false),
  bytewise "capitalize" (fun t => (t.take 1).map Char.toUpper ++ (t.drop 1).map Char.toLower),
  bytewise "swapcase" (·.map fun c => if c.isUpper then c.toLower else c.toUpper),
  bytesMadeOf "isdigit" Char.isDigit, bytesMadeOf "isalpha" Char.isAlpha,
  bytesMadeOf "isalnum" Char.isAlphanum,
  bytesMadeOf "isspace" (fun c => isBlankByte c.toNat.toUInt8),
  bytesTest "isupper" (asciiInCase Char.isUpper), bytesTest "islower" (asciiInCase Char.isLower),
  bytesTest "istitle" (fun t => t.any Char.isAlpha && asciiTitle false t == t),
  bytesTest "isascii" (fun t => t.all (·.toNat < 128)),
  octets.stripping isBlankByte "strip" true true, octets.stripping isBlankByte "lstrip" true false,
  octets.stripping isBlankByte "rstrip" false true,
  octets.finding "find" false (pure (ofInt (-1))), octets.finding "rfind" true (pure (ofInt (-1))),
  octets.finding "index" false (valueError octets.missing),
  octets.finding "rindex" true (valueError octets.missing), octets.counting,
  bytesBordering "startswith" (fun b part => part.isPrefixOf b),
  bytesBordering "endswith" (fun b part => part.isSuffixOf b),
  octets.padding 32 fillByte "ljust" '<', octets.padding 32 fillByte "rjust" '>',
  octets.padding 32 fillByte "center" '^', octets.zeroFilling 48 (fun b => b == 43 || b == 45),
  octets.partition "partition" false, octets.partition "rpartition" true,
  octets.cutting isBlankByte "split" false, octets.cutting isBlankByte "rsplit" true,
  .placed "replace" 2 3 fun r v a => do
    let old ← needBytes a.at0
    let news ← needBytes a.at1
    let limit ← limitOf r a 2 "count"
    bytesLike v (Search.replace old news (← selfBytes v) limit),
  .single "join" fun r v items => do
    let parts ← joinParts r "a bytes-like object" (fun x => return (← bytes? x).map latin) items
    bytesLike v (unlatin (Text.joinWith (latin (← selfBytes v)) parts)),
  .named "splitlines" { names := ["keepends"] } fun r v a => do
    let keep ← match a.get? 0 "keepends" with
      | some k => do pure (decide ((← needWhole r k) ≠ 0))
      | none => pure false
    newList (← (byteLines keep [] (latin (← selfBytes v))).mapM fun t => bytesLike v (unlatin t)),
  .named "expandtabs" { names := ["tabsize"] } fun r v a => do
    let size ← match a.get? 0 "tabsize" with
      | some n => needWhole r n
      | none => pure 8
    bytesLike v (unlatin (Text.expandTabs size.toNat 0 (latin (← selfBytes v)))),
  .single "removeprefix" fun _ v part => do
    let part ← needBytes part
    let b ← selfBytes v
    bytesLike v (if part.isPrefixOf b then b.drop part.length else b),
  .single "removesuffix" fun _ v part => do
    let part ← needBytes part
    let b ← selfBytes v
    bytesLike v (if part.isSuffixOf b then b.take (b.length - part.length) else b),
  .named "translate" { names := ["", "delete"], required := 1, unnamed := 1 } fun _ v a =>
    translated v a.at0 ((a.get? 1 "delete").getD nil)]

def setBytes (v : Value) (b : List UInt8) : Eval Unit := do
  match (← unwrap v) with
  | .ref i => setCell i (.known "bytearray" (.bytearray b))
  | _ => return ()

def byteArrayMethods : List Native := [
  .single "append" fun r v x => do
    let x ← needByte r x
    setBytes v ((← selfBytes v) ++ [x])
    return nil,
  .single "extend" fun r v items => do
    let news ← match (← bytes? items) with
      | some b => pure b
      | none => do
          if !(← isIterable items) then
            typeError ("can't extend bytearray with " ++ (← typeName items))
          (← iterate r items).mapM (needByte r)
    setBytes v ((← selfBytes v) ++ news)
    return nil,
  .placed "insert" 2 2 fun r v a => do
    let n ← needSize r a.at0
    let x ← needByte r a.at1
    let b ← selfBytes v
    let place := (if n < 0 then max (n + b.length) 0 else min n b.length).toNat
    setBytes v (b.take place ++ x :: b.drop place)
    return nil,
  .placed "pop" 0 1 fun r v a => do
    let n ← match a.positional with
      | x :: _ => needSize r x
      | [] => pure (-1)
    let b ← selfBytes v
    if b.isEmpty then raise "IndexError" "pop from empty bytearray"
    match placeOf b.length n with
    | some k =>
      setBytes v (b.eraseIdx k)
      return ofNat (b.getD k 0).toNat
    | none => raise "IndexError" "pop index out of range",
  .single "remove" fun r v x => do
    let x ← needByte r x
    let b ← selfBytes v
    if !b.contains x then valueError "value not found in bytearray"
    setBytes v (b.erase x)
    return nil,
  .plain "reverse" fun _ v => do
    setBytes v (← selfBytes v).reverse
    return nil,
  .plain "clear" fun _ v => do
    setBytes v []
    return nil,
  .plain "copy" fun _ v => do newKnown "bytearray" (.bytearray (← selfBytes v))]

def memoryMethods : List Native := [
  .named "tobytes" { names := ["order"] } fun _ v _ => do return ofBytes (← selfBytes v),
  .plain "tolist" fun _ v => do newList ((← selfBytes v).map fun x => ofNat x.toNat),
  hexMethod,
  .plain "toreadonly" fun _ v => do newKnown "memoryview" (.memoryview (← selfBytes v) false),
  .plain "release" fun _ _ => return nil]

def bytesClassMethods (make : List UInt8 → Eval Value) : List Native := [
  .single "fromhex" fun _ _ text => do make (← bytesFromHex text),
  .placed "maketrans" 2 2 fun _ _ a => do
    let olds ← needBytes a.at0
    let news ← needBytes a.at1
    if olds.length ≠ news.length then valueError "maketrans arguments must have same length"
    let table := (List.range 256).map fun (k : Nat) => k.toUInt8
    return ofBytes ((olds.zip news).foldl
      (fun (t : List UInt8) (row : UInt8 × UInt8) => t.set row.1.toNat row.2) table)]

end Sandbox

end MacroExpand
