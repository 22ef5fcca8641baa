import MacroExpand.Number.Double
import MacroExpand.Text.Charset
import MacroExpand.Text.Utf8
import MacroExpand.Text.Lines

/-!
# Encodings of text

A codec writes text as bytes and reads bytes as text.  Where it cannot, a handler says what takes the
place of the characters or bytes at fault, or the fault is reported.
-/

set_option autoImplicit false

namespace MacroExpand

inductive ByteOrder where
  | little
  | big
  deriving DecidableEq, Repr, Inhabited

inductive Codec where
  | ascii
  | latin1
  | utf8
  /-- UTF-8 behind a mark. -/
  | utf8Signed
  /-- Units of 16 bits; without an order a mark gives it. -/
  | utf16 (order : Option ByteOrder)
  | utf32 (order : Option ByteOrder)
  /-- A character set of one byte, by name. -/
  | charset (name : String)
  deriving DecidableEq, Repr, Inhabited

/-- What cannot be read or written: the name of the codec, the first and the last place, what stands
there, and why. -/
structure CodecFault where
  codec : String
  first : Nat
  last : Nat
  /-- The byte or the code of the character at the first place. -/
  value : Nat
  reason : String
  deriving DecidableEq, Repr, Inhabited

/-- What takes the place of what cannot be read or written. -/
inductive FaultHandler where
  | strict
  | ignore
  | replace
  | backslash
  | reference
  deriving DecidableEq, Repr, Inhabited

namespace Codec

/-! ## Names -/

/-- The plain form of the name of an encoding: small letters, and an underscore for everything else. -/
def plainLabel (between : Bool) : Text → Text
  | [] => []
  | c :: rest =>
    if c.isAlphanum || c == '.' then
      (if between then ['_'] else []) ++ c.toLower :: plainLabel false rest
    else plainLabel true rest

def unalias (label : String) : String :=
  match encodingAliases.find? fun row => (row.2.splitOn " ").contains label with
  | some row => row.1
  | none => label

def named? (label : Text) : Option Codec :=
  let plain := match plainLabel false label with
    | '_' :: rest => rest
    | rest => rest
  let name := unalias (String.ofList plain)
  match name with
  | "ascii" => some .ascii
  | "latin_1" => some .latin1
  | "utf_8" => some .utf8
  | "utf_8_sig" => some .utf8Signed
  | "utf_16" => some (.utf16 none)
  | "utf_16_le" => some (.utf16 (some .little))
  | "utf_16_be" => some (.utf16 (some .big))
  | "utf_32" => some (.utf32 none)
  | "utf_32_le" => some (.utf32 (some .little))
  | "utf_32_be" => some (.utf32 (some .big))
  | _ => if Charset.isKnown name then some (.charset name) else none

def orderName : ByteOrder → String
  | .little => "le"
  | .big => "be"

def label : Codec → String
  | .ascii => "ascii"
  | .latin1 => "latin-1"
  | .utf8 | .utf8Signed => "utf-8"
  | .utf16 order => "utf-16-" ++ orderName (order.getD .little)
  | .utf32 order => "utf-32-" ++ orderName (order.getD .little)
  | .charset _ => "charmap"

end Codec

namespace CodecFault

def decodeMessage (e : CodecFault) : String :=
  let place := if e.first = e.last then
      "byte 0x" ++ String.ofList (hexDigits e.value 2) ++ " in position " ++ toString e.first
    else "bytes in position " ++ toString e.first ++ "-" ++ toString e.last
  "'" ++ e.codec ++ "' codec can't decode " ++ place ++ ": " ++ e.reason

def escaped (code : Nat) : String :=
  if code < 256 then "\\x" ++ String.ofList (hexDigits code 2)
  else if code < 65536 then "\\u" ++ String.ofList (hexDigits code 4)
  else "\\U" ++ String.ofList (hexDigits code 8)

def encodeMessage (e : CodecFault) : String :=
  let place := if e.first = e.last then
      "character '" ++ escaped e.value ++ "' in position " ++ toString e.first
    else "characters in position " ++ toString e.first ++ "-" ++ toString e.last
  "'" ++ e.codec ++ "' codec can't encode " ++ place ++ ": " ++ e.reason

end CodecFault

namespace Codec

/-! ## Reading -/

/-- A character that was read with the number of bytes it takes, or the number of bytes at fault and
the reason. -/
inductive ReadStep where
  | char (code : Nat) (length : Nat)
  | fault (length : Nat) (reason : String)
  deriving DecidableEq, Repr, Inhabited

def unit (order : ByteOrder) (bytes : List UInt8) : Nat :=
  let bytes := if order = .little then bytes.reverse else bytes
  bytes.foldl (fun n b => n * 256 + b.toNat) 0

def read16 (order : ByteOrder) (bytes : List UInt8) : ReadStep :=
  if bytes.length < 2 then .fault bytes.length "truncated data"
  else
    let first := unit order (bytes.take 2)
    if first < 0xD800 ∨ 0xDFFF < first then .char first 2
    else if 0xDC00 ≤ first then .fault 2 "illegal encoding"
    else
      let more := (bytes.drop 2).take 2
      if more.length < 2 then .fault (2 + more.length) "unexpected end of data"
      else
        let second := unit order more
        if 0xDC00 ≤ second ∧ second ≤ 0xDFFF then
          .char (0x10000 + (first - 0xD800) * 1024 + (second - 0xDC00)) 4
        else .fault 2 "illegal UTF-16 surrogate"

def read32 (order : ByteOrder) (bytes : List UInt8) : ReadStep :=
  if bytes.length < 4 then .fault bytes.length "truncated data"
  else
    let code := unit order (bytes.take 4)
    if 0x110000 ≤ code then .fault 4 "code point not in range(0x110000)"
    else if 0xD800 ≤ code ∧ code ≤ 0xDFFF then
      .fault 4 "code point in surrogate code point range(0xd800, 0xe000)"
    else .char code 4

def readStep (codec : Codec) (rows : List CodeRow) : List UInt8 → ReadStep
  | [] => .fault 0 ""
  | b :: rest =>
    match codec with
    | .ascii => if b < 128 then .char b.toNat 1 else .fault 1 "ordinal not in range(128)"
    | .latin1 => .char b.toNat 1
    | .utf8 | .utf8Signed =>
      match utf8Step b rest with
      | .char c length => .char c.toNat length
      | .fault fault length => .fault length (Utf8Error.reason fault)
    | .utf16 order => read16 (order.getD .little) (b :: rest)
    | .utf32 order => read32 (order.getD .little) (b :: rest)
    | .charset _ =>
      match Charset.character? rows b.toNat with
      | some code => .char code 1
      | none => .fault 1 "character maps to <undefined>"

def readable (handler : FaultHandler) (bytes : List UInt8) : Option Text :=
  match handler with
  | .ignore => some []
  | .replace => some ['\uFFFD']
  | .backslash => some (bytes.flatMap fun b => chars ("\\x" ++ String.ofList (hexDigits b.toNat 2)))
  | .strict | .reference => none

def readFrom (codec : Codec) (rows : List CodeRow) (handler : FaultHandler) :
    Nat → Nat → Text → List UInt8 → Except CodecFault Text
  | 0, _, done, _ => .ok done.reverse
  | _, _, done, [] => .ok done.reverse
  | fuel + 1, place, done, b :: rest =>
    match readStep codec rows (b :: rest) with
    | .char code length =>
      readFrom codec rows handler fuel (place + length) (Char.ofNat code :: done)
        ((b :: rest).drop length)
    | .fault length reason =>
      match readable handler ((b :: rest).take length) with
      | some text =>
        readFrom codec rows handler fuel (place + length) (text.reverse ++ done)
          ((b :: rest).drop length)
      | none => .error ⟨codec.label, place, place + length - 1, b.toNat, reason⟩

def settle (codec : Codec) (bytes : List UInt8) : Codec × Nat :=
  match codec with
  | .utf16 none =>
    match bytes with
    | 0xFF :: 0xFE :: _ => (.utf16 (some .little), 2)
    | 0xFE :: 0xFF :: _ => (.utf16 (some .big), 2)
    | _ => (codec, 0)
  | .utf32 none =>
    match bytes with
    | 0xFF :: 0xFE :: 0 :: 0 :: _ => (.utf32 (some .little), 4)
    | 0 :: 0 :: 0xFE :: 0xFF :: _ => (.utf32 (some .big), 4)
    | _ => (codec, 0)
  | _ => (codec, 0)

def rows : Codec → List CodeRow
  | .charset name => Charset.rows name
  | _ => []

def decode (codec : Codec) (bytes : List UInt8) (handler : FaultHandler := .strict) :
    Except CodecFault Text :=
  let isMarked := codec = .utf8Signed ∧ bytes.take 3 = [0xEF, 0xBB, 0xBF]
  let bytes := if isMarked then bytes.drop 3 else bytes
  let (settled, used) := settle codec bytes
  readFrom settled codec.rows handler (bytes.length + 1) used [] (bytes.drop used)

/-! ## Writing -/

def unitBytes (order : ByteOrder) (size n : Nat) : List UInt8 :=
  let bytes := (List.range size).map fun k => (n / 256 ^ k % 256).toUInt8
  if order = .little then bytes else bytes.reverse

def writeStep (codec : Codec) (rows : List CodeRow) (c : Char) : Option (List UInt8) :=
  let n := c.toNat
  match codec with
  | .ascii => if n < 128 then some [n.toUInt8] else none
  | .latin1 => if n < 256 then some [n.toUInt8] else none
  | .utf8 | .utf8Signed => some (String.utf8EncodeChar c)
  | .utf16 order =>
    let order := order.getD .little
    some (if n < 0x10000 then unitBytes order 2 n
      else unitBytes order 2 (0xD800 + (n - 0x10000) / 1024) ++
        unitBytes order 2 (0xDC00 + (n - 0x10000) % 1024))
  | .utf32 order => some (unitBytes (order.getD .little) 4 n)
  | .charset _ => (Charset.byte? rows n).map fun b => [b.toUInt8]

def writeReason : Codec → String
  | .ascii => "ordinal not in range(128)"
  | .latin1 => "ordinal not in range(256)"
  | _ => "character maps to <undefined>"

def writable (handler : FaultHandler) (c : Char) : Option Text :=
  match handler with
  | .ignore => some []
  | .replace => some ['?']
  | .backslash => some (chars (CodecFault.escaped c.toNat))
  | .reference => some (chars ("&#" ++ toString c.toNat ++ ";"))
  | .strict => none

def writeFrom (codec : Codec) (rows : List CodeRow) (handler : FaultHandler) (place : Nat)
    (done : List UInt8) : Text → Except CodecFault (List UInt8)
  | [] => .ok done.reverse
  | c :: rest =>
    match writeStep codec rows c with
    | some bytes => writeFrom codec rows handler (place + 1) (bytes.reverse ++ done) rest
    | none =>
      match writable handler c with
      | some text =>
        let bytes := text.flatMap fun t => (writeStep codec rows t).getD []
        writeFrom codec rows handler (place + 1) (bytes.reverse ++ done) rest
      | none =>
        let bad := (c :: rest).takeWhile fun d => (writeStep codec rows d).isNone
        .error ⟨codec.label, place, place + bad.length - 1, c.toNat, codec.writeReason⟩

def signature : Codec → List UInt8
  | .utf8Signed => [0xEF, 0xBB, 0xBF]
  | .utf16 none => [0xFF, 0xFE]
  | .utf32 none => [0xFF, 0xFE, 0, 0]
  | _ => []

def encode (codec : Codec) (text : Text) (handler : FaultHandler := .strict) :
    Except CodecFault (List UInt8) :=
  (writeFrom codec codec.rows handler 0 [] text).map (codec.signature ++ ·)

end Codec

/-!
## The encoding of a file

A source file is UTF-8 unless a comment in its first two lines declares another encoding.  A byte
order mark in front also says UTF-8 and is dropped.
-/

inductive FileTextError where
  | unknownEncoding (name : Text)
  /-- The mark in front says UTF-8 and the declaration says something else. -/
  | markClash
  | badUtf8 (error : Utf8Error)
  /-- The bytes do not fit the encoding that was declared. -/
  | unfit (fault : CodecFault)
  deriving DecidableEq, Repr, Inhabited

namespace FileTextError

def message : FileTextError → String
  | .unknownEncoding name => "unknown encoding: " ++ String.ofList name
  | .markClash => "encoding problem: utf-8"
  | .badUtf8 e => "(unicode error) " ++ e.message
  | .unfit e => e.decodeMessage

def line (bytes : List UInt8) : FileTextError → Nat
  | .badUtf8 e => (bytes.take e.position).count 10 + 1
  | _ => 0

end FileTextError

namespace FileEncoding

def isNamePart (c : Char) : Bool := c.isAlphanum || c == '_' || c == '-' || c == '.'

def nameBehind : Text → Option Text
  | [] => none
  | c :: rest =>
    match (chars "coding").isPrefixOf (c :: rest), (c :: rest).drop 6 with
    | true, mark :: more =>
      let name := (more.dropWhile fun d => d == ' ' || d == '\t').takeWhile isNamePart
      if (mark == ':' || mark == '=') && !name.isEmpty then some name else nameBehind rest
    | _, _ => nameBehind rest

def declaredIn (line : Text) : Option Text :=
  match line.dropWhile fun c => c == ' ' || c == '\t' || c == '\x0c' with
  | '#' :: rest => nameBehind rest
  | _ => none

def isIdle (line : Text) : Bool :=
  match line.dropWhile fun c => c == ' ' || c == '\t' || c == '\x0c' with
  | [] => true
  | c :: _ => c == '#' || c == '\r' || c == '\n'

def declared? (lines : List Text) : Option Text :=
  match lines with
  | [] => none
  | [line] => declaredIn line
  | first :: second :: _ =>
    (declaredIn first).or (if isIdle first then declaredIn second else none)

/-- The usual names of two encodings; other names stay as they are.  Only the first twelve characters
decide. -/
def usualName (name : Text) : Text :=
  let plain := (name.take 12).map fun c => if c == '_' then '-' else c.toLower
  let is := fun (usual : String) =>
    plain == chars usual || (chars (usual ++ "-")).isPrefixOf plain
  if is "utf-8" then chars "utf-8"
  else if is "latin-1" || is "iso-8859-1" || is "iso-latin-1" then chars "iso-8859-1"
  else name

end FileEncoding

def sourceText (bytes : List UInt8) : Except FileTextError Text :=
  let isMarked := bytes.take 3 = [0xEF, 0xBB, 0xBF]
  let body := if isMarked then bytes.drop 3 else bytes
  let lines := Text.splitFeeds [] (body.map fun b => Char.ofNat b.toNat)
  let name := ((FileEncoding.declared? lines).map FileEncoding.usualName).getD (chars "utf-8")
  if name = chars "utf-8" then (utf8Decode body).mapError .badUtf8
  else match Codec.named? name with
    | none => .error (.unknownEncoding name)
    | some codec =>
      if isMarked then .error .markClash else (codec.decode body).mapError .unfit

def hasBadHead (bytes : List UInt8) : Bool :=
  let body := if bytes.take 3 = [0xEF, 0xBB, 0xBF] then bytes.drop 3 else bytes
  let lines := Text.splitFeeds [] (body.map fun b => Char.ofNat b.toNat)
  let isBad := fun (line : Text) =>
    match utf8Decode (line.map fun c => c.toNat.toUInt8) with
    | .ok _ => false
    | .error _ => true
  match lines with
  | [] => false
  | [first] => isBad first
  | first :: second :: _ =>
    isBad first ||
      ((FileEncoding.declaredIn first).isNone && FileEncoding.isIdle first && isBad second)

end MacroExpand
