import MacroExpand.Number.Double
import MacroExpand.Text.Lines

/-!
# Expanding compressed data

Compressed data is a row of blocks: bytes as they are, or codes for bytes and for copies of what came
before.  Around the blocks stand a header and checks, or nothing.  Data may end early; what has been
expanded up to there counts.
-/

set_option autoImplicit false

namespace MacroExpand

/-- What stands around the blocks. -/
inductive Wrapping where
  | bare
  /-- Two bytes in front, and a sum behind. -/
  | short
  /-- A header with a name, and a checksum and the size behind. -/
  | long
  deriving DecidableEq, Repr, Inhabited

namespace Inflate

/-- Why expanding stops before its end. -/
inductive Stop where
  /-- The data ends here. -/
  | short
  | fault (reason : String)
  /-- The data refers to something that is not part of it. -/
  | foreign
  deriving DecidableEq, Repr, Inhabited

/-- How far expanding has come. -/
structure Progress where
  data : Array UInt8
  /-- The number of bits taken. -/
  taken : Nat := 0
  output : Array UInt8 := #[]
  deriving Inhabited

abbrev InflateM := ExceptT Stop (StateM Progress)

def fault {α : Type} (reason : String) : InflateM α := throw (.fault reason)

/-! ## Bits -/

def bitAt (data : Array UInt8) (i : Nat) : Nat := (data.getD (i / 8) 0).toNat / 2 ^ (i % 8) % 2

def bitsAt (data : Array UInt8) (i : Nat) : Nat → Nat
  | 0 => 0
  | count + 1 => bitAt data i + 2 * bitsAt data (i + 1) count

def takeBits (count : Nat) : InflateM Nat := do
  let p ← get
  if 8 * p.data.size < p.taken + count then throw .short
  set { p with taken := p.taken + count }
  return bitsAt p.data p.taken count

def alignByte : InflateM Unit := modify fun p => { p with taken := (p.taken + 7) / 8 * 8 }

def takeHighFirst (count : Nat) : InflateM Nat := do
  (List.range count).foldlM (fun n _ => do return n * 256 + (← takeBits 8)) 0

def emit (byte : UInt8) : InflateM Unit := modify fun p => { p with output := p.output.push byte }

/-! ## Codes -/

/-- A code: for every length the number of its code words, and the symbols in the order of their
code words. -/
structure Code where
  counts : Array Nat
  symbols : Array Nat
  /-- The length of the longest code word. -/
  longest : Nat
  deriving Inhabited

/-- The room that is left behind code words of some lengths, in words of the last length; negative
if there are too many. -/
def room (counts : List Nat) : Int :=
  counts.foldl (fun (left : Int) (n : Nat) => 2 * left - n) 1

/-- The code in which symbols have words of given lengths, zero meaning none.  A code may leave words
over only if none is longer than one bit, and not even then where it must be `complete`. -/
def Code.ofLengths? (complete : Bool) (lengths : List Nat) : Option Code :=
  let counts := (List.range 16).map fun n => if n = 0 then 0 else lengths.count n
  let longest := lengths.foldl max 0
  let left := room (counts.drop 1)
  let symbols := (List.range 16).flatMap fun n =>
    if n = 0 then [] else (lengths.zipIdx.filter fun (m, _) => m == n).map Prod.snd
  if longest = 0 then some ⟨counts.toArray, #[], 0⟩
  else if left < 0 ∨ (0 < left ∧ (complete ∨ longest ≠ 1)) then none
  else some ⟨counts.toArray, symbols.toArray, longest⟩

def Code.readFrom (c : Code) : Nat → Nat → Nat → Nat → Nat → InflateM (Option Nat)
  | 0, _, _, _, _ => return none
  | fuel + 1, length, word, first, index => do
      let word := word + (← takeBits 1)
      let count := c.counts.getD length 0
      if word < first + count then return c.symbols[index + (word - first)]?
      if c.longest ≤ length then return none
      c.readFrom fuel (length + 1) (2 * word) (2 * (first + count)) (index + count)

def Code.read (c : Code) : InflateM (Option Nat) := c.readFrom 15 1 0 0 0

/-! ## Blocks -/

def lengthRows : Array (Nat × Nat) := #[
  (3, 0), (4, 0), (5, 0), (6, 0), (7, 0), (8, 0), (9, 0), (10, 0), (11, 1), (13, 1), (15, 1), (17, 1),
  (19, 2), (23, 2), (27, 2), (31, 2), (35, 3), (43, 3), (51, 3), (59, 3), (67, 4), (83, 4), (99, 4),
  (115, 4), (131, 5), (163, 5), (195, 5), (227, 5), (258, 0)]

def distanceRows : Array (Nat × Nat) := #[
  (1, 0), (2, 0), (3, 0), (4, 0), (5, 1), (7, 1), (9, 2), (13, 2), (17, 3), (25, 3), (33, 4), (49, 4),
  (65, 5), (97, 5), (129, 6), (193, 6), (257, 7), (385, 7), (513, 8), (769, 8), (1025, 9), (1537, 9),
  (2049, 10), (3073, 10), (4097, 11), (6145, 11), (8193, 12), (12289, 12), (16385, 13), (24577, 13)]

def copyBack (distance : Nat) : Nat → InflateM Unit
  | 0 => return ()
  | count + 1 => do
      let p ← get
      emit (p.output.getD (p.output.size - distance) 0)
      copyBack distance count

def readSymbols (literals distances : Code) : Nat → InflateM Unit
  | 0 => return ()
  | fuel + 1 => do
      match (← literals.read) with
      | none => fault "invalid literal/length code"
      | some symbol =>
        if symbol < 256 then
          emit symbol.toUInt8
          readSymbols literals distances fuel
        else if symbol = 256 then return ()
        else
          match lengthRows[symbol - 257]? with
          | none => fault "invalid literal/length code"
          | some (least, more) =>
            let length := least + (← takeBits more)
            match (← distances.read).bind (distanceRows[·]?) with
            | none => fault "invalid distance code"
            | some (near, more) =>
              let distance := near + (← takeBits more)
              if (← get).output.size < distance then fault "invalid distance too far back"
              copyBack distance length
              readSymbols literals distances fuel

def fixedLengths : List Nat :=
  List.replicate 144 8 ++ List.replicate 112 9 ++ List.replicate 24 7 ++ List.replicate 8 8

def lengthOrder : List Nat := [16, 17, 18, 0, 8, 7, 9, 6, 10, 5, 11, 4, 12, 3, 13, 2, 14, 1, 15]

def readLengths (code : Code) (total : Nat) : Nat → List Nat → InflateM (List Nat)
  | 0, done => return done
  | fuel + 1, done => do
      if total ≤ done.length then return done
      let symbol := (← code.read).getD 0
      let again := fun (value count : Nat) => (do
        if total < done.length + count then fault "invalid bit length repeat"
        readLengths code total fuel (List.replicate count value ++ done) : InflateM (List Nat))
      match symbol with
      | 16 => do
          let count := 3 + (← takeBits 2)
          match done with
          | [] => fault "invalid bit length repeat"
          | last :: _ => again last count
      | 17 => do again 0 (3 + (← takeBits 3))
      | 18 => do again 0 (11 + (← takeBits 7))
      | n => readLengths code total fuel (n :: done)

def readCodes : InflateM (Code × Code) := do
  let sizes ← takeBits 14
  let literalCount := sizes % 32 + 257
  let distanceCount := sizes / 32 % 32 + 1
  let lengthCount := sizes / 1024 + 4
  if 286 < literalCount ∨ 30 < distanceCount then fault "too many length or distance symbols"
  let given ← (List.range lengthCount).mapM fun _ => takeBits 3
  let rows := lengthOrder.zip given
  match Code.ofLengths? true ((List.range 19).map fun n => (rows.lookup n).getD 0) with
  | none => fault "invalid code lengths set"
  | some code =>
    let total := literalCount + distanceCount
    let lengths := (← readLengths code total (total + 1) []).reverse
    if lengths.getD 256 0 = 0 then fault "invalid code -- missing end-of-block"
    match Code.ofLengths? false (lengths.take literalCount) with
    | none => fault "invalid literal/lengths set"
    | some literals =>
      match Code.ofLengths? false (lengths.drop literalCount) with
      | none => fault "invalid distances set"
      | some distances => return (literals, distances)

def readPlain : InflateM Unit := do
  alignByte
  let sizes ← takeBits 32
  let size := sizes % 65536
  if size + sizes / 65536 ≠ 65535 then fault "invalid stored block lengths"
  (List.range size).forM fun _ => do emit (← takeBits 8).toUInt8

def readBlocks : Nat → InflateM Unit
  | 0 => return ()
  | fuel + 1 => do
      let head ← takeBits 3
      let p ← get
      let symbols := 8 * p.data.size + 1
      match head / 2 with
      | 0 => readPlain
      | 1 =>
        match Code.ofLengths? false fixedLengths, Code.ofLengths? false (List.replicate 32 5) with
        | some literals, some distances => readSymbols literals distances symbols
        | _, _ => return ()
      | 2 =>
        let (literals, distances) ← readCodes
        readSymbols literals distances symbols
      | _ => fault "invalid block type"
      if head % 2 = 1 then return () else readBlocks fuel

/-! ## Around the blocks -/

def byteSum (bytes : List UInt8) : Nat :=
  let (a, b) := bytes.foldl (fun ((a, b) : Nat × Nat) x =>
    let a := (a + x.toNat) % 65521
    (a, (b + a) % 65521)) (1, 0)
  b * 65536 + a

def checkBits : Nat → UInt32 → UInt32
  | 0, c => c
  | count + 1, c => checkBits count (if c % 2 = 1 then (c >>> 1) ^^^ 0xEDB88320 else c >>> 1)

def checksum (bytes : List UInt8) : UInt32 :=
  (bytes.foldl (fun (c : UInt32) x => checkBits 8 (c ^^^ x.toUInt32)) 0xFFFFFFFF) ^^^ 0xFFFFFFFF

def readShortHeader : InflateM Unit := do
  let method ← takeBits 8
  let flags ← takeBits 8
  if (method * 256 + flags) % 31 ≠ 0 then fault "incorrect header check"
  if method % 16 ≠ 8 then fault "unknown compression method"
  if 7 < method / 16 then fault "invalid window size"
  if flags / 32 % 2 = 1 then
    let _ ← takeBits 32
    throw .foreign

def skipText : Nat → InflateM Unit
  | 0 => return ()
  | fuel + 1 => do if (← takeBits 8) = 0 then return () else skipText fuel

def readLongHeader : InflateM Unit := do
  let start ← takeBits 16
  if start ≠ 0x8b1f then fault "incorrect header check"
  let kind ← takeBits 16
  if kind % 256 ≠ 8 then fault "unknown compression method"
  let flags := kind / 256
  if 32 ≤ flags then fault "unknown header flags set"
  let _ ← takeBits 48
  let size := (← get).data.size
  if flags / 4 % 2 = 1 then
    let extra ← takeBits 16
    let _ ← takeBits (8 * extra)
  if flags / 8 % 2 = 1 then skipText size
  if flags / 16 % 2 = 1 then skipText size
  if flags / 2 % 2 = 1 then
    let p ← get
    let sum := checksum (p.data.toList.take (p.taken / 8))
    if (← takeBits 16) ≠ sum.toNat % 65536 then fault "header crc mismatch"

def readAll (wrapping : Wrapping) : InflateM Unit := do
  let blocks := 8 * (← get).data.size + 1
  match wrapping with
  | .bare => readBlocks blocks
  | .short =>
    readShortHeader
    readBlocks blocks
    alignByte
    let sum ← takeHighFirst 4
    if sum ≠ byteSum (← get).output.toList then fault "incorrect data check"
  | .long =>
    readLongHeader
    readBlocks blocks
    alignByte
    let sum ← takeBits 32
    let output := (← get).output
    if sum ≠ (checksum output.toList).toNat then fault "incorrect data check"
    if (← takeBits 32) ≠ output.size % 2 ^ 32 then fault "incorrect length check"

end Inflate

def inflate (wrapping : Wrapping) (data : List UInt8) : Except String (List UInt8) :=
  let (result, p) := (Inflate.readAll wrapping).run { data := data.toArray }
  match result with
  | .ok () | .error .short => .ok p.output.toList
  | .error (.fault reason) => .error ("Error -3 while decompressing data: " ++ reason)
  | .error .foreign => .error "Error 2 while decompressing data"

end MacroExpand
