import MacroExpand.Sandbox.BytesMethods
import MacroExpand.Number.Reading

/-!
# Methods of numbers
-/

set_option autoImplicit false

namespace MacroExpand

namespace Sandbox

/-! ## Bytes of numbers -/

def lowBytes : Nat → Nat → List UInt8
  | 0, _ => []
  | count + 1, n => (n % 256).toUInt8 :: lowBytes count (n / 256)

def ofLowBytes (b : List UInt8) : Nat := b.foldr (fun x n => n * 256 + x.toNat) 0

def isBigEnd (name : String) (v : Option Value) : Eval Bool := do
  match v with
  | none => return true
  | some v =>
    match String.ofList (← needText (name ++ "() argument 'byteorder'") v) with
    | "big" => return true
    | "little" => return false
    | _ => valueError "byteorder must be either 'little' or 'big'"

def isGiven (r : Interpreter) (a : Arguments) (name : String) : Eval Bool := do
  match lookup a.keyword name with
  | some v => truthy r v
  | none => return false

def bytesFrom (r : Interpreter) (v : Value) : Eval (List UInt8) := do
  match (← bytes? v), (← text? v) with
  | some b, _ => return b
  | none, none =>
    if !(← isIterable v) then
      typeError ("cannot convert '" ++ (← typeName v) ++ "' object to bytes")
    (← iterate r v).mapM fun x => do
      let n ← needWhole r x
      if n < 0 ∨ 255 < n then valueError "bytes must be in range(0, 256)"
      return n.toNat.toUInt8
  | none, some _ => typeError ("cannot convert '" ++ (← typeName v) ++ "' object to bytes")

def selfInt (v : Value) : Eval Int := do return (index? (← unwrap v)).getD 0

def toBytes (r : Interpreter) (v : Value) (a : Arguments) : Eval Value := do
  let length ← match a.get? 0 "length" with
    | some n => needSize r n
    | none => pure 1
  let big ← isBigEnd "to_bytes" (a.get? 1 "byteorder")
  let signed ← isGiven r a "signed"
  if length < 0 then valueError "length argument must be non-negative"
  let n ← selfInt v
  let size : Int := 256 ^ length.toNat
  if n < 0 ∧ !signed then raise "OverflowError" "can't convert negative int to unsigned"
  let fits := if signed then -size ≤ 2 * n && 2 * n < size else n < size
  if !(fits || n = 0) then raise "OverflowError" "int too big to convert"
  let low := lowBytes length.toNat (if n < 0 then n + size else n).toNat
  return ofBytes (if big then low.reverse else low)

def fromBytes (r : Interpreter) (a : Arguments) : Eval Value := do
  let big ← isBigEnd "from_bytes" (a.get? 1 "byteorder")
  let signed ← isGiven r a "signed"
  let b ← bytesFrom r ((a.get? 0 "bytes").getD nil)
  let n := ofLowBytes (if big then b.reverse else b)
  let size := 256 ^ b.length
  return ofInt (if signed && size ≤ 2 * n then (n : Int) - size else n)

def intMethods : List Native := [
  .plain "bit_length" fun _ v => do
    let n := (← selfInt v).natAbs
    return ofNat (if n = 0 then 0 else Nat.log2 n + 1),
  .plain "bit_count" fun _ v => do
    return ofNat (((Nat.toDigits 2 (← selfInt v).natAbs).filter (· == '1')).length),
  .plain "conjugate" fun _ v => do return ofInt (← selfInt v),
  .plain "as_integer_ratio" fun _ v => do newTuple [ofInt (← selfInt v), ofInt 1],
  .named "to_bytes" { names := ["length", "byteorder", "signed"], places := 2 } toBytes]

def intClassMethods : List Native := [
  .named "from_bytes" { names := ["bytes", "byteorder", "signed"], required := 1, places := 2 }
    fun r _ a => fromBytes r a]

def selfDouble (v : Value) : Eval Double := do
  match (← unwrap v) with
  | .scalar (.float d) => return d
  | _ => return .zero

def floatMethods : List Native := [
  .plain "is_integer" fun _ v => do
    return ofBool ((Quotient.ofDouble? (← selfDouble v)).any fun q => q.den = 1),
  .plain "conjugate" fun _ v => do return ofFloat (← selfDouble v),
  .plain "as_integer_ratio" fun _ v => do
    let q ← ratioOf (← selfDouble v)
    newTuple [ofInt q.num, ofNat q.den],
  .plain "hex" fun _ v => do return ofText (← selfDouble v).hexText]

def floatClassMethods : List Native := [
  .single "fromhex" fun _ _ v => do
    match (← text? v) with
    | none => typeError "bad argument type for built-in operation"
    | some t =>
      match Double.readHex t with
      | .ok d => newNumber (.float d)
      | .error .invalid => valueError "invalid hexadecimal floating-point string"
      | .error .tooLarge =>
        raise "OverflowError" "hexadecimal value too large to represent as a float"]

def complexMethods : List Native := [
  .plain "conjugate" fun _ v => do
    match (← unwrap v) with
    | .scalar (.complex re im) => return .scalar (.complex re im.neg)
    | v => return v]

def numberPart? (s : Scalar) (name : String) : Option Value :=
  match s, name with
  | .bool b, "real" | .bool b, "numerator" => some (ofInt (if b then 1 else 0))
  | .int n, "real" | .int n, "numerator" => some (ofInt n)
  | .bool _, "imag" | .int _, "imag" => some (ofInt 0)
  | .bool _, "denominator" | .int _, "denominator" => some (ofInt 1)
  | .float d, "real" => some (ofFloat d)
  | .float _, "imag" => some (ofFloat .zero)
  | .complex re _, "real" => some (ofFloat re)
  | .complex _ im, "imag" => some (ofFloat im)
  | _, _ => none

end Sandbox

end MacroExpand
