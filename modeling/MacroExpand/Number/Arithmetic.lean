import MacroExpand.Value.Equality
import MacroExpand.Syntax.Tree

/-!
# Arithmetic of scalars

Whole numbers have any size, quotients of whole numbers are the nearest double, and floor division
and remainder round down.  A wider kind of number absorbs a narrower one: truth values, whole
numbers, doubles, complex numbers.
-/

set_option autoImplicit false

namespace MacroExpand

inductive ArithmeticFault where
  | zeroDivision (message : String)
  | overflow (message : String)
  | value (message : String)
  /-- The result is beyond the greatest double. -/
  | range
  /-- There is no memory for the result. -/
  | memory
  deriving DecidableEq, Repr, Inhabited

namespace Int2

/-- Bits of two whole numbers taken together, where negative numbers have endless ones in front. -/
def bits (op : Nat → Nat → Nat) (onSigns : Bool → Bool → Bool) (a b : Int) : Int :=
  let flip := fun (n : Int) => if n < 0 then (-(n + 1)).toNat else n.toNat
  let width := 1 + max (Nat.log2 (flip a)) (Nat.log2 (flip b))
  let full : Nat := 2 ^ width
  let wrap := fun (n : Int) => (if n < 0 then (full : Int) + n else n).toNat
  let low : Int := op (wrap a) (wrap b) % full
  if onSigns (a < 0) (b < 0) then low - full else low

def land (a b : Int) : Int := bits (· &&& ·) (· && ·) a b
def lor (a b : Int) : Int := bits (· ||| ·) (· || ·) a b
def xor (a b : Int) : Int := bits (· ^^^ ·) Bool.xor a b

end Int2

namespace Double

def add (a b : Double) : Double := ofFloat (a.toFloat + b.toFloat)
def sub (a b : Double) : Double := ofFloat (a.toFloat - b.toFloat)
def mul (a b : Double) : Double := ofFloat (a.toFloat * b.toFloat)
def div (a b : Double) : Double := ofFloat (a.toFloat / b.toFloat)
def pow (a b : Double) : Double := ofFloat (Float.pow a.toFloat b.toFloat)
def floor (a : Double) : Double := ofFloat a.toFloat.floor
def lt (a b : Double) : Bool := a.toFloat < b.toFloat
def le (a b : Double) : Bool := a.toFloat ≤ b.toFloat
def abs (a : Double) : Double := ⟨.word (a.word &&& 0x7FFFFFFFFFFFFFFF)⟩

def withSign (a sign : Double) : Double := if sign.negative then a.abs.neg else a.abs

def fmod (a b : Double) : Double :=
  match a.kind, b.kind with
  | .finite m q, .finite n p =>
    if n = 0 then undefined
    else
      let e := min q p
      let x := m * 2 ^ (q - e).toNat
      let y := n * 2 ^ (p - e).toNat
      let r := x % y
      let d := if 0 ≤ e then ofQuotient (r * 2 ^ e.toNat) 1 else ofQuotient r (2 ^ (-e).toNat)
      withSign d a
  | .finite .., .infinite => a
  | _, _ => undefined

def modulo (a b : Double) : Double :=
  let r := fmod a b
  if r.isZero then withSign zero b
  else if r.negative != b.negative then add r b else r

def floorDiv (a b : Double) : Double :=
  let r := fmod a b
  let q := div (sub a r) b
  let q := if !r.isZero && r.negative != b.negative then sub q (ofInt 1) else q
  if q.isZero then withSign zero (div a b)
  else
    let f := floor q
    if lt (ofQuotient 1 2) (sub q f) then add f (ofInt 1) else f

def truncate? (d : Double) : Option Int :=
  match d.kind with
  | .finite m q =>
    let n : Nat := if 0 ≤ q then m * 2 ^ q.toNat else m / 2 ^ (-q).toNat
    some (if d.negative then -(n : Int) else n)
  | _ => none

def floor? (d : Double) : Option Int :=
  (Quotient.ofDouble? d).map fun q => Int.fdiv q.num q.den

def round? (d : Double) : Option Int :=
  match d.kind with
  | .finite m q =>
    let n : Nat := if 0 ≤ q then m * 2 ^ q.toNat else roundDiv m (2 ^ (-q).toNat)
    some (if d.negative then -(n : Int) else n)
  | _ => none

def ofRoot (num den : Nat) : Double :=
  if num = 0 then zero
  else
    let shift : Int := 130 - ((num.log2 : Int) - den.log2)
    let shift := if shift % 2 = 0 then shift else shift + 1
    let scaled := num * 2 ^ shift.toNat / (den * 2 ^ (-shift).toNat)
    let root := isqrt scaled
    -- A last bit that is set stands for all that was cut off.
    let root := 2 * root + (if root * root = scaled &&
      num * 2 ^ shift.toNat = scaled * (den * 2 ^ (-shift).toNat) then 0 else 1)
    let half := shift / 2 + 1
    ofQuotient (root * 2 ^ (-half).toNat) (2 ^ half.toNat)
where
  /-- The whole part of a square root. -/
  isqrt (n : Nat) : Nat :=
    if n = 0 then 0 else newton n (n.log2 + 10) (2 ^ (n.log2 / 2 + 1))
  /-- Newton's steps towards a square root from above. -/
  newton (n : Nat) : Nat → Nat → Nat
    | 0, x => x
    | fuel + 1, x =>
      let y := (x + n / x) / 2
      if y < x then newton n fuel y else x

def length (parts : List Double) : Double :=
  let squares := parts.filterMap fun d => (Quotient.ofDouble? d).map fun q =>
    (q.num.natAbs ^ 2, q.den ^ 2)
  let den := squares.foldl (fun m (q : Nat × Nat) => max m q.2) 1
  ofRoot (squares.foldl (fun n (q : Nat × Nat) => n + q.1 * (den / q.2)) 0) den

end Double

namespace Arithmetic

abbrev Outcome := Except ArithmeticFault Scalar

def toDouble (n : Int) : Except ArithmeticFault Double :=
  let d := Double.ofInt n
  if d.isInfinite then .error (.overflow "int too large to convert to float") else .ok d

def trueDiv (a b : Int) : Outcome :=
  if b = 0 then .error (.zeroDivision "division by zero")
  else
    let d := Double.ofQuotient a.natAbs b.natAbs
    if d.isInfinite then .error (.overflow "integer division result too large for a float")
    else .ok (.float (if (a < 0) != (b < 0) && a ≠ 0 then d.neg else d))

abbrev Complex := Double × Double

def complexMul (x y : Complex) : Complex :=
  ((x.1.mul y.1).sub (x.2.mul y.2), (x.1.mul y.2).add (x.2.mul y.1))

def complexDiv? (x y : Complex) : Option Complex :=
  let (a, b) := x
  let (c, d) := y
  if c.isZero && d.isZero then none
  else if Double.le d.abs c.abs then
    let ratio := d.div c
    let denominator := c.add (d.mul ratio)
    some ((a.add (b.mul ratio)).div denominator, (b.sub (a.mul ratio)).div denominator)
  else if Double.le c.abs d.abs then
    let ratio := c.div d
    let denominator := (c.mul ratio).add d
    some (((a.mul ratio).add b).div denominator, ((b.mul ratio).sub a).div denominator)
  else some (.undefined, .undefined)

def complexSquares : Nat → Nat → Complex → Complex → Complex
  | 0, _, _, result => result
  | _ + 1, 0, _, result => result
  | fuel + 1, n, z, result =>
    complexSquares fuel (n / 2) (complexMul z z) (if n % 2 = 1 then complexMul result z else result)

def complexPolar (x y : Complex) : Option Complex :=
  let (a, b) := x
  let (c, d) := y
  if c.isZero && d.isZero then some (.ofInt 1, .zero)
  else if a.isZero && b.isZero then
    if !d.isZero || c.negative then none else some (.zero, .zero)
  else
    let size := if a.isInfinite || b.isInfinite then Double.infinity.toFloat
      else if a.isUndefined || b.isUndefined then Double.undefined.toFloat
      else (Double.length [a, b]).toFloat
    let angle := Float.atan2 b.toFloat a.toFloat
    let length := Float.pow size c.toFloat
    let phase := angle * c.toFloat
    let (length, phase) := if d.isZero then (length, phase)
      else (length / Float.exp (angle * d.toFloat), phase + d.toFloat * Float.log size)
    some (.ofFloat (length * Float.cos phase), .ofFloat (length * Float.sin phase))

def complexPow (x y : Complex) : Outcome :=
  let (c, d) := y
  let whole := if d.isZero then c.truncate?.filter fun n => Double.ofInt n == c || n = 0 && c.isZero
    else none
  let result := match whole with
    | some n =>
      if n.natAbs ≤ 100 then
        let z := complexSquares 8 n.natAbs x (.ofInt 1, .zero)
        if 0 < n then some z else complexDiv? (.ofInt 1, .zero) z
      else complexPolar x y
    | none => complexPolar x y
  match result with
  | none => .error (.zeroDivision "0.0 to a negative or complex power")
  | some (re, im) =>
    if re.isInfinite || im.isInfinite then .error (.overflow "complex exponentiation")
    else .ok (.complex re im)

def power (a b : Double) : Outcome :=
  if a.isZero && b.negative && !b.isZero && !b.isUndefined then
    .error (.zeroDivision "0.0 cannot be raised to a negative power")
  else if a.negative && !a.isZero && !a.isUndefined && !a.isInfinite &&
      (Quotient.ofDouble? b).any fun q => q.den ≠ 1 then complexPow (a, .zero) (b, .zero)
  else
    let d := Double.pow a b
    if d.isInfinite && !a.isInfinite && !b.isInfinite then .error .range else .ok (.float d)

def shiftLimit : Int := 2 ^ 36

def onInts (op : BinaryOperator) (a b : Int) : Option Outcome :=
  match op with
  | .add => some (.ok (.int (a + b)))
  | .sub => some (.ok (.int (a - b)))
  | .mult => some (.ok (.int (a * b)))
  | .div => some (trueDiv a b)
  | .floorDiv => some (if b = 0 then .error (.zeroDivision "integer division or modulo by zero")
      else .ok (.int (Int.fdiv a b)))
  | .mod => some (if b = 0 then .error (.zeroDivision "integer modulo by zero")
      else .ok (.int (Int.fmod a b)))
  | .pow => some (if 0 ≤ b then .ok (.int (a ^ b.toNat)) else do
      power (← toDouble a) (← toDouble b))
  | .lShift => some (if b < 0 then .error (.value "negative shift count")
      else if a = 0 then .ok (.int 0)
      else if shiftLimit < b then .error .memory
      else .ok (.int (a * 2 ^ b.toNat)))
  | .rShift => some (if b < 0 then .error (.value "negative shift count")
      else if (a.natAbs.log2 : Int) < b then .ok (.int (if a < 0 then -1 else 0))
      else .ok (.int (Int.fdiv a (2 ^ b.toNat))))
  | .bitAnd => some (.ok (.int (Int2.land a b)))
  | .bitOr => some (.ok (.int (Int2.lor a b)))
  | .bitXor => some (.ok (.int (Int2.xor a b)))
  | .matMult => none

def onDoubles (op : BinaryOperator) (a b : Double) : Option Outcome :=
  match op with
  | .add => some (.ok (.float (a.add b)))
  | .sub => some (.ok (.float (a.sub b)))
  | .mult => some (.ok (.float (a.mul b)))
  | .div => some (if b.isZero then .error (.zeroDivision "float division by zero")
      else .ok (.float (a.div b)))
  | .floorDiv => some (if b.isZero then .error (.zeroDivision "float floor division by zero")
      else .ok (.float (a.floorDiv b)))
  | .mod => some (if b.isZero then .error (.zeroDivision "float modulo")
      else .ok (.float (a.modulo b)))
  | .pow => some (power a b)
  | _ => none

def onComplex (op : BinaryOperator) (a b c d : Double) : Option Outcome :=
  match op with
  | .add => some (.ok (.complex (a.add c) (b.add d)))
  | .sub => some (.ok (.complex (a.sub c) (b.sub d)))
  | .mult =>
    let (x, y) := complexMul (a, b) (c, d)
    some (.ok (.complex x y))
  | .div => some (match complexDiv? (a, b) (c, d) with
      | some (x, y) => .ok (.complex x y)
      | none => .error (.zeroDivision "complex division by zero"))
  | .pow => some (complexPow (a, b) (c, d))
  | _ => none

def int? : Scalar → Option Int
  | .bool b => some (if b then 1 else 0)
  | .int n => some n
  | _ => none

def double? : Scalar → Option (Except ArithmeticFault Double)
  | .bool b => some (.ok (.ofInt (if b then 1 else 0)))
  | .int n => some (toDouble n)
  | .float d => some (.ok d)
  | _ => none

def binary (op : BinaryOperator) (a b : Scalar) : Option Outcome :=
  match a, b, op with
  | .bool x, .bool y, .bitAnd => some (.ok (.bool (x && y)))
  | .bool x, .bool y, .bitOr => some (.ok (.bool (x || y)))
  | .bool x, .bool y, .bitXor => some (.ok (.bool (x != y)))
  | .complex a b, .complex c d, op => onComplex op a b c d
  | .complex a b, y, op => mixed (double? y) fun c => onComplex op a b c .zero
  | x, .complex c d, op => mixed (double? x) fun a => onComplex op a .zero c d
  | x, y, op =>
    match int? x, int? y with
    | some m, some n => onInts op m n
    | _, _ => mixed (double? x) fun m => mixed (double? y) fun n => onDoubles op m n
where
  mixed (d : Option (Except ArithmeticFault Double)) (f : Double → Option Outcome) :
      Option Outcome :=
    match d with
    | none => none
    | some (.error e) => some (.error e)
    | some (.ok d) => f d

def unary (op : UnaryOperator) (a : Scalar) : Option Scalar :=
  match op, a with
  | .minus, .float d => some (.float d.neg)
  | .minus, .complex re im => some (.complex re.neg im.neg)
  | .plus, .float d => some (.float d)
  | .plus, .complex re im => some (.complex re im)
  | .minus, x => (int? x).map fun n => .int (-n)
  | .plus, x => (int? x).map .int
  | .invert, x => (int? x).map fun n => .int (-n - 1)
  | .not, _ => none

def order (a b : Scalar) : Option (Option Ordering) :=
  let real := fun s => (double? s).isSome
  if real a && real b then
    match a.rational?, b.rational? with
    | some x, some y => some (some (compare (x.num * y.den) (y.num * x.den)))
    | _, _ =>
      let rank := fun s => match s with
        | Scalar.float d => if d.isUndefined then none
            else if d.isInfinite then some (if d.negative then (-1 : Int) else 1) else some 0
        | _ => some 0
      match rank a, rank b with
      | some x, some y => some (some (compare x y))
      | _, _ => some none
  else none

end Arithmetic

end MacroExpand
