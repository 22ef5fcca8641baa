/-!
# Double-precision numbers

A double is given by its 64 bits, or is undefined and has a number of its own.  A finite one is
`significand · 2 ^ exponent` with a sign; reading a decimal rounds to the nearest double, a tie going to
the even significand.

Powers of numbers and sums of lists are those of the core library, whatever else is imported.
-/

set_option autoImplicit false

namespace MacroExpand

@[default_instance 20000]
instance (priority := high) corePower {α : Type} [NatPow α] : Pow α Nat := instPowNat

instance (priority := high) coreZero {α : Type} [OfNat α (nat_lit 0)] : Zero α := Zero.ofOfNat0

inductive DoubleBits where
  | word (w : UInt64)
  /-- An undefined number that was made while a program ran; its number tells it from the others. -/
  | undefined (number : Nat)
  deriving DecidableEq, Repr, Inhabited

instance : Coe UInt64 DoubleBits := ⟨.word⟩

instance (n : Nat) : OfNat DoubleBits n := ⟨.word n.toUInt64⟩

/-- A double-precision number. -/
structure Double where
  bits : DoubleBits
  deriving DecidableEq, Repr, Inhabited

inductive DoubleKind where
  | finite (significand : Nat) (exponent : Int)
  | infinite
  | undefined
  deriving DecidableEq, Repr, Inhabited

def roundDiv (num den : Nat) : Nat :=
  let q := num / den
  let r := num % den
  if 2 * r > den || (2 * r == den && q % 2 == 1) then q + 1 else q

namespace Double

def word (d : Double) : UInt64 :=
  match d.bits with
  | .word w => w
  | .undefined _ => 0x7FF8000000000000

def negative (d : Double) : Bool := d.word >>> 63 == 1

def kind (d : Double) : DoubleKind :=
  let field : Nat := (d.word.toNat / 2 ^ 52) % 2048
  let fraction : Nat := d.word.toNat % 2 ^ 52
  if field = 2047 then (if fraction = 0 then .infinite else .undefined)
  else if field = 0 then .finite fraction (-1074)
  else .finite (2 ^ 52 + fraction) ((field : Int) - 1075)

def zero : Double := ⟨0⟩

def infinity : Double := ⟨0x7FF0000000000000⟩

def undefined : Double := ⟨0x7FF8000000000000⟩

def neg (d : Double) : Double :=
  match d.bits with
  | .word w => ⟨.word (w ^^^ 0x8000000000000000)⟩
  | .undefined _ => d

def isUndefined (d : Double) : Bool := d.kind == .undefined

/-- The number itself, except that an undefined one becomes the undefined number with a given number. -/
def distinct (d : Double) (number : Nat) : Double :=
  if d.isUndefined then ⟨.undefined number⟩ else d

def isInfinite (d : Double) : Bool := d.kind == .infinite

def isZero (d : Double) : Bool := d.word == 0 || d.word == 0x8000000000000000

def toFloat (d : Double) : Float := Float.ofBits d.word

def ofFloat (x : Float) : Double := ⟨x.toBits⟩

def ofQuotient (num den : Nat) : Double :=
  if num = 0 then zero else
    let guess : Int := (Nat.log2 num : Int) - Nat.log2 den - 52
    let scaled := fun (e : Int) =>
      if e ≥ 0 then (num, den * 2 ^ e.toNat) else (num * 2 ^ (-e).toNat, den)
    let start := let (n, d) := scaled guess; if n / d < 2 ^ 52 then guess - 1 else guess
    let e := if start < -1074 then -1074 else start
    let (n, d) := scaled e
    let m := roundDiv n d
    let (m, e) := if m = 2 ^ 53 then (2 ^ 52, e + 1) else (m, e)
    if e > 971 then infinity
    else if m < 2 ^ 52 then ⟨m.toUInt64⟩
    else ⟨((e + 1075).toNat * 2 ^ 52 + (m - 2 ^ 52)).toUInt64⟩

def ofDecimal (digits : Nat) (exponent : Int) : Double :=
  if digits = 0 then zero
  else if exponent > 400 then infinity
  else if exponent < -20000 - (Nat.log2 digits : Int) then zero
  else if exponent ≥ 0 then ofQuotient (digits * 10 ^ exponent.toNat) 1
  else ofQuotient digits (10 ^ (-exponent).toNat)

def ofInt (n : Int) : Double :=
  let d := ofQuotient n.natAbs 1
  if n < 0 then d.neg else d

end Double

end MacroExpand
