import MacroExpand.Number.Double
import MacroExpand.Text.CharacterClass
import MacroExpand.Text.Quoted

/-!
# Numbers from texts

A number may be written with the decimal digits of any script, with single underscores between
digits, with a sign, and with blanks around it.  A double can also be written exactly in hexadecimal.
-/

set_option autoImplicit false

namespace MacroExpand

namespace Number

def digitsValue (digits : Text) : Nat := digits.foldl (fun n c => n * 10 + (c.toNat - 48)) 0

def digitValue (c : Char) : Option Nat :=
  if c.isDigit then some (c.toNat - 48)
  else if 'a' ≤ c && c ≤ 'z' then some (c.toNat - 87)
  else if 'A' ≤ c && c ≤ 'Z' then some (c.toNat - 55)
  else none

def isPlainBlank (c : Char) : Bool := c == ' ' || (9 ≤ c.toNat && c.toNat ≤ 13)

def trimPlain (text : Text) : Text :=
  ((text.dropWhile isPlainBlank).reverse.dropWhile isPlainBlank).reverse

def readDigits (base : Nat) (value : Nat) (gap : Bool) : Text → Option Nat
  | [] => if gap then none else some value
  | '_' :: rest => if gap then none else readDigits base value true rest
  | c :: rest =>
    match digitValue c with
    | some d => if d < base then readDigits base (value * base + d) false rest else none
    | none => none

def takeBase (base : Nat) (text : Text) : Nat × Text :=
  let named := fun (c : Char) => match c.toLower with
    | 'x' => some 16
    | 'o' => some 8
    | 'b' => some 2
    | _ => none
  match text with
  | '0' :: c :: rest =>
    match named c with
    | some b => if base = 0 ∨ base = b then
        (b, match rest with
          | '_' :: more => more
          | more => more)
        else (base, text)
    | none => (if base = 0 then 10 else base, text)
  | text => (if base = 0 then 10 else base, text)

def takeSign : Text → Bool × Text
  | '-' :: rest => (true, rest)
  | '+' :: rest => (false, rest)
  | rest => (false, rest)

def readInt (base : Nat) (text : Text) : Option Int :=
  let (negative, body) := takeSign (trimPlain text.plainDigits)
  let (b, digits) := takeBase base body
  if base = 0 ∧ b = 10 ∧ digits.head? = some '0' ∧ digits.any (fun c => c != '0' && c != '_') then none
  else (readDigits b 0 true digits).map fun n => if negative then -(n : Int) else n

def takeDigits (text : Text) : Text × Text :=
  let run := text.takeWhile fun c => c.isDigit || c == '_'
  (run, text.drop run.length)

def wellSpaced (digits : Text) : Bool :=
  digits.head? != some '_' && digits.getLast? != some '_' && !Text.containsText digits ['_', '_']

def readPlainDouble (text : Text) : Option Double :=
  let (negative, body) := takeSign text
  let signed := fun (d : Double) => some (if negative then d.neg else d)
  match String.ofList (body.map Char.toLower) with
  | "inf" | "infinity" => signed .infinity
  | "nan" => signed .undefined
  | _ =>
    let (whole, rest) := takeDigits body
    let (fraction, rest) := match rest with
      | '.' :: more => takeDigits more
      | more => ([], more)
    let exponent : Option Int := match rest with
      | [] => some 0
      | e :: more =>
        if e == 'e' || e == 'E' then
          let (negative, digits) := takeSign more
          if !digits.isEmpty && digits.all (fun c => c.isDigit || c == '_') && wellSpaced digits then
            let size : Int := digitsValue (digits.filter Char.isDigit)
            some (if negative then -size else size)
          else none
        else none
    let digits := (whole ++ fraction).filter Char.isDigit
    if digits.isEmpty || !wellSpaced whole || !wellSpaced fraction then none
    else match exponent with
      | none => none
      | some e =>
        signed (.ofDecimal (digitsValue digits) (e - ((fraction.filter Char.isDigit).length : Nat)))

def readDouble (text : Text) : Option Double := readPlainDouble (trimPlain text.plainDigits)

/-! ## Complex numbers -/

def underscoresFit (before : Char) : Text → Bool
  | [] => before != '_'
  | c :: rest =>
    (if c == '_' then before.isDigit else before != '_' || c.isDigit) && underscoresFit c rest

def doubleLength (text : Text) : Nat :=
  let sign := text.length - (takeSign text).2.length
  let body := text.drop sign
  let low := String.ofList ((body.take 8).map Char.toLower)
  if low == "infinity" then sign + 8
  else if low.startsWith "inf" || low.startsWith "nan" then sign + 3
  else
    let whole := (body.takeWhile Char.isDigit).length
    let fraction := match body.drop whole with
      | '.' :: more => 1 + (more.takeWhile Char.isDigit).length
      | _ => 0
    let size := whole + fraction
    if (body.take size).all (· == '.') then 0
    else match body.drop size with
      | e :: more =>
        if e == 'e' || e == 'E' then
          let digits := (takeSign more).2
          let count := (digits.takeWhile Char.isDigit).length
          if count = 0 then sign + size else sign + size + 1 + (more.length - digits.length) + count
        else sign + size
      | [] => sign + size

def takeDouble (text : Text) : Option (Double × Text) :=
  let n := doubleLength text
  if n = 0 then none else (readPlainDouble (text.take n)).map fun d => (d, text.drop n)

def takeUnit (text : Text) : Option (Double × Text) :=
  match takeDouble text with
  | some d => some d
  | none =>
    let (negative, rest) := takeSign text
    some (if negative then (Double.ofInt 1).neg else .ofInt 1, rest)

/-- Read a complex number: a real part, an imaginary part or both, perhaps in brackets. -/
def readComplex (text : Text) : Option (Double × Double) := do
  let text := trimPlain text.plainDigits
  if !underscoresFit ' ' text then none
  let text := text.filter (· != '_')
  let text := match text, text.getLast? with
    | '(' :: rest, some ')' => trimPlain rest.dropLast
    | '(' :: _, _ => ['(']
    | rest, _ => rest
  let isUnit := fun (t : Text) => t == ['j'] || t == ['J']
  match takeDouble text with
  | some (x, []) => return (x, .zero)
  | some (x, rest) =>
    if isUnit rest then return (.zero, x)
    if !(rest.head? == some '+' || rest.head? == some '-') then none
    let (y, rest) ← takeUnit rest
    if isUnit rest then return (x, y) else none
  | none =>
    let (y, rest) ← takeUnit text
    if isUnit rest then return (.zero, y) else none

end Number

/-!
## Doubles in hexadecimal

A double is written exactly: its leading bit, thirteen hexadecimal digits and the power of two.  Any
number of digits can be read; the value is rounded once.
-/

namespace Double

def hexText (d : Double) : Text :=
  let sign : Text := if d.negative && !d.isUndefined then ['-'] else []
  match d.kind with
  | .undefined => ['n', 'a', 'n']
  | .infinite => sign ++ ['i', 'n', 'f']
  | .finite .. =>
    let biased := (d.word >>> 52).toNat % 2048
    let fraction := d.word.toNat % 2 ^ 52
    let exponent : Int := if biased = 0 then -1022 else (biased : Int) - 1023
    if d.isZero then sign ++ "0x0.0p+0".toList
    else sign ++ ['0', 'x', if biased = 0 then '0' else '1', '.'] ++ hexDigits fraction 13 ++
      ['p', if exponent < 0 then '-' else '+'] ++ Nat.toDigits 10 exponent.natAbs

/-- Why a text is not a double in hexadecimal. -/
inductive HexFault where
  | invalid
  | tooLarge
  deriving DecidableEq, Repr, Inhabited

def hexValue? (c : Char) : Option Nat :=
  if c.isDigit then some (c.toNat - 48)
  else if 'a' ≤ c ∧ c ≤ 'f' then some (c.toNat - 87)
  else if 'A' ≤ c ∧ c ≤ 'F' then some (c.toNat - 55) else none

def hexExponent (text : Text) : Except HexFault Int :=
  match text with
  | [] => .ok 0
  | p :: rest =>
    let (negative, digits) := Number.takeSign rest
    if p.toLower ≠ 'p' ∨ digits.isEmpty ∨ !digits.all Char.isDigit then .error .invalid
    else
      let n : Int := min (Number.digitsValue digits) 1000000
      .ok (if negative then -n else n)

def readHexMagnitude (text : Text) : Except HexFault Double := do
  let low := text.map Char.toLower
  if low = "inf".toList ∨ low = "infinity".toList then return infinity
  if low = "nan".toList then return undefined
  let text := match text with
    | '0' :: 'x' :: rest | '0' :: 'X' :: rest => rest
    | rest => rest
  let isHex := fun c => (hexValue? c).isSome
  let whole := text.takeWhile isHex
  let (fraction, rest) := match text.drop whole.length with
    | '.' :: rest => (rest.takeWhile isHex, rest.dropWhile isHex)
    | rest => ([], rest)
  if (whole ++ fraction).isEmpty then throw .invalid
  let exponent ← hexExponent rest
  let digits := (whole ++ fraction).foldl (fun n c => 16 * n + (hexValue? c).getD 0) 0
  if digits = 0 then return zero
  let power := exponent - 4 * fraction.length
  let lead := power + digits.log2
  if 1024 < lead then throw .tooLarge
  if lead < -1200 then return zero
  let d := if 0 ≤ power then ofQuotient (digits * 2 ^ power.toNat) 1
    else ofQuotient digits (2 ^ (-power).toNat)
  if d.isInfinite then throw .tooLarge
  return d

def readHex (text : Text) : Except HexFault Double := do
  let (negative, rest) := Number.takeSign (Number.trimPlain text)
  let d ← readHexMagnitude rest
  return if negative then d.neg else d

end Double

end MacroExpand
