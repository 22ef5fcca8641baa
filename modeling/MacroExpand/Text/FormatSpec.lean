import MacroExpand.Number.Shortest
import MacroExpand.Number.Arithmetic
import MacroExpand.Text.CharacterClass
import MacroExpand.Text.Quoted

/-!
# Layout of values by a specification

A specification says how a number or a text is laid out: fill and alignment, sign, width, grouping
of digits, precision and the kind of presentation.  Decimals are rounded from the exact value of a
double, a half going to the even neighbour.
-/

set_option autoImplicit false

namespace MacroExpand

/-- Why a value cannot be laid out. -/
inductive FormatFault where
  | value (message : String)
  | overflow (message : String)
  /-- The text would be longer than any memory. -/
  | memory
  deriving DecidableEq, Repr, Inhabited

structure FormatSpec where
  fill : Char := ' '
  align : Char := '<'
  sign : Option Char := none
  /-- A negative zero loses its sign. -/
  plainZero : Bool := false
  alternate : Bool := false
  width : Nat := 0
  grouping : Option Char := none
  precision : Option Nat := none
  kind : Option Char := none
  deriving DecidableEq, Repr, Inhabited

namespace FormatSpec

abbrev Laid := Except FormatFault Text

def refuse {α : Type} (message : String) : Except FormatFault α := .error (.value message)

def isAlign (c : Char) : Bool := c == '<' || c == '>' || c == '=' || c == '^'

def takeOne (among : List Char) : Text → Option Char × Text
  | c :: rest => if among.contains c then (some c, rest) else (none, c :: rest)
  | [] => (none, [])

def numberLimit : Nat := 2 ^ 63 - 1

def takeNumber (text : Text) : Except FormatFault (Option Nat × Text) := do
  let digits := text.takeWhile isDecimal
  if digits.isEmpty then return (none, text)
  let n := digits.foldl (fun n c => n * 10 + (decimalValue? c).getD 0) 0
  if numberLimit < n then refuse "Too many decimal digits in format string"
  return (some n, text.drop digits.length)

def codeName (c : Char) : String :=
  if 32 < c.toNat && c.toNat < 128 then c.toString
  else "\\x" ++ String.ofList (Nat.toDigits 16 c.toNat)

def allowsGroups (mark kind : Char) : Bool :=
  "defgEG%F".toList.contains kind || (mark == '_' && "boxX".toList.contains kind)

def takeGrouping (text : Text) : Except FormatFault (Option Char × Text) :=
  let both := refuse "Cannot specify both ',' and '_'."
  match text with
  | ',' :: '_' :: _ | '_' :: ',' :: _ => both
  | ',' :: rest => return (some ',', rest)
  | '_' :: rest => return (some '_', rest)
  | rest => return (none, rest)

def parse (typeName : String) (kind : Option Char) (align : Char) (text : Text) :
    Except FormatFault FormatSpec := do
  let (fill, given, rest) : Option Char × Option Char × Text := match text with
    | c :: d :: rest =>
      if isAlign d then (some c, some d, rest)
      else if isAlign c then (none, some c, d :: rest)
      else (none, none, text)
    | [c] => if isAlign c then (none, some c, []) else (none, none, text)
    | [] => (none, none, [])
  let (sign, rest) := takeOne ['+', '-', ' '] rest
  let (plainZero, rest) := takeOne ['z'] rest
  let (alternate, rest) := takeOne ['#'] rest
  let (zero, rest) := if fill.isNone then takeOne ['0'] rest else (none, rest)
  let align := given.getD (if zero.isSome && align == '>' then '=' else align)
  let (width, rest) ← takeNumber rest
  let (grouping, rest) ← takeGrouping rest
  let (precision, rest) ← match rest with
    | '.' :: more => do
        let (p, more) ← takeNumber more
        if p.isNone then refuse "Format specifier missing precision"
        pure (p, more)
    | more => pure (none, more)
  if 1 < rest.length then
    refuse ("Invalid format specifier '" ++ String.ofList text ++ "' for object of type '" ++
      typeName ++ "'")
  let kind := rest.head?.or kind
  if let (some c, some k) := (grouping, kind) then
    if !allowsGroups c k then
      refuse ("Cannot specify '" ++ c.toString ++ "' with '" ++ codeName k ++ "'.")
  return { fill := fill.getD (zero.getD ' '), align, sign, plainZero := plainZero.isSome,
           alternate := alternate.isSome, width := width.getD 0, grouping, precision, kind }

def unknownKind {α : Type} (typeName : String) (kind : Char) : Except FormatFault α :=
  refuse ("Unknown format code '" ++ codeName kind ++ "' for object of type '" ++ typeName ++ "'")

def widthLimit : Nat := 2 ^ 34

def checkWidth (spec : FormatSpec) : Except FormatFault Unit :=
  if widthLimit < spec.width then throw .memory else return ()

def pad (spec : FormatSpec) (text : Text) : Text :=
  let missing := spec.width - text.length
  match spec.align with
  | '<' => text ++ List.replicate missing spec.fill
  | '^' => List.replicate (missing / 2) spec.fill ++ text ++
      List.replicate (missing - missing / 2) spec.fill
  | _ => List.replicate missing spec.fill ++ text

def group (mark : Char) (size : Nat) (digits : Text) : Text :=
  (go digits.reverse 0).reverse
where
  go : Text → Nat → Text
    | [], _ => []
    | c :: rest, k => if k ≠ 0 ∧ k % size = 0 then mark :: c :: go rest (k + 1)
        else c :: go rest (k + 1)

/-- Put zeros in front of digits so that they, with marks between groups of some size, are as wide as
they have to be; no mark stands in front. -/
def zeroed (isGrouped : Bool) (size width : Nat) (digits : Text) : Text :=
  let count := if isGrouped then width - (width - 1) / (size + 1) else width
  List.replicate (count - digits.length) '0' ++ digits

def number (spec : FormatSpec) (negative : Bool) (front whole tail : Text) (size : Nat) : Text :=
  let sign : Text := if negative then ['-'] else match spec.sign with
    | some '+' => ['+']
    | some ' ' => [' ']
    | _ => []
  let room := spec.width - (sign.length + front.length + tail.length)
  let digits := if spec.align == '=' && spec.fill == '0' && !whole.isEmpty then
    zeroed spec.grouping.isSome size room whole else whole
  let body := (match spec.grouping with
    | some mark => group mark size digits
    | none => digits) ++ tail
  if spec.align == '=' then
    sign ++ front ++ List.replicate (room + tail.length - body.length) spec.fill ++ body
  else spec.pad (sign ++ front ++ body)

def fixedParts (num den places : Nat) : Text × Text :=
  let scaled := roundDiv (num * 10 ^ places) den
  let digits := decimalDigits scaled
  let digits := List.replicate (places + 1 - digits.length) '0' ++ digits
  (digits.take (digits.length - places), digits.drop (digits.length - places))

def scientific (num den places : Nat) : Nat × Int :=
  if num = 0 then (0, 0)
  else
    let e := Shortest.leadingExponent num den
    let shift : Int := places - e
    let n := roundDiv (num * 10 ^ shift.toNat) (den * 10 ^ (-shift).toNat)
    if n = 10 ^ (places + 1) then (n / 10, e + 1) else (n, e)

def dropZeros (digits : Text) : Text := (digits.reverse.dropWhile (· == '0')).reverse

def pointed (always : Bool) (digits : Text) : Text :=
  if digits.isEmpty && !always then [] else '.' :: digits

def significant (decimal : Bool) (precision : Nat) (alternate : Bool) (num den : Nat) :
    Text × Text :=
  let p := max precision 1
  let (n, e) := scientific num den (p - 1)
  let trim := fun (t : Text) => if alternate then t else dropZeros t
  if -4 ≤ e ∧ e < (p : Int) - (if decimal then 1 else 0) then
    let (whole, fraction) := fixedParts num den ((p : Int) - 1 - e).toNat
    let fraction := trim fraction
    (whole, if decimal && fraction.isEmpty then ['.', '0'] else pointed alternate fraction)
  else
    let digits := decimalDigits n
    let digits := digits ++ List.replicate (p - digits.length) '0'
    (digits.take 1, pointed alternate (trim (digits.drop 1)) ++ exponentText e)

def present (kind : Char) (precision : Nat) (alternate : Bool) (num den : Nat) : Text × Text :=
  match kind with
  | 'f' =>
    let (whole, fraction) := fixedParts num den precision
    (whole, pointed alternate fraction)
  | 'e' =>
    let (n, e) := scientific num den precision
    let digits := decimalDigits n
    let digits := digits ++ List.replicate (precision + 1 - digits.length) '0'
    (digits.take 1, pointed alternate (digits.drop 1) ++ exponentText e)
  | _ => significant false precision alternate num den

def quotientOf (m : Nat) (q : Int) : Nat × Nat := (m * 2 ^ q.toNat, 2 ^ (-q).toNat)

/-- The shortest text of a double as its whole digits and the rest; a text in `alternate` form has a
point, and one that is `decimal` has a digit behind it. -/
def shortest (decimal alternate : Bool) (d : Double) : Text × Text :=
  let text := d.text
  let whole := text.takeWhile Char.isDigit
  let tail := text.drop whole.length
  let tail := if !decimal && tail == ['.', '0'] then [] else tail
  (whole, if alternate && tail.head? != some '.' then '.' :: tail else tail)

def parts (spec : FormatSpec) (kind : Option Char) (decimal : Bool) (d : Double) :
    Bool × Text × Text :=
  let upper := fun (t : Text) => if kind.any Char.isUpper then t.map Char.toUpper else t
  match d.kind with
  | .finite m q =>
    let (num, den) := quotientOf m q
    let (whole, tail) := match kind, spec.precision with
      | none, none => shortest decimal spec.alternate (Double.abs d)
      | none, some p => significant decimal p spec.alternate num den
      | some k, p =>
        present (if k == 'n' then 'g' else k.toLower) (p.getD 6) spec.alternate num den
    let isZero := (whole ++ tail).all fun c => !c.isDigit || c == '0'
    (d.negative && !(spec.plainZero && isZero), whole, upper tail)
  | _ => (d.negative && !d.isUndefined, [], upper (Double.abs d).text)

def precisionLimit : Nat := 2 ^ 31 - 1

def checkPrecision (spec : FormatSpec) : Except FormatFault Unit :=
  if spec.precision.any (precisionLimit < ·) then refuse "precision too big" else return ()

def double (typeName : String) (spec : FormatSpec) (d : Double) : Laid := do
  if let some k := spec.kind then
    if !"eEfFgGn%".toList.contains k then unknownKind typeName k
  spec.checkPrecision
  spec.checkWidth
  if spec.kind = some '%' then
    let (negative, whole, tail) :=
      spec.parts (some 'f') true (Double.mul d (.ofInt 100))
    return spec.number negative [] whole (tail ++ ['%']) 3
  else
    let (negative, whole, tail) := spec.parts spec.kind true d
    return spec.number negative [] whole tail 3

def complex (typeName : String) (spec : FormatSpec) (re im : Double) : Laid := do
  if let some k := spec.kind then
    if !"eEfFgGn".toList.contains k then unknownKind typeName k
  spec.checkPrecision
  spec.checkWidth
  if spec.fill = '0' then refuse "Zero padding is not allowed in complex format specifier"
  if spec.align = '=' then refuse "'=' alignment flag is not allowed in complex format specifier"
  let inner := { spec with width := 0, align := '<' }
  let laid := fun (s : FormatSpec) (d : Double) =>
    let (negative, whole, tail) := s.parts spec.kind false d
    s.number negative [] whole tail 3
  if spec.kind.isNone then
    if re == .zero then return spec.pad (laid inner im ++ ['j'])
    return spec.pad ('(' :: (laid inner re ++ laid { inner with sign := some '+' } im ++ ['j', ')']))
  return spec.pad (laid inner re ++ laid { inner with sign := some '+' } im ++ ['j'])

def codeLimit : Int := 0x10ffff

def character (spec : FormatSpec) (n : Int) : Laid := do
  if spec.sign.isSome then refuse "Sign not allowed with integer format specifier 'c'"
  if spec.alternate then
    refuse "Alternate form (#) not allowed with integer format specifier 'c'"
  if n < -2 ^ 63 ∨ 2 ^ 63 ≤ n then
    throw (.overflow "Python int too large to convert to C long")
  if n < 0 ∨ codeLimit < n then throw (.overflow "%c arg not in range(0x110000)")
  spec.checkWidth
  return spec.number false [] [] [Char.ofNat n.toNat] 3

def int (typeName : String) (spec : FormatSpec) (n : Int) : Laid := do
  let kind := spec.kind.getD 'd'
  if "eEfFgG%".toList.contains kind then
    match Arithmetic.toDouble n with
    | .ok d => spec.double typeName d
    | .error _ => throw (.overflow "int too large to convert to float")
  else
    if !"bcdoxXn".toList.contains kind then unknownKind typeName kind
    if spec.precision.isSome then refuse "Precision not allowed in integer format specifier"
    if spec.plainZero then
      refuse "Negative zero coercion (z) not allowed in integer format specifier"
    if kind = 'c' then spec.character n
    else
      spec.checkWidth
      let based := fun (base : Nat) (front : String) (size : Nat) =>
        spec.number (n < 0) (if spec.alternate then front.toList else [])
          (Nat.toDigits base n.natAbs) [] size
      match kind with
      | 'b' => return based 2 "0b" 4
      | 'o' => return based 8 "0o" 4
      | 'x' => return based 16 "0x" 4
      | 'X' =>
        let front := if spec.alternate then ['0', 'X'] else []
        return spec.number (n < 0) front ((Nat.toDigits 16 n.natAbs).map Char.toUpper) [] 4
      | _ =>
        if exceedsDigits n then refuse digitLimitMessage
        return based 10 "" 3

def text (typeName : String) (spec : FormatSpec) (t : Text) : Laid := do
  if let some k := spec.kind then
    if k ≠ 's' then unknownKind typeName k
  if spec.sign = some ' ' then refuse "Space not allowed in string format specifier"
  if spec.sign.isSome then refuse "Sign not allowed in string format specifier"
  if spec.plainZero then
    refuse "Negative zero coercion (z) not allowed in string format specifier"
  if spec.alternate then refuse "Alternate form (#) not allowed in string format specifier"
  if spec.align = '=' then refuse "'=' alignment not allowed in string format specifier"
  spec.checkWidth
  return spec.pad (match spec.precision with
    | some p => t.take p
    | none => t)

end FormatSpec

end MacroExpand
