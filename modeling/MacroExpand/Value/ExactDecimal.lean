import MacroExpand.Number.Shortest
import MacroExpand.Text.CharacterClass

/-!
# Exact decimal numbers

Decimal numbers that keep their trailing zeros, with signed infinities and signalling or quiet
undefined numbers that may carry a payload.
-/

set_option autoImplicit false

namespace MacroExpand

/-- What an exact decimal stands for, its sign apart. -/
inductive DecimalBody where
  /-- `digits · 10 ^ exponent`. -/
  | finite (digits : Nat) (exponent : Int)
  | infinite
  | undefined (signalling : Bool) (payload : Nat)
  deriving DecidableEq, Repr, Inhabited

structure ExactDecimal where
  negative : Bool
  body : DecimalBody
  deriving DecidableEq, Repr, Inhabited

namespace ExactDecimal

def natOf (digits : Text) : Nat := digits.foldl (fun n c => n * 10 + (c.toNat - 48)) 0

def readFinite (text : Text) : Option DecimalBody :=
  let mantissa := text.takeWhile fun c => c != 'e'
  let tail := (text.dropWhile fun c => c != 'e').drop 1
  let marked := text.contains 'e'
  let whole := mantissa.takeWhile (· != '.')
  let fraction := (mantissa.dropWhile (· != '.')).drop 1
  let (sign, expDigits) : Int × Text := match tail with
    | '+' :: rest => (1, rest)
    | '-' :: rest => (-1, rest)
    | rest => (1, rest)
  if (whole ++ fraction).isEmpty || !(whole ++ fraction).all Char.isDigit then none
  else if marked && (expDigits.isEmpty || !expDigits.all Char.isDigit) then none
  else some (.finite (natOf (whole ++ fraction)) (sign * natOf expDigits - fraction.length))

def readBody (text : Text) : Option DecimalBody :=
  if text = chars "inf" ∨ text = chars "infinity" then some .infinite
  else
    let digitsAfter := fun (head : Text) =>
      if head.isPrefixOf text && (text.drop head.length).all Char.isDigit then
        some (natOf (text.drop head.length))
      else none
    match digitsAfter (chars "nan"), digitsAfter (chars "snan") with
    | some payload, _ => some (.undefined false payload)
    | none, some payload => some (.undefined true payload)
    | none, none => readFinite text

/-- Read a number; blanks around it and underscores in it do not count, and its digits may be those
of any script. -/
def ofText (text : Text) : Option ExactDecimal :=
  let plain := (Text.plainDigits ((Text.trim text).filter (· != '_'))).map Char.toLower
  match plain with
  | '-' :: rest => (readBody rest).map (⟨true, ·⟩)
  | '+' :: rest => (readBody rest).map (⟨false, ·⟩)
  | rest => (readBody rest).map (⟨false, ·⟩)

def fits (d : ExactDecimal) : Bool :=
  match d.body with
  | .finite digits exponent =>
    let lead : Int := exponent + (if digits = 0 then 0 else ((decimalDigits digits).length : Int) - 1)
    decide (-1999999999999999997 ≤ exponent) && decide (lead ≤ 999999999999999999)
  | _ => true

def finiteText (digits : Nat) (exponent : Int) : Text :=
  let shown := decimalDigits digits
  let left := exponent + shown.length
  let point : Int := if exponent ≤ 0 ∧ left > -6 then left else 1
  let body :=
    if point ≤ 0 then '0' :: '.' :: (List.replicate (-point).toNat '0' ++ shown)
    else if (shown.length : Int) ≤ point then
      shown ++ List.replicate (point - shown.length).toNat '0'
    else shown.take point.toNat ++ '.' :: shown.drop point.toNat
  if left = point then body
  else body ++ 'E' :: (if left - point < 0 then '-' else '+') :: decimalDigits (left - point).natAbs

def text (d : ExactDecimal) : Text :=
  let body := match d.body with
    | .finite digits exponent => finiteText digits exponent
    | .infinite => chars "Infinity"
    | .undefined signalling payload =>
      (if signalling then chars "sNaN" else chars "NaN") ++
        (if payload = 0 then [] else decimalDigits payload)
  if d.negative then '-' :: body else body

end ExactDecimal

end MacroExpand
