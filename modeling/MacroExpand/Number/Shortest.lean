import MacroExpand.Number.Double
import MacroExpand.Text.Lines

/-!
# The shortest decimal of a double

A double is written with the fewest digits that read back as the same double, and of those the
nearest to it.  Exponents from -4 to 15 are written positionally, others with an exponent of at
least two digits.
-/

set_option autoImplicit false

namespace MacroExpand

structure Decimal10 where
  digits : Nat
  exponent : Int
  deriving DecidableEq, Repr, Inhabited

def decimalDigits (n : Nat) : Text := Nat.toDigits 10 n

namespace Shortest

def compareScaled (a : Nat) (k : Int) (b : Nat) (e : Int) : Ordering :=
  let left := a * 10 ^ k.toNat * 2 ^ (-e).toNat
  let right := b * 2 ^ e.toNat * 10 ^ (-k).toNat
  compare left right

/-- Whether `c · 10 ^ k` reads back as `m · 2 ^ q`.  The interval is closed for an even `m`, and its
lower half is shorter when `m` is a power of two. -/
def readsBack (m : Nat) (q : Int) (c : Nat) (k : Int) : Bool :=
  let low := if m = 2 ^ 52 ∧ q > -1074 then 4 * m - 1 else 4 * m - 2
  let high := 4 * m + 2
  let below := compareScaled c k low (q - 2)
  let above := compareScaled c k high (q - 2)
  if m % 2 = 0 then below != .lt && above != .gt else below == .gt && above == .lt

def leadingExponent (num den : Nat) : Int :=
  if den ≤ num then ((decimalDigits (num / den)).length : Int) - 1
  else
    let count := (decimalDigits (den / num)).length
    if den = num * 10 ^ (count - 1) then -((count : Int) - 1) else -(count : Int)

def onGrid (m : Nat) (q : Int) (num den : Nat) (k : Int) : Option Nat :=
  let n := num * 10 ^ (-k).toNat
  let d := den * 10 ^ k.toNat
  let lower := n / d
  let twice := 2 * (n % d)
  let lowerFits := readsBack m q lower k
  let upperFits := readsBack m q (lower + 1) k
  if lowerFits && upperFits then
    some (if twice < d || (twice == d && lower % 2 == 0) then lower else lower + 1)
  else if lowerFits then some lower
  else if upperFits then some (lower + 1)
  else none

def dropZeros : Nat → Nat → Int → Decimal10
  | 0, c, k => ⟨c, k⟩
  | fuel + 1, c, k => if c ≠ 0 ∧ c % 10 = 0 then dropZeros fuel (c / 10) (k + 1) else ⟨c, k⟩

def search (m : Nat) (q : Int) (num den : Nat) (lead : Int) : Nat → Nat → Decimal10
  | 0, _ => ⟨m, 0⟩
  | fuel + 1, count =>
    let k := lead - count + 1
    match onGrid m q num den k with
    | some c => dropZeros 20 c k
    | none => search m q num den lead fuel (count + 1)

def decimal (m : Nat) (q : Int) : Decimal10 :=
  let num := m * 2 ^ q.toNat
  let den := 2 ^ (-q).toNat
  search m q num den (leadingExponent num den) 17 1

end Shortest

def exponentText (e : Int) : Text :=
  let digits := decimalDigits e.natAbs
  let padded := if digits.length < 2 then '0' :: digits else digits
  'e' :: (if e < 0 then '-' else '+') :: padded

namespace Decimal10

def layout (d : Decimal10) : Text :=
  let digits := decimalDigits d.digits
  let lead := d.exponent + digits.length - 1
  if -4 ≤ lead ∧ lead < 16 then
    if 0 ≤ d.exponent then digits ++ List.replicate d.exponent.toNat '0' ++ ['.', '0']
    else if 0 ≤ lead then
      digits.take (lead + 1).toNat ++ '.' :: digits.drop (lead + 1).toNat
    else '0' :: '.' :: (List.replicate (-lead - 1).toNat '0' ++ digits)
  else
    match digits with
    | [] => []
    | [c] => c :: exponentText lead
    | c :: rest => c :: '.' :: (rest ++ exponentText lead)

end Decimal10

namespace Double

def text (d : Double) : Text :=
  let body : Text := match d.kind with
    | .undefined => ['n', 'a', 'n']
    | .infinite => ['i', 'n', 'f']
    | .finite m q => if m = 0 then ['0', '.', '0'] else (Shortest.decimal m q).layout
  if d.negative && !d.isUndefined then '-' :: body else body

end Double

def digitLimit : Nat := 4300

def exceedsDigits (n : Int) : Bool :=
  digitLimit ≤ n.natAbs.log2 / 3 && digitLimit < (decimalDigits n.natAbs).length

def digitLimitMessage : String :=
  "Exceeds the limit (4300 digits) for integer string conversion; " ++
    "use sys.set_int_max_str_digits() to increase the limit"

def intText (n : Int) : Text :=
  if n < 0 then '-' :: decimalDigits n.natAbs else decimalDigits n.natAbs

end MacroExpand
