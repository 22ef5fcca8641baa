import MacroExpand.Number.Arithmetic

/-!
# Special functions of doubles

The gamma function and its logarithm are computed from a rational approximation; functions that lose
digits near zero are computed in whole numbers of a small unit and rounded once.
-/

set_option autoImplicit false

namespace MacroExpand

namespace Special

/-! ## Whole numbers of a small unit -/

namespace Fixed

def ofDouble (bits : Nat) (d : Double) : Int :=
  match Quotient.ofDouble? d with
  | some q => Int.fdiv (q.num * 2 ^ bits) q.den
  | none => 0

def toDouble (bits : Nat) (n : Int) : Double :=
  let d := Double.ofQuotient n.natAbs (2 ^ bits)
  if n < 0 then d.neg else d

def series (next : Int → Nat → Int) : Nat → Nat → Int → Int → Int
  | 0, _, _, sum => sum
  | fuel + 1, k, term, sum =>
    if term = 0 then sum else series next fuel (k + 1) (next term k) (sum + term)

def expTail (bits : Nat) (x : Int) : Int :=
  series (fun term k => Int.fdiv (term * x) (2 ^ bits * (k + 1))) 4000 1 x 0

def artanh (bits : Nat) (num den : Int) : Int :=
  let first := Int.fdiv (num * 2 ^ bits) den
  let square := Int.fdiv (num * num * 2 ^ bits) (den * den)
  -- The terms themselves are the powers; each is divided by its number when it is added.
  let rec go : Nat → Nat → Int → Int → Int
    | 0, _, _, sum => sum
    | fuel + 1, k, power, sum =>
      if power = 0 then sum
      else go fuel (k + 1) (Int.fdiv (power * square) (2 ^ bits))
        (sum + Int.fdiv power (2 * (k : Int) + 1))
  go 4000 0 first 0

end Fixed

def expm1 (d : Double) : Double :=
  if d.isUndefined || d.isZero then d
  else if d.isInfinite then (if d.negative then (Double.ofInt 1).neg else d)
  else if Double.lt (.ofInt 50) d.abs then
    Double.sub (.ofFloat (Float.exp d.toFloat)) (.ofInt 1)
  else
    let bits := 1400
    -- The argument is halved eight times, and each halving is undone by a square.
    let small := Fixed.expTail bits (Int.fdiv (Fixed.ofDouble bits d) 256)
    let doubled := (List.range 8).foldl
      (fun (y : Int) _ => 2 * y + Int.fdiv (y * y) (2 ^ bits)) small
    Fixed.toDouble bits doubled

def log1p (d : Double) : Double :=
  if d.isUndefined || d.isZero || d.isInfinite then d
  else
    match Quotient.ofDouble? d with
    | none => d
    | some q =>
      let num : Int := q.num + q.den
      let den : Int := q.den
      if num ≤ 0 then .undefined
      else
        let bits := 1400
        let shift : Int := (num.natAbs.log2 : Int) - den.natAbs.log2
        let (num, den) := if 0 ≤ shift then (num, den * 2 ^ shift.toNat)
          else (num * 2 ^ (-shift).toNat, den)
        let two := 2 * Fixed.artanh bits 1 3
        Fixed.toDouble bits (2 * Fixed.artanh bits (num - den) (num + den) + shift * two)

def circle (bits : Nat) : Int :=
  let arctan := fun (n : Int) =>
    let rec go : Nat → Nat → Int → Int → Int
      | 0, _, _, sum => sum
      | fuel + 1, k, power, sum =>
        if power = 0 then sum
        else
          let term := Int.fdiv power (2 * (k : Int) + 1)
          go fuel (k + 1) (Int.tdiv power (n * n)) (if k % 2 = 0 then sum + term else sum - term)
    go 4000 0 (Int.fdiv (2 ^ bits) n) 0
  4 * (4 * arctan 5 - arctan 239)

def wholeRoot (n : Nat) : Nat := Double.ofRoot.isqrt n

def errorUnits (bits : Nat) (d : Double) : Int :=
  let x := Fixed.ofDouble bits d
  let square := Int.fdiv (x * x) (2 ^ bits)
  let rec go : Nat → Nat → Int → Int → Int
    | 0, _, _, sum => sum
    | fuel + 1, k, power, sum =>
      if power = 0 then sum
      else go fuel (k + 1) (Int.tdiv (power * (-square)) (2 ^ bits * ((k : Int) + 1)))
        (sum + Int.tdiv power (2 * (k : Int) + 1))
  let total := go 8000 0 x 0
  let root : Int := wholeRoot ((circle bits).toNat * 2 ^ bits)
  Int.fdiv (2 * total * 2 ^ bits) root

def erf (d : Double) : Double :=
  if d.isUndefined || d.isZero then d
  else if d.isInfinite || Double.lt (.ofInt 6) d.abs then Double.withSign (.ofInt 1) d
  else Fixed.toDouble 1400 (errorUnits 1400 d)

def erfc (d : Double) : Double :=
  if d.isUndefined then d
  else if Double.lt (.ofInt 27) d then .zero
  else if Double.lt d (.ofInt (-6)) then .ofInt 2
  else
    let bits := if Double.lt (.ofInt 5) d then 3400 else 1400
    Fixed.toDouble bits (2 ^ bits - errorUnits bits d)

/-! ## The gamma function -/

def lanczosRows : List (Float × Float) := [
  (2.5066282746310002701649081771338373386264310793408, 1),
  (210.82427775157934587250973392071336271166969580291, 66),
  (8071.6720023658162106380029022722506138218516325024, 1925),
  (186056.26539522349504029498971604569928220784236328, 32670),
  (2876370.6289353724412254090516208496135991145378768, 357423),
  (31426415.585400194380614231628318205362874684987640, 2637558),
  (248874557.86205415651146038641322942321632125127801, 13339535),
  (1439720407.3117216736632230727949123939715485786372, 45995730),
  (6039542586.3520280050642916443072979210699388420708, 105258076),
  (17921034426.037209699919755754458931112671403265390, 150917976),
  (35711959237.355668049440185451547166705960488635843, 120543840),
  (42919803642.649098768957899047001988850926355848959, 39916800),
  (23531376880.410759688572007674451636754734846804940, 0)]

def lanczosSum (x : Float) : Float :=
  let (num, den) := if x < 5 then
      lanczosRows.reverse.foldr (fun (row : Float × Float) (s : Float × Float) =>
        (s.1 * x + row.1, s.2 * x + row.2)) (0, 0)
    else
      lanczosRows.foldr (fun (row : Float × Float) (s : Float × Float) =>
        (s.1 / x + row.1, s.2 / x + row.2)) (0, 0)
  num / den

def lanczosG : Float := 6.024680040776729583740234375
def lanczosHalf : Float := 5.524680040776729583740234375

def circleNumber : Float := (⟨0x400921FB54442D18⟩ : Double).toFloat

def sinCircle (x : Float) : Float :=
  let y := (Double.fmod (.ofFloat x.abs) (.ofInt 2)).toFloat
  let n := (Float.round (2 * y)).toUInt8
  let r := match n with
    | 0 => Float.sin (circleNumber * y)
    | 1 => Float.cos (circleNumber * (y - 0.5))
    | 2 => Float.sin (circleNumber * (1 - y))
    | 3 => -(Float.cos (circleNumber * (y - 1.5)))
    | _ => Float.sin (circleNumber * (y - 2))
  if x < 0 then -r else r

def isWhole (d : Double) : Bool := (Quotient.ofDouble? d).any fun q => q.den = 1

def product : Nat → Nat
  | 0 => 1
  | n + 1 => (n + 1) * product n

def gamma (d : Double) : Option Double :=
  if d.isUndefined then some d
  else if d.isInfinite then (if d.negative then none else some d)
  else if d.isZero then none
  else if isWhole d && d.negative then none
  else if isWhole d && Double.le d (.ofInt 23) then
    some (.ofInt (product ((d.truncate?.getD 1).toNat - 1)))
  else
    let x := d.toFloat
    let size := x.abs
    if size < 1e-20 then some (.ofFloat (1 / x))
    else if size > 200 then
      some (if d.negative then .ofFloat (0 / sinCircle x) else .infinity)
    else
      let y := size + lanczosHalf
      let z := if size > lanczosHalf then (y - size) - lanczosHalf else (y - lanczosHalf) - size
      let z := z * lanczosG / y
      let r := if d.negative then
          let r := -(circleNumber) / sinCircle size / size * Float.exp y / lanczosSum size
          let r := r - z * r
          if size < 140 then r / Float.pow y (size - 0.5)
          else
            let root := Float.pow y (size / 2 - 0.25)
            r / root / root
        else
          let r := lanczosSum size / Float.exp y
          let r := r + z * r
          if size < 140 then r * Float.pow y (size - 0.5)
          else
            let root := Float.pow y (size / 2 - 0.25)
            r * root * root
      some (.ofFloat r)

def logGamma (d : Double) : Option Double :=
  if d.isUndefined then some d
  else if d.isInfinite then some .infinity
  else if isWhole d && Double.le d (.ofInt 2) then
    if d.negative || d.isZero then none else some .zero
  else
    let x := d.toFloat
    let size := x.abs
    if size < 1e-20 then some (.ofFloat (-(Float.log size)))
    else
      let r := Float.log (lanczosSum size) - lanczosG
      let r := r + (size - 0.5) * (Float.log (size + lanczosG - 0.5) - 1)
      let r := if d.negative then
          Float.log circleNumber - Float.log (sinCircle size).abs - Float.log size - r
        else r
      some (.ofFloat r)

end Special

end MacroExpand
