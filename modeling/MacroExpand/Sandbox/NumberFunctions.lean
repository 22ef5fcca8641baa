import MacroExpand.Sandbox.Functions
import MacroExpand.Number.Special

/-!
# Functions of numbers
-/

set_option autoImplicit false

namespace MacroExpand

namespace Sandbox

/-- The result of a function of doubles: outside its domain there is none, and where a finite
argument leads to infinity the result is too large, or the argument was at a pole. -/
def checkedDouble (canOverflow : Bool) (arguments : List Double) (d : Double) : Eval Value := do
  if d.isUndefined && !arguments.any Double.isUndefined then valueError "math domain error"
  if d.isInfinite && !arguments.any Double.isInfinite then
    if canOverflow then raise "OverflowError" "math range error"
    else valueError "math domain error"
  newNumber (.float d)

def doubleFunction (name : String) (canOverflow : Bool) (f : Float → Float) : Native :=
  .unary ("math." ++ name) fun r v => do
    let d ← needDouble r v
    checkedDouble canOverflow [d] (.ofFloat (f d.toFloat))

def doubleFunction2 (name : String) (f : Double → Double → Double) : Native :=
  .ofPlaces ("math." ++ name) 2 2 fun r a => do
    let x ← needDouble r a.at0
    let y ← needDouble r a.at1
    checkedDouble true [x, y] (f x y)

def doubleTest (name : String) (test : Double → Bool) : Native :=
  .unary ("math." ++ name) fun r v => do return ofBool (test (← needDouble r v))

def wholeFunction (name hook : String) (f : Double → Option Int) : Native :=
  .unary ("math." ++ name) fun r v => do
    match (← callOwn? r v hook []) with
    | some x => return x
    | none =>
      match index? (← unwrap v), (← unwrap v) with
      | some n, _ => return ofInt n
      | none, w =>
        let isFloat := match w with
          | .scalar (.float _) => true
          | _ => false
        if name == "trunc" && !isFloat then
          typeError ("type " ++ (← typeName v) ++ " doesn't define __trunc__ method")
        let d ← needDouble r v
        match f d with
        | some n => return ofInt n
        | none => do return ofInt (← truncated d)

def factorial (n : Nat) : Nat := (List.range n).foldl (fun p k => p * (k + 1)) 1

def arrangements (n k : Nat) : Nat := (List.range k).foldl (fun p j => p * (n - j)) 1

def needNatural (r : Interpreter) (message : String) (v : Value) : Eval Nat := do
  let n ← needWhole r v
  if n < 0 then valueError message
  return n.toNat

def logarithmOf (r : Interpreter) (f : Float → Float) (v : Value) : Eval Double := do
  match index? (← unwrap v) with
  | some n =>
    if n ≤ 0 then valueError "math domain error"
    match Arithmetic.toDouble n with
    | .ok d => return .ofFloat (f d.toFloat)
    | .error _ =>
      let size := Nat.log2 n.natAbs + 1
      let x := Double.ofQuotient n.natAbs (2 ^ size)
      return .ofFloat (f x.toFloat + f 2 * Float.ofNat size)
  | none =>
    let d ← needDouble r v
    if d.isZero || (d.negative && !d.isUndefined) then valueError "math domain error"
    return .ofFloat (f d.toFloat)

def numberConstants : List (String × Double) := [
  ("pi", ⟨0x400921FB54442D18⟩), ("e", ⟨0x4005BF0A8B145769⟩), ("tau", ⟨0x401921FB54442D18⟩),
  ("inf", .infinity), ("nan", .undefined)]

def lineLength (parts : List Double) : Double :=
  if parts.any Double.isInfinite then .infinity
  else if parts.any Double.isUndefined then .undefined
  else Double.length parts

def exactSum (items : List Double) : Eval Value := do
  let isEnd := fun (negative : Bool) (d : Double) => d.isInfinite && d.negative == negative
  if items.any (isEnd true) && items.any (isEnd false) then valueError "-inf + inf in fsum"
  if items.any Double.isUndefined then newNumber (.float .undefined)
  else
    match items.find? Double.isInfinite with
    | some d => return ofFloat d
    | none =>
      let quotients := items.filterMap Quotient.ofDouble?
      let den := quotients.foldl (fun m q => max m q.den) 1
      let num : Int := quotients.foldl (fun (t : Int) q => t + q.num * ((den / q.den : Nat) : Int)) 0
      let d := Double.ofQuotient num.natAbs den
      if d.isInfinite then raise "OverflowError" "intermediate overflow in fsum"
      return ofFloat (if num < 0 then d.neg else d)

def isClose (r : Interpreter) (a : Arguments) : Eval Value := do
  let part := fun (place : Nat) (name : String) (standard : Double) => do
    match a.get? place name with
    | some v => needDouble r v
    | none => return standard
  let x ← part 0 "a" .zero
  let y ← part 1 "b" .zero
  let relative ← part 2 "rel_tol" (.ofDecimal 1 (-9))
  let absolute ← part 3 "abs_tol" .zero
  if relative.lt .zero || absolute.lt .zero then valueError "tolerances must be non-negative"
  if x.le y && y.le x then return ofBool true
  if x.isInfinite || y.isInfinite then return ofBool false
  let difference := (y.sub x).abs
  return ofBool (difference.le (relative.mul y).abs || difference.le (relative.mul x).abs ||
    difference.le absolute)

def nextTowards (x y : Double) : Double :=
  if x.isUndefined then x else if y.isUndefined then y
  else if x.le y && y.le x then y
  else if x.isZero then Double.withSign ⟨1⟩ y
  else if x.lt y == x.negative then ⟨.word (x.word - 1)⟩ else ⟨.word (x.word + 1)⟩

def lastPlace (x : Double) : Double :=
  if x.isUndefined then x
  else if x.isInfinite then .infinity
  else
    let x := x.abs
    let next := nextTowards x .infinity
    if next.isInfinite then x.sub (nextTowards x .zero) else next.sub x

def fractionOf (d : Double) : Double × Int :=
  match d.kind with
  | .finite m q =>
    if m = 0 then (d, 0)
    else
      let size := m.log2 + 1
      let x := Double.ofQuotient m (2 ^ size)
      (if d.negative then x.neg else x, q + size)
  | _ => (d, 0)

def scaled (d : Double) (power : Int) : Double :=
  match d.kind with
  | .finite m q =>
    let e := q + power
    let x := if m = 0 ∨ e < -1200 then Double.zero else if 1100 < e then .infinity
      else if 0 ≤ e then .ofQuotient (m * 2 ^ e.toNat) 1 else .ofQuotient m (2 ^ (-e).toNat)
    if d.negative then x.neg else x
  | _ => d

def nearestRemainder (x y : Double) : Double :=
  match Quotient.ofDouble? x, Quotient.ofDouble? y with
  | some p, some q =>
    if q.num = 0 then .undefined
    else
      let n := roundQuotient (p.num * q.den) (q.num * p.den)
      let num := p.num * q.den - n * q.num * p.den
      let d := Double.ofQuotient num.natAbs (p.den * q.den)
      if num = 0 then Double.withSign .zero x else if num < 0 then d.neg else d
  | some _, none => if y.isUndefined then y else x
  | none, _ => if x.isUndefined then x else if y.isUndefined then y else .undefined

def doubleParts : List Native := [
  .unary "math.modf" fun r v => do
    let d ← needDouble r v
    if d.isInfinite then newTuple [ofFloat (Double.withSign .zero d), ofFloat d]
    else if d.isUndefined then newTuple [ofFloat d, ofFloat d]
    else
      let whole := Double.withSign (.ofInt (d.truncate?.getD 0)) d
      newTuple [ofFloat (Double.withSign (d.sub whole) d), ofFloat whole],
  .unary "math.frexp" fun r v => do
    let (x, e) := fractionOf (← needDouble r v)
    newTuple [ofFloat x, ofInt e],
  .ofPlaces "math.ldexp" 2 2 fun r a => do
    let d ← needDouble r a.at0
    match index? (← unwrap a.at1) with
    | none => typeError "Expected an int as second argument to ldexp."
    | some n =>
      let x := scaled d n
      if x.isInfinite && !d.isInfinite then raise "OverflowError" "math range error"
      return ofFloat x,
  .ofPlaces "math.nextafter" 2 2 fun r a => do
    let x ← needDouble r a.at0
    return ofFloat (nextTowards x (← needDouble r a.at1)),
  .unary "math.ulp" fun r v => do return ofFloat (lastPlace (← needDouble r v))]

def wholeNatives : List Native := [
  .unary "math.factorial" fun r v => do
    let n ← needNatural r "factorial() not defined for negative values" v
    if 2 ^ 63 ≤ n then
      raise "OverflowError" "factorial() argument should not exceed 9223372036854775807"
    return ofNat (factorial n),
  .unary "math.isqrt" fun r v => do
    return ofNat (Special.wholeRoot (← needNatural r "isqrt() argument must be nonnegative" v)),
  .ofPlaces "math.gcd" 0 1000000 fun r a => do
    return ofNat ((← a.positional.mapM (needWhole r)).foldl (fun g n => Nat.gcd g n.natAbs) 0),
  .ofPlaces "math.lcm" 0 1000000 fun r a => do
    return ofNat ((← a.positional.mapM (needWhole r)).foldl (fun g n => Nat.lcm g n.natAbs) 1),
  .ofPlaces "math.comb" 2 2 fun r a => do
    let n ← needWhole r a.at0
    let k ← needNatural r "k must be a non-negative integer" a.at1
    if n < 0 then valueError "n must be a non-negative integer"
    let n := n.toNat
    let k := min k (n - k)
    return ofNat (if n < k then 0 else arrangements n k / factorial k),
  .ofPlaces "math.perm" 1 2 fun r a => do
    let n ← needNatural r "n must be a non-negative integer" a.at0
    let k ← match a.some? 1 "k" with
      | some v => needNatural r "k must be a non-negative integer" v
      | none => pure n
    return ofNat (if n < k then 0 else arrangements n k)]

def numberNatives : List Native := [
  wholeFunction "floor" "__floor__" Double.floor?,
  wholeFunction "ceil" "__ceil__" fun d => (Double.floor? d.neg).map (- ·),
  wholeFunction "trunc" "__trunc__" Double.truncate?,
  doubleFunction "sqrt" false Float.sqrt, doubleFunction "cbrt" false Float.cbrt,
  doubleFunction "exp" true Float.exp, doubleFunction "exp2" true Float.exp2,
  doubleFunction "sin" false Float.sin, doubleFunction "cos" false Float.cos,
  doubleFunction "tan" false Float.tan, doubleFunction "asin" false Float.asin,
  doubleFunction "acos" false Float.acos, doubleFunction "atan" false Float.atan,
  doubleFunction "sinh" true Float.sinh, doubleFunction "cosh" true Float.cosh,
  doubleFunction "tanh" false Float.tanh, doubleFunction "asinh" false Float.asinh,
  doubleFunction "acosh" false Float.acosh, doubleFunction "atanh" false Float.atanh,
  doubleFunction "fabs" false Float.abs,
  doubleFunction "expm1" true fun x => (Special.expm1 (.ofFloat x)).toFloat,
  doubleFunction "log1p" false fun x =>
    if x == -1 then -(Double.infinity.toFloat) else (Special.log1p (.ofFloat x)).toFloat,
  doubleFunction "erf" false fun x => (Special.erf (.ofFloat x)).toFloat,
  doubleFunction "erfc" false fun x => (Special.erfc (.ofFloat x)).toFloat,
  doubleFunction "radians" true fun x => x * (Double.toFloat ⟨0x3F91DF46A2529D39⟩),
  doubleFunction "degrees" true fun x => x * (Double.toFloat ⟨0x404CA5DC1A63C1F8⟩),
  .unary "math.gamma" fun r v => do
    match Special.gamma (← needDouble r v) with
    | none => valueError "math domain error"
    | some d =>
      if d.isInfinite && !(← needDouble r v).isInfinite then
        raise "OverflowError" "math range error"
      newNumber (.float d),
  .unary "math.lgamma" fun r v => do
    match Special.logGamma (← needDouble r v) with
    | none => valueError "math domain error"
    | some d => newNumber (.float d),
  .ofPlaces "math.pow" 2 2 fun r a => do
    let x ← needDouble r a.at0
    let y ← needDouble r a.at1
    if x.isZero && y.negative && !y.isZero && !y.isInfinite then valueError "math domain error"
    checkedDouble true [x, y] (Double.pow x y),
  doubleFunction2 "fmod" Double.fmod, doubleFunction2 "remainder" nearestRemainder,
  doubleFunction2 "copysign" Double.withSign,
  doubleFunction2 "atan2" fun y x => .ofFloat (Float.atan2 y.toFloat x.toFloat),
  doubleTest "isnan" Double.isUndefined, doubleTest "isinf" Double.isInfinite,
  doubleTest "isfinite" fun d => !d.isUndefined && !d.isInfinite,
  .ofNames "math.isclose" { names := ["a", "b", "rel_tol", "abs_tol"], required := 2, places := 2 }
    isClose,
  .ofPlaces "math.hypot" 0 1000000 fun r a => do
    newNumber (.float (lineLength (← a.positional.mapM (needDouble r)))),
  .ofPlaces "math.dist" 2 2 fun r a => do
    let ps ← (← iterate r a.at0).mapM (needDouble r)
    let qs ← (← iterate r a.at1).mapM (needDouble r)
    if ps.length ≠ qs.length then
      valueError "both points must have the same number of dimensions"
    newNumber (.float (lineLength (List.zipWith Double.sub ps qs))),
  .function "math.log" fun r a => do
    refuseNames "log" a
    if a.positional.isEmpty || 2 < a.positional.length then
      typeError "math.log requires 1 to 2 arguments"
    let d ← logarithmOf r Float.log a.at0
    match a.positional[1]? with
    | none => newNumber (.float d)
    | some base =>
      let b ← logarithmOf r Float.log base
      if b.isZero then raise "ZeroDivisionError" "float division by zero"
      newNumber (.float (d.div b)),
  .unary "math.log2" fun r v => do newNumber (.float (← logarithmOf r Float.log2 v)),
  .unary "math.log10" fun r v => do newNumber (.float (← logarithmOf r Float.log10 v)),
  .ofNames "math.prod" { names := ["", "start"], required := 1, places := 1, unnamed := 1 }
    fun r a => do
      foldItems r (← iteratorOf r a.at0) (fun total v => do return .ok (← binary r .mult total v))
        iterationLimit ((lookup a.keyword "start").getD (ofInt 1)),
  .unary "math.fsum" fun r v => do exactSum (← (← iterate r v).mapM (needDouble r))] ++
  doubleParts ++ wholeNatives

end Sandbox

end MacroExpand
