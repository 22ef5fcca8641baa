import MacroExpand.Sandbox.Construct

/-!
# Functions that need no import
-/

set_option autoImplicit false

namespace MacroExpand

namespace Sandbox

/-! ## Numbers -/

def roundDouble (d : Double) (places : Int) : Option Double :=
  match d.kind with
  | .finite m q =>
    if 323 < places then some d
    else if places < -308 then some (Double.withSign .zero d)
    else
      let (num, den) := FormatSpec.quotientOf m q
      let rounded : Double := if 0 ≤ places then
          let (whole, fraction) := FormatSpec.fixedParts num den places.toNat
          .ofDecimal (Number.digitsValue (whole ++ fraction)) (-(fraction.length : Int))
        else .ofDecimal (roundDiv num (den * 10 ^ (-places).toNat)) (-places)
      if rounded.isInfinite then none else some (if d.negative then rounded.neg else rounded)
  | _ => some d

/-- A whole number rounded to a power of ten, a half going to the even neighbour. -/
def roundInt (n : Int) (places : Int) : Int :=
  if 0 ≤ places then n
  else if n.natAbs.log2 + 4 < 3 * places.natAbs then 0
  else
    let unit : Int := 10 ^ (-places).toNat
    roundQuotient n unit * unit

def roundFunction : Native :=
  .ofNames "round" { names := ["number", "ndigits"], required := 1 } fun r a => do
    let v := (a.get? 0 "number").getD nil
    let places := a.some? 1 "ndigits"
    match (← callOwn? r v "__round__" places.toList) with
    | some x => return x
    | none =>
      match (← unwrap v), places with
      | .scalar (.float d), none =>
        match d.round? with
        | some n => return ofInt n
        | none => do return ofInt (← truncated d)
      | .scalar (.float d), some n =>
        match roundDouble d (← needWhole r n) with
        | some x => return ofFloat x
        | none => raise "OverflowError" "rounded value too large to represent"
      | w, places =>
        match index? w, places with
        | some n, none => return ofInt n
        | some n, some p => do return ofInt (roundInt n (← needWhole r p))
        | none, _ => typeError ("type " ++ (← typeName v) ++ " doesn't define __round__ method")

def absFunction : Native := .unary "abs" fun r v => do
  match (← callOwn? r v "__abs__" []), (← unwrap v), (← state? v) with
  | some x, _, _ => return x
  | none, .scalar (.float d), _ => return ofFloat d.abs
  | none, .scalar (.complex re im), _ =>
    if re.isInfinite || im.isInfinite then return ofFloat .infinity
    if re.isUndefined || im.isUndefined then newNumber (.float .undefined)
    else
      let d := Double.length [re, im]
      if d.isInfinite then raise "OverflowError" "absolute value too large"
      return ofFloat d
  | none, w, some (.timedelta d) => if d.micros < 0 then newDuration (-d.micros) else return w
  | none, w, _ =>
    match index? w with
    | some n => return ofNat n.natAbs
    | none => typeError ("bad operand type for abs(): '" ++ (← typeName v) ++ "'")

def powMod (base : Int) (m : Int) : Nat → Nat → Int
  | 0, _ => Int.fmod 1 m
  | _ + 1, 0 => Int.fmod 1 m
  | fuel + 1, e =>
    let half := powMod base m fuel (e / 2)
    let square := Int.fmod (half * half) m
    if e % 2 = 0 then square else Int.fmod (square * base) m

def inverseMod (a m : Int) : Option Int :=
  let rec go : Nat → Int → Int → Int → Int → Option Int
    | 0, _, _, _, _ => none
    | fuel + 1, r0, r1, s0, s1 =>
      if r1 = 0 then (if r0 = 1 then some s0 else none)
      else go fuel r1 (r0 - Int.fdiv r0 r1 * r1) s1 (s0 - Int.fdiv r0 r1 * s1)
  let size : Int := m.natAbs
  (go (2 * (Nat.log2 m.natAbs + 2)) (Int.fmod a size) size 1 0).map fun x => Int.fmod x m

def powModulo (r : Interpreter) (base e m : Value) : Eval Value := do
  match (← ownAttribute? (← classOf base) "__pow__") with
  | some f => r.call f ⟨[base, e, m], []⟩
  | none =>
    let values ← [base, e, m].mapM unwrap
    match values.map index? with
    | [some b, some e, some m] =>
      if m = 0 then valueError "pow() 3rd argument cannot be 0"
      if e < 0 then
        match inverseMod b m with
        | some inverse => return ofInt (powMod inverse m (Nat.log2 e.natAbs + 2) e.natAbs)
        | none => valueError "base is not invertible for the given modulus"
      else return ofInt (powMod b m (Nat.log2 e.natAbs + 2) e.toNat)
    | _ =>
      let isFloat := fun (v : Value) => match v with
        | .scalar (.float _) => true
        | _ => false
      if values.any isFloat then
        typeError "pow() 3rd argument not allowed unless all arguments are integers"
      typeError ("unsupported operand type(s) for ** or pow(): '" ++ (← typeName base) ++ "', '" ++
        (← typeName e) ++ "', '" ++ (← typeName m) ++ "'")

def powFunction : Native :=
  .ofNames "pow" { names := ["base", "exp", "mod"], required := 2 } fun r a => do
    let base := (a.get? 0 "base").getD nil
    let e := (a.get? 1 "exp").getD nil
    match a.some? 2 "mod" with
    | none => binary r .pow base e
    | some m => powModulo r base e m

def divmodFunction : Native := .ofPlaces "divmod" 2 2 fun r a => do
  let x := a.at0
  let y := a.at1
  match (← askOperator r "divmod" x y) with
  | some v => return v
  | none =>
    let pair := do
      let q ← binary r .floorDiv x y
      newTuple [q, ← binary r .mod x y]
    match (← unwrap x), (← unwrap y) with
    | .scalar s, .scalar t =>
      match Arithmetic.double? s, Arithmetic.double? t, Arithmetic.int? s, Arithmetic.int? t with
      | some _, some _, some _, some _ => pair
      | some _, some (.ok d), _, _ =>
        if d.isZero then raise "ZeroDivisionError" "float divmod()"
        pair
      | some _, some (.error e), _, _ => raiseFault e
      | _, _, _, _ => noOperator "divmod()" x y
    | u, w =>
      match (← state? u), (← state? w) with
      | some (.timedelta _), some (.timedelta _) => pair
      | _, _ => noOperator "divmod()" x y

def baseFunction (name : String) (base : Nat) (front : String) : Native :=
  .unary name fun r v => do
    let n ← needWhole r v
    return ofText ((if n < 0 then ['-'] else []) ++ front.toList ++ Nat.toDigits base n.natAbs)

/-! ## Hashes -/

def hashPrime : Int := 2305843009213693951

def signedHash (n : Int) : Int :=
  let n := Int.bmod n (2 ^ 64)
  if n = -1 then -2 else n

def rationalHash (num : Int) (den : Nat) : Int :=
  let inverse := (inverseMod den hashPrime).getD 0
  let size := if Int.fmod den hashPrime = 0 then 314159
    else Int.fmod ((num.natAbs : Int) * inverse) hashPrime
  let h := if num < 0 then -size else size
  if h = -1 then -2 else h

def doubleHash (d : Double) : Int :=
  match Quotient.ofDouble? d with
  | some q => rationalHash q.num q.den
  | none => if d.isUndefined then 0 else if d.negative then -314159 else 314159

def tupleHash (lanes : List Int) : Int :=
  let word := fun (n : Int) => (Int.fmod n (2 ^ 64)).toNat
  let turn := fun (n : Nat) => (n <<< 31) % 2 ^ 64 + n >>> 33
  let mixed : Nat := lanes.foldl (fun acc lane =>
    turn ((acc + word lane * 14029467366897019727) % 2 ^ 64) * 11400714785074694791 % 2 ^ 64)
    2870177450012600261
  let last : Nat := (mixed + (lanes.length ^^^ (2870177450012600261 ^^^ 3527539))) % 2 ^ 64
  if last = 2 ^ 64 - 1 then 1546275796 else Int.bmod (last : Int) (2 ^ 64)

def hashIn : Nat → Value → Eval Int
  | 0, _ => return 0
  | fuel + 1, v => do
      match (← unwrap v) with
      | .scalar (.complex re im) =>
        return signedHash (doubleHash re + 1000003 * doubleHash im)
      | .scalar (.float d) => return doubleHash d
      | .scalar s =>
        match Arithmetic.int? s with
        | some n => return rationalHash n 1
        | none => return 0
      | .ref i =>
        match (← cellAt i) with
        | .tuple xs => return tupleHash (← xs.mapM (hashIn fuel))
        | .known _ (.fraction n d) => return rationalHash n d
        | _ => return i

/-! ## Iterables -/

def foldItems {σ : Type} (r : Interpreter) (iterator : Value) (step : σ → Value → Eval (Except σ σ)) :
    Nat → σ → Eval σ
  | 0, _ => throw .exhausted
  | fuel + 1, s => do
      match (← r.advance iterator) with
      | .stop _ => return s
      | .item v =>
        match (← step s v) with
        | .ok s => foldItems r iterator step fuel s
        | .error s => return s

def askItems (r : Interpreter) (v : Value) (wanted : Bool) : Eval Bool := do
  let step := fun (_ : Bool) (x : Value) => do
    if (← truthy r x) == wanted then return Except.error true else return Except.ok false
  foldItems r (← iteratorOf r v) step iterationLimit false

def extreme (r : Interpreter) (op : CompareOperator) (best : Value × Value) :
    List (Value × Value) → Eval Value
  | [] => return best.2
  | x :: rest => do
      if (← truthy r (← compared r op x.1 best.1)) then extreme r op x rest
      else extreme r op best rest

def extremeFunction (name : String) (op : CompareOperator) : Native :=
  .function name fun r a => do
    if a.positional.isEmpty then typeError (name ++ " expected at least 1 argument, got 0")
    match a.keyword.find? fun (k, _) => k != "key" && k != "default" with
    | some (k, _) => typeError ("'" ++ k ++ "' is an invalid keyword argument for " ++ name ++ "()")
    | none => pure ()
    if 1 < a.positional.length && (lookup a.keyword "default").isSome then
      typeError ("Cannot specify a default for " ++ name ++ "() with multiple positional arguments")
    let items ← match a.positional with
      | [v] => iterate r v
      | vs => pure vs
    let keys ← match lookup a.keyword "key" with
      | none | some (.scalar .nil) => pure items
      | some f => items.mapM fun x => r.call f ⟨[x], []⟩
    match keys.zip items with
    | [] =>
      match lookup a.keyword "default" with
      | some v => return v
      | none => valueError (name ++ "() arg is an empty sequence")
    | first :: rest => extreme r op first rest

def sumFunction : Native :=
  .ofNames "sum" { names := ["", "start"], required := 1, unnamed := 1 } fun r a => do
    let start := (a.get? 1 "start").getD (ofInt 0)
    let iterator ← iteratorOf r a.at0
    match (← strand? start) with
    | some (.text _) => typeError "sum() can't sum strings [use ''.join(seq) instead]"
    | some (.bytes _) => typeError "sum() can't sum bytes [use b''.join(seq) instead]"
    | some (.byteArray _) => typeError "sum() can't sum bytearray [use b''.join(seq) instead]"
    | _ =>
      foldItems r iterator (fun total v => do return .ok (← binary r .add total v))
        iterationLimit start

def printFunction : Native := .function "print" fun r a => do
  match a.keyword.find? fun (k, _) => !(["sep", "end", "file", "flush"].contains k) with
  | some (k, _) => typeError ("'" ++ k ++ "' is an invalid keyword argument for print()")
  | none => pure ()
  let option := fun (name : String) (standard : Text) => do
    match lookup a.keyword name with
    | none | some (.scalar .nil) => return standard
    | some v =>
      match (← text? v) with
      | some t => return t
      | none => typeError (name ++ " must be None or a string, not " ++ (← typeName v))
  let between ← option "sep" [' ']
  let last ← option "end" ['\n']
  match lookup a.keyword "file" with
  | none | some (.scalar .nil) =>
    let parts ← a.positional.mapM (plainText r)
    modify fun m => { m with printed := (Text.joinWith between parts ++ last) :: m.printed }
    return nil
  | some file =>
    let write ← r.call (.ref (functionCell "getattr")) ⟨[file, ofString "write"], []⟩
    for (v, k) in a.positional.zipIdx do
      if k ≠ 0 then let _ ← r.call write ⟨[ofText between], []⟩
      let _ ← r.call write ⟨[ofText (← plainText r v)], []⟩
    let _ ← r.call write ⟨[ofText last], []⟩
    return nil

def isCallable (v : Value) : Eval Bool := do
  match (← cell? v) with
  | some (.function _) | some (.native _) | some (.nativeMethod ..) | some (.method ..)
  | some (.cls _) | some (.unbound ..) | some (.parametrized ..)
  | some (.descriptor "staticmethod" _) => return true
  | some (.object cls _ _) => return (← ownAttribute? cls "__call__").isSome
  | _ => return false

def ordFunction : Native := .unary "ord" fun _ v => do
  let wrong := fun (n : Nat) =>
    typeError ("ord() expected a character, but string of length " ++ toString n ++ " found")
  let view := match (← core? v) with
    | some (.known _ (.memoryview ..)) => true
    | _ => false
  let points := match (← unwrap v) with
    | .scalar s => s.points?
    | .ref _ => none
  match points, (← bytes? v).filter fun _ => !view with
  | some [p], _ => return ofNat p.toNat
  | none, some [b] => return ofNat b.toNat
  | some t, _ => wrong t.length
  | none, some b => wrong b.length
  | none, none => typeError ("ord() expected string of length 1, but " ++ (← typeName v) ++ " found")

def plainNatives : List Native := [
  absFunction, roundFunction, powFunction, divmodFunction, printFunction, sumFunction, ordFunction,
  baseFunction "hex" 16 "0x", baseFunction "oct" 8 "0o", baseFunction "bin" 2 "0b",
  extremeFunction "max" .gt, extremeFunction "min" .lt,
  .unary "len" fun r v => do
    match (← size? r v) with
    | some n => return ofNat n
    | none => typeError ("object of type '" ++ (← typeName v) ++ "' has no len()"),
  .unary "all" fun r v => do return ofBool (!(← askItems r v false)),
  .unary "any" fun r v => do return ofBool (← askItems r v true),
  .unary "repr" fun r v => do return ofText (← codeText r v),
  .unary "ascii" fun r v => do return ofText (asciiOnly (← codeText r v)),
  .unary "id" fun _ v => do
    match v with
    | .ref i => return ofNat (0x7f0000000000 + 48 * i)
    | v => return ofInt (← hashIn hashDepth v),
  .unary "hash" fun r v => do
    requireKey v
    match (← callOwn? r v "__hash__" []) with
    | none => return ofInt (← hashIn hashDepth v)
    | some x =>
      match index? (← unwrap x) with
      | some n => return ofInt (rationalHash n 1)
      | none => typeError "__hash__ method should return an integer",
  .unary "chr" fun r v => do
    let n ← needWhole r v
    if n < -2 ^ 31 ∨ 2 ^ 31 ≤ n then
      raise "OverflowError" "Python int too large to convert to C int"
    if n < 0 ∨ FormatSpec.codeLimit < n then valueError "chr() arg not in range(0x110000)"
    return ofPoints [.ofNat n.toNat],
  .unary "callable" fun _ v => do return ofBool (← isCallable v),
  .ofPlaces "format" 1 2 fun r a => do
    match a.positional[1]? with
    | none => return ofText (← formatted r a.at0 [])
    | some spec => do return ofText (← formatted r a.at0 (← needText "format() argument 2" spec)),
  .function "sorted" fun r a => do
    expects "sorted" 1 1 a
    let items ← iterate r a.at0
    sortParameters.check "sort()" ⟨[], a.keyword⟩
    newList (← sortValues r a items),
  .ofPlaces "iter" 1 2 fun r a => do
    match a.positional[1]? with
    | none => iteratorOf r a.at0
    | some last =>
      if !(← isCallable a.at0) then typeError "iter(v, w): v must be callable"
      alloc (.callIterator a.at0 last),
  .ofPlaces "next" 1 2 fun r a => do
    match (← r.advance a.at0), a.positional[1]? with
    | .item v, _ => return v
    | .stop _, some v => return v
    | .stop v, none => raiseStop v,
  .ofPlaces "operator.getitem" 2 2 fun r a => getItem r a.at0 a.at1]

end Sandbox

end MacroExpand
