import MacroExpand.Sandbox.Format

/-!
# Operators

An operator works on numbers, on sequences, on sets and mappings, on spans of time and on paths.
Classes of the program are asked first, from the left and then from the right.
-/

set_option autoImplicit false

namespace MacroExpand

namespace Sandbox

def operatorName : BinaryOperator → String × String
  | .add => ("+", "add")
  | .sub => ("-", "sub")
  | .mult => ("*", "mul")
  | .matMult => ("@", "matmul")
  | .div => ("/", "truediv")
  | .mod => ("%", "mod")
  | .pow => ("** or pow()", "pow")
  | .lShift => ("<<", "lshift")
  | .rShift => (">>", "rshift")
  | .bitOr => ("|", "or")
  | .bitXor => ("^", "xor")
  | .bitAnd => ("&", "and")
  | .floorDiv => ("//", "floordiv")

def raiseFault {α : Type} : ArithmeticFault → Eval α
  | .zeroDivision message => raise "ZeroDivisionError" message
  | .overflow message => raise "OverflowError" message
  | .value message => valueError message
  | .range => raiseWith "OverflowError" [ofNat 34, ofString "Numerical result out of range"]
  | .memory => raiseWith "MemoryError" []

def orFault {α : Type} : Except ArithmeticFault α → Eval α
  | .ok a => return a
  | .error e => raiseFault e

def newNumber (s : Scalar) : Eval Value := do
  match s with
  | .float d =>
    if d.isUndefined then
      modify fun m => { m with undefinedCount := m.undefinedCount + 1 }
      return ofFloat (d.distinct (← get).undefinedCount)
    else return .scalar s
  | s => return .scalar s

def newKnown (cls : String) (state : State) : Eval Value := alloc (.known cls state)

/-! ## Spans of time -/

def roundQuotient (num den : Int) : Int :=
  let n := if den < 0 then -num else num
  let q := roundDiv n.natAbs den.natAbs
  if n < 0 then -(q : Int) else q

def durationLimit : Nat := 999999999

def newDuration (micros : Int) : Eval Value := do
  let d : Duration := ⟨micros⟩
  if 2 ^ 31 ≤ d.days.natAbs then raise "OverflowError" "Python int too large to convert to C int"
  if durationLimit < d.days.natAbs then
    raise "OverflowError" ("days=" ++ toString d.days ++ "; must have magnitude <= 999999999")
  newKnown "timedelta" (.timedelta d)

def shifted (t : DateTime) (micros : Int) : Eval DateTime :=
  match t.add ⟨micros⟩ with
  | some t => return t
  | none => raise "OverflowError" "date value out of range"

def shiftedDay (d : Date) (days : Int) : Eval Date := do
  return (← shifted ⟨d, ⟨0, 0, 0, 0, none⟩⟩ (days * 86400000000)).date

def onStates (op : BinaryOperator) (cls : String) (a b : State) : Eval (Option Value) := do
  match op, a, b with
  | .add, .datetime t, .timedelta d | .add, .timedelta d, .datetime t =>
    return some (← newKnown "datetime" (.datetime (← shifted t d.micros)))
  | .sub, .datetime t, .timedelta d =>
    return some (← newKnown "datetime" (.datetime (← shifted t (-d.micros))))
  | .sub, .datetime s, .datetime t =>
    if s.time.offset.isSome != t.time.offset.isSome then
      typeError "can't subtract offset-naive and offset-aware datetimes"
    return some (← newDuration (s.universalMicros - t.universalMicros))
  | .add, .date t, .timedelta d | .add, .timedelta d, .date t =>
    return some (← newKnown "date" (.date (← shiftedDay t d.days)))
  | .sub, .date t, .timedelta d =>
    return some (← newKnown "date" (.date (← shiftedDay t (-d.days))))
  | .sub, .date s, .date t =>
    return some (← newDuration (((s.ordinal : Int) - t.ordinal) * 86400000000))
  | .add, .timedelta d, .timedelta e => return some (← newDuration (d.micros + e.micros))
  | .sub, .timedelta d, .timedelta e => return some (← newDuration (d.micros - e.micros))
  | .div, .timedelta d, .timedelta e =>
    return some (.scalar (← orFault (Arithmetic.trueDiv d.micros e.micros)))
  | .floorDiv, .timedelta d, .timedelta e =>
    if e.micros = 0 then raise "ZeroDivisionError" "integer division or modulo by zero"
    return some (ofInt (Int.fdiv d.micros e.micros))
  | .mod, .timedelta d, .timedelta e =>
    if e.micros = 0 then raise "ZeroDivisionError" "integer modulo by zero"
    return some (← newDuration (Int.fmod d.micros e.micros))
  | .div, .path p, .path q => return some (← newKnown cls (.path (p.join q)))
  | _, _, _ => return none

def ratioOf (d : Double) : Eval Quotient := do
  match Quotient.ofDouble? d with
  | some q => return q
  | none =>
    if d.isUndefined then valueError "cannot convert NaN to integer ratio"
    else raise "OverflowError" "cannot convert Infinity to integer ratio"

def onState (op : BinaryOperator) (cls : String) (a : State) (b : Scalar) :
    Eval (Option Value) := do
  match op, a, b with
  | .div, .path p, .str t =>
    return some (← newKnown cls (.path (p.join (.ofText p.flavour t))))
  | .mult, .timedelta d, .float x =>
    let q ← ratioOf x
    return some (← newDuration (roundQuotient (d.micros * q.num) q.den))
  | .div, .timedelta d, .float x =>
    let q ← ratioOf x
    if q.num = 0 then raise "ZeroDivisionError" "integer division or modulo by zero"
    return some (← newDuration (roundQuotient (d.micros * q.den) q.num))
  | op, .timedelta d, s =>
    match op, Arithmetic.int? s with
    | .mult, some n => return some (← newDuration (d.micros * n))
    | .div, some n =>
      if n = 0 then raise "ZeroDivisionError" "integer division or modulo by zero"
      return some (← newDuration (roundQuotient d.micros n))
    | .floorDiv, some n =>
      if n = 0 then raise "ZeroDivisionError" "integer division or modulo by zero"
      return some (← newDuration (Int.fdiv d.micros n))
    | _, _ => return none
  | _, _, _ => return none

def onStateRight (op : BinaryOperator) (a : Scalar) (cls : String) (b : State) :
    Eval (Option Value) := do
  match op, a, b with
  | .div, .str t, .path p => return some (← newKnown cls (.path (PathText.join (.ofText p.flavour t) p)))
  | .mult, s, .timedelta d => onState .mult cls (.timedelta d) s
  | _, _, _ => return none

/-! ## Sequences -/

/-- A sequence of any kind: its class, its length and how one of the same kind is made. -/
inductive Strand where
  | text (points : List CodePoint)
  | bytes (b : List UInt8)
  | byteArray (b : List UInt8)
  | list (items : List Value)
  | tuple (items : List Value)

def strand? (v : Value) : Eval (Option Strand) := do
  match (← unwrap v) with
  | .scalar (.bytes b) => return some (.bytes b)
  | .scalar s => return s.points?.map .text
  | .ref i =>
    match (← cellAt i) with
    | .list xs => return some (.list xs)
    | .tuple xs => return some (.tuple xs)
    | .known _ (.bytearray b) => return some (.byteArray b)
    | _ => return none

def concatenated (a : Strand) (b : Value) : Eval Value := do
  let refuse := fun (kind : String) => do
    typeError ("can only concatenate " ++ kind ++ " (not \"" ++ (← typeName b) ++ "\") to " ++ kind)
  let other ← strand? b
  match a with
  | .text s =>
    match other with
    | some (.text t) => return ofPoints (s ++ t)
    | _ => refuse "str"
  | .bytes s =>
    match (← bytes? b) with
    | some t => return ofBytes (s ++ t)
    | none => typeError ("can't concat " ++ (← typeName b) ++ " to bytes")
  | .byteArray s =>
    match (← bytes? b) with
    | some t => newKnown "bytearray" (.bytearray (s ++ t))
    | none => typeError ("can't concat " ++ (← typeName b) ++ " to bytearray")
  | .list xs =>
    match other with
    | some (.list ys) => newList (xs ++ ys)
    | _ => refuse "list"
  | .tuple xs =>
    match other with
    | some (.tuple ys) => newTuple (xs ++ ys)
    | _ => refuse "tuple"

def lengthLimit : Int := 2 ^ 34

def repeatCount (r : Interpreter) (length : Nat) (tooLong : Option String) (v : Value) :
    Eval Nat := do
  match (← wholeOf? r v) with
  | none => typeError ("can't multiply sequence by non-int of type '" ++ (← typeName v) ++ "'")
  | some n =>
    if n < -sizeLimit - 1 ∨ sizeLimit < n then
      raise "OverflowError" "cannot fit 'int' into an index-sized integer"
    if lengthLimit < n * length then
      match tooLong with
      | some message => if sizeLimit < n * length then raise "OverflowError" message
      | none => pure ()
      raiseWith "MemoryError" []
    return if length = 0 then 0 else n.toNat

def repeated (r : Interpreter) (a : Strand) (count : Value) : Eval Value := do
  let times := fun {α : Type} (items : List α) (n : Nat) => (List.replicate n items).flatten
  match a with
  | .text t => return ofPoints (times t (← repeatCount r t.length (some "repeated string is too long") count))
  | .bytes b => return ofBytes (times b (← repeatCount r b.length (some "repeated bytes are too long") count))
  | .byteArray b => newKnown "bytearray" (.bytearray (times b (← repeatCount r b.length none count)))
  | .list xs => newList (times xs (← repeatCount r xs.length none count))
  | .tuple xs => newTuple (times xs (← repeatCount r xs.length none count))

/-! ## Two operands -/

def onSets (r : Interpreter) (op : BinaryOperator) (xs ys : List Value) :
    Eval (Option (List Value)) := do
  match op with
  | .bitOr => return some (← addElements r xs ys)
  | .bitAnd => return some (← selectElements r true ys xs)
  | .sub => return some (← selectElements r false ys xs)
  | .bitXor =>
    let left ← selectElements r false ys xs
    return some (left ++ (← selectElements r false xs ys))
  | _ => return none

def setElements? (v : Value) : Eval (Option (List Value)) := do
  match (← core? v) with
  | some (.set xs) | some (.frozenset xs) => return some xs
  | _ => return none

def isSetView (v : Value) : Eval Bool := do
  match (← core? v) with
  | some (.view name _) => return name != "dict_values"
  | _ => return false

def onSetLike (r : Interpreter) (op : BinaryOperator) (a b : Value) : Eval (Option Value) := do
  if !([.bitOr, .bitAnd, .sub, .bitXor] : List BinaryOperator).contains op then return none
  if (← isSetView a) || (← isSetView b) then
    let xs ← addElements r [] (← iterate r a)
    let ys ← addElements r [] (← iterate r b)
    match (← onSets r op xs ys) with
    | some zs => return some (← alloc (.set zs))
    | none => return none
  else
    match (← setElements? a), (← setElements? b), (← core? a) with
    | some xs, some ys, kind =>
      match (← onSets r op xs ys), kind with
      | some zs, some (.frozenset _) => return some (← alloc (.frozenset zs))
      | some zs, _ => return some (← alloc (.set zs))
      | none, _ => return none
    | _, _, _ => return none

def alternatives? (v : Value) : Eval (Option (List Value)) := do
  match v, (← cell? v) with
  | .scalar .nil, _ => return some [classValue "NoneType"]
  | _, some (.union members) => return some members
  | v, some (.cls _) | v, some (.parametrized ..) => return some [v]
  | _, _ => return none

def unionOf (r : Interpreter) (a b : Value) : Eval (Option Value) := do
  if a = nil ∧ b = nil then return none
  match (← alternatives? a), (← alternatives? b) with
  | some xs, some ys =>
    match (← addAll (xs ++ ys) []) with
    | [x] => return some x
    | members => return some (← alloc (.union members))
  | _, _ => return none
where
  /-- Keep the first of classes that are the same. -/
  addAll : List Value → List Value → Eval (List Value)
    | [], kept => return kept
    | x :: rest, kept => do
        if (← hasElement r kept x) then addAll rest kept else addAll rest (kept ++ [x])

def onValues (r : Interpreter) (op : BinaryOperator) (a b : Value) : Eval (Option Value) := do
  match op, (← strand? a) with
  | .mod, some (.text _) => do
      return some (ofText (← percentText r false (← plainText r (← unwrap a)) b))
  | .mod, some (.bytes s) => do
      let out ← percentText r true (s.map fun x => Char.ofNat x.toNat) b
      return some (ofBytes (out.map fun c => c.toNat.toUInt8))
  | .mod, some (.byteArray s) => do
      let out ← percentText r true (s.map fun x => Char.ofNat x.toNat) b
      return some (← newKnown "bytearray" (.bytearray (out.map fun c => c.toNat.toUInt8)))
  | _, _ =>
    match (← unwrap a), (← unwrap b) with
    | .scalar x, .scalar y =>
      match Arithmetic.binary op x y with
      | some outcome => return some (← newNumber (← orFault outcome))
      | none => return none
    | .scalar x, .ref j =>
      match op, x, (← cellAt j) with
      | .bitOr, .nil, _ => unionOf r a b
      | op, x, .known cls state => onStateRight op x cls state
      | op, _, _ => onSetLike r op a b
    | .ref i, .scalar y =>
      match op, y, (← cellAt i) with
      | .bitOr, .nil, _ => unionOf r a b
      | op, y, .known cls state => onState op cls state y
      | op, _, _ => onSetLike r op a b
    | .ref i, .ref j =>
      match op, (← cellAt i), (← cellAt j) with
      | .bitOr, .dict es, .dict es' => return some (← newDict (← setEntries r es es'))
      | .bitOr, .environment vars, .dict es' =>
        let es := vars.map fun (k, v) => (ofText k, ofText v)
        return some (← newDict (← setEntries r es es'))
      | .bitOr, .dict es, .environment vars =>
        let es' := vars.map fun (k, v) => (ofText k, ofText v)
        return some (← newDict (← setEntries r es es'))
      | op, .known cls s, .known _ t => onStates op cls s t
      | op, _, _ => do
          match (← onSetLike r op a b) with
          | some v => return some v
          | none => if op = .bitOr then unionOf r a b else return none

def builtIn (r : Interpreter) (op : BinaryOperator) (a b : Value) : Eval (Option Value) := do
  match (← onValues r op a b) with
  | some v => return some v
  | none =>
    match op with
    | .add =>
      match (← strand? a) with
      | some s => return some (← concatenated s b)
      | none => return none
    | .mult =>
      match (← strand? a), (← strand? b) with
      | some s, _ => return some (← repeated r s b)
      | none, some s => return some (← repeated r s a)
      | none, none => return none
    | _ => return none

def askOperator (r : Interpreter) (stem : String) (a b : Value) : Eval (Option Value) := do
  let name := "__" ++ stem ++ "__"
  if (← classOf a) = (← classOf b) then ask r a name b
  else askBoth r a name b ("__r" ++ stem ++ "__")

def noOperator {α : Type} (mark : String) (a b : Value) : Eval α := do
  let hint := if mark == ">>" && a = .ref (functionCell "print") then
    ". Did you mean \"print(<message>, file=<output_stream>)\"?" else ""
  typeError ("unsupported operand type(s) for " ++ mark ++ ": '" ++ (← typeName a) ++
    "' and '" ++ (← typeName b) ++ "'" ++ hint)

def binaryAs (r : Interpreter) (mark : String) (op : BinaryOperator) (a b : Value) : Eval Value := do
  match (← askOperator r (operatorName op).2 a b) with
  | some v => return v
  | none =>
    match (← builtIn r op a b) with
    | some v => return v
    | none => noOperator mark a b

def binary (r : Interpreter) (op : BinaryOperator) (a b : Value) : Eval Value :=
  binaryAs r (operatorName op).1 op a b

def entriesOf (r : Interpreter) (v : Value) : Eval (List (Value × Value)) := do
  match (← callOwn? r v "keys" []) with
  | some keys =>
    (← iterate r keys).mapM fun k => do return (k, ← getItem r v k)
  | none =>
    match (← core? v) with
    | some cell =>
      match entries? cell with
      | some es => return es
      | none => do pairsOf 0 (← iterate r v)
    | none => do pairsOf 0 (← iterate r v)
where
  /-- The pairs of a list of pairs. -/
  pairsOf (k : Nat) : List Value → Eval (List (Value × Value))
    | [] => return []
    | x :: rest => do
        let parts ← match (← attempt (iterate r x)) with
          | .ok parts => pure parts
          | .error (.raised e) =>
            if (← isKnown e "TypeError") && !(← isIterable x) then
              typeError ("cannot convert dictionary update sequence element #" ++ toString k ++
                " to a sequence")
            else throw (.raised e)
          | .error e => throw e
        match parts with
        | [key, value] => return (key, value) :: (← pairsOf (k + 1) rest)
        | parts =>
          valueError ("dictionary update sequence element #" ++ toString k ++ " has length " ++
            toString parts.length ++ "; 2 is required")

def augmented (r : Interpreter) (op : BinaryOperator) (a b : Value) : Eval Value := do
  let (mark, stem) := operatorName op
  let mark := if op = .pow then "**=" else mark ++ "="
  let otherwise := binaryAs r mark op a b
  match (← ask r a ("__i" ++ stem ++ "__") b) with
  | some v => return v
  | none =>
    match op, (← unwrap a), (← core? a) with
    | .add, .ref i, some (.list _) => do
        let ys ← iterate r b
        match (← cellAt i) with
        | .list xs => setCell i (.list (xs ++ ys))
        | _ => pure ()
        return a
    | .mult, .ref i, some (.list xs) => do
        let n ← repeatCount r xs.length none b
        setCell i (.list (List.replicate n xs).flatten)
        return a
    | .add, .ref i, some (.known cls (.bytearray s)) =>
      match (← bytes? b) with
      | some t => do
          setCell i (.known cls (.bytearray (s ++ t)))
          return a
      | none => otherwise
    | .mult, .ref i, some (.known cls (.bytearray s)) => do
        let n ← repeatCount r s.length none b
        setCell i (.known cls (.bytearray (List.replicate n s).flatten))
        return a
    | .bitOr, .ref i, some (.dict _) => do
        let news ← entriesOf r b
        match (← cellAt i) with
        | .dict es => do setCell i (.dict (← setEntries r es news))
        | _ => pure ()
        return a
    | op, .ref i, some (.set xs) =>
      match (← setElements? b) with
      | some ys =>
        match (← onSets r op xs ys) with
        | some zs => do
            setCell i (.set zs)
            return a
        | none => otherwise
      | none => otherwise
    | _, _, _ => otherwise

/-! ## One operand -/

def unary (r : Interpreter) (op : UnaryOperator) (v : Value) : Eval Value := do
  match op with
  | .not => return ofBool (!(← truthy r v))
  | op =>
    let (mark, name) := match op with
      | .minus => ("-", "__neg__")
      | .plus => ("+", "__pos__")
      | _ => ("~", "__invert__")
    match (← callOwn? r v name []) with
    | some x => return x
    | none =>
      match (← unwrap v) with
      | .scalar s =>
        match Arithmetic.unary op s with
        | some x => if op == .minus then newNumber x else return .scalar x
        | none => typeError ("bad operand type for unary " ++ mark ++ ": '" ++ (← typeName v) ++ "'")
      | .ref i =>
        match op, (← cellAt i) with
        | .minus, .known _ (.timedelta d) => newDuration (-d.micros)
        | .plus, .known _ (.timedelta d) => newDuration d.micros
        | _, _ => typeError ("bad operand type for unary " ++ mark ++ ": '" ++ (← typeName v) ++ "'")

def compared (r : Interpreter) (op : CompareOperator) (a b : Value) : Eval Value := do
  let (_, name, reflected) := comparisonName op
  match op with
  | .is => return ofBool (a = b)
  | .isNot => return ofBool (a ≠ b)
  | .isIn => return ofBool (← contains r b a)
  | .notIn => return ofBool (!(← contains r b a))
  | .eq =>
    match (← askBoth r a name b reflected) with
    | some v => return v
    | none => return ofBool (← plainEqual (equal r) a b)
  | .notEq =>
    match (← askBoth r a name b reflected) with
    | some v => return v
    | none => return ofBool (!(← equal r a b))
  | op =>
    match (← askBoth r a name b reflected) with
    | some v => return v
    | none => return ofBool (← plainOrdered r op (orderedIn r op r.compareDepth) a b)

end Sandbox

end MacroExpand
