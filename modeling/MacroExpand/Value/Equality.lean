import MacroExpand.Text.Case
import MacroExpand.Value.Graph
import MacroExpand.Web.Message

/-!
# Equality of keys

Two keys of a dictionary or elements of a set are the same when they are equal: numbers by their
value whatever their type, tuples and frozen sets by their elements, and other objects by what they
hold.  What can change is no key.
-/

set_option autoImplicit false

namespace MacroExpand

structure Quotient where
  num : Int
  den : Nat
  deriving DecidableEq, Repr, Inhabited

namespace Quotient

def normal (num : Int) (den : Int) : Quotient :=
  let g := Nat.gcd num.natAbs den.natAbs
  if g = 0 then ⟨0, 1⟩
  else ⟨(if den < 0 then -1 else 1) * Int.tdiv num g, den.natAbs / g⟩

def ofDouble? (d : Double) : Option Quotient :=
  match d.kind with
  | .finite m q =>
    let m : Int := if d.negative then -(m : Int) else m
    some (if 0 ≤ q then normal (m * 2 ^ q.toNat) 1 else normal m (2 ^ (-q).toNat))
  | _ => none

end Quotient

namespace Scalar

def rational? : Scalar → Option Quotient
  | .bool b => some ⟨if b then 1 else 0, 1⟩
  | .int n => some ⟨n, 1⟩
  | .float d => Quotient.ofDouble? d
  | .complex re im => if im.isZero then Quotient.ofDouble? re else none
  | _ => none

def same (a b : Scalar) : Bool :=
  match a.rational?, b.rational? with
  | some x, some y => x = y
  | some _, none | none, some _ => false
  | none, none =>
    match a, b with
    | .float x, .float y => !x.isUndefined && x == y
    | .float x, .complex re im | .complex re im, .float x =>
      !x.isUndefined && x == re && im.isZero
    | .complex r i, .complex r' i' =>
      let eq := fun (x y : Double) => !x.isUndefined && (x == y || (x.isZero && y.isZero))
      eq r r' && eq i i'
    | _, _ => a = b

end Scalar

namespace ExactDecimal

def stripZeros : Nat → Nat → Int → Nat × Int
  | 0, digits, exponent => (digits, exponent)
  | fuel + 1, digits, exponent =>
    if digits ≠ 0 ∧ digits % 10 = 0 then stripZeros fuel (digits / 10) (exponent + 1)
    else (digits, exponent)

def canonical (digits : Nat) (exponent : Int) : Nat × Int :=
  if digits = 0 then (0, 0) else stripZeros (Nat.log2 digits + 1) digits exponent

end ExactDecimal

namespace DateTime

def universalMicros (t : DateTime) : Int := t.micros - (t.time.offset.map (·.micros)).getD 0

end DateTime

namespace TimeOfDay

def universalMicros (t : TimeOfDay) : Int :=
  (t.sinceMidnight : Int) - (t.offset.map (·.micros)).getD 0

end TimeOfDay

def PathText.comparable (p : PathText) : PathText :=
  match p.flavour with
  | .posix => p
  | .windows => { p with drive := p.drive.lower, root := p.root, parts := p.parts.map Text.lower }

namespace State

/-- The exact value of a number that is an object; numbers with huge exponents have none here. -/
def rational? : State → Option Quotient
  | .fraction num den => some ⟨num, den⟩
  | .decimal ⟨negative, .finite digits exponent⟩ =>
    let n : Int := if negative then -(digits : Int) else digits
    if exponent.natAbs > 5000 then none
    else some (if 0 ≤ exponent then .normal (n * 10 ^ exponent.toNat) 1
      else .normal n (10 ^ (-exponent).toNat))
  | _ => none

def infinite? : State → Option Bool
  | .decimal ⟨negative, .infinite⟩ => some negative
  | _ => none

def same (a b : State) : Bool :=
  match a, b with
  | .datetime s, .datetime t =>
    s.time.offset.isSome == t.time.offset.isSome && s.universalMicros == t.universalMicros
  | .time s, .time t =>
    s.offset.isSome == t.offset.isSome && s.universalMicros == t.universalMicros
  | .path p, .path q => p.comparable == q.comparable
  | .decimal ⟨x, .finite d e⟩, .decimal ⟨y, .finite f g⟩ =>
    ExactDecimal.canonical d e == ExactDecimal.canonical f g && (x == y || d == 0)
  | .decimal ⟨x, .infinite⟩, .decimal ⟨y, .infinite⟩ => x == y
  | .memoryview x _, .memoryview y _ | .memoryview x _, .bytearray y
  | .bytearray x, .memoryview y _ => x == y
  | .date _, _ | .timedelta _, _ | .uuid _, _ | .url _, _ | .queryParams _, _ | .headers _, _
  | .bytearray _, _ => a = b
  | a, b =>
    match a.rational?, b.rational? with
    | some x, some y => x = y
    | _, _ => false

end State

namespace Scalar

def infinite? : Scalar → Option Bool
  | .float d => if d.isInfinite then some d.negative else none
  | .complex d im => if d.isInfinite && im.isZero then some d.negative else none
  | _ => none

def sameAsState (x : Scalar) (s : State) : Bool :=
  match x, s with
  | .bytes b, .bytearray c | .bytes b, .memoryview c _ => b == c
  | .str t, .url u => u.text == t
  | x, s =>
    match x.rational?, s.rational?, x.infinite?, s.infinite? with
    | some p, some q, _, _ => p = q
    | _, _, some p, some q => p == q
    | _, _, _, _ => false

end Scalar

def patternFlags : List String := [
  "TEMPLATE", "IGNORECASE", "LOCALE", "MULTILINE", "DOTALL", "UNICODE", "VERBOSE", "DEBUG", "ASCII"]

def memberNumber? (cls : Class) (name : Text) : Option Int :=
  match cls.name.qualname with
  | "HTTPStatus" => (statusNamed? (String.ofList name)).map fun n => (n : Int)
  | "RegexFlag" =>
    some ((name.splitOn '|').map fun part =>
      (2 : Int) ^ ((patternFlags.idxOf? (String.ofList part)).getD 0)).sum
  | _ => none

inductive KeyFault where
  /-- Values of a type can change. -/
  | changeable (type : String)
  | writableView
  | signallingNumber
  deriving DecidableEq, Repr, Inhabited

namespace KeyFault

def kind : KeyFault → String
  | .writableView => "ValueError"
  | _ => "TypeError"

def message : KeyFault → String
  | .changeable type => "unhashable type: '" ++ type ++ "'"
  | .writableView => "cannot hash writable memoryview object"
  | .signallingNumber => "Cannot hash a signaling NaN value"

end KeyFault

def State.keyFault? (type : String) : State → Option KeyFault
  | .ordered _ | .formData _ | .headers _ | .bytearray _ => some (.changeable type)
  | .memoryview _ true => some .writableView
  | .decimal ⟨_, .undefined true _⟩ => some .signallingNumber
  | _ => none

namespace Graph

def instanceType (cls : Class) : String :=
  if cls.name = ⟨"collections", "OrderedDict"⟩ then "collections.OrderedDict"
  else (cls.name.qualname.splitOn ".").getLastD ""

def keyFault? (graph : Graph) : Nat → Value → Option KeyFault
  | 0, _ | _, .scalar _ => none
  | depth + 1, .ref i =>
    match graph[i]? with
    | some (.list _) => some (.changeable "list")
    | some (.dict _) => some (.changeable "dict")
    | some (.set _) => some (.changeable "set")
    | some (.tuple xs) => xs.findSome? (graph.keyFault? depth)
    | some (.inst cls state) =>
      let changeable := ["list", "dict", "set", "OrderedDict"].any fun name =>
        cls.lineage.any fun key => match key with
          | .known k => k.qualname == name
          | .own _ => false
      if changeable then some (.changeable (instanceType cls))
      else state.keyFault? (instanceType cls)
    | _ => none

/-- Whether two values are equal as keys, looking at most `depth` objects deep.  An undefined number
is equal to itself only. -/
def sameKey (graph : Graph) : Nat → Value → Value → Bool
  | 0, a, b => a = b
  | depth + 1, a, b =>
    if a = b then true
    else
      let allSame := fun (xs ys : List Value) =>
        xs.length == ys.length && (xs.zip ys).all fun (x, y) => sameKey graph depth x y
      let within := fun (xs ys : List Value) =>
        xs.all fun x => ys.any fun y => sameKey graph depth x y
      match a, b with
      | .scalar x, .scalar y => x.same y
      | .scalar x, .ref i | .ref i, .scalar x =>
        match graph[i]? with
        | some (.inst c (.enumMember m _)) =>
          (memberNumber? c m).any fun n => x.rational? == some ⟨n, 1⟩
        | some (.inst _ state) => x.sameAsState state
        | _ => false
      | .ref i, .ref j =>
        match graph[i]?, graph[j]? with
        | some (.tuple xs), some (.tuple ys) => allSame xs ys
        | some (.frozenset xs), some (.frozenset ys)
        | some (.set xs), some (.frozenset ys)
        | some (.frozenset xs), some (.set ys) =>
          xs.length == ys.length && within xs ys
        | some (.inst c (.enumMember m _)), some (.inst d (.enumMember n _)) =>
          (c == d && m == n) ||
            ((memberNumber? c m).isSome && memberNumber? c m == memberNumber? d n)
        | some (.inst c (.enumMember m _)), some (.inst _ s)
        | some (.inst _ s), some (.inst c (.enumMember m _)) =>
          (memberNumber? c m).any fun n => (Scalar.int n).sameAsState s
        | some (.inst _ s), some (.inst _ t) => s.same t
        | _, _ => false

def keyDepth : Nat := 200

def bindEntry (graph : Graph) (entries : List (Value × Value)) (key value : Value) :
    Except KeyFault (List (Value × Value)) :=
  match graph.keyFault? keyDepth key with
  | some fault => .error fault
  | none =>
    .ok (if entries.any (fun e => graph.sameKey keyDepth e.1 key) then
        entries.map fun e => if graph.sameKey keyDepth e.1 key then (e.1, value) else e
      else entries ++ [(key, value)])

def addElement (graph : Graph) (items : List Value) (item : Value) :
    Except KeyFault (List Value) :=
  match graph.keyFault? keyDepth item with
  | some fault => .error fault
  | none =>
    .ok (if items.any (fun e => graph.sameKey keyDepth e item) then items else items ++ [item])

end Graph

end MacroExpand
