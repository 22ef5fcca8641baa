import MacroExpand.Number.Shortest
import MacroExpand.Text.Quoted
import MacroExpand.Value.Uuid

/-!
# JSON documents

Reading keeps the members of an object in their order, takes whole numbers of any size, and also
accepts the names of the numbers that have no literal.  Errors say what was expected and where.
-/

set_option autoImplicit false

namespace MacroExpand

inductive Json where
  | null
  | bool (b : Bool)
  | int (n : Int)
  | float (d : Double)
  | str (s : Text)
  | arr (items : List Json)
  | obj (members : List (Text × Json))
  deriving Repr, Inhabited

/-- Why a text is no JSON document. -/
inductive JsonFault where
  | value
  | propertyName
  | colon
  | comma
  | unterminated
  | control
  | escape
  | unicodeEscape
  | extra
  | byteOrderMark
  deriving DecidableEq, Repr, Inhabited

def JsonFault.message : JsonFault → String
  | .value => "Expecting value"
  | .propertyName => "Expecting property name enclosed in double quotes"
  | .colon => "Expecting ':' delimiter"
  | .comma => "Expecting ',' delimiter"
  | .unterminated => "Unterminated string starting at"
  | .control => "Invalid control character at"
  | .escape => "Invalid \\escape"
  | .unicodeEscape => "Invalid \\uXXXX escape"
  | .extra => "Extra data"
  | .byteOrderMark => "Unexpected UTF-8 BOM (decode using utf-8-sig)"

/-- A fault, with the number of characters from there to the end of the text. -/
structure JsonError where
  fault : JsonFault
  left : Nat
  deriving DecidableEq, Repr, Inhabited

def JsonError.position (text : Text) (e : JsonError) : Nat := text.length - e.left

def JsonError.location (text : Text) (e : JsonError) : Nat × Nat :=
  let before := text.take (e.position text)
  (before.count '\n' + 1, (before.reverse.takeWhile (· != '\n')).length + 1)

def JsonError.message (text : Text) (e : JsonError) : String :=
  let (line, column) := e.location text
  e.fault.message ++ ": line " ++ toString line ++ " column " ++ toString column ++
    " (char " ++ toString (e.position text) ++ ")"

namespace Json

def fail {α : Type} (fault : JsonFault) (rest : Text) : Except JsonError (α × Text) :=
  .error ⟨fault, rest.length⟩

def isSpace (c : Char) : Bool := c == ' ' || c == '\t' || c == '\n' || c == '\r'

def skip (text : Text) : Text := text.dropWhile isSpace

def joinUnits : List Nat → Text
  | [] => []
  | [n] => [unit n]
  | hi :: lo :: rest =>
    if 0xD800 ≤ hi ∧ hi < 0xDC00 ∧ 0xDC00 ≤ lo ∧ lo < 0xE000 then
      Char.ofNat (0x10000 + (hi - 0xD800) * 1024 + (lo - 0xDC00)) :: joinUnits rest
    else unit hi :: joinUnits (lo :: rest)
where
  unit (n : Nat) : Char := if 0xD800 ≤ n ∧ n < 0xE000 then '\uFFFD' else Char.ofNat n

def escaped : Char → Option Char
  | '"' => some '"'
  | '\\' => some '\\'
  | '/' => some '/'
  | 'b' => some '\x08'
  | 'f' => some '\x0c'
  | 'n' => some '\n'
  | 'r' => some '\r'
  | 't' => some '\t'
  | _ => none

def string (start : Nat) (done : List Nat) : Text → Except JsonError (Text × Text)
  | [] => .error ⟨.unterminated, start⟩
  | '"' :: rest => .ok (joinUnits done.reverse, rest)
  | '\\' :: 'u' :: a :: b :: c :: d :: rest =>
    match hexNumber [a, b, c, d] with
    | some n => string start (n :: done) rest
    | none => fail .unicodeEscape ('u' :: a :: b :: c :: d :: rest)
  | '\\' :: c :: rest =>
    match escaped c with
    | some e => string start (e.toNat :: done) rest
    | none => if c = 'u' then fail .unicodeEscape (c :: rest) else fail .escape ('\\' :: c :: rest)
  | c :: rest =>
    if c = '\\' then .error ⟨.unterminated, start⟩
    else if c.toNat < 32 then fail .control (c :: rest)
    else string start (c.toNat :: done) rest

def digitsValue (digits : Text) : Nat := digits.foldl (fun n c => n * 10 + (c.toNat - 48)) 0

def number (negative : Bool) (text : Text) : Option (Json × Text) :=
  let digits := text.takeWhile Char.isDigit
  let whole := if digits.head? = some '0' then digits.take 1 else digits
  if whole.isEmpty then none
  else
    let rest := text.drop whole.length
    let fraction := match rest with
      | '.' :: more => more.takeWhile Char.isDigit
      | _ => []
    let rest := if fraction.isEmpty then rest else rest.drop (1 + fraction.length)
    let exponent : Option (Int × Nat) := match rest with
      | c :: more =>
        if c == 'e' || c == 'E' then
          let (sign, size, body) : Int × Nat × Text := match more with
            | '-' :: b => (-1, 2, b)
            | '+' :: b => (1, 2, b)
            | b => (1, 1, b)
          let ds := body.takeWhile Char.isDigit
          if ds.isEmpty then none else some (sign * digitsValue ds, size + ds.length)
        else none
      | [] => none
    let rest := match exponent with
      | none => rest
      | some (_, size) => rest.drop size
    if fraction.isEmpty && exponent.isNone then
      let n : Int := digitsValue whole
      some (.int (if negative then -n else n), rest)
    else
      let e := (exponent.map Prod.fst).getD 0
      let d := Double.ofDecimal (digitsValue (whole ++ fraction)) (e - fraction.length)
      some (.float (if negative then d.neg else d), rest)

def words : List (Text × Json) :=
  [("null".toList, .null), ("true".toList, .bool true), ("false".toList, .bool false),
    ("NaN".toList, .float .undefined), ("Infinity".toList, .float .infinity),
    ("-Infinity".toList, .float Double.infinity.neg)]

mutual

def value : Nat → Text → Except JsonError (Json × Text)
  | 0, text => fail .value text
  | fuel + 1, text =>
    match text with
    | '"' :: rest => do
        let (s, rest) ← string text.length [] rest
        return (.str s, rest)
    | '\x7b' :: rest =>
      match skip rest with
      | '\x7d' :: more => .ok (.obj [], more)
      | more => members fuel [] more
    | '[' :: rest =>
      match skip rest with
      | ']' :: more => .ok (.arr [], more)
      | more => items fuel [] more
    | _ =>
      match words.find? fun w => w.1.isPrefixOf text with
      | some (word, v) => .ok (v, text.drop word.length)
      | none =>
        let found := match text with
          | '-' :: rest => number true rest
          | _ => number false text
        match found with
        | some r => .ok r
        | none => fail .value text

def items : Nat → List Json → Text → Except JsonError (Json × Text)
  | 0, _, text => fail .value text
  | fuel + 1, done, text => do
      let (v, rest) ← value fuel text
      match skip rest with
      | ']' :: more => return (.arr (v :: done).reverse, more)
      | ',' :: more => items fuel (v :: done) (skip more)
      | more => fail .comma more

def members : Nat → List (Text × Json) → Text → Except JsonError (Json × Text)
  | 0, _, text => fail .propertyName text
  | fuel + 1, done, text =>
    match text with
    | '"' :: rest => do
        let (name, rest) ← string text.length [] rest
        match skip rest with
        | ':' :: more => do
            let (v, rest) ← value fuel (skip more)
            let done := if done.any (·.1 == name) then
              done.map fun m => if m.1 == name then (name, v) else m
              else (name, v) :: done
            match skip rest with
            | '\x7d' :: more => return (.obj done.reverse, more)
            | ',' :: more => members fuel done (skip more)
            | more => fail .comma more
        | more => fail .colon more
    | _ => fail .propertyName text

end

def parse (text : Text) : Except JsonError Json :=
  if text.head? = some '\uFEFF' then .error ⟨.byteOrderMark, text.length⟩
  else do
    let (v, rest) ← value (text.length + 1) (skip text)
    match skip rest with
    | [] => return v
    | more => .error ⟨.extra, more.length⟩

def get? (name : String) : Json → Option Json
  | .obj ms => (ms.find? fun m => m.1 == name.toList).map Prod.snd
  | _ => none

def escapeChar (c : Char) : Text :=
  if c = '"' ∨ c = '\\' then ['\\', c]
  else if c = '\n' then ['\\', 'n']
  else if c = '\r' then ['\\', 'r']
  else if c = '\t' then ['\\', 't']
  else if c = '\x08' then ['\\', 'b']
  else if c = '\x0c' then ['\\', 'f']
  else if c.toNat < 32 then '\\' :: 'u' :: hexDigits c.toNat 4
  else [c]

def quoted (s : Text) : Text := '"' :: (s.flatMap escapeChar ++ ['"'])

mutual

def render : Json → Text
  | .null => ['n', 'u', 'l', 'l']
  | .bool true => ['t', 'r', 'u', 'e']
  | .bool false => ['f', 'a', 'l', 's', 'e']
  | .int n => intText n
  | .float d => d.text
  | .str s => quoted s
  | .arr items => '[' :: (renderItems items ++ [']'])
  | .obj ms => '\x7b' :: (renderMembers ms ++ ['\x7d'])

def renderItems : List Json → Text
  | [] => []
  | [v] => render v
  | v :: rest => render v ++ ',' :: renderItems rest

def renderMembers : List (Text × Json) → Text
  | [] => []
  | [(name, v)] => quoted name ++ ':' :: render v
  | (name, v) :: rest => quoted name ++ ':' :: (render v ++ ',' :: renderMembers rest)

end

end Json

end MacroExpand
