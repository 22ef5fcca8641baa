import MacroExpand.Syntax.Lexer
import MacroExpand.Text.CharacterNames

/-!
# String literals

A literal has letters in front, quotes and a body.  Unless it is raw, escapes in the body are undone.
A formatted literal is cut into plain pieces and fields; a field holds the text of an expression and
where it stands, a conversion and a format, which is again made of pieces.
-/

set_option autoImplicit false

namespace MacroExpand

structure StringLiteral where
  isBytes : Bool
  isRaw : Bool
  isFormatted : Bool
  /-- Whether the first letter is the one without a meaning. -/
  isMarked : Bool
  body : Text
  /-- The place of the first character of the body: line and column. -/
  line : Nat
  column : Nat
  deriving Repr, Inhabited

/-- A part of a formatted literal. -/
inductive Piece where
  | plain (points : List CodePoint)
  /-- A field: the expression's text and the place of its opening brace, the text to be shown in
  front of the value if any, a conversion and a format. -/
  | field (expression : Text) (line column : Nat) (shown : Option Text) (conversion : Option Char)
      (format : Option (List Piece))
  deriving Repr, Inhabited

def Piece.isShown : Piece → Bool
  | .field _ _ _ shown _ _ => shown.isSome
  | .plain _ => false

namespace StringLiteral

def ofToken (t : Token) : StringLiteral :=
  let isQuote := fun c => c == '\'' || c == '"'
  let letters := t.text.takeWhile (!isQuote ·)
  let rest := t.text.dropWhile (!isQuote ·)
  let quotes := match rest with
    | a :: b :: c :: _ => if a = b ∧ b = c ∧ 6 ≤ rest.length then 3 else 1
    | _ => 1
  let has := fun (c : Char) => letters.any fun l => l.toLower == c
  { isBytes := has 'b', isRaw := has 'r', isFormatted := has 'f'
    isMarked := letters.head? = some 'u'
    body := (rest.drop quotes).take (rest.length - 2 * quotes)
    line := t.line
    column := t.column + letters.length + quotes }

def simpleEscape : Char → Option Char
  | '\\' => some '\\'
  | '\'' => some '\''
  | '"' => some '"'
  | 'a' => some '\x07'
  | 'b' => some '\x08'
  | 'f' => some '\x0c'
  | 'n' => some '\n'
  | 'r' => some '\r'
  | 't' => some '\t'
  | 'v' => some '\x0b'
  | _ => none

def isOctal (c : Char) : Bool := '0' ≤ c && c ≤ '7'

/-- Why an escape cannot be undone: the bytes it takes, counted from the start of the body, where a
character above ASCII counts as ten, and what is wrong. -/
def escapeFault (first last : Nat) (what : String) : String :=
  "(unicode error) 'unicodeescape' codec can't decode bytes in position " ++ toString first ++ "-" ++
    toString last ++ ": " ++ what

def weight (c : Char) : Nat := if c.toNat < 128 then 1 else 10

def unescape : Nat → Nat → Text → Except String (List CodePoint)
  | 0, _, text => .ok (text.map .char)
  | _, _, [] => .ok []
  | fuel + 1, place, '\\' :: c :: rest =>
    let hex := fun (count : Nat) (what : String) =>
      let digits := (rest.take count).takeWhile fun d => (hexValue d).isSome
      let last := place + 1 + digits.length
      if digits.length < count then .error (escapeFault place last ("truncated " ++ what ++ " escape"))
      else
        let n := (hexNumber digits).getD 0
        if n < 0x110000 then
          (unescape fuel (place + 2 + count) (rest.drop count)).map (.ofNat n :: ·)
        else .error (escapeFault place last "illegal Unicode character")
    match simpleEscape c with
    | some e => (unescape fuel (place + 2) rest).map (.char e :: ·)
    | none =>
      if c == '\n' then unescape fuel (place + 2) rest
      else if c == 'x' then hex 2 "\\xXX"
      else if c == 'u' then hex 4 "\\uXXXX"
      else if c == 'U' then hex 8 "\\UXXXXXXXX"
      else if c == 'N' then
        match rest with
        | '\x7b' :: inner =>
          let name := inner.takeWhile (· != '\x7d')
          let size := (name.map weight).sum
          match inner.dropWhile (· != '\x7d') with
          | [] => .error (escapeFault place (place + 2 + size) "malformed \\N character escape")
          | _ :: after =>
            if name.isEmpty then
              .error (escapeFault place (place + 2) "malformed \\N character escape")
            else match characterNamed? name with
              | some found => (unescape fuel (place + 4 + size) after).map (.char found :: ·)
              | none =>
                .error (escapeFault place (place + 3 + size) "unknown Unicode character name")
        | _ => .error (escapeFault place (place + 1) "malformed \\N character escape")
      else if isOctal c then
        let digits := (c :: rest).take 3 |>.takeWhile isOctal
        (unescape fuel (place + 1 + digits.length) ((c :: rest).drop digits.length)).map
          (.char (Char.ofNat (Number.digits 8 digits)) :: ·)
      else if 128 ≤ c.toNat then (unescape fuel (place + 16) rest).map (.char '\\' :: .char c :: ·)
      else (unescape fuel (place + 2) rest).map (.char '\\' :: .char c :: ·)
  | fuel + 1, place, c :: rest => (unescape fuel (place + weight c) rest).map (.char c :: ·)

def unescapeBytes : Nat → Nat → Text → Except String (List UInt8)
  | 0, _, _ => .ok []
  | _, _, [] => .ok []
  | fuel + 1, place, '\\' :: c :: rest =>
    match simpleEscape c with
    | some e => (unescapeBytes fuel (place + 2) rest).map (e.toNat.toUInt8 :: ·)
    | none =>
      if c == '\n' then unescapeBytes fuel (place + 2) rest
      else if c == 'x' then
        match rest.take 2 |>.mapM hexValue with
        | some [a, b] =>
          (unescapeBytes fuel (place + 4) (rest.drop 2)).map ((a * 16 + b).toUInt8 :: ·)
        | _ => .error ("(value error) invalid \\x escape at position " ++ toString place)
      else if isOctal c then
        let digits := (c :: rest).take 3 |>.takeWhile isOctal
        (unescapeBytes fuel (place + 1 + digits.length) ((c :: rest).drop digits.length)).map
          ((Number.digits 8 digits).toUInt8 :: ·)
      else (unescapeBytes fuel (place + 2) rest).map (92 :: c.toNat.toUInt8 :: ·)
  | fuel + 1, place, c :: rest => (unescapeBytes fuel (place + 1) rest).map (c.toNat.toUInt8 :: ·)

def text (s : StringLiteral) : Except String (List CodePoint) :=
  if s.isRaw then .ok (s.body.map .char) else unescape (s.body.length + 1) 0 s.body

def bytes (s : StringLiteral) : Except String (List UInt8) :=
  if s.body.any (fun c => 128 ≤ c.toNat) then
    .error "bytes can only contain ASCII literal characters"
  else if s.isRaw then .ok (s.body.map fun c => c.toNat.toUInt8)
  else unescapeBytes (s.body.length + 1) 0 s.body

/-! ## Formatted literals -/

def move (place : Nat × Nat) (c : Char) : Nat × Nat :=
  if c = '\n' then (place.1 + 1, 0) else (place.1, place.2 + c.utf8Size)

/-- How far the text of an expression was read. -/
structure FieldScan where
  done : Text := []
  /-- The quote that is open and whether it is a triple one. -/
  quote : Option (Char × Bool) := none
  brackets : List Char := []

def expressionText : Nat → FieldScan → Text → Except String (Text × Text)
  | 0, _, _ => .error "f-string: expecting '\x7d'"
  | _, s, [] =>
    if s.quote.isSome then .error "f-string: unterminated string"
    else match s.brackets with
      | c :: _ => .error ("f-string: unmatched '" ++ String.ofList [c] ++ "'")
      | [] => .error "f-string: expecting '\x7d'"
  | fuel + 1, s, c :: rest =>
    let add := fun (s : FieldScan) => { s with done := c :: s.done }
    if c == '\\' then .error "f-string expression part cannot include a backslash"
    else match s.quote with
      | some (q, triple) =>
        if c == q then
          if triple then
            if [q, q].isPrefixOf rest then
              expressionText fuel { s with done := q :: q :: q :: s.done, quote := none } (rest.drop 2)
            else expressionText fuel (add s) rest
          else expressionText fuel { add s with quote := none } rest
        else expressionText fuel (add s) rest
      | none =>
        if c == '\'' || c == '"' then
          if [c, c].isPrefixOf rest then
            expressionText fuel { s with done := c :: c :: c :: s.done, quote := some (c, true) }
              (rest.drop 2)
          else expressionText fuel { add s with quote := some (c, false) } rest
        else if c == '(' || c == '[' || c == '\x7b' then
          if 200 ≤ s.brackets.length then .error "f-string: too many nested parenthesis"
          else expressionText fuel { add s with brackets := c :: s.brackets } rest
        else if c == '#' then .error "f-string expression part cannot include '#'"
        else if s.brackets.isEmpty && (c == '!' || c == ':' || c == '\x7d' || c == '=' || c == '<' || c == '>')
        then
          if rest.head? == some '=' && c != ':' && c != '\x7d' then
            expressionText fuel { s with done := '=' :: c :: s.done } (rest.drop 1)
          else if c == '<' || c == '>' then expressionText fuel (add s) rest
          else .ok (s.done.reverse, c :: rest)
        else if c == ')' || c == ']' || c == '\x7d' then
          match s.brackets with
          | [] => .error ("f-string: unmatched '" ++ String.ofList [c] ++ "'")
          | o :: outer =>
            if Lexer.closing o = c then expressionText fuel { add s with brackets := outer } rest
            else .error ("f-string: closing parenthesis '" ++ String.ofList [c] ++
              "' does not match opening parenthesis '" ++ String.ofList [o] ++ "'")
        else expressionText fuel (add s) rest

/-- Read plain text up to a brace: the text, whether a doubled brace ended it, and the rest.  Inside a
format a brace is never doubled.  The braces around the name of a character end nothing. -/
def plainText (raw nested : Bool) : Nat → Text → Text → Except String (Text × Bool × Text)
  | 0, done, rest => .ok (done.reverse, false, rest)
  | _, done, [] => .ok (done.reverse, false, [])
  | fuel + 1, done, '\\' :: c :: rest =>
    if raw || c == '\x7b' || c == '\x7d' then plainText raw nested fuel ('\\' :: done) (c :: rest)
    else match c, rest with
      | 'N', '\x7b' :: inner =>
        let name := inner.takeWhile (· != '\x7d')
        let after := inner.dropWhile (· != '\x7d')
        plainText raw nested fuel
          ((chars "\\N\x7b" ++ name ++ after.take 1).reverse ++ done) (after.drop 1)
      | _, _ => plainText raw nested fuel (c :: '\\' :: done) rest
  | fuel + 1, done, c :: rest =>
    if c == '\x7b' || c == '\x7d' then
      if nested then .ok (done.reverse, false, c :: rest)
      else if rest.head? == some c then .ok ((c :: done).reverse, true, rest.drop 1)
      else if c == '\x7d' then .error "f-string: single '\x7d' is not allowed"
      else .ok (done.reverse, false, c :: rest)
    else plainText raw nested fuel (c :: done) rest

def plainPiece (raw : Bool) (text : Text) : Except String (List Piece) :=
  if text.isEmpty then .ok []
  else (if raw then .ok (text.map .char) else unescape (text.length + 1) 0 text).map fun t => [.plain t]

abbrev Cutting := Except (List Piece × String)

def before (front : List Piece) (more : Cutting (List Piece × (Nat × Nat) × Text)) :
    Cutting (List Piece × (Nat × Nat) × Text) :=
  match more with
  | .ok (pieces, place, rest) => .ok (front ++ pieces, place, rest)
  | .error (pieces, message) => .error (front ++ pieces, message)

def cutting {α : Type} (front : List Piece) (step : Except String α) : Cutting α :=
  step.mapError fun message => (front, message)

def isPlainBlank (c : Char) : Bool := c == ' ' || ('\x09' ≤ c && c ≤ '\x0d')

def isSkipped (c : Char) : Bool := c == ' ' || c == '\t' || c == '\n' || c == '\x0c'

def shownMark (expression : Text) : Text → Option Text × Text
  | '=' :: more =>
    (some (expression ++ '=' :: more.takeWhile isPlainBlank), more.dropWhile isPlainBlank)
  | more => (none, more)

def conversionMark (seen : List Piece) : Text → Cutting (Option Char × Text)
  | '!' :: c :: more =>
    if c == 's' || c == 'r' || c == 'a' then .ok (some c, more)
    else .error (seen, "f-string: invalid conversion character: " ++ "expected 's', 'r', or 'a'")
  | '!' :: [] => .error (seen, "f-string: expecting '\x7d'")
  | more => .ok (none, more)

/-- Cut the body of a formatted literal into pieces; `level` counts the formats around it. -/
def pieces (raw : Bool) :
    Nat → Nat → Nat × Nat → Text → Cutting (List Piece × (Nat × Nat) × Text)
  | 0, _, place, text => .ok ([], place, text)
  | fuel + 1, level, place, text => do
      let (plain, doubled, rest) ← cutting [] (plainText raw (0 < level) (text.length + 1) [] text)
      let head ← cutting [] (plainPiece raw plain)
      let place := (text.take (text.length - rest.length)).foldl move place
      if doubled then before head (pieces raw fuel level place rest)
      else match rest with
        | [] => return (head, place, [])
        | '\x7b' :: inner => do
            if 2 ≤ level then throw (head, "f-string: expressions nested too deeply")
            let (expression, after) ← cutting head (expressionText (inner.length + 1) {} inner)
            if expression.all isSkipped then throw (head, "f-string: empty expression not allowed")
            let braceAt := place
            let (shown, after) := shownMark expression after
            let field := Piece.field expression braceAt.1 braceAt.2 shown
            let open_ : List Piece × String := (head ++ [field none none], "f-string: expecting '\x7d'")
            let (conversion, after) ← conversionMark (head ++ [field none none]) after
            let inside := fun (rest : Text) => (text.take (text.length - rest.length)).drop
              (text.length - inner.length - 1)
            let (format, place, after) ← (match after with
              | ':' :: [] => .error open_
              | ':' :: more =>
                match pieces raw fuel (level + 1) ((inside more).foldl move braceAt) more with
                | .ok (spec, place, after) => .ok (some spec, place, after)
                | .error (spec, message) => .error (head ++ [field none (some spec)], message)
              | more => .ok (none, (inside more).foldl move braceAt, more) :
              Cutting (Option (List Piece) × (Nat × Nat) × Text))
            match after with
            | '\x7d' :: after =>
              let conversion := if shown.isSome && conversion.isNone && format.isNone then some 'r'
                else conversion
              before (head ++ [field conversion format])
                (pieces raw fuel level (place.1, place.2 + 1) after)
            | _ => throw (head ++ [field none format], "f-string: expecting '\x7d'")
        | _ => return (head, place, rest)

def split (s : StringLiteral) : Cutting (List Piece) := do
  let (found, _, rest) ← pieces s.isRaw (s.body.length + 2) 0 (s.line, s.column) s.body
  if rest.isEmpty then return found
  else throw (found, "f-string: single '\x7d' is not allowed")

end StringLiteral

end MacroExpand
