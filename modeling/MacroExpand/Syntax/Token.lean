import MacroExpand.Text.Identifier
import MacroExpand.Text.Normalization
import MacroExpand.Text.Lines
import MacroExpand.Value.Scalar
import MacroExpand.Value.Uuid

/-!
# Tokens

Source text is cut into names, numbers, strings and operators; the ends of logical lines and changes
of indentation are tokens too.  Columns count bytes.
-/

set_option autoImplicit false

namespace MacroExpand

inductive TokenKind where
  | name
  /-- A name that is spelled like a keyword that the version of the language does not know. -/
  | freeName
  | number
  | string
  | op
  | newline
  | indent
  | dedent
  | typeComment
  | finish
  deriving DecidableEq, Repr, Inhabited

/-- A token with its text and its place. -/
structure Token where
  kind : TokenKind
  text : Text
  line : Nat
  column : Nat
  endLine : Nat
  endColumn : Nat
  deriving DecidableEq, Repr, Inhabited

/-- Which rule of the language a text breaks. -/
inductive FaultKind where
  | grammar
  | indentation
  | tabs
  /-- The text holds the character with code zero. -/
  | nullCharacter
  deriving DecidableEq, Repr, Inhabited

def FaultKind.name : FaultKind → String
  | .grammar => "SyntaxError"
  | .indentation => "IndentationError"
  | .tabs => "TabError"
  | .nullCharacter => "ValueError"

/-- Why a text is no program, and where.  The column counts bytes. -/
structure SourceFault where
  kind : FaultKind
  message : String
  line : Nat
  column : Nat := 0
  deriving DecidableEq, Repr, Inhabited

namespace Number

def digitRun (isDigit : Char → Bool) : Nat → Text → Option (Text × Text)
  | 0, text => some ([], text)
  | fuel + 1, text =>
    let digits := text.takeWhile isDigit
    match text.dropWhile isDigit with
    | '_' :: rest =>
      if rest.head?.any isDigit then
        (digitRun isDigit fuel rest).map fun (more, after) => (digits ++ '_' :: more, after)
      else none
    | rest => some (digits, rest)

def isWordChar (c : Char) : Bool := c.isAlphanum || c == '_' || 128 ≤ c.toNat

/-- Whether a number may end in front of this text: not in front of a name, except for the words
that may follow a number. -/
def mayEnd (rest : Text) : Bool :=
  match rest with
  | [] => true
  | c :: _ =>
    if c.isAlphanum || c == '_' then
      (["and", "else", "for", "or", "not"].any fun word =>
        (chars word).isPrefixOf rest && !(rest.drop word.length).head?.any isWordChar) ||
      ["if", "in", "is"].any fun word => (chars word).isPrefixOf rest
    else true

def close (what : String) (found : Text × Text) : Except String (Text × Text) :=
  if mayEnd found.2 then .ok found else .error ("invalid " ++ what ++ " literal")

def based (mark : Text) (what : String) (isDigit : Char → Bool) (text : Text) :
    Except String (Text × Text) :=
  let (lead, body) : Text × Text := match text with
    | '_' :: rest => (['_'], rest)
    | rest => ([], rest)
  if !body.head?.any isDigit then
    match body.head? with
    | some c =>
      if c.isDigit then
        .error ("invalid digit '" ++ String.ofList [c] ++ "' in " ++ what ++ " literal")
      else .error ("invalid " ++ what ++ " literal")
    | none => .error ("invalid " ++ what ++ " literal")
  else match digitRun isDigit body.length body with
    | none => .error ("invalid " ++ what ++ " literal")
    | some (digits, rest) =>
      match rest with
      | c :: _ =>
        if c.isDigit then
          .error ("invalid digit '" ++ String.ofList [c] ++ "' in " ++ what ++ " literal")
        else close what (mark ++ lead ++ digits, rest)
      | [] => .ok (mark ++ lead ++ digits, [])

def decimalEnd (done rest : Text) : Except String (Text × Text) :=
  match rest with
  | c :: more =>
    if c == 'j' || c == 'J' then close "imaginary" (done ++ [c], more)
    else close "decimal" (done, rest)
  | [] => .ok (done, [])

def exponent (done rest : Text) : Except String (Text × Text) :=
  match rest with
  | c :: more =>
    if c == 'e' || c == 'E' then
      let (sign, body) : Text × Text := match more with
        | '+' :: b => (['+'], b)
        | '-' :: b => (['-'], b)
        | b => ([], b)
      if body.head?.any Char.isDigit then
        match digitRun Char.isDigit body.length body with
        | some (digits, after) => decimalEnd (done ++ c :: (sign ++ digits)) after
        | none => .error "invalid decimal literal"
      else if sign.isEmpty then close "decimal" (done, rest)
      else .error "invalid decimal literal"
    else decimalEnd done rest
  | [] => .ok (done, [])

def fraction (done rest : Text) : Except String (Text × Text) :=
  match rest with
  | '.' :: more =>
    if more.head?.any Char.isDigit then
      match digitRun Char.isDigit more.length more with
      | some (digits, after) => exponent (done ++ '.' :: digits) after
      | none => .error "invalid decimal literal"
    else exponent (done ++ ['.']) more
  | _ => exponent done rest

def take (text : Text) : Except String (Text × Text) :=
  match text with
  | '0' :: c :: rest =>
    if c == 'x' || c == 'X' then based ['0', c] "hexadecimal" (fun d => (hexValue d).isSome) rest
    else if c == 'o' || c == 'O' then based ['0', c] "octal" (fun d => '0' ≤ d && d ≤ '7') rest
    else if c == 'b' || c == 'B' then based ['0', c] "binary" (fun d => d == '0' || d == '1') rest
    else decimal text
  | '.' :: _ => fraction [] text
  | _ => decimal text
where
  /-- A decimal number; a whole one other than zero does not begin with zero. -/
  decimal (text : Text) : Except String (Text × Text) :=
    match digitRun Char.isDigit text.length text with
    | none => .error "invalid decimal literal"
    | some (digits, rest) =>
      let goesOn := rest.head?.any fun c =>
        c == '.' || c == 'e' || c == 'E' || c == 'j' || c == 'J'
      if digits.head? == some '0' && digits.any (fun c => '1' ≤ c && c ≤ '9') && !goesOn then
        .error ("leading zeros in decimal integer literals are not permitted; " ++
          "use an 0o prefix for octal integers")
      else fraction digits rest

def digits (base : Nat) (text : Text) : Nat :=
  text.foldl (fun n c => n * base + (hexValue c).getD 0) 0

def isTooLong (text : Text) : Bool :=
  let plain := text.filter (· != '_')
  4300 < plain.length && plain.all Char.isDigit && plain.any (· != '0')

def double (text : Text) : Double :=
  let mantissa := text.takeWhile fun c => c != 'e' && c != 'E'
  let tail := (text.dropWhile fun c => c != 'e' && c != 'E').drop 1
  let whole := mantissa.takeWhile (· != '.')
  let fraction := (mantissa.dropWhile (· != '.')).drop 1
  let power : Int := match tail with
    | '-' :: ds => -(digits 10 ds : Int)
    | '+' :: ds => digits 10 ds
    | ds => digits 10 ds
  Double.ofDecimal (digits 10 (whole ++ fraction)) (power - fraction.length)

def value (text : Text) : Scalar :=
  let plain := text.filter (· != '_')
  match plain with
  | '0' :: 'x' :: ds | '0' :: 'X' :: ds => .int (digits 16 ds)
  | '0' :: 'o' :: ds | '0' :: 'O' :: ds => .int (digits 8 ds)
  | '0' :: 'b' :: ds | '0' :: 'B' :: ds => .int (digits 2 ds)
  | _ =>
    match plain.getLast? with
    | some c =>
      if c == 'j' || c == 'J' then .complex .zero (double plain.dropLast)
      else if plain.all Char.isDigit then .int (digits 10 plain)
      else .float (double plain)
    | none => .int 0

end Number

end MacroExpand
