import MacroExpand.Syntax.Token

/-!
# Cutting text into tokens

`Lexer.run` cuts a whole text.  It never fails: if some place cannot be cut, the tokens before it are
given together with the fault, because a text may break the grammar before that place is reached.
-/

set_option autoImplicit false

namespace MacroExpand

/-- How a text is cut. -/
structure LexOptions where
  /-- Comments that give types are tokens. -/
  typeComments : Bool := false
  /-- Where the text begins: the number of its first line and the column of its first character. -/
  startLine : Nat := 1
  startColumn : Nat := 0
  /-- The minor version of the language that the text is held to. -/
  version : Nat := 11
  deriving DecidableEq, Repr, Inhabited

/-- The fault at which cutting stops. -/
structure LexFault where
  fault : SourceFault
  /-- Whether it is reported even if the text breaks the grammar further in front. -/
  isLoud : Bool
  /-- The innermost bracket that is open there, with its line. -/
  opened : Option (Char × Nat)
  deriving DecidableEq, Repr, Inhabited

/-- The tokens of a text up to its end or to the first place that cannot be cut. -/
structure LexResult where
  tokens : List Token
  stopped : Option LexFault
  /-- Comments that ask type checkers to look away, by line. -/
  ignores : List (Nat × Text)
  deriving Repr, Inhabited

/-- Replace every way to end a line by a line feed. -/
def Text.unifyLineEnds : Text → Text
  | [] => []
  | '\r' :: '\n' :: rest => '\n' :: Text.unifyLineEnds rest
  | c :: rest => (if c = '\r' then '\n' else c) :: Text.unifyLineEnds rest

namespace Lexer

open Number (isWordChar)

/-- How far cutting has come. -/
structure State where
  rest : Text
  line : Nat
  column : Nat
  /-- Open brackets with their lines, innermost first. -/
  brackets : List (Char × Nat) := []
  /-- Indentations, innermost first, with tabs counted as eight columns and as one. -/
  indents : List (Nat × Nat) := []
  /-- Whether a line begins here. -/
  fresh : Bool := true
  /-- Whether the line holds nothing but a comment. -/
  blank : Bool := false
  /-- The depth of indentation at which an asynchronous function began, and whether its first line
  has ended. -/
  asynchronous : Option (Nat × Bool) := none
  tokens : List Token := []
  ignores : List (Nat × Text) := []

inductive Step where
  | more (state : State)
  | done (state : State)
  | fault (state : State) (fault : SourceFault) (isLoud : Bool)

def advance : Nat × Nat → Text → Nat × Nat
  | place, [] => place
  | (line, column), c :: rest =>
    if c = '\n' then advance (line + 1, 0) rest else advance (line, column + c.utf8Size) rest

def State.push (s : State) (kind : TokenKind) (text rest : Text) : State :=
  let (line, column) := advance (s.line, s.column) text
  { s with
    rest, line, column
    tokens := ⟨kind, text, s.line, s.column, line, column⟩ :: s.tokens }

def State.skip (s : State) (text rest : Text) : State :=
  let (line, column) := advance (s.line, s.column) text
  { s with rest, line, column }

def State.mark (s : State) (kind : TokenKind) : State :=
  { s with tokens := ⟨kind, [], s.line, s.column, s.line, s.column⟩ :: s.tokens }

def State.fail (s : State) (message : String) : Step :=
  .fault s ⟨.grammar, message, s.line, s.column⟩ true

def State.failQuietly (s : State) (message : String) (kind : FaultKind := .grammar) : Step :=
  .fault s ⟨kind, message, s.line, s.column⟩ false

/-- Measure the blanks that a line begins with: columns with tabs as eight and as one, and the rest.
A continued line that is indented keeps the indentation of its first part. -/
def measure : Nat → Nat → Nat → Nat → Nat × Nat → Text → (Nat × Nat) × (Nat × Nat) × Text
  | 0, col, alt, _, place, text => ((col, alt), place, text)
  | fuel + 1, col, alt, held, (line, column), text =>
    match text with
    | ' ' :: rest => measure fuel (col + 1) (alt + 1) held (line, column + 1) rest
    | '\t' :: rest => measure fuel ((col / 8 + 1) * 8) (alt + 1) held (line, column + 1) rest
    | '\x0c' :: rest => measure fuel 0 0 held (line, column + 1) rest
    | '\\' :: '\n' :: c :: rest =>
      measure fuel col alt (if held = 0 then col else held) (line + 1, 0) (c :: rest)
    | _ => (if held = 0 then (col, alt) else (held, held), (line, column), text)

def closeIndents (col : Nat) (s : State) : List (Nat × Nat) → State
  | [] => { s with indents := [] }
  | (c, a) :: rest =>
    if col < c then closeIndents col (s.mark .dedent) rest else { s with indents := (c, a) :: rest }

def indentation (s : State) (col alt : Nat) : Step :=
  let tabs := fun (s : State) =>
    s.failQuietly "inconsistent use of tabs and spaces in indentation" .tabs
  let (top, topAlt) := s.indents.headD (0, 0)
  if col = top then if alt = topAlt then .more s else tabs s
  else if top < col then
    if alt ≤ topAlt then tabs s
    else .more { s.mark .indent with indents := (col, alt) :: s.indents }
  else
    let closed := closeIndents col s s.indents
    let (top, topAlt) := closed.indents.headD (0, 0)
    if col ≠ top then
      s.failQuietly "unindent does not match any outer indentation level"
        .indentation
    else if alt ≠ topAlt then tabs s
    else .more closed

def lineStart (s : State) : Step :=
  let ((col, alt), (line, column), rest) :=
    measure (s.rest.length + 1) 0 0 0 (s.line, s.column) s.rest
  let s := { s with rest, line, column, fresh := false, blank := false }
  match rest with
  | '#' :: _ | '\n' :: _ => .more { s with blank := true }
  | '\\' :: _ => .more s
  | [] => if s.brackets.isEmpty then
      .more (closeIndents 0 { s with line := s.line - 1, column := 0 } s.indents) else .more s
  | _ => if s.brackets.isEmpty then indentation s col alt else .more s

def typeComment? (comment : Text) : Option Text :=
  let skip := fun (t : Text) => t.dropWhile fun c => c == ' ' || c == '\t'
  let body := skip (comment.drop 1)
  if (chars "type:").isPrefixOf body then some (skip (body.drop 5)) else none

/-- What stands behind the word that asks type checkers to look away. -/
def ignoreTag? (comment : Text) : Option Text :=
  if (chars "ignore").isPrefixOf comment then
    let tag := comment.drop 6
    if tag.head?.any (fun c => c.isAlphanum || 128 ≤ c.toNat) then none else some tag
  else none

def comment (options : LexOptions) (s : State) : Step :=
  let text := s.rest.takeWhile (· != '\n')
  let rest := s.rest.dropWhile (· != '\n')
  match (if options.typeComments then typeComment? text else none) with
  | none => .more (s.skip text rest)
  | some body =>
    match ignoreTag? body with
    | some tag =>
      let s := { s.skip text rest with ignores := s.ignores ++ [(s.line, tag)] }
      match rest with
      | '\n' :: after => if s.blank then .more { s.skip ['\n'] after with fresh := true } else .more s
      | _ => .more s
    | none =>
      let s := s.skip (text.take (text.length - body.length)) rest
      .more { s.push .typeComment body rest with blank := false }

def stringBody (quote : Char) (triple : Bool) (done : Text) : Text → Option (Text × Text)
  | [] => none
  | '\\' :: c :: rest => stringBody quote triple (c :: '\\' :: done) rest
  | c :: rest =>
    if triple then
      if c = quote ∧ [quote, quote].isPrefixOf rest then
        some ((quote :: quote :: quote :: done).reverse, rest.drop 2)
      else stringBody quote triple (c :: done) rest
    else if c = quote then some ((c :: done).reverse, rest)
    else if c = '\n' then none
    else stringBody quote triple (c :: done) rest

def lastLine (line : Nat) : Text → Nat
  | '\\' :: '\n' :: rest => lastLine (line + 1) rest
  | '\\' :: _ :: rest => lastLine line rest
  | '\n' :: _ => line
  | _ :: rest => lastLine line rest
  | [] => line

def string (s : State) (letters : Text) (text : Text) : Step :=
  match text with
  | quote :: rest =>
    let triple := [quote, quote].isPrefixOf rest
    let opening := if triple then [quote, quote, quote] else [quote]
    match stringBody quote triple [] (text.drop opening.length) with
    | some (body, after) => .more (s.push .string (letters ++ opening ++ body) after)
    | none =>
      let last := if triple then (advance (s.line, 0) (text.dropLast)).1
        else lastLine s.line (text.drop 1)
      let what := if triple then "unterminated triple-quoted string literal"
        else "unterminated string literal"
      s.fail (what ++ " (detected at line " ++ toString last ++ ")")
  | [] => s.fail "unterminated string literal"

def stringLetters : List (List Char) :=
  [['b'], ['r'], ['u'], ['f'], ['b', 'r'], ['r', 'b'], ['f', 'r'], ['r', 'f']]

def codeText (n : Nat) : String :=
  String.ofList ((hexDigits n (if n < 65536 then 4 else if n < 1048576 then 5 else 6)).map Char.toUpper)

def beforeDef : Nat → Text → Bool
  | 0, _ => false
  | fuel + 1, text =>
    match text with
    | '\\' :: '\n' :: rest => beforeDef fuel rest
    | c :: rest =>
      if c == ' ' || c == '\t' || c == '\x0c' then beforeDef fuel rest
      else text.takeWhile isWordChar == chars "def"
    | [] => false

/-- Take a name off the front.  Versions before the seventh know the words for asynchronous
functions only where such a function begins and inside of it. -/
def pushName (options : LexOptions) (s : State) (text rest : Text) : State :=
  if 7 ≤ options.version || s.asynchronous.isSome ||
      !(text == chars "async" || text == chars "await") then
    s.push .name text rest
  else if text == chars "async" && beforeDef (rest.length + 1) rest then
    { s.push .name text rest with asynchronous := some (s.indents.length, false) }
  else s.push .freeName text rest

def word (options : LexOptions) (s : State) : Step :=
  let text := s.rest.takeWhile isWordChar
  let rest := s.rest.dropWhile isWordChar
  if rest.head?.any (fun c => c == '\'' || c == '"') && stringLetters.contains (text.map Char.toLower)
  then string s text rest
  else if Text.isName text then .more (pushName options s text rest)
  else
    let bad := text.dropWhile fun c => isNameRest c
    match bad with
    | c :: _ =>
      if isPrintable c then
        s.fail ("invalid character '" ++ String.ofList [c] ++ "' (U+" ++ codeText c.toNat ++ ")")
      else s.fail ("invalid non-printable character U+" ++ codeText c.toNat)
    | [] => s.fail "invalid character"

def operators : List (List Char) :=
  ["**=", "//=", ">>=", "<<=", "...", "!=", "%=", "&=", "**", "*=", "+=", "-=", "->", "//", "/=",
    ":=", "<<", "<=", "<>", "==", ">=", ">>", "@=", "^=", "|="].map String.toList

def closing : Char → Char
  | '(' => ')'
  | '[' => ']'
  | _ => '\x7d'

def operator (s : State) (c : Char) (rest : Text) : Step :=
  if c == '(' || c == '[' || c == '\x7b' then
    if 200 ≤ s.brackets.length then s.fail "too many nested parentheses"
    else .more { s.push .op [c] rest with brackets := (c, s.line) :: s.brackets }
  else if c == ')' || c == ']' || c == '\x7d' then
    match s.brackets with
    | [] => s.fail ("unmatched '" ++ String.ofList [c] ++ "'")
    | (o, line) :: outer =>
      if closing o = c then .more { s.push .op [c] rest with brackets := outer }
      else
        let open_ := "closing parenthesis '" ++ String.ofList [c] ++
          "' does not match opening parenthesis '" ++ String.ofList [o] ++ "'"
        s.fail (if line = s.line then open_ else open_ ++ " on line " ++ toString line)
  else match operators.find? fun o => o.isPrefixOf (c :: rest) with
    | some o => .more (s.push .op o ((c :: rest).drop o.length))
    | none =>
      if isPrintable c then .more (s.push .op [c] rest)
      else s.fail ("invalid non-printable character U+" ++ codeText c.toNat)

def unclosed (c : Char) (line : Nat) : SourceFault :=
  ⟨.grammar, "'" ++ String.ofList [c] ++ "' was never closed", line, 0⟩

def leaveAsynchronous (s : State) : State :=
  match s.asynchronous with
  | some (depth, true) =>
    if !s.blank && s.rest.head? != some '\n' && s.brackets.isEmpty && s.indents.length ≤ depth then
      { s with asynchronous := none }
    else s
  | _ => s

def step (options : LexOptions) (s : State) : Step :=
  if s.fresh then lineStart s
  else
    let s := leaveAsynchronous s
    match s.rest with
    | [] =>
      match s.brackets with
      | (c, line) :: _ => .fault s (unclosed c line) false
      | [] => .done (s.mark .finish)
    | '\n' :: rest =>
      let silent := s.blank || !s.brackets.isEmpty
      let next := if silent then s.skip ['\n'] rest else s.push .newline ['\n'] rest
      let asynchronous := if silent then s.asynchronous
        else s.asynchronous.map fun (depth, _) => (depth, true)
      .more { next with fresh := true, asynchronous }
    | '\\' :: rest =>
      match rest with
      | '\n' :: [] => s.failQuietly "unexpected EOF while parsing"
      | '\n' :: after => .more (s.skip ['\\', '\n'] after)
      | _ => s.failQuietly "unexpected character after line continuation character"
    | c :: rest =>
      if c == ' ' || c == '\t' || c == '\x0c' then .more (s.skip [c] rest)
      else if c == '#' then comment options s
      else if c.isDigit || (c == '.' && rest.head?.any Char.isDigit) then
        match Number.take s.rest with
        | .ok (text, after) => .more (s.push .number text after)
        | .error message => s.fail message
      else if c == '\'' || c == '"' then string s [] s.rest
      else if isWordChar c then word options s
      else operator s c rest

def loop (options : LexOptions) : Nat → State → State × Option LexFault
  | 0, s => (s, none)
  | fuel + 1, s =>
    match step options s with
    | .more s => loop options fuel s
    | .done s => (s, none)
    | .fault s fault isLoud => (s, some ⟨fault, isLoud, s.brackets.head?⟩)

def run (options : LexOptions) (text : Text) : LexResult :=
  let start : State := { rest := text, line := options.startLine, column := options.startColumn }
  let (s, stopped) := loop options (2 * text.length + 4) start
  ⟨s.tokens.reverse, stopped, s.ignores⟩

end Lexer

end MacroExpand
