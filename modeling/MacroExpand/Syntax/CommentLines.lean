import MacroExpand.Text.Lines

/-!
# Lines that can hold a comment

A comment can be written at the end of a line unless the line ends inside a string or is continued
by a backslash.  `commentLines` finds the lines that can hold one.  Lines are cut at line feeds
only, and a carriage return without a line feed is no end of a line here.
-/

set_option autoImplicit false

namespace MacroExpand

/-- Why the lines of a text cannot be told. -/
inductive LineScanError where
  /-- A string that begins at this place is not closed. -/
  | openString (line column : Nat)
  /-- The text ends inside a statement. -/
  | openStatement (line : Nat)
  /-- A line is indented less than the one before it, but like no earlier one. -/
  | indentation (line : Nat)
  deriving DecidableEq, Repr, Inhabited

namespace LineScanError

def message : LineScanError → String
  | .openString line column =>
    "('EOF in multi-line string', (" ++ toString line ++ ", " ++ toString column ++ "))"
  | .openStatement line => "('EOF in multi-line statement', (" ++ toString line ++ ", 0))"
  | .indentation _ => "unindent does not match any outer indentation level"

end LineScanError

namespace LineScan

/-- A string that goes on in the next line: its quote, whether it is tripled, and where it began. -/
structure OpenString where
  quote : Char
  triple : Bool
  line : Nat
  column : Nat
  deriving DecidableEq, Repr, Inhabited

/-- What is known between two lines. -/
structure State where
  string : Option OpenString := none
  /-- Brackets opened less brackets closed. -/
  depth : Int := 0
  /-- Whether the line before ended with a backslash. -/
  continued : Bool := false
  /-- The columns of the indented blocks around, innermost first. -/
  indents : List Nat := []
  /-- The lines found so far, last first. -/
  found : List Nat := []
  deriving Repr, Inhabited

/-- How a line leaves a string that it is in. -/
inductive StringEnd where
  /-- The string is closed in front of this rest. -/
  | closed (rest : Text)
  /-- The string goes on in the next line. -/
  | goesOn
  /-- The line ends without leave. -/
  | broken
  deriving Repr, Inhabited

def stringEnd (quote : Char) (triple : Bool) : Text → StringEnd
  | [] => if triple then .goesOn else .broken
  | ['\\', '\n'] => .goesOn
  | ['\\', '\r', '\n'] => .goesOn
  | '\\' :: _ :: rest => stringEnd quote triple rest
  | c :: rest =>
    if triple then
      if c = quote ∧ [quote, quote].isPrefixOf rest then .closed (rest.drop 2)
      else stringEnd quote triple rest
    else if c = quote then .closed rest
    else if c = '\n' then .broken
    else stringEnd quote triple rest

def walk (line width : Nat) : Nat → State → Text → State
  | 0, s, _ => s
  | _ + 1, s, [] => s
  | fuel + 1, s, c :: rest =>
    if c = '\'' ∨ c = '"' then
      let triple := [c, c].isPrefixOf rest
      let body := if triple then rest.drop 2 else rest
      match stringEnd c triple body with
      | .closed after => walk line width fuel s after
      | .goesOn => { s with string := some ⟨c, triple, line, width - (rest.length + 1)⟩ }
      | .broken => walk line width fuel s rest
    else if c = '#' then
      walk line width fuel s (rest.dropWhile fun d => d != '\r' && d != '\n')
    else if c = '\n' then { s with found := line :: s.found }
    else if c = '\\' ∧ (rest = ['\n'] ∨ rest = ['\r', '\n']) then { s with continued := true }
    else if c = '(' ∨ c = '[' ∨ c = '\x7b' then
      walk line width fuel { s with depth := s.depth + 1 } rest
    else if c = ')' ∨ c = ']' ∨ c = '\x7d' then
      walk line width fuel { s with depth := s.depth - 1 } rest
    else walk line width fuel s rest

def indent (column : Nat) : Text → Nat × Text
  | ' ' :: rest => indent (column + 1) rest
  | '\t' :: rest => indent ((column / 8 + 1) * 8) rest
  | '\x0c' :: rest => indent 0 rest
  | rest => (column, rest)

def reindent (column : Nat) (indents : List Nat) : Option (List Nat) :=
  if indents.headD 0 < column then some (column :: indents)
  else
    let kept := indents.dropWhile (column < ·)
    if kept.headD 0 = column then some kept else none

def readLine (number : Nat) (s : State) (text : Text) : Except LineScanError (State × Bool) :=
  let width := text.length
  match s.string with
  | some o =>
    match stringEnd o.quote o.triple text with
    | .closed rest => .ok (walk number width (width + 1) { s with string := none } rest, false)
    | .goesOn => .ok (s, false)
    | .broken => .ok ({ s with string := none }, false)
  | none =>
    if s.depth = 0 ∧ !s.continued then
      match indent 0 text with
      | (_, []) => .ok (s, true)
      | (column, c :: rest) =>
        if c = '#' ∨ c = '\r' ∨ c = '\n' then .ok ({ s with found := number :: s.found }, false)
        else match reindent column s.indents with
          | none => .error (.indentation number)
          | some indents =>
            .ok (walk number width (width + 1) { s with indents } (c :: rest), false)
    else .ok (walk number width (width + 1) { s with continued := false } text, false)

def lacksEnd (text : Text) : Bool :=
  match text.getLast? with
  | none => false
  | some c =>
    c != '\r' && c != '\n' &&
      (text.dropWhile fun d => d.isWhitespace || d == '\x0c' || d == '\x0b').head? != some '#'

def readLines (number : Nat) (s : State) (before : Text) :
    List Text → Except LineScanError (List Nat)
  | [] =>
    match s.string with
    | some o => .error (.openString o.line o.column)
    | none =>
      if s.depth = 0 ∧ !s.continued then
        .ok (if lacksEnd before then ((number - 1) :: s.found).reverse else s.found.reverse)
      else .error (.openStatement number)
  | text :: rest => do
      let (s, ended) ← readLine number s text
      if ended then return s.found.reverse
      readLines (number + 1) s text rest

end LineScan

def Text.commentLines (text : Text) : Except LineScanError (List Nat) :=
  LineScan.readLines 1 {} [] (Text.splitFeeds [] text)

end MacroExpand
