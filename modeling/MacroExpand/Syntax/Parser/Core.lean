import MacroExpand.Syntax.Lexer
import MacroExpand.Syntax.Tree

/-!
# Parsing steps

A parsing step looks at the tokens from a cursor on.  It succeeds with a result and a new cursor, or
it fails so that another alternative may be tried.  Why a text fits no rule is not found out here.
-/

set_option autoImplicit false

namespace MacroExpand

/-- What parsing depends on besides the tokens. -/
structure ParseOptions where
  /-- The minor version of the language that the text is held to. -/
  version : Nat := 11
  deriving Repr, Inhabited

/-- A place between tokens. -/
structure Cursor where
  rest : List Token
  /-- Where the last token with a text ends, or where the text begins. -/
  endLine : Nat := 1
  endColumn : Nat := 0
  deriving Repr, Inhabited

def Parser (α : Type) := ParseOptions → Cursor → Option (α × Cursor)

namespace Parser

def pure {α : Type} (a : α) : Parser α := fun _ c => some (a, c)

def bind {α β : Type} (p : Parser α) (f : α → Parser β) : Parser β := fun o c =>
  match p o c with
  | some (a, c) => f a o c
  | none => none

instance : Monad Parser where
  pure := Parser.pure
  bind := Parser.bind

def fail {α : Type} : Parser α := fun _ _ => none

def orElse {α : Type} (p q : Parser α) : Parser α := fun o c =>
  match p o c with
  | none => q o c
  | found => found

def optional {α : Type} (p : Parser α) : Parser (Option α) :=
  orElse (do return some (← p)) (return none)

def peek : Parser Token := fun _ c =>
  match c.rest with
  | t :: _ => some (t, c)
  | [] => none

def next : Parser Token := fun _ c =>
  match c.rest with
  | [] => none
  | t :: rest =>
    match t.kind with
    | .newline | .indent | .dedent | .finish => some (t, { c with rest })
    | _ => some (t, ⟨rest, t.endLine, t.endColumn⟩)

def options : Parser ParseOptions := fun o c => some (o, c)

def ahead {α : Type} (p : Parser α) : Parser α := fun o c =>
  match p o c with
  | some (a, _) => some (a, c)
  | none => none

def test {α : Type} (p : Parser α) : Parser Bool :=
  orElse (do let _ ← ahead p; return true) (return false)

def guardThat (condition : Bool) : Parser Unit := if condition then return () else fail

def needs (version : Nat) : Parser Unit := do
  guardThat (version ≤ (← options).version)

/-! ## Tokens -/

def keywords : List (List Char) :=
  ["False", "None", "True", "and", "as", "assert", "async", "await", "break", "class", "continue",
    "def", "del", "elif", "else", "except", "finally", "for", "from", "global", "if", "import",
    "in", "is", "lambda", "nonlocal", "not", "or", "pass", "raise", "return", "try", "while",
    "with", "yield"].map String.toList

def isKeyword (text : Text) : Bool := keywords.contains text

def isFreeName (t : Token) : Bool :=
  t.kind = .freeName || (t.kind = .name && !isKeyword t.text)

end Parser

def Token.isOp (t : Token) (text : String) : Bool := t.kind = .op && t.text = text.toList

def Token.isWord (t : Token) (text : String) : Bool := t.kind = .name && t.text = text.toList

namespace Parser

def takeIf (fits : Token → Bool) : Parser Token := do
  let t ← peek
  if fits t then next else fail

def op (text : String) : Parser Token := takeIf (·.isOp text)

def word (text : String) : Parser Token := takeIf (·.isWord text)

def kind (k : TokenKind) : Parser Token := takeIf (·.kind = k)

def atOp (text : String) : Parser Bool := do return (← peek).isOp text

def atWord (text : String) : Parser Bool := do return (← peek).isWord text

def takeOp (text : String) : Parser Bool := do
  if ← atOp text then
    let _ ← next
    return true
  else return false

def takeWord (text : String) : Parser Bool := do
  if ← atWord text then
    let _ ← next
    return true
  else return false

def name : Parser String := do
  return String.ofList (← takeIf isFreeName).text.plainName

/-! ## Nodes and lists -/

def here : Parser Mark := do
  let t ← peek
  return { line := t.line, column := t.column }

def node (start : Mark) (kind : Kind) (slots : List (List Tree)) : Parser Tree := fun _ c =>
  some (.node { start with endLine := c.endLine, endColumn := c.endColumn } kind slots, c)

def repeatFrom {α : Type} (p : Parser α) : Nat → List α → Parser (List α)
  | 0, done => return done.reverse
  | fuel + 1, done => do
      match ← optional p with
      | some a => repeatFrom p fuel (a :: done)
      | none => return done.reverse

def many {α : Type} (p : Parser α) : Parser (List α) := fun o c =>
  repeatFrom p (c.rest.length + 1) [] o c

def commas {α : Type} (p : Parser α) : Parser (List α) := do
  let first ← p
  let rest ← many (do
    let _ ← op ","
    p)
  return first :: rest

def commaList {α : Type} (p : Parser α) : Parser (List α × Bool) := do
  let found ← commas p
  let trailing ← takeOp ","
  return (found, trailing || 1 < found.length)

def leftFrom (start : Mark) (operator : Parser BinaryOperator) (operand : Parser Tree) :
    Nat → Tree → Parser Tree
  | 0, left => return left
  | fuel + 1, left => do
      let more ← optional (do
        let o ← operator
        let right ← operand
        node start (.binOp o) [[left], [right]])
      match more with
      | some tree => leftFrom start operator operand fuel tree
      | none => return left

def operatorFrom (operators : List (String × BinaryOperator)) : Parser BinaryOperator := do
  let t ← peek
  match operators.find? fun e => t.isOp e.1 with
  | none => fail
  | some (_, o) => do
      let _ ← next
      if o = .matMult then needs 5
      return o

def leftAssoc (operators : List (String × BinaryOperator)) (operand : Parser Tree) : Parser Tree := do
  let start ← here
  let first ← operand
  fun o c => leftFrom start (operatorFrom operators) operand (c.rest.length + 1) first o c

end Parser

end MacroExpand
