import MacroExpand.Syntax.Parser.Statements
import MacroExpand.Syntax.Diagnosis

/-!
# Parsing

`parseModule` reads a file and `parseExpression` a single expression.  Both cut the text into tokens
first.  The nodes of a module are labelled, so that each can be told from every other.
-/

set_option autoImplicit false

namespace MacroExpand

namespace Parser

def step (r : Rules) : Rule → Parser (List Tree)
  | .expression => single (expression r)
  | .disjunction => single (disjunction r)
  | .inversion => single (inversion r)
  | .bitOr => single (bitOr r)
  | .factor => single (factor r)
  | .primary => single (primary r)
  | .named => single (named r)
  | .starExpressions => single (starExpressions r)
  | .block => block r
  | .statement => statement r
  | .pattern => single (pattern r)
  | .closedPattern => single (closedPattern r)
where
  single (p : Parser Tree) : Parser (List Tree) := do
    let t ← p
    return [t]

def rules : Nat → Rules
  | 0, _ => fail
  | fuel + 1, rule => step (rules fuel) rule

def file (r : Rules) (ignores : List (Nat × Text)) : Parser Tree := do
  let statements ← many (statement r)
  let _ ← kind .finish
  return .node {} (.module ignores) [statements.flatten]

def soleExpression (r : Rules) : Parser Tree := do
  let start ← here
  let found ← commaList (one r .expression)
  let t ← match found with
    | ([t], false) => pure t
    | (ts, _) => node start (.tuple .load) [ts]
  let _ ← many (kind .newline)
  let _ ← kind .finish
  return t

end Parser

def parseTokens (lexed : LexResult) (version fuel : Nat) (grammar : Rules → Parser Tree)
    (describing : Diagnosis.Rules → Diagnosis.Search Tree) : Except SourceFault Tree :=
  match grammar (Parser.rules fuel) { version } { rest := lexed.tokens } with
  | some (tree, _) => .ok tree
  | none => .error (diagnose lexed version describing)

def nullFault : SourceFault :=
  ⟨.nullCharacter, "source code string cannot contain null bytes", 0, 0⟩

/-- The text with a line feed at its end. -/
def Text.endLine (text : Text) : Text :=
  if text.getLast? = some '\n' then text else text ++ ['\n']

/-- Parse a file. -/
def parseModule (text : Text) (typeComments : Bool := false) (version : Nat := 11) :
    Except SourceFault Tree :=
  if text.contains '\x00' then .error nullFault else
  let lexed := Lexer.run { typeComments, version } text.unifyLineEnds.endLine
  (parseTokens lexed version (8 * text.length + 40) (Parser.file · lexed.ignores)
    Diagnosis.file).map fun tree => (tree.label 1).1

/-- Parse a single expression. -/
def parseExpression (text : Text) : Except SourceFault Tree :=
  if text.contains '\x00' then .error nullFault else
  let lexed := Lexer.run {} text.unifyLineEnds
  parseTokens lexed 11 (8 * text.length + 40) Parser.soleExpression Diagnosis.soleExpression

end MacroExpand
