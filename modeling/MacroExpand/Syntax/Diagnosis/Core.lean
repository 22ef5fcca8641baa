import MacroExpand.Syntax.Parser.Core
import MacroExpand.Syntax.StringLiteral
import Std.Data.HashMap

/-!
# Finding out why a text is no program

A text that fits no rule is read a second time, by the same grammar written out as ordered
alternatives, some of which describe common mistakes.  Reading goes on from token to token; how many
tokens were looked at counts, because a text that fits nothing is at fault at the last of them.

A search step finds something, misses, or is stopped by a fault.  A step that misses leaves behind
what was remembered and how far was looked.  Trees are built only as far as some rule asks for them.
-/

set_option autoImplicit false

namespace MacroExpand

namespace Diagnosis

/-- The rules that refer to each other or whose results are remembered. -/
inductive Rule where
  | expression
  | starExpression
  | starExpressions
  | named
  | mistakenNamed
  | disjunction
  | conjunction
  | inversion
  | bitOr
  | bitXor
  | bitAnd
  | shift
  | sum
  | term
  | factor
  | awaitPrimary
  | primary
  | targetPrimary
  | strings
  | arguments
  | starTarget
  | targetWithStars
  | singleTarget
  | deleteTarget
  | annotatedTarget
  | pattern
  | closedPattern
  | starPattern
  | simpleStatement
  | statement
  | elifStatement
  | block
  deriving DecidableEq, Repr, Inhabited, Hashable

structure Grounds where
  tokens : Array Token
  /-- How many brackets are open behind each token. -/
  depths : Array Nat
  /-- The fault behind the last token, if cutting stopped there. -/
  stopped : Option SourceFault
  version : Nat
  /-- What is wrong with the expression of a field of a formatted literal that stands at a line and a
  column. -/
  fieldFault : Text → Nat → Nat → Option SourceFault

/-- How far a search has come. -/
structure Progress where
  place : Nat := 0
  /-- How many tokens were looked at. -/
  looked : Nat := 0
  /-- Whether the alternatives that describe mistakes are tried. -/
  probing : Bool := false
  known : Std.HashMap (Nat × Rule) (Option Tree × Nat) := {}

inductive Stop where
  /-- The text cannot be cut any further. -/
  | cutting (fault : SourceFault)
  /-- A mistake was found. -/
  | mistake (fault : SourceFault)

inductive Outcome (α : Type) where
  | found (value : α) (progress : Progress)
  | missed (progress : Progress)
  | stopped (stop : Stop) (progress : Progress)

def Search (α : Type) := Grounds → Progress → Outcome α

namespace Search

def pure {α : Type} (a : α) : Search α := fun _ p => .found a p

def bind {α β : Type} (x : Search α) (f : α → Search β) : Search β := fun g p =>
  match x g p with
  | .found a p => f a g p
  | .missed p => .missed p
  | .stopped s p => .stopped s p

instance : Monad Search where
  pure := Search.pure
  bind := Search.bind

instance {α : Type} : Inhabited (Search α) := ⟨fun _ p => .missed p⟩

end Search

def miss {α : Type} : Search α := fun _ p => .missed p

def alts {α : Type} : List (Search α) → Search α
  | [] => miss
  | x :: rest => fun g p =>
      match x g p with
      | .missed q => alts rest g { q with place := p.place }
      | other => other

def committed {α β : Type} (first : Search α) (second : α → Search β) (others : Search β) :
    Search β := fun g p =>
  match first g p with
  | .found a q => second a g q
  | .missed q => others g { q with place := p.place }
  | .stopped s q => .stopped s q

def opt {α : Type} (x : Search α) : Search (Option α) :=
  alts [do return some (← x), return none]

def ahead {α : Type} (x : Search α) : Search Unit := fun g p =>
  match x g p with
  | .found _ q => .found () { q with place := p.place }
  | .missed q => .missed q
  | .stopped s q => .stopped s q

def notAhead {α : Type} (x : Search α) : Search Unit := fun g p =>
  match x g p with
  | .found _ q => .missed q
  | .missed q => .found () { q with place := p.place }
  | .stopped s q => .stopped s q

def repeatFrom {α : Type} (x : Search α) : Nat → List α → Search (List α)
  | 0, done => return done.reverse
  | fuel + 1, done => do
      match ← opt x with
      | some a => repeatFrom x fuel (a :: done)
      | none => return done.reverse

def many {α : Type} (x : Search α) : Search (List α) := fun g p =>
  repeatFrom x (g.tokens.size + 1) [] g p

def oneOrMore {α : Type} (x : Search α) : Search (List α) := do
  let first ← x
  let rest ← many x
  return first :: rest

def gather {α β : Type} (between : Search β) (x : Search α) : Search (List α) := do
  let first ← x
  let rest ← many (do
    let _ ← between
    x)
  return first :: rest

/-! ## Tokens -/

def peek : Search Token := fun g p =>
  let p := { p with looked := max p.looked (p.place + 1) }
  match g.tokens[p.place]? with
  | some t => .found t p
  | none =>
    let p := { p with looked := g.tokens.size }
    match g.stopped with
    | some fault => .stopped (.cutting fault) p
    | none => .missed p

def takeIf (fits : Token → Bool) : Search Token := do
  let t ← peek
  if fits t then fun _ p => .found t { p with place := p.place + 1 } else miss

def op (text : String) : Search Token := takeIf (·.isOp text)

def anyOp (texts : List String) : Search Token := takeIf fun t => texts.any t.isOp

def word (text : String) : Search Token := takeIf (·.isWord text)

def kind (k : TokenKind) : Search Token := takeIf (·.kind = k)

def newline : Search Token := kind .newline

def indent : Search Token := kind .indent

def nameToken : Search Token := takeIf Parser.isFreeName

def softKeyword : Search Token := takeIf fun t =>
  Parser.isFreeName t && ["_", "case", "match"].any fun keyword => t.text.isPrefixOf (chars keyword)

/-! ## Faults -/

def spot (t : Token) : Mark := { line := t.line, column := t.column }

def stop {α : Type} (fault : SourceFault) : Search α := fun _ p => .stopped (.mistake fault) p

def mistakeAt {α : Type} (mark : Mark) (message : String) : Search α :=
  stop ⟨.grammar, message, mark.line, mark.column⟩

def lastLooked (g : Grounds) (p : Progress) : Token := g.tokens.getD (p.looked - 1) default

def mistake {α : Type} (message : String) (kind : FaultKind := .grammar) : Search α := fun g p =>
  let t := lastLooked g p
  .stopped (.mistake ⟨kind, message, t.line, t.column⟩) p

def unindented {α : Type} (what : String) (t : Token) : Search α :=
  mistake ("expected an indented block after " ++ what ++ " on line " ++ toString t.line) .indentation

def forced (text : String) : Search Token := do
  let t ← peek
  if t.isOp text then op text else mistakeAt (spot t) ("expected '" ++ text ++ "'")

def since (version : Nat) (what : String) : Search Unit := fun g p =>
  if version ≤ g.version then .found () p
  else
    let message := what ++ " only supported in Python 3." ++ toString version ++ " and greater"
    (mistake message : Search Unit) g p

def probe {α : Type} (x : Search α) : Search α := fun g p =>
  if p.probing then x g p else .missed p

def plainly {α : Type} (x : Search α) : Search α := fun g p =>
  match x g { p with probing := false } with
  | .found a q => .found a { q with probing := p.probing }
  | .missed q => .missed { q with probing := p.probing }
  | .stopped s q => .stopped s { q with probing := p.probing }

def remember (rule : Rule) (x : Search Tree) : Search Tree := fun g p =>
  match p.known[(p.place, rule)]? with
  | some (some t, place) => .found t { p with place }
  | some (none, _) => .missed p
  | none =>
    match x g p with
    | .found t q => .found t { q with known := q.known.insert (p.place, rule) (some t, q.place) }
    | .missed q => .missed { q with known := q.known.insert (p.place, rule) (none, p.place) }
    | .stopped s q => .stopped s q

/-- How many brackets are open behind the last token that was taken. -/
def depth : Search Nat := fun g p => .found (g.depths.getD (p.place - 1) 0) p

abbrev Rules := Rule → Search Tree

def nothing : Tree := .absent

end Diagnosis

def Kind.describe : Kind → String
  | .attribute _ _ => "attribute"
  | .subscript _ => "subscript"
  | .starred _ => "starred"
  | .name _ _ => "name"
  | .list _ => "list"
  | .tuple _ => "tuple"
  | .lambdaExpr => "lambda"
  | .call => "function call"
  | .boolOp _ | .binOp _ | .unaryOp _ => "expression"
  | .generatorExp => "generator expression"
  | .yieldExpr | .yieldFrom => "yield expression"
  | .awaitExpr => "await expression"
  | .listComp => "list comprehension"
  | .setComp => "set comprehension"
  | .dictComp => "dict comprehension"
  | .dict => "dict literal"
  | .set => "set display"
  | .joinedStr | .formattedValue _ => "f-string expression"
  | .constant value _ =>
    match value with
    | .nil => "None"
    | .bool true => "True"
    | .bool false => "False"
    | .ellipsis => "ellipsis"
    | _ => "literal"
  | .compare _ => "comparison"
  | .ifExp => "conditional expression"
  | .namedExpr => "named expression"
  | _ => "expression"

end MacroExpand
