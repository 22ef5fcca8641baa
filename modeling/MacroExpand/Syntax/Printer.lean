import MacroExpand.Syntax.Tree
import MacroExpand.Text.Lines
import MacroExpand.Text.Quoted
import MacroExpand.Number.Shortest

/-!
# Printing trees

A tree is written as text that parses to the same tree.  Layout is normal: four blanks per level,
one statement a line, brackets only where binding strengths ask for them.
-/

set_option autoImplicit false

namespace MacroExpand

/-- Why a tree cannot be written. -/
inductive PrintError where
  /-- A field of a formatted literal needs a backslash, which it may not hold. -/
  | backslash
  /-- A whole number has too many decimal digits. -/
  | longNumber
  deriving DecidableEq, Repr, Inhabited

def PrintError.message : PrintError → String
  | .backslash => "Unable to avoid backslash in f-string expression part"
  | .longNumber => digitLimitMessage

namespace Printer

/-! ## Binding strengths -/

namespace Strength

def namedExpr : Nat := 1
def tuple : Nat := 2
def yieldExpr : Nat := 3
def test : Nat := 4
def disj : Nat := 5
def conj : Nat := 6
def not : Nat := 7
def compare : Nat := 8
def bitOr : Nat := 9
def bitXor : Nat := 10
def bitAnd : Nat := 11
def shift : Nat := 12
def arith : Nat := 13
def term : Nat := 14
def factor : Nat := 15
def power : Nat := 16
def awaitExpr : Nat := 17
def atom : Nat := 18

def next (n : Nat) : Nat := min (n + 1) atom

end Strength

def binary : BinaryOperator → String × Nat
  | .add => ("+", Strength.arith)
  | .sub => ("-", Strength.arith)
  | .mult => ("*", Strength.term)
  | .matMult => ("@", Strength.term)
  | .div => ("/", Strength.term)
  | .mod => ("%", Strength.term)
  | .pow => ("**", Strength.power)
  | .lShift => ("<<", Strength.shift)
  | .rShift => (">>", Strength.shift)
  | .bitOr => ("|", Strength.bitOr)
  | .bitXor => ("^", Strength.bitXor)
  | .bitAnd => ("&", Strength.bitAnd)
  | .floorDiv => ("//", Strength.term)

def unary : UnaryOperator → String × Nat
  | .invert => ("~", Strength.factor)
  | .not => ("not ", Strength.not)
  | .plus => ("+", Strength.factor)
  | .minus => ("-", Strength.factor)

def comparing : CompareOperator → String
  | .eq => "=="
  | .notEq => "!="
  | .lt => "<"
  | .ltE => "<="
  | .gt => ">"
  | .gtE => ">="
  | .is => "is"
  | .isNot => "is not"
  | .isIn => "in"
  | .notIn => "not in"

/-! ## Literals -/

def singleQuotes : List Text := [['\''], ['"']]

def tripleQuotes : List Text := [['"', '"', '"'], ['\'', '\'', '\'']]

def allQuotes : List Text := singleQuotes ++ tripleQuotes

/-- A character as it stands in a literal; line feeds and tabs stand for themselves unless `tight`. -/
def escapeChar (tight : Bool) (c : Char) : Text :=
  if !tight && (c == '\n' || c == '\t') then [c]
  else if c == '\\' then ['\\', '\\']
  else if isPrintable c then [c]
  else if c == '\n' then ['\\', 'n']
  else if c == '\t' then ['\\', 't']
  else if c == '\r' then ['\\', 'r']
  else Text.escapeCode c.toNat

def escapePoint (tight : Bool) : CodePoint → Text
  | .char c => escapeChar tight c
  | .surrogate half => Text.escapeCode (CodePoint.surrogate half).toNat

def literalBody (points : List CodePoint) (quotes : List Text) (tight : Bool) : Text × List Text :=
  let escaped := points.flatMap (escapePoint tight)
  let possible := if escaped.contains '\n' then quotes.filter tripleQuotes.contains else quotes
  let possible := possible.filter fun q => !Text.containsText escaped q
  if possible.isEmpty then
    let whole := Text.quotedPoints points
    let first := whole.head?.getD '\''
    let quote := (quotes.find? fun q => q.contains first).getD [first]
    ((whole.drop 1).dropLast, [quote])
  else match escaped.getLast? with
    | none => (escaped, possible)
    | some last =>
      let clashes := fun (q : Text) => q.head? == some last
      let sorted := possible.filter (!clashes ·) ++ possible.filter clashes
      if (sorted.head?.map clashes).getD false then
        (escaped.dropLast ++ ['\\', last], sorted)
      else (escaped, sorted)

def plainLiteral (points : List CodePoint) (quotes : List Text) : Text :=
  let (body, possible) := literalBody points quotes false
  let quote := possible.headD ['\'']
  quote ++ body ++ quote

def imaginary (d : Double) : Text :=
  let t := d.text
  let t := if (chars ".0").isSuffixOf t then t.take (t.length - 2) else t
  t ++ ['j']

def finiteText (text : Text) : Text :=
  if (chars "inf").isPrefixOf text then chars "1e309" ++ text.drop 3 else text

def constant (spare : Bool) (value : Scalar) : Except PrintError Text :=
  match value with
  | .nil => .ok (chars "None")
  | .bool b => .ok (chars (if b then "True" else "False"))
  | .int n => if exceedsDigits n then .error .longNumber else .ok (intText n)
  | .float d => .ok (finiteText d.text)
  | .complex _ im => .ok (finiteText (imaginary im))
  | .str s => .ok (if spare then plainLiteral (s.map .char) allQuotes else Text.quoted s)
  | .codes s => .ok (if spare then plainLiteral s.points allQuotes else Text.quotedPoints s.points)
  | .bytes b => .ok (quotedBytes b)
  | .ellipsis => .ok (chars "...")

/-! ## Expressions -/

def commaJoin (parts : List Text) : Text := Text.joinWith [',', ' '] parts

def itemsText : List Text → Text
  | [t] => t ++ [',']
  | ts => commaJoin ts

def bracketsIf (needed : Bool) (t : Text) : Text := if needed then '(' :: (t ++ [')']) else t

def doubleBraces (points : List CodePoint) : List CodePoint :=
  points.flatMap fun p => if p = .char '\x7b' ∨ p = .char '\x7d' then [p, p] else [p]

def joinedLiteral (parts : List (List CodePoint × Bool)) : Text :=
  let (body, quotes) := parts.foldl (fun (done, quotes) (points, isPlain) =>
    let (text, quotes) := literalBody points quotes isPlain
    (done ++ text, quotes)) ([], allQuotes)
  let quote := quotes.headD ['\'']
  quote ++ body ++ quote

def chainedText (print : Nat → Tree → Except PrintError Text) (between : Text) :
    Nat → List Tree → Except PrintError Text
  | _, [] => .ok []
  | strength, [t] => print (Strength.next strength) t
  | strength, t :: rest => do
      let first ← print (Strength.next strength) t
      let more ← chainedText print between (Strength.next strength) rest
      return first ++ between ++ more

def parameterTexts (print : Tree → Except PrintError Text) (only : Nat) :
    Nat → List (Tree × Option Tree) → Except PrintError (List Text)
  | _, [] => .ok []
  | k, (a, d) :: rest => do
      let shown ← print a
      let shown ← match d with
        | none => pure shown
        | some d => do pure (shown ++ '=' :: (← print d))
      let shown := if k + 1 = only then shown ++ chars ", /" else shown
      let more ← parameterTexts print only (k + 1) rest
      return shown :: more

def parametersText (print : Tree → Except PrintError Text) (t : Tree) : Except PrintError Text := do
  let only := t.slot 0
  let plain := only ++ t.slot 1
  let variadic := t.part? 2
  let keywordOnly := t.slot 3
  let defaults := t.slot 6
  let padded := List.replicate (plain.length - defaults.length) none ++ defaults.map some
  let first ← parameterTexts print only.length 0 (plain.zip padded)
  let star ← match variadic with
    | some v => do pure ['*' :: (← print v)]
    | none => pure (if keywordOnly.isEmpty then [] else [['*']])
  let named ← (keywordOnly.zip (t.slot 4)).mapM fun (a, d) => do
    let shown ← print a
    if d.isAbsent then return shown else return shown ++ '=' :: (← print d)
  let rest ← match t.part? 5 with
    | some k => do pure ['*' :: '*' :: (← print k)]
    | none => pure []
  return commaJoin (first ++ star ++ named ++ rest)

/-- Write an expression, or a part of a statement that is none; `spare` if backslashes are to be
avoided, `strength` is what surrounds it. -/
def expr : Nat → Bool → Nat → Tree → Except PrintError Text
  | 0, _, _, _ => .ok []
  | fuel + 1, spare, strength, t =>
    let sub := expr fuel spare
    let plain := sub Strength.test
    let all := fun (ts : List Tree) => ts.mapM plain
    let inner := fun (part : Tree) => fstringInner fuel part
    let opt := fun (lead : Text) (part : Option Tree) => match part with
      | none => Except.ok []
      | some p => do return lead ++ (← plain p)
    let clausesText := fun (ts : List Tree) => do return (← ts.mapM plain).flatten
    match t.kind with
    | .boolOp o => do
        let (between, own) : Text × Nat := match o with
          | .conj => (chars " and ", Strength.conj)
          | .disj => (chars " or ", Strength.disj)
        return bracketsIf (own < strength) (← chainedText sub between own (t.slot 0))
    | .namedExpr => do
        let target ← sub Strength.atom (t.part 0)
        let value ← sub Strength.atom (t.part 1)
        return bracketsIf (Strength.namedExpr < strength) (target ++ chars " := " ++ value)
    | .binOp o => do
        let (symbol, own) := binary o
        let (l, r) := if o = .pow then (Strength.next own, own) else (own, Strength.next own)
        let left ← sub l (t.part 0)
        let right ← sub r (t.part 1)
        return bracketsIf (own < strength) (left ++ ' ' :: (symbol.toList ++ ' ' :: right))
    | .unaryOp o => do
        let (symbol, own) := unary o
        return bracketsIf (own < strength) (symbol.toList ++ (← sub own (t.part 0)))
    | .lambdaExpr => do
        let ps ← plain (t.part 0)
        let body ← sub Strength.test (t.part 1)
        let head := if ps.isEmpty then chars "lambda: " else chars "lambda " ++ ps ++ chars ": "
        return bracketsIf (Strength.test < strength) (head ++ body)
    | .ifExp => do
        let body ← sub (Strength.next Strength.test) (t.part 1)
        let test ← sub (Strength.next Strength.test) (t.part 0)
        let other ← sub Strength.test (t.part 2)
        return bracketsIf (Strength.test < strength)
          (body ++ chars " if " ++ test ++ chars " else " ++ other)
    | .dict => do
        let entries ← ((t.slot 0).zip (t.slot 1)).mapM fun (k, v) =>
          if k.isAbsent then do return '*' :: '*' :: (← sub Strength.bitOr v)
          else do return (← plain k) ++ ':' :: ' ' :: (← plain v)
        return '\x7b' :: (commaJoin entries ++ ['\x7d'])
    | .set => do
        if (t.slot 0).isEmpty then return chars "\x7b*()\x7d"
        else return '\x7b' :: (commaJoin (← all (t.slot 0)) ++ ['\x7d'])
    | .listComp => do return '[' :: ((← plain (t.part 0)) ++ (← clausesText (t.slot 1)) ++ [']'])
    | .setComp => do
        return '\x7b' :: ((← plain (t.part 0)) ++ (← clausesText (t.slot 1)) ++ ['\x7d'])
    | .generatorExp => do
        return '(' :: ((← plain (t.part 0)) ++ (← clausesText (t.slot 1)) ++ [')'])
    | .dictComp => do
        let k ← plain (t.part 0)
        let v ← plain (t.part 1)
        return '\x7b' :: (k ++ ':' :: ' ' :: (v ++ (← clausesText (t.slot 2)) ++ ['\x7d']))
    | .comprehension isAsync => do
        let target ← sub Strength.tuple (t.part 0)
        let iterable ← sub (Strength.next Strength.test) (t.part 1)
        let conditions ← (t.slot 2).mapM fun c => do
          return chars " if " ++ (← sub (Strength.next Strength.test) c)
        return chars (if isAsync then " async for " else " for ") ++ target ++ chars " in " ++
          iterable ++ conditions.flatten
    | .awaitExpr => do
        return bracketsIf (Strength.awaitExpr < strength)
          (chars "await " ++ (← sub Strength.atom (t.part 0)))
    | .yieldExpr => do
        let value ← match t.part? 0 with
          | none => pure []
          | some v => do pure (' ' :: (← sub Strength.atom v))
        return bracketsIf (Strength.yieldExpr < strength) (chars "yield" ++ value)
    | .yieldFrom => do
        return bracketsIf (Strength.yieldExpr < strength)
          (chars "yield from " ++ (← sub Strength.atom (t.part 0)))
    | .compare ops => do
        let first ← sub (Strength.next Strength.compare) (t.part 0)
        let rest ← (ops.zip (t.slot 1)).mapM fun (o, e) => do
          return ' ' :: ((comparing o).toList ++ ' ' :: (← sub (Strength.next Strength.compare) e))
        return bracketsIf (Strength.compare < strength) (first ++ rest.flatten)
    | .call => do
        let callee ← sub Strength.atom (t.part 0)
        let arguments ← all (t.slot 1 ++ t.slot 2)
        return callee ++ '(' :: (commaJoin arguments ++ [')'])
    | .keyword id => do
        let v ← plain (t.part 0)
        match id with
        | none => return '*' :: '*' :: v
        | some id => return id.toList ++ '=' :: v
    | .joinedStr => do
        if spare then
          let body ← inner t
          return 'f' :: plainLiteral body allQuotes
        else
          let parts ← (t.slot 0).mapM fun part => do
            let isPlain := match part.kind with
              | .constant _ _ => true
              | _ => false
            return ((← inner part), isPlain)
          return 'f' :: joinedLiteral parts
    | .formattedValue _ => do return 'f' :: Text.quotedPoints (← inner t)
    | .constant value marked => do
        let shown ← constant spare value
        return if marked then 'u' :: shown else shown
    | .attribute id _ => do
        let value ← sub Strength.atom (t.part 0)
        let gap := match (t.part 0).kind with
          | .constant (.int _) _ | .constant (.bool _) _ => [' ']
          | _ => []
        return value ++ gap ++ '.' :: id.toList
    | .subscript _ => do
        let value ← sub Strength.atom (t.part 0)
        let i := t.part 1
        let shown ← match i.kind with
          | .tuple _ =>
            if (i.slot 0).isEmpty then plain i else do pure (itemsText (← all (i.slot 0)))
          | _ => plain i
        return value ++ '[' :: (shown ++ [']'])
    | .starred _ => do return '*' :: (← sub Strength.bitOr (t.part 0))
    | .name id _ => .ok id.toList
    | .list _ => do return '[' :: (commaJoin (← all (t.slot 0)) ++ [']'])
    | .tuple _ => do
        let elements ← all (t.slot 0)
        return bracketsIf (elements.isEmpty || Strength.tuple < strength) (itemsText elements)
    | .slice => do
        let lower ← opt [] (t.part? 0)
        let upper ← opt [] (t.part? 1)
        let step ← opt [':'] (t.part? 2)
        return lower ++ ':' :: (upper ++ step)
    | .arguments => parametersText plain t
    | .arg id _ => do return id.toList ++ (← opt (chars ": ") (t.part? 0))
    | .alias id new =>
      .ok (id.toList ++ (match new with
        | none => []
        | some n => chars " as " ++ n.toList))
    | .withItem => do return (← plain (t.part 0)) ++ (← opt (chars " as ") (t.part? 1))
    | .matchValue => plain (t.part 0)
    | .matchSingleton value => constant spare value
    | .matchSequence => do return '[' :: (commaJoin (← all (t.slot 0)) ++ [']'])
    | .matchStar id => .ok ('*' :: (id.getD "_").toList)
    | .matchMapping rest => do
        let entries ← ((t.slot 0).zip (t.slot 1)).mapM fun (k, p) => do
          return (← plain k) ++ ':' :: ' ' :: (← plain p)
        let rest := rest.toList.map fun id => '*' :: '*' :: id.toList
        return '\x7b' :: (commaJoin (entries ++ rest) ++ ['\x7d'])
    | .matchClass attributes => do
        let cls ← sub Strength.atom (t.part 0)
        let positional ← all (t.slot 1)
        let named ← (attributes.zip (t.slot 2)).mapM fun (id, p) => do
          return id.toList ++ '=' :: (← plain p)
        return cls ++ '(' :: (commaJoin (positional ++ named) ++ [')'])
    | .matchAs id =>
      match id, t.part? 0 with
      | none, _ => .ok ['_']
      | some id, none => .ok id.toList
      | some id, some p => do
          return bracketsIf (Strength.test < strength)
            ((← sub Strength.bitOr p) ++ chars " as " ++ id.toList)
    | .matchOr => do
        let ps ← (t.slot 0).mapM (sub (Strength.next Strength.bitOr))
        return bracketsIf (Strength.bitOr < strength) (Text.joinWith (chars " | ") ps)
    | _ => .ok []
where
  /-- A part of a formatted literal without quotes. -/
  fstringInner : Nat → Tree → Except PrintError (List CodePoint)
    | 0, _ => .ok []
    | fuel + 1, t =>
      match t.kind with
      | .joinedStr => do return (← (t.slot 0).mapM (fstringInner fuel)).flatten
      | .constant value _ => .ok (doubleBraces (value.points?.getD []))
      | .formattedValue conversion => do
          let value ← expr fuel true (Strength.next Strength.test) (t.part 0)
          if value.contains '\\' then throw .backslash
          let gap := if value.head? = some '\x7b' then [' '] else []
          let mark := match conversion with
            | none => []
            | some c => ['!', c]
          let format ← match t.part? 1 with
            | none => pure []
            | some f => do pure (.char ':' :: (← fstringInner fuel f))
          return ('\x7b' :: (gap ++ value ++ mark)).map .char ++ format ++ [.char '\x7d']
      | _ => .ok []

def expression (t : Tree) : Except PrintError Text := expr (t.size + 1) false Strength.test t

/-! ## Statements -/

/-- What printing statements depends on. -/
structure Context where
  ignores : List (Nat × Text) := []
  /-- How deep the statement is indented. -/
  depth : Nat := 0
  /-- Whether the handlers here are for groups. -/
  star : Bool := false

def Context.inner (c : Context) : Context := { c with depth := c.depth + 1 }

def Context.line (c : Context) (t : Text) : Text := List.replicate (4 * c.depth) ' ' ++ t

def Context.comment (c : Context) (line : Nat) (own : Option Text) : Text :=
  match (c.ignores.reverse.find? fun e => e.1 = line), own with
  | some (_, tag), _ => chars " # type: ignore" ++ tag
  | none, some t => chars " # type: " ++ t
  | none, none => []

def docText? (body : List Tree) : Option (List CodePoint × Bool) :=
  match body with
  | t :: _ =>
    match t.kind, (t.part 0).kind with
    | .exprStmt, .constant value marked => value.points?.map fun points => (points, marked)
    | _, _ => none
  | [] => none

def stmt : Nat → Context → Tree → Except PrintError (List Text)
  | 0, _, _ => .ok []
  | fuel + 1, c, t =>
    let e := expression
    let one := fun (text : Text) => [c.line text]
    let body := fun (ts : List Tree) => do return (← ts.mapM (stmt fuel c.inner)).flatten
    let opt := fun (lead : String) (part : Option Tree) => match part with
      | none => Except.ok []
      | some p => do return lead.toList ++ (← e p)
    let documented := fun (ts : List Tree) => match docText? ts with
      | none => body ts
      | some (points, marked) => do
          let shown := plainLiteral points tripleQuotes
          let shown := if marked then 'u' :: shown else shown
          return c.inner.line shown :: (← body ts.tail)
    let orElse := fun (ts : List Tree) => do
      if ts.isEmpty then return []
      else return c.line (chars "else:") :: (← body ts)
    let decorated := fun (ts : List Tree) => ts.mapM fun d => do return c.line ('@' :: (← e d))
    let line := t.mark.line
    match t.kind with
    | .module ignores =>
      let c := { c with ignores }
      let inside := fun (ts : List Tree) => do return (← ts.mapM (stmt fuel c)).flatten
      match docText? (t.slot 0) with
      | none => inside (t.slot 0)
      | some (points, marked) => do
          let shown := plainLiteral points tripleQuotes
          let shown := if marked then 'u' :: shown else shown
          return shown :: (← inside (t.slot 0).tail)
    | .functionDef id isAsync comment => do
        let ps ← e (t.part 0)
        let result ← opt " -> " (t.part? 3)
        let head := chars (if isAsync then "async def " else "def ") ++ id.toList ++ '(' :: (ps ++
          ')' :: (result ++ ':' :: c.comment line comment))
        return [] :: ((← decorated (t.slot 2)) ++ c.line head :: (← documented (t.slot 1)))
    | .classDef id => do
        let bases ← (t.slot 0 ++ t.slot 1).mapM e
        let bases := if bases.isEmpty then [] else '(' :: (commaJoin bases ++ [')'])
        let head := chars "class " ++ id.toList ++ bases ++ [':']
        return [] :: ((← decorated (t.slot 3)) ++ c.line head :: (← documented (t.slot 2)))
    | .returnStmt => do return one (chars "return" ++ (← opt " " (t.part? 0)))
    | .delete => do return one (chars "del " ++ commaJoin (← (t.slot 0).mapM e))
    | .assign comment => do
        let targets ← (t.slot 0).mapM fun p => do
          return (← expr (p.size + 1) false Strength.tuple p) ++ chars " = "
        return one (targets.flatten ++ (← e (t.part 1)) ++ c.comment line comment)
    | .augAssign o => do
        let target ← e (t.part 0)
        return one (target ++ ' ' :: ((binary o).1.toList ++ '=' :: ' ' :: (← e (t.part 1))))
    | .annAssign simple => do
        let target ← e (t.part 0)
        let isName := match (t.part 0).kind with
          | .name _ _ => true
          | _ => false
        return one (bracketsIf (!simple && isName) target ++ ':' :: ' ' :: ((← e (t.part 1)) ++
          (← opt " = " (t.part? 2))))
    | .forLoop isAsync comment => do
        let target ← expr ((t.part 0).size + 1) false Strength.tuple (t.part 0)
        let head := chars (if isAsync then "async for " else "for ") ++ target ++ chars " in " ++
          (← e (t.part 1)) ++ ':' :: c.comment line comment
        return c.line head :: ((← body (t.slot 2)) ++ (← orElse (t.slot 3)))
    | .whileLoop => do
        let head := chars "while " ++ (← e (t.part 0)) ++ [':']
        return c.line head :: ((← body (t.slot 1)) ++ (← orElse (t.slot 2)))
    | .ifStmt => ifText fuel c (chars "if ") t
    | .withStmt isAsync comment => do
        let items ← (t.slot 0).mapM e
        let head := chars (if isAsync then "async with " else "with ") ++ commaJoin items ++
          ':' :: c.comment line comment
        return c.line head :: (← body (t.slot 1))
    | .matchStmt => do
        return c.line (chars "match " ++ (← e (t.part 0)) ++ [':']) :: (← body (t.slot 1))
    | .matchCase => do
        let head := chars "case " ++ (← e (t.part 0)) ++ (← opt " if " (t.part? 1)) ++ [':']
        return c.line head :: (← body (t.slot 2))
    | .raiseStmt => do
        return one (chars "raise" ++ (← opt " " (t.part? 0)) ++ (← opt " from " (t.part? 1)))
    | .tryStmt star => do
        let inside := { c with star := star }
        let tryBody ← (t.slot 0).mapM (stmt fuel inside.inner)
        let handlers ← (t.slot 1).mapM (stmt fuel inside)
        let other ← (t.slot 2).mapM (stmt fuel inside.inner)
        let final ← (t.slot 3).mapM (stmt fuel inside.inner)
        return c.line (chars "try:") :: (tryBody.flatten ++ handlers.flatten ++
          (if other.isEmpty then [] else c.line (chars "else:") :: other.flatten) ++
          (if final.isEmpty then [] else c.line (chars "finally:") :: final.flatten))
    | .exceptHandler id => do
        let head := chars (if c.star then "except*" else "except") ++ (← opt " " (t.part? 0)) ++
          (match id with
            | none => []
            | some n => chars " as " ++ n.toList) ++ [':']
        return c.line head :: (← body (t.slot 1))
    | .assertStmt => do
        return one (chars "assert " ++ (← e (t.part 0)) ++ (← opt ", " (t.part? 1)))
    | .importStmt => do return one (chars "import " ++ commaJoin (← (t.slot 0).mapM e))
    | .importFrom module level => do
        return one (chars "from " ++ List.replicate level '.' ++ (module.getD "").toList ++
          chars " import " ++ commaJoin (← (t.slot 0).mapM e))
    | .globalDecl names => .ok (one (chars "global " ++ commaJoin (names.map String.toList)))
    | .nonlocalDecl names => .ok (one (chars "nonlocal " ++ commaJoin (names.map String.toList)))
    | .exprStmt => do
        let p := t.part 0
        return one (← expr (p.size + 1) false Strength.yieldExpr p)
    | .pass => .ok (one (chars "pass"))
    | .breakStmt => .ok (one (chars "break"))
    | .continueStmt => .ok (one (chars "continue"))
    | _ => do return one (← e t)
where
  /-- A conditional statement behind its first word; a lone conditional in the other branch is
  written with `elif`. -/
  ifText : Nat → Context → Text → Tree → Except PrintError (List Text)
    | 0, _, _, _ => .ok []
    | fuel + 1, c, lead, t => do
        let body := fun (ts : List Tree) => do return (← ts.mapM (stmt fuel c.inner)).flatten
        let head := c.line (lead ++ (← expression (t.part 0)) ++ [':'])
        let inside ← body (t.slot 1)
        let rest ← match t.slot 2 with
          | [] => pure []
          | [other] =>
            match other.kind with
            | .ifStmt => ifText fuel c (chars "elif ") other
            | _ => do pure (c.line (chars "else:") :: (← body [other]))
          | others => do pure (c.line (chars "else:") :: (← body others))
        return head :: (inside ++ rest)

end Printer

/-- Write a tree as text.  A function or class that comes first has no empty line in front. -/
def Tree.print (t : Tree) : Except PrintError Text := do
  let lines ← Printer.stmt (t.size + 1) {} t
  let lines := if lines.head? = some [] then lines.tail else lines
  return Text.joinWith ['\n'] lines

end MacroExpand
