import MacroExpand.Syntax.Parser.Patterns

/-!
# Parsing statements

Simple statements stand on a line, divided by semicolons; compound statements hold blocks.
-/

set_option autoImplicit false

namespace MacroExpand

namespace Parser

/-! ## Simple statements -/

def rightSide (r : Rules) : Parser Tree := do
  if ← atWord "yield" then yieldExpr r else one r .starExpressions

def augmented : List (String × BinaryOperator) :=
  [("+=", .add), ("-=", .sub), ("*=", .mult), ("@=", .matMult), ("/=", .div), ("%=", .mod),
    ("&=", .bitAnd), ("|=", .bitOr), ("^=", .bitXor), ("<<=", .lShift), (">>=", .rShift),
    ("**=", .pow), ("//=", .floorDiv)]

def assignmentFrom (r : Rules) : Nat → List Tree → Tree → Parser (List Tree × Tree)
  | 0, _, _ => fail
  | fuel + 1, targets, value => do
      if ← takeOp "=" then
        match target? .store value with
        | none => fail
        | some t => do
            let v ← rightSide r
            assignmentFrom r fuel (t :: targets) v
      else return (targets.reverse, value)

def typeCommentHere : Parser (Option Text) := do
  return (← optional (kind .typeComment)).map (·.text)

def expressionStatement (r : Rules) : Parser Tree := do
  let start ← here
  let bracketedFirst ← atOp "("
  let first ← rightSide r
  let t ← peek
  if t.isOp "=" then do
    let (targets, value) ← fun o c => assignmentFrom r (c.rest.length + 1) [] first o c
    let comment ← typeCommentHere
    node start (.assign comment) [targets, [value]]
  else if t.isOp ":" && isSingleTarget first then
    match target? .store first with
    | none => fail
    | some target => do
        let _ ← next
        let typed ← one r .expression
        let value ← if ← takeOp "=" then do
            let v ← rightSide r
            pure [v]
          else pure []
        let simple := match first.kind with
          | .name _ _ => !bracketedFirst
          | _ => false
        needs 6
        node start (.annAssign simple) [[target], [typed], value]
  else
    let o := (augmented.find? fun e => t.isOp e.1).map Prod.snd
    match o with
    | some o =>
      if isSingleTarget first then
        match target? .store first with
        | none => fail
        | some target => do
            let _ ← next
            if o = .matMult then needs 5
            let value ← rightSide r
            node start (.augAssign o) [[target], [value]]
      else fail
    | none => node start .exprStmt [[first]]

def dottedName : Parser String := do
  let first ← name
  let rest ← many (do
    let _ ← op "."
    name)
  return ".".intercalate (first :: rest)

def asName : Parser (Option String) := do
  if ← takeWord "as" then
    let id ← name
    return some id
  else return none

def importStatement : Parser Tree := do
  let start ← here
  let _ ← word "import"
  let names ← commas (do
    let inner ← here
    let id ← dottedName
    let new ← asName
    node inner (.alias id new) [])
  node start .importStmt [names]

def dots : Parser Nat := do
  let found ← many (takeIf fun t => t.isOp "." || t.isOp "...")
  return (found.map fun t => t.text.length).sum

def fromStatement : Parser Tree := do
  let start ← here
  let _ ← word "from"
  let level ← dots
  let module ← optional dottedName
  guardThat (0 < level || module.isSome)
  let _ ← word "import"
  let item := do
    let inner ← here
    let id ← name
    let new ← asName
    node inner (.alias id new) []
  let names ← if ← atOp "*" then do
      let inner ← here
      let _ ← next
      let t ← node inner (.alias "*" none) []
      pure [t]
    else if ← takeOp "(" then do
      let (ts, _) ← commaList item
      let _ ← op ")"
      pure ts
    else do
      let ts ← commas item
      guardThat (!(← atOp ","))
      pure ts
  node start (.importFrom module level) [names]

def returnStatement (r : Rules) : Parser Tree := do
  let start ← here
  let _ ← word "return"
  let value ← optional (one r .starExpressions)
  node start .returnStmt [value.toList]

def raiseStatement (r : Rules) : Parser Tree := do
  let start ← here
  let _ ← word "raise"
  match ← optional (one r .expression) with
  | none => node start .raiseStmt [[], []]
  | some e =>
    if ← takeWord "from" then
      let cause ← one r .expression
      node start .raiseStmt [[e], [cause]]
    else node start .raiseStmt [[e], []]

def deleteStatement (r : Rules) : Parser Tree := do
  let start ← here
  let _ ← word "del"
  let (ts, _) ← commaList (do
    let t ← one r .primary
    match target? .del t with
    | some t => return t
    | none => fail)
  let t ← peek
  guardThat (t.isOp ";" || t.kind = .newline)
  node start .delete [ts]

def assertStatement (r : Rules) : Parser Tree := do
  let start ← here
  let _ ← word "assert"
  let test ← one r .expression
  let message ← if ← takeOp "," then do
      let m ← one r .expression
      pure [m]
    else pure []
  node start .assertStmt [[test], message]

def namesStatement (text : String) (make : List String → Kind) : Parser Tree := do
  let start ← here
  let _ ← word text
  let names ← commas name
  node start (make names) []

def wordStatement (text : String) (kind : Kind) : Parser Tree := do
  let start ← here
  let _ ← word text
  node start kind []

def simpleStatement (r : Rules) : Parser Tree := do
  let t ← peek
  if t.isWord "return" then returnStatement r
  else if t.isWord "import" then importStatement
  else if t.isWord "from" then fromStatement
  else if t.isWord "raise" then raiseStatement r
  else if t.isWord "pass" then wordStatement "pass" .pass
  else if t.isWord "break" then wordStatement "break" .breakStmt
  else if t.isWord "continue" then wordStatement "continue" .continueStmt
  else if t.isWord "del" then deleteStatement r
  else if t.isWord "assert" then assertStatement r
  else if t.isWord "global" then namesStatement "global" .globalDecl
  else if t.isWord "nonlocal" then namesStatement "nonlocal" .nonlocalDecl
  else expressionStatement r

def simpleStatements (r : Rules) : Parser (List Tree) := do
  let first ← simpleStatement r
  let rest ← many (do
    let _ ← op ";"
    simpleStatement r)
  let _ ← takeOp ";"
  let _ ← kind .newline
  return first :: rest

/-! ## Compound statements -/

def block (r : Rules) : Parser (List Tree) := do
  let t ← peek
  if t.kind = .newline then
    let _ ← next
    let t ← peek
    if t.kind = .indent then
      let _ ← next
      let statements ← many (r .statement)
      let _ ← kind .dedent
      return statements.flatten
    else fail
  else simpleStatements r

def colonBlock (r : Rules) : Parser (List Tree) := do
  let _ ← op ":"
  r .block

def elseBlock (r : Rules) : Parser (List Tree) := do
  if ← takeWord "else" then colonBlock r else return []

def ifRest (r : Rules) : Nat → Mark → Parser Tree
  | 0, _ => fail
  | fuel + 1, start => do
      let test ← one r .named
      let body ← colonBlock r
      if ← atWord "elif" then
        let inner ← here
        let _ ← next
        let other ← ifRest r fuel inner
        node start .ifStmt [[test], body, [other]]
      else
        let other ← elseBlock r
        node start .ifStmt [[test], body, other]

def ifStatement (r : Rules) : Parser Tree := do
  let start ← here
  let _ ← word "if"
  fun o c => ifRest r (c.rest.length + 1) start o c

def whileStatement (r : Rules) : Parser Tree := do
  let start ← here
  let _ ← word "while"
  let test ← one r .named
  let body ← colonBlock r
  let other ← elseBlock r
  node start .whileLoop [[test], body, other]

def forStatement (r : Rules) (start : Mark) (isAsync : Bool) : Parser Tree := do
  let _ ← word "for"
  let target ← starTargets r
  let _ ← word "in"
  let iterable ← one r .starExpressions
  let _ ← op ":"
  let comment ← typeCommentHere
  let body ← r .block
  let other ← elseBlock r
  node start (.forLoop isAsync comment) [[target], [iterable], body, other]

def withItem (r : Rules) : Parser Tree := do
  let context ← one r .expression
  let target ← optional (do
    let _ ← word "as"
    let t ← starTarget r
    let next ← peek
    guardThat (next.isOp "," || next.isOp ")" || next.isOp ":")
    return t)
  return .node {} .withItem [[context], target.toList]

def withStatement (r : Rules) (start : Mark) (isAsync : Bool) : Parser Tree := do
  let _ ← word "with"
  let bracketed ← optional (do
    let _ ← op "("
    let (items, _) ← commaList (withItem r)
    let _ ← op ")"
    let _ ← op ":"
    guardThat ((← peek).kind ≠ .typeComment)
    return items)
  match bracketed with
  | some items => do
      let body ← r .block
      needs 9
      node start (.withStmt isAsync none) [items, body]
  | none => do
      let items ← commas (withItem r)
      let _ ← op ":"
      let comment ← typeCommentHere
      let body ← r .block
      node start (.withStmt isAsync comment) [items, body]

def handler (r : Rules) (star : Bool) : Parser Tree := do
  let start ← here
  let _ ← word "except"
  if star then
    let _ ← op "*"
  let type ← if ← atOp ":" then do
      guardThat (!star)
      pure none
    else do
      let t ← one r .expression
      pure (some t)
  let id ← if type.isSome then asName else pure none
  let body ← colonBlock r
  node start (.exceptHandler id) [type.toList, body]

def tryStatement (r : Rules) : Parser Tree := do
  let start ← here
  let _ ← word "try"
  let body ← colonBlock r
  let star ← test (do
    let _ ← word "except"
    op "*")
  let handlers ← many (handler r star)
  let other ← if handlers.isEmpty then pure [] else elseBlock r
  let final ← if ← takeWord "finally" then colonBlock r else pure []
  guardThat (!handlers.isEmpty || !final.isEmpty)
  if star then needs 11
  node start (.tryStmt star) [body, handlers, other, final]

def functionComment : Parser (Option Text) := do
  match ← optional (kind .typeComment) with
  | some t => return some t.text
  | none =>
    optional (do
      let _ ← kind .newline
      let t ← kind .typeComment
      let _ ← ahead (do
        let _ ← kind .newline
        kind .indent)
      return t.text)

def functionStatement (r : Rules) (decorators : List Tree) (start : Mark) (isAsync : Bool) :
    Parser Tree := do
  let _ ← word "def"
  let id ← name
  let _ ← op "("
  let ps ← parameters r true (·.isOp ")")
  let _ ← op ")"
  let result ← if ← takeOp "->" then do
      let t ← one r .expression
      pure [t]
    else pure []
  let _ ← op ":"
  let comment ← functionComment
  let body ← r .block
  node start (.functionDef id isAsync comment) [[ps], body, decorators, result]

def classStatement (r : Rules) (decorators : List Tree) : Parser Tree := do
  let start ← here
  let _ ← word "class"
  let id ← name
  let bases ← if ← takeOp "(" then do
      let a ← arguments r
      guardThat a.generator.isEmpty
      let _ ← op ")"
      pure a
    else pure {}
  let body ← colonBlock r
  node start (.classDef id) [bases.positional, bases.keywords, body, decorators]

def decorators (r : Rules) : Parser (List Tree) :=
  many (do
    let _ ← op "@"
    let t ← one r .named
    let _ ← kind .newline
    return t)

def matchCase (r : Rules) : Parser Tree := do
  let _ ← word "case"
  let p ← casePattern r
  let condition ← if ← takeWord "if" then do
      let t ← one r .named
      pure [t]
    else pure []
  let body ← colonBlock r
  return .node {} .matchCase [[p], condition, body]

def matchStatement (r : Rules) : Parser Tree := do
  let start ← here
  let _ ← word "match"
  let inner ← here
  let subject ← match ← commaList (starNamed r) with
    | ([t], false) => do
        guardThat (!isStarred t)
        pure t
    | (ts, _) => node inner (.tuple .load) [ts]
  let _ ← op ":"
  let _ ← kind .newline
  let _ ← kind .indent
  let first ← matchCase r
  let rest ← many (matchCase r)
  let _ ← kind .dedent
  needs 10
  node start .matchStmt [[subject], first :: rest]

def asyncStatement (r : Rules) (decorators : List Tree) : Parser Tree := do
  let start ← here
  let _ ← word "async"
  if ← atWord "def" then
    let t ← functionStatement r decorators start true
    needs 5
    return t
  else
    guardThat decorators.isEmpty
    needs 5
    if ← atWord "for" then forStatement r start true else withStatement r start true

def decorated (r : Rules) : Parser Tree := do
  let ds ← decorators r
  let start ← here
  if ← atWord "def" then functionStatement r ds start false
  else if ← atWord "class" then classStatement r ds
  else
    guardThat (← atWord "async")
    asyncStatement r ds

def statement (r : Rules) : Parser (List Tree) := do
  let t ← peek
  let start ← here
  let single := fun (p : Parser Tree) => do
    let t ← p
    return [t]
  if t.isOp "@" then single (decorated r)
  else if t.isWord "def" then single (functionStatement r [] start false)
  else if t.isWord "class" then single (classStatement r [])
  else if t.isWord "async" then single (asyncStatement r [])
  else if t.isWord "if" then single (ifStatement r)
  else if t.isWord "for" then single (forStatement r start false)
  else if t.isWord "while" then single (whileStatement r)
  else if t.isWord "try" then single (tryStatement r)
  else if t.isWord "with" then single (withStatement r start false)
  else if t.isWord "match" then orElse (single (matchStatement r)) (simpleStatements r)
  else simpleStatements r

end Parser

end MacroExpand
