import MacroExpand.Syntax.Parser.Core
import MacroExpand.Syntax.StringLiteral

/-!
# Parsing expressions

Every rule that refers to itself does so through an argument that stands for parsing with the same
rules, so that each function here is an ordinary definition.
-/

set_option autoImplicit false

namespace MacroExpand

inductive Rule where
  | expression
  | disjunction
  | inversion
  | bitOr
  | factor
  | primary
  | named
  | starExpressions
  | block
  | statement
  | pattern
  | closedPattern
  deriving DecidableEq, Repr, Inhabited

abbrev Rules := Rule → Parser (List Tree)

namespace Parser

def one (r : Rules) (rule : Rule) : Parser Tree := do
  match ← r rule with
  | [t] => return t
  | _ => fail

/-! ## Targets -/

mutual

def target? (usage : Usage) : Tree → Option Tree
  | .node m (.name id _) slots => some (.node m (.name id usage) slots)
  | .node m (.attribute id _) slots => some (.node m (.attribute id usage) slots)
  | .node m (.subscript _) slots => some (.node m (.subscript usage) slots)
  | .node m (.starred _) slots =>
    if usage = .del then none
    else (targetSlots? usage slots).map fun slots => .node m (.starred usage) slots
  | .node m (.list _) slots =>
    (targetSlots? usage slots).map fun slots => .node m (.list usage) slots
  | .node m (.tuple _) slots =>
    (targetSlots? usage slots).map fun slots => .node m (.tuple usage) slots
  | _ => none

def targetSlots? (usage : Usage) : List (List Tree) → Option (List (List Tree))
  | [] => some []
  | slot :: rest =>
    match targets? usage slot, targetSlots? usage rest with
    | some slot, some rest => some (slot :: rest)
    | _, _ => none

def targets? (usage : Usage) : List Tree → Option (List Tree)
  | [] => some []
  | t :: rest =>
    match target? usage t, targets? usage rest with
    | some t, some rest => some (t :: rest)
    | _, _ => none

end

def isSingleTarget (t : Tree) : Bool :=
  match t.kind with
  | .name _ _ | .attribute _ _ | .subscript _ => true
  | _ => false

def isStarred (t : Tree) : Bool :=
  match t.kind with
  | .starred _ => true
  | _ => false

def starTarget (r : Rules) : Parser Tree := do
  let start ← here
  let t ← if ← takeOp "*" then do
      let inner ← one r .primary
      guardThat (!isStarred inner)
      node start (.starred .store) [[inner]]
    else one r .primary
  match target? .store t with
  | some t => return t
  | none => fail

def starTargets (r : Rules) : Parser Tree := do
  let start ← here
  match ← commaList (starTarget r) with
  | ([t], false) => return t
  | (ts, _) => node start (.tuple .store) [ts]

/-! ## Lists of expressions -/

def starred (r : Rules) (inner : Rule) : Parser Tree := do
  let start ← here
  let _ ← op "*"
  let t ← one r inner
  node start (.starred .load) [[t]]

def starExpression (r : Rules) : Parser Tree := do
  if ← atOp "*" then starred r .bitOr else one r .expression

def starNamed (r : Rules) : Parser Tree := do
  if ← atOp "*" then starred r .bitOr else one r .named

def starExpressions (r : Rules) : Parser Tree := do
  let start ← here
  match ← commaList (starExpression r) with
  | ([t], false) => return t
  | (ts, _) => node start (.tuple .load) [ts]

def yieldExpr (r : Rules) : Parser Tree := do
  let start ← here
  let _ ← word "yield"
  if ← takeWord "from" then
    let t ← one r .expression
    node start .yieldFrom [[t]]
  else
    let value ← optional (one r .starExpressions)
    node start .yieldExpr [value.toList]

def atWalrus : Parser Bool :=
  test (do
    let _ ← name
    op ":=")

def named (r : Rules) : Parser Tree := do
  let start ← here
  if ← atWalrus then
    let id ← name
    let target ← node start (.name id .store) []
    let _ ← op ":="
    let value ← one r .expression
    needs 8
    node start .namedExpr [[target], [value]]
  else
    let t ← one r .expression
    guardThat (!(← atOp ":="))
    return t

/-! ## Comprehensions -/

def clause (r : Rules) : Parser Tree := do
  let start ← here
  let isAsync ← takeWord "async"
  let _ ← word "for"
  let target ← starTargets r
  let _ ← word "in"
  let iterable ← one r .disjunction
  let conditions ← many (do
    let _ ← word "if"
    one r .disjunction)
  if isAsync then needs 6
  node start (.comprehension isAsync) [[target], [iterable], conditions]

def clauses (r : Rules) : Parser (List Tree) := do
  let first ← clause r
  let rest ← many (clause r)
  return first :: rest

def atClause : Parser Bool := do
  let t ← peek
  return t.isWord "for" || t.isWord "async"

/-! ## Parameters -/

def parameter (r : Rules) (annotated starAnnotation : Bool) : Parser Tree := do
  let start ← here
  let id ← name
  let typed ← if annotated then do
      if ← takeOp ":" then
        if starAnnotation && (← atOp "*") then do
          let t ← starred r .bitOr
          pure [t]
        else do
          let t ← one r .expression
          pure [t]
      else pure []
    else pure []
  node start (.arg id none) [typed]

def afterParameter (annotated : Bool) (t : Tree) : Parser (Tree × Bool) := do
  let comma ← takeOp ","
  let comment ← if annotated then optional (kind .typeComment) else pure none
  match comment, t with
  | some c, .node m (.arg id _) slots => return (.node m (.arg id (some c.text)) slots, comma)
  | _, _ => return (t, comma)

structure Parameters where
  positionalOnly : List Tree := []
  positional : List Tree := []
  defaults : List Tree := []
  variadic : List Tree := []
  keywordOnly : List Tree := []
  keywordDefaults : List Tree := []
  keywords : List Tree := []
  /-- Whether a star was seen, so that what follows is given by keyword only. -/
  starred : Bool := false

def Parameters.tree (p : Parameters) : Tree :=
  .node {} .arguments [p.positionalOnly, p.positional, p.variadic, p.keywordOnly,
    p.keywordDefaults, p.keywords, p.defaults]

def parametersFrom (r : Rules) (annotated : Bool) (stops : Token → Bool) :
    Nat → Parameters → Parser Parameters
  | 0, _ => fail
  | fuel + 1, p => do
      let t ← peek
      if stops t then
        guardThat (!p.starred || !p.variadic.isEmpty || !p.keywordOnly.isEmpty)
        return p
      else if t.isOp "**" then do
        let _ ← next
        guardThat (!p.starred || !p.variadic.isEmpty || !p.keywordOnly.isEmpty)
        let a ← parameter r annotated false
        let (a, _) ← afterParameter annotated a
        guardThat (stops (← peek))
        return { p with keywords := [a] }
      else if t.isOp "*" then do
        let _ ← next
        guardThat (!p.starred)
        if ← takeOp "," then
          parametersFrom r annotated stops fuel { p with starred := true }
        else
          let a ← parameter r annotated true
          let (a, comma) ← afterParameter annotated a
          guardThat (comma || stops (← peek))
          parametersFrom r annotated stops fuel { p with starred := true, variadic := [a] }
      else if t.isOp "/" then do
        let _ ← next
        guardThat (!p.starred && p.positionalOnly.isEmpty && !p.positional.isEmpty)
        let comma ← takeOp ","
        guardThat (comma || stops (← peek))
        needs 8
        parametersFrom r annotated stops fuel
          { p with positionalOnly := p.positional, positional := [] }
      else do
        let a ← parameter r annotated false
        let preset ← if ← takeOp "=" then do
            let d ← one r .expression
            pure (some d)
          else pure none
        let (a, comma) ← afterParameter annotated a
        guardThat (comma || stops (← peek))
        if p.starred then
          parametersFrom r annotated stops fuel
            { p with keywordOnly := p.keywordOnly ++ [a]
                     keywordDefaults := p.keywordDefaults ++ [preset.getD Tree.absent] }
        else if preset.isNone && !p.defaults.isEmpty then fail
        else
          parametersFrom r annotated stops fuel
            { p with positional := p.positional ++ [a], defaults := p.defaults ++ preset.toList }

def parameters (r : Rules) (annotated : Bool) (stops : Token → Bool) : Parser Tree := fun o c =>
  (do
    let p ← parametersFrom r annotated stops (c.rest.length + 1) {}
    return p.tree : Parser Tree) o c

def lambdaExpr (r : Rules) : Parser Tree := do
  let start ← here
  let _ ← word "lambda"
  let ps ← parameters r false (·.isOp ":")
  let _ ← op ":"
  let body ← one r .expression
  node start .lambdaExpr [[ps], [body]]

/-! ## Literals -/

def fieldExpression (r : Rules) (text : Text) (line column : Nat) : Parser Tree := fun o c =>
  let lexed := Lexer.run { startLine := line, startColumn := column, version := o.version }
    ('(' :: (text ++ [')']))
  match one r .starExpressions o { rest := lexed.tokens, endLine := line, endColumn := column } with
  | some (tree, _) => some (tree, c)
  | none => none

def joinPlain : List (List CodePoint ⊕ Tree) → List (List CodePoint ⊕ Tree)
  | .inl a :: rest =>
    match joinPlain rest with
    | .inl b :: more => .inl (a ++ b) :: more
    | more => .inl a :: more
  | .inr t :: rest => .inr t :: joinPlain rest
  | [] => []

def partTrees (span : Mark) (marked : Bool) (parts : List (List CodePoint ⊕ Tree)) : List Tree :=
  (joinPlain parts).filterMap fun part => match part with
    | .inl [] => none
    | .inl text => some (.node span (.constant (.ofPoints text) marked) [])
    | .inr t => some t

def pieceParts (r : Rules) (span : Mark) : Nat → List Piece → Parser (List (List CodePoint ⊕ Tree))
  | 0, _ => fail
  | _, [] => return []
  | fuel + 1, .plain text :: rest => do
      let more ← pieceParts r span fuel rest
      return .inl text :: more
  | fuel + 1, .field expression line column shown conversion format :: rest => do
      let value ← fieldExpression r expression line column
      let spec ← match format with
        | none => pure []
        | some pieces => do
            let parts ← pieceParts r span fuel pieces
            pure [Tree.node span .joinedStr [partTrees span false parts]]
      let field := Tree.node span (.formattedValue conversion) [[value], spec]
      let more ← pieceParts r span fuel rest
      return (shown.toList.map fun text => .inl (text.map .char)) ++ .inr field :: more

def tokenParts (r : Rules) (span : Mark) (t : Token) :
    Parser (List (List CodePoint ⊕ Tree)) := do
  let literal := StringLiteral.ofToken t
  if literal.isFormatted then
    needs 6
    match literal.split with
    | .ok pieces => do
        if pieces.any Piece.isShown then needs 8
        pieceParts r span (2 * t.text.length + 2) pieces
    | .error _ => fail
  else match literal.text with
    | .ok text => return [.inl text]
    | .error _ => fail

def strings (r : Rules) : Parser Tree := do
  let start ← here
  let tokens ← many (kind .string)
  let literals := tokens.map StringLiteral.ofToken
  let whole ← node start .absent []
  let span := whole.mark
  let marked := (literals.headD default).isMarked
  if literals.any (·.isBytes) then
    if literals.all (·.isBytes) then
      match literals.mapM (·.bytes) with
      | .ok parts => node start (.constant (.bytes parts.flatten) false) []
      | .error _ => fail
    else fail
  else
    let parts ← tokens.mapM (tokenParts r span)
    if literals.any (·.isFormatted) then
      return .node span .joinedStr [partTrees span marked parts.flatten]
    else
      let text := parts.flatten.flatMap fun part => match part with
        | .inl text => text
        | .inr _ => []
      return .node span (.constant (.ofPoints text) marked) []

/-! ## Atoms -/

def parenthesized (r : Rules) : Parser Tree := do
  let start ← here
  let _ ← op "("
  if ← takeOp ")" then node start (.tuple .load) [[]]
  else if ← atWord "yield" then do
    let t ← yieldExpr r
    let _ ← op ")"
    return t
  else do
    let first ← starNamed r
    if !isStarred first && (← atClause) then
      let cs ← clauses r
      let _ ← op ")"
      node start .generatorExp [[first], cs]
    else if ← takeOp "," then
      let rest ← optional (commaList (starNamed r))
      let _ ← op ")"
      node start (.tuple .load) [first :: (rest.map Prod.fst).getD []]
    else
      let _ ← op ")"
      guardThat (!isStarred first)
      return first

def bracketed (r : Rules) : Parser Tree := do
  let start ← here
  let _ ← op "["
  if ← takeOp "]" then node start (.list .load) [[]]
  else do
    let first ← starNamed r
    if !isStarred first && (← atClause) then
      let cs ← clauses r
      let _ ← op "]"
      node start .listComp [[first], cs]
    else
      let rest ← if ← takeOp "," then optional (commaList (starNamed r)) else pure none
      let _ ← op "]"
      node start (.list .load) [first :: (rest.map Prod.fst).getD []]

def entry (r : Rules) : Parser (Tree × Tree) := do
  if ← takeOp "**" then
    let v ← one r .bitOr
    return (Tree.absent, v)
  else
    let k ← one r .expression
    let _ ← op ":"
    let v ← one r .expression
    return (k, v)

def dictRest (r : Rules) (start : Mark) (k v : Tree) : Parser Tree := do
  if !k.isAbsent && (← atClause) then
    let cs ← clauses r
    let _ ← op "\x7d"
    node start .dictComp [[k], [v], cs]
  else
    let rest ← if ← takeOp "," then optional (commaList (entry r)) else pure none
    let _ ← op "\x7d"
    let entries := (k, v) :: (rest.map Prod.fst).getD []
    node start .dict [entries.map Prod.fst, entries.map Prod.snd]

def braced (r : Rules) : Parser Tree := do
  let start ← here
  let _ ← op "\x7b"
  if ← takeOp "\x7d" then node start .dict [[], []]
  else if ← atOp "**" then
    let (k, v) ← entry r
    dictRest r start k v
  else
    let isWalrus ← atWalrus
    let first ← starNamed r
    if !isStarred first && !isWalrus && (← takeOp ":") then
      let v ← one r .expression
      dictRest r start first v
    else if !isStarred first && (← atClause) then
      let cs ← clauses r
      let _ ← op "\x7d"
      node start .setComp [[first], cs]
    else
      let rest ← if ← takeOp "," then optional (commaList (starNamed r)) else pure none
      let _ ← op "\x7d"
      node start .set [first :: (rest.map Prod.fst).getD []]

def number : Parser Tree := do
  let start ← here
  let t ← kind .number
  guardThat (!Number.isTooLong t.text)
  if t.text.contains '_' then needs 6
  node start (.constant (Number.value t.text) false) []

def atom (r : Rules) : Parser Tree := do
  let start ← here
  let t ← peek
  match t.kind with
  | .string => strings r
  | .number => number
  | .freeName => do
      let id ← name
      node start (.name id .load) []
  | .name => do
      let literal : Option Scalar :=
        if t.isWord "True" then some (.bool true)
        else if t.isWord "False" then some (.bool false)
        else if t.isWord "None" then some .nil
        else none
      match literal with
      | some v => do
          let _ ← next
          node start (.constant v false) []
      | none => do
          let id ← name
          node start (.name id .load) []
  | .op => do
      if t.isOp "(" then parenthesized r
      else if t.isOp "[" then bracketed r
      else if t.isOp "\x7b" then braced r
      else if t.isOp "..." then do
        let _ ← next
        node start (.constant .ellipsis false) []
      else fail
  | _ => fail

/-! ## Calls, attributes and elements -/

structure Arguments where
  positional : List Tree := []
  keywords : List Tree := []
  unpacked : Bool := false
  /-- The clauses behind an argument that is the only one and is a generator. -/
  generator : List Tree := []

def argumentsFrom (r : Rules) : Nat → Arguments → Parser Arguments
  | 0, _ => fail
  | fuel + 1, a => do
      if ← atOp ")" then return a
      else
        let start ← here
        let more := fun (a : Arguments) => do
          if ← takeOp "," then argumentsFrom r fuel a
          else
            guardThat (← atOp ")")
            return a
        if ← takeOp "**" then
          let v ← one r .expression
          let k ← node start (.keyword none) [[v]]
          more { a with keywords := a.keywords ++ [k], unpacked := true }
        else if ← atOp "*" then
          let v ← starred r .expression
          guardThat (!a.unpacked)
          more { a with positional := a.positional ++ [v] }
        else
          let isKeyword ← test (do
            let _ ← name
            op "=")
          if isKeyword then
            let id ← name
            let _ ← op "="
            let v ← one r .expression
            let k ← node start (.keyword (some id)) [[v]]
            more { a with keywords := a.keywords ++ [k] }
          else
            let v ← one r .named
            if ← atClause then
              let cs ← clauses r
              guardThat (a.positional.isEmpty && a.keywords.isEmpty && (← atOp ")"))
              return { a with positional := [v], generator := cs }
            guardThat (!(← atOp "=") && !a.unpacked && a.keywords.isEmpty)
            more { a with positional := a.positional ++ [v] }

def arguments (r : Rules) : Parser Arguments := fun o c =>
  argumentsFrom r (c.rest.length + 1) {} o c

def index (r : Rules) : Parser Tree := do
  let start ← here
  if ← atOp "*" then starred r .expression
  else
    let isWalrus ← atWalrus
    let lower ← if ← atOp ":" then pure none else do
      let t ← one r .named
      pure (some t)
    if !isWalrus && (← takeOp ":") then
      let isEnd := do
        let t ← peek
        return t.isOp ":" || t.isOp "," || t.isOp "]"
      let upper ← if ← isEnd then pure none else optional (one r .expression)
      let step ← if ← takeOp ":" then
          if ← isEnd then pure none else optional (one r .expression)
        else pure none
      node start .slice [lower.toList, upper.toList, step.toList]
    else match lower with
      | some t => return t
      | none => fail

def indices (r : Rules) : Parser Tree := do
  let start ← here
  match ← commaList (index r) with
  | ([t], false) => if isStarred t then node start (.tuple .load) [[t]] else return t
  | (ts, _) => node start (.tuple .load) [ts]

def trailers (r : Rules) (start : Mark) : Nat → Tree → Parser Tree
  | 0, t => return t
  | fuel + 1, t => do
      let token ← peek
      if token.isOp "." then do
        let _ ← next
        let id ← name
        let t ← node start (.attribute id .load) [[t]]
        trailers r start fuel t
      else if token.isOp "(" then do
        let opening ← here
        let _ ← next
        let a ← arguments r
        let _ ← op ")"
        let positional ← if a.generator.isEmpty then pure a.positional else do
          let g ← node opening .generatorExp [a.positional, a.generator]
          pure [g]
        let t ← node start .call [[t], positional, a.keywords]
        trailers r start fuel t
      else if token.isOp "[" then do
        let _ ← next
        let i ← indices r
        let _ ← op "]"
        let t ← node start (.subscript .load) [[t], [i]]
        trailers r start fuel t
      else return t

def primary (r : Rules) : Parser Tree := do
  let start ← here
  let t ← atom r
  fun o c => trailers r start (c.rest.length + 1) t o c

/-! ## Operators -/

def awaitPrimary (r : Rules) : Parser Tree := do
  let start ← here
  if ← takeWord "await" then
    let t ← primary r
    needs 5
    node start .awaitExpr [[t]]
  else primary r

def power (r : Rules) : Parser Tree := do
  let start ← here
  let left ← awaitPrimary r
  if ← takeOp "**" then
    let right ← one r .factor
    node start (.binOp .pow) [[left], [right]]
  else return left

def factor (r : Rules) : Parser Tree := do
  let start ← here
  let t ← peek
  let sign : Option UnaryOperator :=
    if t.isOp "+" then some .plus
    else if t.isOp "-" then some .minus
    else if t.isOp "~" then some .invert
    else none
  match sign with
  | some o => do
      let _ ← next
      let operand ← one r .factor
      node start (.unaryOp o) [[operand]]
  | none => power r

def term (r : Rules) : Parser Tree :=
  leftAssoc [("*", .mult), ("/", .div), ("//", .floorDiv), ("%", .mod), ("@", .matMult)] (factor r)

def sum (r : Rules) : Parser Tree := leftAssoc [("+", .add), ("-", .sub)] (term r)

def shift (r : Rules) : Parser Tree := leftAssoc [("<<", .lShift), (">>", .rShift)] (sum r)

def bitAnd (r : Rules) : Parser Tree := leftAssoc [("&", .bitAnd)] (shift r)

def bitXor (r : Rules) : Parser Tree := leftAssoc [("^", .bitXor)] (bitAnd r)

def bitOr (r : Rules) : Parser Tree := leftAssoc [("|", .bitOr)] (bitXor r)

def comparator : Parser CompareOperator := do
  let t ← peek
  let simple : List (String × CompareOperator) :=
    [("==", .eq), ("!=", .notEq), ("<=", .ltE), ("<", .lt), (">=", .gtE), (">", .gt)]
  match simple.find? fun e => t.isOp e.1 with
  | some (_, o) => do
      let _ ← next
      return o
  | none =>
    if ← takeWord "not" then
      let _ ← word "in"
      return .notIn
    else if ← takeWord "in" then return .isIn
    else if ← takeWord "is" then
      if ← takeWord "not" then return .isNot else return .is
    else fail

def comparison (r : Rules) : Parser Tree := do
  let start ← here
  let first ← bitOr r
  let rest ← many (do
    let o ← comparator
    let t ← bitOr r
    return (o, t))
  if rest.isEmpty then return first
  else node start (.compare (rest.map Prod.fst)) [[first], rest.map Prod.snd]

def inversion (r : Rules) : Parser Tree := do
  let start ← here
  if ← takeWord "not" then
    let t ← one r .inversion
    node start (.unaryOp .not) [[t]]
  else comparison r

def chained (between : String) (o : BoolOperator) (operand : Parser Tree) : Parser Tree := do
  let start ← here
  let first ← operand
  let rest ← many (do
    let _ ← word between
    operand)
  if rest.isEmpty then return first else node start (.boolOp o) [first :: rest]

def conjunction (r : Rules) : Parser Tree := chained "and" .conj (inversion r)

def disjunction (r : Rules) : Parser Tree := chained "or" .disj (conjunction r)

def expression (r : Rules) : Parser Tree := do
  if ← atWord "lambda" then lambdaExpr r
  else
    let start ← here
    let body ← disjunction r
    let choice ← optional (do
      let _ ← word "if"
      let test ← disjunction r
      let _ ← word "else"
      let other ← one r .expression
      return (test, other))
    match choice with
    | some (test, other) => node start .ifExp [[test], [body], [other]]
    | none => return body

end Parser

end MacroExpand
