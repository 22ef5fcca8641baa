import MacroExpand.Syntax.Diagnosis.Patterns

/-!
# Mistakes in statements

The rules for statements, with the alternatives that describe mistakes in them: colons and blocks
that are missing, and targets that cannot be assigned to.
-/

set_option autoImplicit false

namespace MacroExpand

namespace Diagnosis

/-! ## Simple statements -/

def augmentedAssignment : Search Unit := do
  let t ← anyOp ["+=", "-=", "*=", "@=", "/=", "%=", "&=", "|=", "^=", "<<=", ">>=", "**=", "//="]
  if t.isOp "@=" then since 5 "The '@' operator is"

def annotation (r : Rules) : Search Unit := do
  let _ ← op ":"
  let _ ← r .expression
  let _ ← opt (do
    let _ ← op "="
    rightSide r)
  since 6 "Variable annotation syntax is"

def annotatedTarget (r : Rules) : Search Tree := alts [
  list r,
  tuple r,
  do
    let _ ← op "("
    let a ← r .annotatedTarget
    let _ ← op ")"
    return a]

def targetsBefore (r : Rules) : Search Tree := do
  let a ← starTargets r
  let _ ← op "="
  return a

def mistakenAssignment (r : Rules) : Search Tree := alts [
  do
    let a ← r .annotatedTarget
    let _ ← op ":"
    let _ ← r .expression
    mistakeAt a.mark ("only single target (not " ++ a.kind.describe ++ ") can be annotated"),
  do
    let a ← starNamed r
    let _ ← op ","
    let _ ← many (starNameds r)
    let _ ← op ":"
    let _ ← r .expression
    mistakeAt a.mark "only single target (not tuple) can be annotated",
  do
    let a ← r .expression
    let _ ← op ":"
    let _ ← r .expression
    mistakeAt a.mark "illegal target for annotation",
  committed
    (do
      let _ ← many (targetsBefore r)
      let a ← r .starExpressions
      let _ ← op "="
      return a)
    (invalidTarget .assignment)
    (alts [
      do
        let _ ← many (targetsBefore r)
        let a ← yieldExpression r
        let _ ← op "="
        mistakeAt a.mark "assignment to yield expression not possible",
      do
        let a ← r .starExpressions
        augmentedAssignment
        let _ ← rightSide r
        mistakeAt a.mark ("'" ++ a.kind.describe ++
          "' is an illegal expression for augmented assignment")])]

def assignment (r : Rules) : Search Tree := alts [
  do
    let _ ← nameToken
    annotation r
    return nothing,
  do
    let _ ← alts ((do
      let _ ← op "("
      let a ← r .singleTarget
      let _ ← op ")"
      return a) :: outermost r)
    annotation r
    return nothing,
  do
    let _ ← oneOrMore (targetsBefore r)
    let _ ← rightSide r
    notAhead (op "=")
    let _ ← opt (kind .typeComment)
    return nothing,
  committed
    (do
      let _ ← r .singleTarget
      augmentedAssignment)
    (fun _ => do
      let _ ← rightSide r
      return nothing)
    (probe (mistakenAssignment r))]

def dottedName : Search Unit := do
  let _ ← gather (op ".") nameToken
  return ()

def asName : Search Unit := do
  let _ ← opt (do
    let _ ← word "as"
    nameToken)
  return ()

def fromNames : Search Unit := do
  let _ ← gather (op ",") (do
    let _ ← nameToken
    asName)
  return ()

def fromTargets : Search Tree := alts [
  do
    let _ ← op "("
    fromNames
    let _ ← opt (op ",")
    let _ ← op ")"
    return nothing,
  do
    fromNames
    notAhead (op ",")
    return nothing,
  do
    let _ ← op "*"
    return nothing,
  probe (do
    fromNames
    let _ ← op ","
    let _ ← newline
    mistake "trailing comma not allowed without surrounding parentheses")]

def importStatement : Search Tree := alts [
  do
    let _ ← word "import"
    let _ ← gather (op ",") (do
      dottedName
      asName)
    return nothing,
  do
    let _ ← word "from"
    let _ ← many (anyOp [".", "..."])
    dottedName
    let _ ← word "import"
    fromTargets,
  do
    let _ ← word "from"
    let _ ← oneOrMore (anyOp [".", "..."])
    let _ ← word "import"
    fromTargets]

def after (text : String) (rest : Search Unit) : Search Tree := do
  ahead (word text)
  let _ ← word text
  rest
  return nothing

def raiseStatement (r : Rules) : Search Tree := alts [
  after "raise" (do
    let _ ← r .expression
    let _ ← opt (do
      let _ ← word "from"
      r .expression)
    return ()),
  after "raise" (return ())]

def deleteStatement (r : Rules) : Search Tree := do
  ahead (word "del")
  alts [
    do
      let _ ← word "del"
      let _ ← deleteTargets r
      ahead (alts [op ";", newline])
      return nothing,
    probe (do
      let _ ← word "del"
      let a ← r .starExpressions
      invalidTarget .deletion a)]

def nameList : Search Unit := do
  let _ ← gather (op ",") nameToken
  return ()

def simpleStatement (r : Rules) : Search Tree := alts [
  assignment r,
  r .starExpressions,
  after "return" (do
    let _ ← opt (r .starExpressions)
    return ()),
  importStatement,
  raiseStatement r,
  after "pass" (return ()),
  deleteStatement r,
  do
    ahead (word "yield")
    yieldExpression r,
  after "assert" (do
    let _ ← r .expression
    let _ ← opt (do
      let _ ← op ","
      r .expression)
    return ()),
  after "break" (return ()),
  after "continue" (return ()),
  after "global" nameList,
  after "nonlocal" nameList]

def simpleStatements (r : Rules) : Search Tree := alts [
  do
    let a ← r .simpleStatement
    notAhead (op ";")
    let _ ← newline
    return a,
  do
    let _ ← gather (op ";") (r .simpleStatement)
    let _ ← opt (op ";")
    let _ ← newline
    return nothing]

/-! ## Blocks -/

def block (r : Rules) : Search Tree := alts [
  do
    let _ ← newline
    let _ ← indent
    let _ ← oneOrMore (r .statement)
    let _ ← kind .dedent
    return nothing,
  simpleStatements r,
  probe (do
    let _ ← newline
    notAhead indent
    mistake "expected an indented block" .indentation)]

def noBlock {α : Type} (what : String) (t : Token) : Search α := do
  let _ ← op ":"
  let _ ← newline
  notAhead indent
  unindented what t

/-- The mistakes of a statement with a head: a line that ends without a colon, and a colon that no
indented block follows. -/
def mistakenHead (what : String) (head : Search Token) : Search Tree := alts [
  do
    let _ ← head
    let _ ← newline
    mistake "expected ':'",
  do
    let t ← head
    noBlock what t]

def colonBlock (r : Rules) : Search Unit := do
  let _ ← op ":"
  let _ ← r .block
  return ()

def elseBlock (r : Rules) : Search Unit := alts [
  probe (do
    let t ← word "else"
    noBlock "'else' statement" t),
  do
    let _ ← word "else"
    let _ ← forced ":"
    let _ ← r .block
    return ()]

/-! ## Compound statements -/

def conditionalStatement (r : Rules) (text : String) : Search Tree :=
  let head := do
    let t ← word text
    let _ ← r .named
    return t
  alts [
    probe (mistakenHead ("'" ++ text ++ "' statement") head),
    do
      let _ ← head
      colonBlock r
      r .elifStatement,
    do
      let _ ← head
      colonBlock r
      let _ ← opt (elseBlock r)
      return nothing]

def whileStatement (r : Rules) : Search Tree :=
  let head := do
    let t ← word "while"
    let _ ← r .named
    return t
  alts [
    probe (mistakenHead "'while' statement" head),
    do
      let _ ← head
      colonBlock r
      let _ ← opt (elseBlock r)
      return nothing]

def forStatement (r : Rules) : Search Tree :=
  let front := do
    let t ← word "for"
    let _ ← starTargets r
    let _ ← word "in"
    return t
  let rest := do
    let _ ← r .starExpressions
    let _ ← op ":"
    let _ ← opt (kind .typeComment)
    let _ ← r .block
    let _ ← opt (elseBlock r)
    return nothing
  alts [
    probe (mistakenHead "'for' statement" (do
      let _ ← opt (word "async")
      let t ← front
      let _ ← r .starExpressions
      return t)),
    committed front (fun _ => rest) (committed
      (do
        let _ ← word "async"
        front)
      (fun _ => do
        let a ← rest
        since 5 "Async for loops are"
        return a)
      (probe (mistakenLoopTarget r)))]

def withItem (r : Rules) : Search Tree :=
  let ending := ahead (anyOp [",", ")", ":"])
  alts [
    do
      let a ← r .expression
      let _ ← word "as"
      let _ ← r .starTarget
      ending
      return a,
    probe (do
      let _ ← r .expression
      let _ ← word "as"
      let a ← r .expression
      ending
      invalidTarget .assignment a),
    r .expression]

def withHeads (r : Rules) : List (Search Token) :=
  let target := opt (do
    let _ ← word "as"
    r .starTarget)
  [do
      let _ ← opt (word "async")
      let t ← word "with"
      let _ ← gather (op ",") (do
        let _ ← r .expression
        target)
      return t,
    do
      let _ ← opt (word "async")
      let t ← word "with"
      let _ ← op "("
      let _ ← gather (op ",") (do
        let _ ← tupleOf (r .expression)
        target)
      let _ ← opt (op ",")
      let _ ← op ")"
      return t]

def withStatement (r : Rules) : Search Tree :=
  let bracketed := do
    let _ ← op "("
    let _ ← gather (op ",") (withItem r)
    let _ ← opt (op ",")
    let _ ← op ")"
    colonBlock r
  let plain := do
    let _ ← gather (op ",") (withItem r)
    let _ ← op ":"
    let _ ← opt (kind .typeComment)
    let _ ← r .block
    return ()
  alts [
    probe (alts ((withHeads r).map fun head => do
      let t ← head
      noBlock "'with' statement" t)),
    do
      let _ ← word "with"
      bracketed
      since 9 "Parenthesized context managers are"
      return nothing,
    do
      let _ ← word "with"
      plain
      return nothing,
    do
      let _ ← word "async"
      let _ ← word "with"
      bracketed
      since 5 "Async with statements are"
      return nothing,
    do
      let _ ← word "async"
      let _ ← word "with"
      plain
      since 5 "Async with statements are"
      return nothing,
    probe (alts ((withHeads r).map fun head => do
      let _ ← head
      let _ ← newline
      mistake "expected ':'"))]

def mistakenHandler (r : Rules) : Search Tree := alts [
  do
    let _ ← word "except"
    let _ ← opt (op "*")
    let a ← r .expression
    let _ ← op ","
    let _ ← tupleOf (r .expression)
    asName
    let _ ← op ":"
    mistakeAt a.mark "multiple exception types must be parenthesized",
  do
    let _ ← word "except"
    let _ ← opt (op "*")
    let _ ← r .expression
    asName
    let _ ← newline
    mistake "expected ':'",
  do
    let _ ← word "except"
    let _ ← newline
    mistake "expected ':'",
  do
    let _ ← word "except"
    let _ ← op "*"
    let _ ← alts [newline, op ":"]
    mistake "expected one or more exception types"]

def handler (r : Rules) : Search Tree := alts [
  probe (alts [
    do
      let t ← word "except"
      let _ ← r .expression
      asName
      noBlock "'except' statement" t,
    do
      let t ← word "except"
      noBlock "'except' statement" t]),
  do
    let _ ← word "except"
    let _ ← r .expression
    asName
    colonBlock r
    return nothing,
  do
    let _ ← word "except"
    colonBlock r
    return nothing,
  probe (mistakenHandler r)]

def starHandler (r : Rules) : Search Tree := alts [
  probe (do
    let t ← word "except"
    let _ ← op "*"
    let _ ← r .expression
    asName
    noBlock "'except*' statement" t),
  do
    let _ ← word "except"
    let _ ← op "*"
    let _ ← r .expression
    asName
    colonBlock r
    return nothing,
  probe (mistakenHandler r)]

def finallyBlock (r : Rules) : Search Unit := alts [
  probe (do
    let t ← word "finally"
    noBlock "'finally' statement" t),
  do
    let _ ← word "finally"
    let _ ← forced ":"
    let _ ← r .block
    return ()]

def mistakenTry (r : Rules) : Search Tree := alts [
  do
    let t ← word "try"
    noBlock "'try' statement" t,
  do
    let _ ← word "try"
    let _ ← op ":"
    let _ ← r .block
    notAhead (alts [word "except", word "finally"])
    mistake "expected 'except' or 'finally' block",
  do
    let _ ← word "try"
    let _ ← op ":"
    let _ ← many (r .block)
    let _ ← alts [
      do
        let _ ← oneOrMore (handler r)
        starHandler r,
      do
        let _ ← oneOrMore (starHandler r)
        handler r]
    let _ ← many (r .block)
    mistake "cannot have both 'except' and 'except*' on the same 'try'"]

def tryStatement (r : Rules) : Search Tree :=
  let front := do
    let _ ← word "try"
    let _ ← forced ":"
    r .block
  let rest := do
    let _ ← opt (elseBlock r)
    let _ ← opt (finallyBlock r)
    return ()
  alts [
    probe (mistakenTry r),
    do
      let a ← front
      finallyBlock r
      return a,
    do
      let a ← front
      let _ ← oneOrMore (handler r)
      rest
      return a,
    do
      let a ← front
      let _ ← oneOrMore (starHandler r)
      rest
      since 11 "Exception groups are"
      return a]

def functionComment : Search Unit := do
  let _ ← alts [
    do
      let _ ← newline
      let t ← kind .typeComment
      ahead (do
        let _ ← newline
        indent)
      return t,
    probe (do
      let _ ← kind .typeComment
      let _ ← newline
      let _ ← kind .typeComment
      let _ ← newline
      let _ ← indent
      mistake "Cannot have two type comments on def"),
    kind .typeComment]
  return ()

def functionStatement (r : Rules) : Search Tree :=
  let form : ParameterForm := ⟨")", true⟩
  let result := opt (do
    let _ ← op "->"
    r .expression)
  let definition := do
    let _ ← word "def"
    let _ ← nameToken
    let _ ← forced "("
    let _ ← opt (parameters r form)
    let _ ← op ")"
    let _ ← result
    let _ ← forced ":"
    let _ ← opt functionComment
    let _ ← r .block
    return nothing
  alts [
    probe (do
      let _ ← opt (word "async")
      let t ← word "def"
      let _ ← nameToken
      let _ ← op "("
      let _ ← opt (parameters r form)
      let _ ← op ")"
      let _ ← result
      noBlock "function definition" t),
    definition,
    do
      let _ ← word "async"
      let a ← definition
      since 5 "Async functions are"
      return a]

def classStatement (r : Rules) : Search Tree :=
  let head := do
    let t ← word "class"
    let _ ← nameToken
    let _ ← opt (do
      let _ ← op "("
      let _ ← opt (r .arguments)
      op ")")
    return t
  alts [
    probe (mistakenHead "class definition" head),
    do
      let _ ← head
      colonBlock r
      return nothing]

def decorators (r : Rules) : Search Unit := do
  let _ ← oneOrMore (do
    let _ ← op "@"
    let _ ← r .named
    newline)
  return ()

def decorated (r : Rules) (x : Search Tree) : Search Tree := alts [
  do
    decorators r
    x,
  x]

def guardCondition (r : Rules) : Search Unit := do
  let _ ← opt (do
    let _ ← word "if"
    r .named)
  return ()

def matchCase (r : Rules) : Search Tree :=
  let head := do
    let t ← word "case"
    let _ ← patterns r
    guardCondition r
    return t
  alts [
    probe (mistakenHead "'case' statement" head),
    do
      let _ ← head
      colonBlock r
      return nothing]

def subject (r : Rules) : Search Tree := alts [
  do
    let a ← starNamed r
    let _ ← op ","
    let _ ← opt (starNameds r)
    return a,
  r .named]

def matchStatement (r : Rules) : Search Tree := alts [
  do
    let _ ← word "match"
    let _ ← subject r
    let _ ← op ":"
    let _ ← newline
    let _ ← indent
    let _ ← oneOrMore (matchCase r)
    let _ ← kind .dedent
    since 10 "Pattern matching is"
    return nothing,
  probe (alts [
    do
      let _ ← word "match"
      let _ ← subject r
      let _ ← newline
      since 10 "Pattern matching is"
      mistake "expected ':'",
    do
      let t ← word "match"
      let _ ← subject r
      noBlock "'match' statement" t])]

def statement (r : Rules) : Search Tree :=
  let begins := fun (words : List String) => ahead (takeIf fun t => words.any t.isWord || t.isOp "@")
  let beginsPlainly := fun (words : List String) => ahead (takeIf fun t => words.any t.isWord)
  alts [
    do
      begins ["def", "async"]
      decorated r (functionStatement r),
    do
      beginsPlainly ["if"]
      conditionalStatement r "if",
    do
      begins ["class"]
      decorated r (classStatement r),
    do
      beginsPlainly ["with", "async"]
      withStatement r,
    do
      beginsPlainly ["for", "async"]
      forStatement r,
    do
      beginsPlainly ["try"]
      tryStatement r,
    do
      beginsPlainly ["while"]
      whileStatement r,
    matchStatement r,
    simpleStatements r]

/-! ## All rules -/

def step (r : Rules) : Rule → Search Tree
  | .expression => remember .expression (expression r)
  | .starExpression => remember .starExpression (starExpression r)
  | .starExpressions => tupleOf (r .starExpression)
  | .named => named r
  | .mistakenNamed => remember .mistakenNamed (mistakenNamed r)
  | .disjunction => remember .disjunction (chained "or" (r .conjunction))
  | .conjunction => remember .conjunction (chained "and" (r .inversion))
  | .inversion => remember .inversion (inversion r)
  | .bitOr => remember .bitOr (leftAssoc ["|"] (r .bitXor))
  | .bitXor => remember .bitXor (leftAssoc ["^"] (r .bitAnd))
  | .bitAnd => remember .bitAnd (leftAssoc ["&"] (r .shift))
  | .shift => remember .shift (leftAssoc ["<<", ">>"] (r .sum))
  | .sum => remember .sum (leftAssoc ["+", "-"] (r .term))
  | .term => remember .term (term r)
  | .factor => remember .factor (factor r)
  | .awaitPrimary => remember .awaitPrimary (awaitPrimary r)
  | .primary => remember .primary (primary r)
  | .targetPrimary => remember .targetPrimary (targetPrimary r)
  | .strings => remember .strings strings
  | .arguments => remember .arguments (arguments r)
  | .starTarget => remember .starTarget (starTarget r)
  | .targetWithStars => remember .targetWithStars (targetWithStars r)
  | .singleTarget => singleTarget r
  | .deleteTarget => remember .deleteTarget (deleteTarget r)
  | .annotatedTarget => annotatedTarget r
  | .pattern => pattern r
  | .closedPattern => remember .closedPattern (closedPattern r)
  | .starPattern => remember .starPattern starPattern
  | .simpleStatement => remember .simpleStatement (simpleStatement r)
  | .statement => statement r
  | .elifStatement => conditionalStatement r "elif"
  | .block => remember .block (block r)

def rules : Nat → Rules
  | 0, _ => miss
  | fuel + 1, rule => step (rules fuel) rule

def file (r : Rules) : Search Tree := do
  let _ ← opt (oneOrMore (r .statement))
  let _ ← kind .finish
  return nothing

def soleExpression (r : Rules) : Search Tree := do
  let a ← tupleOf (r .expression)
  let _ ← many newline
  let _ ← kind .finish
  return a

def fieldExpression (r : Rules) : Search Tree := r .starExpressions

end Diagnosis

end MacroExpand
