import MacroExpand.Syntax.Diagnosis.Core

/-!
# Mistakes in expressions

The rules for expressions, targets, parameters and arguments, with the alternatives that describe
mistakes in them.
-/

set_option autoImplicit false

namespace MacroExpand

namespace Diagnosis

def leaf (mark : Mark) (kind : Kind) : Tree := .node mark kind []

def name : Search Tree := do
  let t ← nameToken
  return leaf (spot t) (.name (String.ofList t.text) .load)

/-! ## Invalid targets -/

inductive TargetUse where
  | assignment
  | deletion
  | loop
  deriving DecidableEq, Repr

mutual

def badTarget? (usage : TargetUse) : Tree → Option Tree
  | .node m kind slots =>
    match kind with
    | .list _ | .tuple _ => badInSlots? usage slots
    | .starred _ => if usage = .deletion then some (.node m kind slots) else badInSlots? usage slots
    | .compare ops =>
      if usage = .loop then
        if ops.head? = some .isIn then badInSlots? usage slots else none
      else some (.node m kind slots)
    | .name _ _ | .subscript _ | .attribute _ _ => none
    | _ => some (.node m kind slots)

def badInSlots? (usage : TargetUse) : List (List Tree) → Option Tree
  | [] => none
  | slot :: rest =>
    match badInSlot? usage slot with
    | some t => some t
    | none => badInSlots? usage rest

def badInSlot? (usage : TargetUse) : List Tree → Option Tree
  | [] => none
  | t :: rest =>
    match badTarget? usage t with
    | some t => some t
    | none => badInSlot? usage rest

end

def invalidTarget {α : Type} (usage : TargetUse) (t : Tree) : Search α :=
  match badTarget? usage t with
  | none => miss
  | some bad =>
    let what := if usage = .deletion then "cannot delete " else "cannot assign to "
    mistakeAt bad.mark (what ++ bad.kind.describe)

/-! ## Literals -/

def pieceFault? (g : Grounds) (here : String → SourceFault) : Nat → List Piece → Option SourceFault
  | 0, _ => none
  | _, [] => none
  | fuel + 1, .plain _ :: rest => pieceFault? g here fuel rest
  | fuel + 1, .field expression line column shown _ format :: rest =>
    let inField := g.fieldFault expression line column
    let inShown := if shown.isSome && g.version < 8 then
        some (here ("f-string: self documenting expressions are only supported in Python 3.8 " ++
          "and greater"))
      else none
    let inFormat := format.bind (pieceFault? g here fuel)
    (inField.or inShown).or inFormat |>.or (pieceFault? g here fuel rest)

def stringFault? (g : Grounds) (here : String → SourceFault) (first : StringLiteral) (t : Token) :
    Option SourceFault :=
  let literal := StringLiteral.ofToken t
  let decoding : Option SourceFault :=
    if literal.isBytes then
      match literal.bytes with
      | .ok _ => none
      | .error message =>
        if literal.body.any (fun c => 128 ≤ c.toNat) then
          some ⟨.grammar, message, t.line, t.column⟩
        else some (here message)
    else if literal.isFormatted then
      if g.version < 6 then
        some (here "Format strings are only supported in Python 3.6 and greater")
      else none
    else match literal.text with
      | .ok _ => none
      | .error message => some (here message)
  let mixing := if first.isBytes = literal.isBytes then none
    else some (here "cannot mix bytes and nonbytes literals")
  let pieces := if !literal.isFormatted then none
    else match literal.split with
      | .ok found => pieceFault? g here (2 * t.text.length + 2) found
      | .error (found, message) =>
        (pieceFault? g here (2 * t.text.length + 2) found).or (some (here message))
  (decoding.or mixing).or pieces

def strings : Search Tree := do
  let tokens ← oneOrMore (kind .string)
  let first := tokens.headD default
  let literal := StringLiteral.ofToken first
  let fault ← (fun g p =>
    let t := lastLooked g p
    let here := fun message => ⟨.grammar, message, t.line, t.column⟩
    .found (tokens.findSome? (stringFault? g here literal)) p : Search (Option SourceFault))
  match fault with
  | some fault => stop fault
  | none =>
    let isFormatted := tokens.any fun t => (StringLiteral.ofToken t).isFormatted
    return leaf (spot first) (if isFormatted then .joinedStr else .constant (.str []) false)

def numberToken : Search Token := do
  let t ← kind .number
  if t.text.contains '_' then since 6 "Underscores in numeric literals are"
  if Number.isTooLong t.text then
    mistakeAt (spot t) ("Exceeds the limit (4300 digits) for integer string conversion: value has " ++
      toString (t.text.filter (· != '_')).length ++ " digits; use sys.set_int_max_str_digits() " ++
      "to increase the limit - Consider hexadecimal for huge integer literals to avoid decimal " ++
      "conversion limits.")
  return t

def number : Search Tree := do
  let t ← numberToken
  return leaf (spot t) (.constant (.int 0) false)

def constantWord : Search Tree := do
  let t ← takeIf fun t => ["True", "False", "None"].any t.isWord
  let value : Scalar := if t.isWord "None" then .nil else .bool (t.isWord "True")
  return leaf (spot t) (.constant value false)

/-! ## Lists of expressions -/

def holding (mark : Mark) (kind : Kind) (items : List Tree) : Tree := .node mark kind [items]

/-- Items with commas between them, one of which may stand behind the last: the single item alone, or
a tuple of all. -/
def tupleOf (item : Search Tree) : Search Tree := alts [
  do
    let a ← item
    let rest ← oneOrMore (do
      let _ ← op ","
      item)
    let _ ← opt (op ",")
    return holding a.mark (.tuple .load) (a :: rest),
  do
    let a ← item
    let _ ← op ","
    return holding a.mark (.tuple .load) [a],
  item]

def starExpression (r : Rules) : Search Tree := alts [
  do
    let t ← op "*"
    let a ← r .bitOr
    return holding (spot t) (.starred .load) [a],
  r .expression]

def starNamed (r : Rules) : Search Tree := alts [
  do
    let t ← op "*"
    let a ← r .bitOr
    return holding (spot t) (.starred .load) [a],
  r .named]

def starNameds (r : Rules) : Search (List Tree) := do
  let found ← gather (op ",") (starNamed r)
  let _ ← opt (op ",")
  return found

def starredExpression (r : Rules) : Search Tree := do
  let t ← op "*"
  let a ← r .expression
  return holding (spot t) (.starred .load) [a]

def yieldExpression (r : Rules) : Search Tree := alts [
  do
    let t ← word "yield"
    let _ ← word "from"
    let _ ← r .expression
    return leaf (spot t) .yieldFrom,
  do
    let t ← word "yield"
    let _ ← opt (r .starExpressions)
    return leaf (spot t) .yieldExpr]

def rightSide (r : Rules) : Search Tree := alts [yieldExpression r, r .starExpressions]

def assignmentExpression (r : Rules) : Search Tree := do
  let t ← nameToken
  let _ ← op ":="
  let _ ← r .expression
  since 8 "Assignment expressions are"
  return leaf (spot t) .namedExpr

def bareExpression (r : Rules) : Search Tree := do
  let a ← r .expression
  notAhead (op ":=")
  return a

/-! ## Comprehensions -/

def starTargets (r : Rules) : Search Tree := alts [
  do
    let a ← r .starTarget
    notAhead (op ",")
    return a,
  do
    let a ← r .starTarget
    let rest ← many (do
      let _ ← op ","
      r .starTarget)
    let _ ← opt (op ",")
    return holding a.mark (.tuple .store) (a :: rest)]

def mistakenLoopTarget (r : Rules) : Search Tree := do
  let _ ← opt (word "async")
  let _ ← word "for"
  let a ← r .starExpressions
  invalidTarget .loop a

def clauseRest (r : Rules) (mark : Mark) : Search Tree := do
  let _ ← r .disjunction
  let _ ← many (do
    let _ ← word "if"
    r .disjunction)
  return leaf mark (.comprehension false)

def clause (r : Rules) : Search Tree :=
  committed
    (do
      let t ← word "async"
      let _ ← word "for"
      let _ ← starTargets r
      let _ ← word "in"
      return spot t)
    (fun mark => do
      let c ← clauseRest r mark
      since 6 "Async comprehensions are"
      return c)
    (committed
      (do
        let t ← word "for"
        let _ ← starTargets r
        let _ ← word "in"
        return spot t)
      (clauseRest r)
      (probe (mistakenLoopTarget r)))

def clauses (r : Rules) : Search (List Tree) := oneOrMore (clause r)

def mistakenComprehension (r : Rules) : Search Tree := alts [
  do
    let _ ← anyOp ["[", "(", "\x7b"]
    let a ← starredExpression r
    let _ ← clauses r
    mistakeAt a.mark "iterable unpacking cannot be used in comprehension",
  do
    let _ ← anyOp ["[", "\x7b"]
    let a ← starNamed r
    let _ ← op ","
    let _ ← starNameds r
    let _ ← clauses r
    mistakeAt a.mark "did you forget parentheses around the comprehension target?",
  do
    let _ ← anyOp ["[", "\x7b"]
    let a ← starNamed r
    let _ ← op ","
    let _ ← clauses r
    mistakeAt a.mark "did you forget parentheses around the comprehension target?"]

/-! ## Atoms -/

def generator (r : Rules) : Search Tree := alts [
  do
    let t ← op "("
    let _ ← alts [assignmentExpression r, bareExpression r]
    let _ ← clauses r
    let _ ← op ")"
    return leaf (spot t) .generatorExp,
  probe (mistakenComprehension r)]

def tuple (r : Rules) : Search Tree := do
  let t ← op "("
  let items ← opt (do
    let a ← starNamed r
    let _ ← op ","
    let rest ← opt (starNameds r)
    return a :: rest.getD [])
  let _ ← op ")"
  return holding (spot t) (.tuple .load) (items.getD [])

def mistakenGroup (r : Rules) : Search Tree := alts [
  do
    let _ ← op "("
    let a ← starredExpression r
    let _ ← op ")"
    mistakeAt a.mark "cannot use starred expression here",
  do
    let _ ← op "("
    let t ← op "**"
    let _ ← r .expression
    let _ ← op ")"
    mistakeAt (spot t) "cannot use double starred expression here"]

def group (r : Rules) : Search Tree := alts [
  do
    let _ ← op "("
    let a ← alts [yieldExpression r, r .named]
    let _ ← op ")"
    return a,
  probe (mistakenGroup r)]

def list (r : Rules) : Search Tree := do
  let t ← op "["
  let items ← opt (starNameds r)
  let _ ← op "]"
  return holding (spot t) (.list .load) (items.getD [])

def listComprehension (r : Rules) : Search Tree := alts [
  do
    let t ← op "["
    let _ ← r .named
    let _ ← clauses r
    let _ ← op "]"
    return leaf (spot t) .listComp,
  probe (mistakenComprehension r)]

def entryPair (r : Rules) : Search Tree := do
  let k ← r .expression
  let _ ← op ":"
  let _ ← r .expression
  return k

def entry (r : Rules) : Search Tree := alts [
  do
    let _ ← op "**"
    r .bitOr,
  entryPair r]

def mistakenValue (r : Rules) : List (Search Tree) := [
  do
    let _ ← r .expression
    let _ ← op ":"
    let t ← op "*"
    let _ ← r .bitOr
    mistakeAt (spot t) "cannot use a starred expression in a dictionary value",
  do
    let _ ← r .expression
    let t ← op ":"
    ahead (anyOp ["\x7d", ","])
    mistakeAt (spot t) "expression expected after dictionary key and ':'"]

def mistakenPair (r : Rules) : Search Tree := alts ((do
    let a ← r .expression
    notAhead (op ":")
    mistakeAt a.mark "':' expected after dictionary key") :: mistakenValue r)

def mistakenEntries (r : Rules) : Search Tree := alts ((do
    let _ ← gather (op ",") (entry r)
    let _ ← op ","
    mistakenPair r) :: mistakenValue r)

def dict (r : Rules) : Search Tree := alts [
  do
    let t ← op "\x7b"
    let _ ← opt (do
      let _ ← gather (op ",") (entry r)
      opt (op ","))
    let _ ← op "\x7d"
    return leaf (spot t) .dict,
  do
    let t ← op "\x7b"
    let _ ← mistakenEntries r
    let _ ← op "\x7d"
    return leaf (spot t) .dict]

def set (r : Rules) : Search Tree := do
  let t ← op "\x7b"
  let _ ← starNameds r
  let _ ← op "\x7d"
  return leaf (spot t) .set

def dictComprehension (r : Rules) : Search Tree := alts [
  do
    let t ← op "\x7b"
    let _ ← entryPair r
    let _ ← clauses r
    let _ ← op "\x7d"
    return leaf (spot t) .dictComp,
  probe (do
    let _ ← op "\x7b"
    let t ← op "**"
    let _ ← r .bitOr
    let _ ← clauses r
    let _ ← op "\x7d"
    mistakeAt (spot t) "dict unpacking cannot be used in dict comprehension")]

def setComprehension (r : Rules) : Search Tree := alts [
  do
    let t ← op "\x7b"
    let _ ← r .named
    let _ ← clauses r
    let _ ← op "\x7d"
    return leaf (spot t) .setComp,
  probe (mistakenComprehension r)]

def atom (r : Rules) : Search Tree := alts [
  name,
  constantWord,
  do
    ahead (kind .string)
    r .strings,
  number,
  do
    ahead (op "(")
    alts [tuple r, group r, generator r],
  do
    ahead (op "[")
    alts [list r, listComprehension r],
  do
    ahead (op "\x7b")
    alts [dict r, set r, dictComprehension r, setComprehension r],
  do
    let t ← op "..."
    return leaf (spot t) (.constant .ellipsis false)]

/-! ## Arguments -/

/-- Arguments: the positional ones, and whether a mapping is unpacked. -/
structure Given where
  positional : List Tree := []
  unpacked : Bool := false
  mark : Mark := {}

def mistakenKeyword (r : Rules) : Search Tree := alts [
  do
    let t ← takeIf fun t => ["True", "False", "None"].any t.isWord
    let _ ← op "="
    mistakeAt (spot t) ("cannot assign to " ++ String.ofList t.text),
  do
    let t ← nameToken
    let _ ← op "="
    let _ ← r .expression
    let _ ← clauses r
    mistakeAt (spot t) "invalid syntax. Maybe you meant '==' or ':=' instead of '='?",
  do
    notAhead (do
      let _ ← nameToken
      op "=")
    let a ← r .expression
    let _ ← op "="
    mistakeAt a.mark "expression cannot contain assignment, perhaps you meant \"==\"?"]

def keyword (r : Rules) : Search Given := do
  let t ← nameToken
  let _ ← op "="
  let _ ← r .expression
  return { mark := spot t }

def keywordOrStarred (r : Rules) : Search Given := alts [
  do
    let t ← probe (mistakenKeyword r)
    return { mark := t.mark },
  keyword r,
  do
    let t ← starredExpression r
    return { positional := [t], mark := t.mark }]

def keywordOrMapping (r : Rules) : Search Given := alts [
  do
    let t ← probe (mistakenKeyword r)
    return { mark := t.mark },
  keyword r,
  do
    let t ← op "**"
    let _ ← r .expression
    return { unpacked := true, mark := spot t }]

def Given.join (given : List Given) : Given :=
  { positional := given.flatMap Given.positional
    unpacked := given.any Given.unpacked
    mark := (given.headD {}).mark }

def keywords (r : Rules) : Search Given := alts [
  do
    let a ← gather (op ",") (keywordOrStarred r)
    let _ ← op ","
    let b ← gather (op ",") (keywordOrMapping r)
    return Given.join (a ++ b),
  do
    let a ← gather (op ",") (keywordOrStarred r)
    return Given.join a,
  do
    let a ← gather (op ",") (keywordOrMapping r)
    return Given.join a]

def given (r : Rules) : Search Given := alts [
  do
    let a ← gather (op ",") (alts [
      starredExpression r,
      do
        let a ← alts [assignmentExpression r, bareExpression r]
        notAhead (op "=")
        return a])
    let more ← opt (do
      let _ ← op ","
      keywords r)
    return {
      positional := a ++ (more.map Given.positional).getD []
      unpacked := (more.map Given.unpacked).getD false
      mark := (a.headD nothing).mark },
  keywords r]

def mistakenArguments (r : Rules) : Search Tree :=
  let unparenthesized := "Generator expression must be parenthesized"
  alts [
    do
      let a ← given r
      let _ ← op ","
      let _ ← op "*"
      mistakeAt a.mark "iterable argument unpacking follows keyword argument unpacking",
    do
      let a ← r .expression
      let _ ← clauses r
      let _ ← op ","
      let _ ← opt (alts [
        do
          let _ ← given r
          return (),
        do
          let _ ← r .expression
          let _ ← clauses r
          return ()])
      mistakeAt a.mark unparenthesized,
    do
      let t ← nameToken
      let _ ← op "="
      let _ ← r .expression
      let _ ← clauses r
      mistakeAt (spot t) "invalid syntax. Maybe you meant '==' or ':=' instead of '='?",
    committed
      (do
        let a ← given r
        let _ ← clauses r
        return a)
      (fun a =>
        match a.positional with
        | _ :: _ :: _ => mistakeAt (a.positional.getLast?.getD nothing).mark unparenthesized
        | _ => miss)
      (alts [
        do
          let _ ← given r
          let _ ← op ","
          let a ← r .expression
          let _ ← clauses r
          mistakeAt a.mark unparenthesized,
        do
          let a ← given r
          let _ ← op ","
          let _ ← given r
          mistake (if a.unpacked then "positional argument follows keyword argument unpacking"
            else "positional argument follows keyword argument")])]

def arguments (r : Rules) : Search Tree := alts [
  do
    let a ← given r
    let _ ← opt (op ",")
    ahead (op ")")
    return leaf a.mark .call,
  probe (mistakenArguments r)]

/-! ## Elements, attributes and calls -/

def slice (r : Rules) : Search Tree := alts [
  do
    let _ ← opt (r .expression)
    let _ ← op ":"
    let _ ← opt (r .expression)
    let _ ← opt (do
      let _ ← op ":"
      opt (r .expression))
    return nothing,
  r .named]

def slices (r : Rules) : Search Tree := alts [
  do
    let a ← slice r
    notAhead (op ",")
    return a,
  do
    let _ ← gather (op ",") (alts [slice r, starredExpression r])
    let _ ← opt (op ",")
    return nothing]

def trailersFrom (r : Rules) (goesOn : Search Unit) : Nat → Tree → Search Tree
  | 0, a => return a
  | fuel + 1, a => do
      let member := do
        let _ ← op "."
        let t ← nameToken
        goesOn
        return leaf a.mark (.attribute (String.ofList t.text) .load)
      let generated := do
        let _ ← generator r
        goesOn
        return leaf a.mark .call
      let called := do
        let _ ← op "("
        let _ ← opt (r .arguments)
        let _ ← op ")"
        goesOn
        return leaf a.mark .call
      let element := do
        let _ ← op "["
        let _ ← slices r
        let _ ← op "]"
        goesOn
        return leaf a.mark (.subscript .load)
      match ← opt (alts [member, generated, called, element]) with
      | some b => trailersFrom r goesOn fuel b
      | none => return a

def trailers (r : Rules) (goesOn : Search Unit) (a : Tree) : Search Tree := fun g p =>
  trailersFrom r goesOn (g.tokens.size + 1) a g p

def primary (r : Rules) : Search Tree := do
  let a ← atom r
  trailers r (return ()) a

def lookahead : Search Token := anyOp ["(", "[", "."]

def targetPrimary (r : Rules) : Search Tree := do
  let a ← atom r
  ahead lookahead
  trailers r (ahead lookahead) a

def awaitPrimary (r : Rules) : Search Tree := alts [
  do
    let t ← word "await"
    let _ ← r .primary
    since 5 "Await expressions are"
    return leaf (spot t) .awaitExpr,
  r .primary]

/-! ## Operators -/

def power (r : Rules) : Search Tree := alts [
  do
    let a ← r .awaitPrimary
    let _ ← op "**"
    let _ ← r .factor
    return leaf a.mark (.binOp .pow),
  r .awaitPrimary]

def factor (r : Rules) : Search Tree := alts [
  do
    let t ← anyOp ["+", "-", "~"]
    let _ ← r .factor
    return leaf (spot t) (.unaryOp .plus),
  power r]

def leftFrom (operator : Search Unit) (operand : Search Tree) (after : Search Unit) :
    Nat → Tree → Search Tree
  | 0, a => return a
  | fuel + 1, a => do
      let more ← opt (do
        operator
        let _ ← operand
        after)
      match more with
      | some _ => leftFrom operator operand after fuel (leaf a.mark (.binOp .add))
      | none => return a

def leftAssoc (operators : List String) (operand : Search Tree) : Search Tree := do
  let a ← operand
  fun g p => leftFrom (do
    let _ ← anyOp operators
    return ()) operand (return ()) (g.tokens.size + 1) a g p

def term (r : Rules) : Search Tree := do
  let a ← r .factor
  let operator := alts [
    do
      let _ ← anyOp ["*", "/", "//", "%"]
      let _ ← r .factor
      return (),
    do
      let _ ← op "@"
      let _ ← r .factor
      since 5 "The '@' operator is"]
  fun g p => leftFrom operator (return nothing) (return ()) (g.tokens.size + 1) a g p

def comparison? (r : Rules) : Search CompareOperator := do
  let simple : List (String × CompareOperator) :=
    [("==", .eq), ("!=", .notEq), ("<=", .ltE), ("<", .lt), (">=", .gtE), (">", .gt)]
  alts [
    do
      let t ← anyOp (simple.map Prod.fst)
      let _ ← r .bitOr
      return ((simple.find? fun e => t.isOp e.1).map Prod.snd).getD .eq,
    do
      let _ ← word "not"
      let _ ← word "in"
      let _ ← r .bitOr
      return .notIn,
    do
      let _ ← word "in"
      let _ ← r .bitOr
      return .isIn,
    do
      let _ ← word "is"
      let _ ← word "not"
      let _ ← r .bitOr
      return .isNot,
    do
      let _ ← word "is"
      let _ ← r .bitOr
      return .is]

def comparison (r : Rules) : Search Tree := do
  let a ← r .bitOr
  let rest ← many (comparison? r)
  if rest.isEmpty then return a else return .node a.mark (.compare rest) [[a]]

def inversion (r : Rules) : Search Tree := alts [
  do
    let t ← word "not"
    let _ ← r .inversion
    return leaf (spot t) (.unaryOp .not),
  comparison r]

def chained (between : String) (operand : Search Tree) : Search Tree := do
  let a ← operand
  let rest ← many (do
    let _ ← word between
    operand)
  if rest.isEmpty then return a else return leaf a.mark (.boolOp .conj)

/-! ## Parameters -/

/-- How parameters are written: the sign that ends them, and whether types and type comments are
allowed. -/
structure ParameterForm where
  closing : String
  typed : Bool

def ParameterForm.comment (f : ParameterForm) : Search Unit := do
  if f.typed then
    let _ ← opt (kind .typeComment)
  return ()

def parameter (r : Rules) (f : ParameterForm) : Search Tree := do
  let a ← name
  if f.typed then
    let _ ← opt (do
      let _ ← op ":"
      r .expression)
  return a

def parameterEnd (f : ParameterForm) {α : Type} (x : Search α) : Search α := alts [
  do
    let a ← x
    let _ ← op ","
    f.comment
    return a,
  do
    let a ← x
    f.comment
    ahead (op f.closing)
    return a]

def plainParameter (r : Rules) (f : ParameterForm) : Search Tree := parameterEnd f (parameter r f)

def preset (r : Rules) : Search Tree := alts [
  do
    let _ ← op "="
    r .expression,
  probe (do
    let t ← op "="
    ahead (anyOp [")", ","])
    mistakeAt (spot t) "expected default value expression")]

def presetParameter (r : Rules) (f : ParameterForm) : Search Tree := parameterEnd f (do
  let a ← parameter r f
  let _ ← preset r
  return a)

def anyParameter (r : Rules) (f : ParameterForm) : Search Tree := parameterEnd f (do
  let a ← parameter r f
  let _ ← opt (preset r)
  return a)

def slashEnd (f : ParameterForm) (x : Search Unit) : Search Unit := alts [
  do
    x
    let _ ← op "/"
    let _ ← op ","
    return (),
  do
    x
    let _ ← op "/"
    ahead (op f.closing)]

def slashPlain (r : Rules) (f : ParameterForm) : Search Unit := slashEnd f (do
  let _ ← oneOrMore (plainParameter r f)
  return ())

def slashPreset (r : Rules) (f : ParameterForm) : Search Unit := slashEnd f (do
  let _ ← many (plainParameter r f)
  let _ ← oneOrMore (presetParameter r f)
  return ())

def mistakenMapping (r : Rules) (f : ParameterForm) : Search Unit := alts [
  do
    let _ ← op "**"
    let _ ← parameter r f
    let t ← op "="
    mistakeAt (spot t) "var-keyword argument cannot have default value",
  do
    let _ ← op "**"
    let _ ← parameter r f
    let _ ← op ","
    let a ← parameter r f
    mistakeAt a.mark "arguments cannot follow var-keyword argument",
  do
    let _ ← op "**"
    let _ ← parameter r f
    let _ ← op ","
    let t ← anyOp ["*", "**", "/"]
    mistakeAt (spot t) "arguments cannot follow var-keyword argument"]

def mappingParameter (r : Rules) (f : ParameterForm) : Search Unit := alts [
  probe (mistakenMapping r f),
  do
    let _ ← op "**"
    let _ ← plainParameter r f
    return ()]

def plainOrComma (r : Rules) (f : ParameterForm) : Search Unit := alts [
  do
    let _ ← plainParameter r f
    return (),
  do
    let _ ← op ","
    return ()]

def commaOrPlain (r : Rules) (f : ParameterForm) : Search Unit := alts [
  do
    let _ ← op ","
    return (),
  do
    let _ ← plainParameter r f
    return ()]

def mistakenStar (r : Rules) (f : ParameterForm) : Search Unit :=
  let bare := "named arguments must follow bare *"
  alts [
    do
      let t ← op "*"
      let _ ← alts [op f.closing, do
        let _ ← op ","
        anyOp [f.closing, "**"]]
      if f.typed then mistakeAt (spot t) bare else mistake bare,
    do
      let _ ← op "*"
      let _ ← op ","
      if f.typed then
        let _ ← kind .typeComment
        mistake "bare * has associated type comment"
      else miss,
    do
      let _ ← op "*"
      let _ ← parameter r f
      let t ← op "="
      mistakeAt (spot t) "var-positional argument cannot have default value",
    do
      let _ ← op "*"
      plainOrComma r f
      let _ ← many (anyParameter r f)
      let t ← op "*"
      plainOrComma r f
      mistakeAt (spot t) "* argument may appear only once"]

def starParameters (r : Rules) (f : ParameterForm) : Search Unit :=
  let rest := do
    let _ ← many (anyParameter r f)
    let _ ← opt (mappingParameter r f)
    return ()
  alts [
    probe (mistakenStar r f),
    do
      let _ ← op "*"
      let _ ← plainParameter r f
      rest,
    do
      if !f.typed then miss
      let _ ← op "*"
      let _ ← parameterEnd f (do
        let _ ← nameToken
        let _ ← op ":"
        r .starExpression)
      rest,
    do
      let _ ← op "*"
      let _ ← op ","
      let _ ← oneOrMore (anyParameter r f)
      let _ ← opt (mappingParameter r f)
      return (),
    mappingParameter r f]

def mistakenParameters (r : Rules) (f : ParameterForm) : Search Unit :=
  let slash := alts [slashPlain r f, slashPreset r f]
  alts [
    do
      let _ ← many (plainParameter r f)
      alts [slashPreset r f, do
        let _ ← oneOrMore (presetParameter r f)
        return ()]
      let a ← plainParameter r f
      mistakeAt a.mark "non-default argument follows default argument",
    do
      let _ ← many (plainParameter r f)
      let t ← op "("
      if f.typed then
        let _ ← oneOrMore (plainParameter r f)
      else
        let _ ← gather (op ",") (parameter r f)
      let _ ← opt (op ",")
      let _ ← op ")"
      mistakeAt (spot t) (if f.typed then "Function parameters cannot be parenthesized"
        else "Lambda expression parameters cannot be parenthesized"),
    do
      let t ← op "/"
      let _ ← op ","
      mistakeAt (spot t) "at least one argument must precede /",
    do
      slash
      let _ ← many (anyParameter r f)
      let t ← op "/"
      mistakeAt (spot t) "/ may appear only once",
    do
      let _ ← opt slash
      let _ ← many (anyParameter r f)
      let _ ← op "*"
      commaOrPlain r f
      let _ ← many (anyParameter r f)
      let t ← op "/"
      mistakeAt (spot t) "/ must be ahead of *",
    do
      let _ ← oneOrMore (anyParameter r f)
      let _ ← op "/"
      let t ← op "*"
      mistakeAt (spot t) "expected comma between / and *"]

def parameters (r : Rules) (f : ParameterForm) : Search Unit :=
  let positionalOnly := since 8 "Positional-only parameters are"
  let star := opt (starParameters r f)
  alts [
    probe (mistakenParameters r f),
    do
      slashPlain r f
      let _ ← many (plainParameter r f)
      let _ ← many (presetParameter r f)
      let _ ← star
      positionalOnly,
    do
      slashPreset r f
      let _ ← many (presetParameter r f)
      let _ ← star
      positionalOnly,
    do
      let _ ← oneOrMore (plainParameter r f)
      let _ ← many (presetParameter r f)
      let _ ← star
      return (),
    do
      let _ ← oneOrMore (presetParameter r f)
      let _ ← star
      return (),
    starParameters r f]

def lambdaExpression (r : Rules) : Search Tree := do
  let t ← word "lambda"
  let _ ← opt (parameters r ⟨":", false⟩)
  let _ ← op ":"
  let _ ← r .expression
  return leaf (spot t) .lambdaExpr

/-! ## Whole expressions -/

def conditional (r : Rules) : Search Tree := do
  let a ← r .disjunction
  let _ ← word "if"
  let _ ← r .disjunction
  let _ ← word "else"
  let _ ← r .expression
  return leaf a.mark .ifExp

def isFormerStatement (t : Tree) : Bool :=
  match t.kind with
  | .name id _ => id == "print" || id == "exec"
  | _ => false

def mistakenExpression (r : Rules) : Search Tree :=
  committed
    (do
      notAhead (alts [do
          let _ ← nameToken
          kind .string, softKeyword])
      let a ← r .disjunction
      let _ ← plainly (alts [conditional r, r .disjunction, lambdaExpression r])
      return a)
    (fun a => do
      if isFormerStatement a then miss
      else if (← depth) = 0 then miss
      else mistakeAt a.mark "invalid syntax. Perhaps you forgot a comma?")
    (do
      let a ← r .disjunction
      let _ ← word "if"
      let _ ← r .disjunction
      notAhead (alts [word "else", op ":"])
      mistakeAt a.mark "expected 'else' after 'if' expression")

def formerStatement (r : Rules) : Search Tree := do
  let a ← name
  notAhead (op "(")
  let _ ← r .starExpressions
  match a.kind with
  | .name id _ =>
    if isFormerStatement a then
      mistakeAt a.mark ("Missing parentheses in call to '" ++ id ++ "'. Did you mean " ++ id ++
        "(...)?")
    else miss
  | _ => miss

def expression (r : Rules) : Search Tree := alts [
  probe (mistakenExpression r),
  probe (formerStatement r),
  conditional r,
  r .disjunction,
  lambdaExpression r]

def mistakenNamed (r : Rules) : Search Tree :=
  let noSecond := notAhead (anyOp ["=", ":="])
  alts [
    do
      let a ← r .expression
      let _ ← op ":="
      let _ ← r .expression
      mistakeAt a.mark ("cannot use assignment expressions with " ++ a.kind.describe),
    do
      let t ← nameToken
      let _ ← op "="
      let _ ← r .bitOr
      noSecond
      mistakeAt (spot t) "invalid syntax. Maybe you meant '==' or ':=' instead of '='?",
    do
      notAhead (alts [list r, tuple r, generator r, constantWord])
      let a ← r .bitOr
      let _ ← op "="
      let _ ← r .bitOr
      noSecond
      mistakeAt a.mark ("cannot assign to " ++ a.kind.describe ++
        " here. Maybe you meant '==' instead of '='?")]

def named (r : Rules) : Search Tree := alts [
  assignmentExpression r,
  probe (r .mistakenNamed),
  bareExpression r]

/-! ## Targets -/

def outermost (r : Rules) : List (Search Tree) := [
  do
    let a ← r .targetPrimary
    let _ ← op "."
    let t ← nameToken
    notAhead lookahead
    return leaf a.mark (.attribute (String.ofList t.text) .store),
  do
    let a ← r .targetPrimary
    let _ ← op "["
    let _ ← slices r
    let _ ← op "]"
    notAhead lookahead
    return leaf a.mark (.subscript .store)]

def starAtom (r : Rules) : Search Tree := alts [
  name,
  do
    let _ ← op "("
    let a ← r .targetWithStars
    let _ ← op ")"
    return a,
  do
    let t ← op "("
    let items ← opt (alts [
      do
        let a ← r .starTarget
        let rest ← oneOrMore (do
          let _ ← op ","
          r .starTarget)
        let _ ← opt (op ",")
        return a :: rest,
      do
        let a ← r .starTarget
        let _ ← op ","
        return [a]])
    let _ ← op ")"
    return holding (spot t) (.tuple .store) (items.getD []),
  do
    let t ← op "["
    let items ← opt (do
      let items ← gather (op ",") (r .starTarget)
      let _ ← opt (op ",")
      return items)
    let _ ← op "]"
    return holding (spot t) (.list .store) (items.getD [])]

def targetWithStars (r : Rules) : Search Tree := alts (outermost r ++ [starAtom r])

def starTarget (r : Rules) : Search Tree := alts [
  do
    let t ← op "*"
    notAhead (op "*")
    let a ← r .starTarget
    return holding (spot t) (.starred .store) [a],
  r .targetWithStars]

def singleTarget (r : Rules) : Search Tree := alts (outermost r ++ [
  name,
  do
    let _ ← op "("
    let a ← r .singleTarget
    let _ ← op ")"
    return a])

def deleteTargets (r : Rules) : Search (List Tree) := do
  let found ← gather (op ",") (r .deleteTarget)
  let _ ← opt (op ",")
  return found

def deleteTarget (r : Rules) : Search Tree := alts (outermost r ++ [
  name,
  do
    let _ ← op "("
    let a ← r .deleteTarget
    let _ ← op ")"
    return a,
  do
    let t ← op "("
    let items ← opt (deleteTargets r)
    let _ ← op ")"
    return holding (spot t) (.tuple .del) (items.getD []),
  do
    let t ← op "["
    let items ← opt (deleteTargets r)
    let _ ← op "]"
    return holding (spot t) (.list .del) (items.getD [])])

end Diagnosis

end MacroExpand
