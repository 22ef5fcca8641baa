import MacroExpand.Syntax.Parser.Expressions

/-!
# Parsing patterns

The patterns of the cases of a `match` statement.
-/

set_option autoImplicit false

namespace MacroExpand

namespace Parser

def signedNumber : Parser Tree := do
  let start ← here
  if ← takeOp "-" then
    let n ← number
    node start (.unaryOp .minus) [[n]]
  else number

def atImaginary : Parser Bool := do
  let t ← peek
  return t.kind = .number && t.text.getLast?.any fun c => c == 'j' || c == 'J'

def numberPattern : Parser Tree := do
  let start ← here
  let isReal := do
    let _ ← takeOp "-"
    return !(← atImaginary)
  let isReal ← ahead isReal
  let left ← signedNumber
  let t ← peek
  let o : Option BinaryOperator :=
    if t.isOp "+" then some .add else if t.isOp "-" then some .sub else none
  match o with
  | some o => do
      let _ ← next
      guardThat (isReal && (← atImaginary))
      let right ← number
      node start (.binOp o) [[left], [right]]
  | none => return left

def dottedFrom (start : Mark) : Nat → Tree → Parser Tree
  | 0, t => return t
  | fuel + 1, t => do
      if ← takeOp "." then
        let id ← name
        let t ← node start (.attribute id .load) [[t]]
        dottedFrom start fuel t
      else return t

def captureName : Parser String := do
  let id ← name
  guardThat (id != "_")
  return id

def literalOrValue (r : Rules) : Parser Tree := do
  let start ← here
  let t ← peek
  match t.kind with
  | .string => strings r
  | .number => numberPattern
  | .op => numberPattern
  | _ =>
    if t.isWord "None" || t.isWord "True" || t.isWord "False" then atom r
    else
      let id ← name
      let base ← node start (.name id .load) []
      guardThat (← atOp ".")
      fun o c => dottedFrom start (c.rest.length + 1) base o c

def maybeStarPattern (r : Rules) : Parser Tree := do
  let start ← here
  if ← takeOp "*" then
    let id ← name
    node start (.matchStar (if id == "_" then none else some id)) []
  else one r .pattern

def parenthesizedPattern (r : Rules) : Parser Tree := do
  let start ← here
  let _ ← op "("
  if ← takeOp ")" then node start .matchSequence [[]]
  else
    let (ps, comma) ← commaList (maybeStarPattern r)
    let _ ← op ")"
    match ps, comma with
    | [p], false =>
      match p.kind with
      | .matchStar _ => fail
      | _ => return p
    | _, _ => node start .matchSequence [ps]

def mappingEntry (r : Rules) : Parser (Tree × Tree) := do
  let k ← literalOrValue r
  let _ ← op ":"
  let p ← one r .pattern
  return (k, p)

def mappingPattern (r : Rules) : Parser Tree := do
  let start ← here
  let _ ← op "\x7b"
  let entries ← optional (commas (mappingEntry r))
  let entries := entries.getD []
  let comma ← if entries.isEmpty then pure true else takeOp ","
  let rest ← if ← atOp "**" then do
      guardThat comma
      let _ ← next
      let id ← captureName
      let _ ← takeOp ","
      pure (some id)
    else pure none
  let _ ← op "\x7d"
  node start (.matchMapping rest) [entries.map Prod.fst, entries.map Prod.snd]

def classArgument (r : Rules) : Parser (Option String × Tree) := do
  let isKeyword ← test (do
    let _ ← name
    op "=")
  if isKeyword then
    let id ← name
    let _ ← op "="
    let p ← one r .pattern
    return (some id, p)
  else
    let p ← one r .pattern
    return (none, p)

def namePattern (r : Rules) : Parser Tree := do
  let start ← here
  let id ← name
  let base ← node start (.name id .load) []
  if id == "_" then return ← node start (.matchAs none) [[]]
  let dotted ← fun o c => dottedFrom start (c.rest.length + 1) base o c
  if ← atOp "(" then
    let _ ← next
    let arguments ← optional (commaList (classArgument r))
    let arguments := (arguments.map Prod.fst).getD []
    let _ ← op ")"
    let positional := arguments.takeWhile (·.1.isNone)
    let keyword := arguments.dropWhile (·.1.isNone)
    guardThat (keyword.all (·.1.isSome))
    node start (.matchClass (keyword.filterMap Prod.fst))
      [[dotted], positional.map Prod.snd, keyword.map Prod.snd]
  else match dotted.kind with
    | .name _ _ => node start (.matchAs (some id)) [[]]
    | _ => node start .matchValue [[dotted]]

def closedPattern (r : Rules) : Parser Tree := do
  let start ← here
  let t ← peek
  match t.kind with
  | .string | .number => do
      let v ← literalOrValue r
      node start .matchValue [[v]]
  | .freeName => namePattern r
  | .name =>
    let singleton : Option Scalar :=
      if t.isWord "None" then some .nil
      else if t.isWord "True" then some (.bool true)
      else if t.isWord "False" then some (.bool false)
      else none
    match singleton with
    | some v => do
        let _ ← next
        node start (.matchSingleton v) []
    | none => namePattern r
  | .op =>
    if t.isOp "-" then do
      let v ← numberPattern
      node start .matchValue [[v]]
    else if t.isOp "(" then parenthesizedPattern r
    else if t.isOp "[" then do
      let _ ← next
      let ps ← optional (commaList (maybeStarPattern r))
      let _ ← op "]"
      node start .matchSequence [(ps.map Prod.fst).getD []]
    else if t.isOp "\x7b" then mappingPattern r
    else fail
  | _ => fail

def pattern (r : Rules) : Parser Tree := do
  let start ← here
  let first ← one r .closedPattern
  let rest ← many (do
    let _ ← op "|"
    one r .closedPattern)
  let alternatives ← if rest.isEmpty then pure first else node start .matchOr [first :: rest]
  if ← takeWord "as" then
    let id ← captureName
    node start (.matchAs (some id)) [[alternatives]]
  else return alternatives

def casePattern (r : Rules) : Parser Tree := do
  let start ← here
  match ← commaList (maybeStarPattern r) with
  | ([p], false) =>
    match p.kind with
    | .matchStar _ => fail
    | _ => return p
  | (ps, _) => node start .matchSequence [ps]

end Parser

end MacroExpand
