import MacroExpand.Syntax.Scope
import MacroExpand.Syntax.Token
import MacroExpand.Value.Equality
import MacroExpand.Value.Serialize

/-!
# Where things may stand

Some statements and expressions are well formed wherever they are written, and yet have no meaning
there: a `return` belongs to a function, a `break` to a loop, an `await` to an asynchronous
function.  `Placement.fault?` finds the first one out of place.  Patterns are checked here too: each
name is bound once, and no alternative hides those behind it.
-/

set_option autoImplicit false

namespace MacroExpand

namespace Placement

/-- What a statement or an expression is part of. -/
inductive Region where
  | file
  | classBody
  | function
  | asyncFunction
  | lambda
  | comprehension
  deriving DecidableEq, Repr, Inhabited

/-- A statement around another one that matters for leaving it. -/
inductive Block where
  | loop
  | groupHandler
  | other
  deriving DecidableEq, Repr, Inhabited

structure Spot where
  region : Region := .file
  /-- The statements around, the innermost first. -/
  blocks : List Block := []
  /-- Whether the function both awaits and hands out values. -/
  isAsyncGenerator : Bool := false
  /-- Whether annotations are never evaluated. -/
  postponed : Bool := false
  /-- The last line of the imports that change the language. -/
  lastFuture : Nat := 0
  deriving Repr, Inhabited

abbrev Check := Except SourceFault

def refuse {α : Type} (line : Nat) (message : String) : Check α :=
  .error ⟨.grammar, message, line, 0⟩

def blockLimit : Nat := 20

def Spot.inside (spot : Spot) (line : Nat) (block : Block) : Check Spot :=
  if blockLimit ≤ spot.blocks.length then refuse line "too many statically nested blocks"
  else .ok { spot with blocks := block :: spot.blocks }

def refuseFixed (line : Nat) (name : String) (isDeleted : Bool := false) : Check Unit := do
  if name = "__debug__" then
    refuse line (if isDeleted then "cannot delete __debug__" else "cannot assign to __debug__")

/-! ## Suspension -/

/-- Whether a tree lets the scope it stands in wait; trees nested deeper than `depth` are left
out. -/
def suspends : Nat → Tree → Bool
  | 0, _ => false
  | depth + 1, t =>
    let any := fun (k : Nat) => (t.slot k).any (suspends depth)
    match t.kind with
    | .awaitExpr | .comprehension true => true
    | .functionDef .. => any 0 || any 2 || any 3
    | .classDef _ => any 0 || any 1 || any 3
    | .lambdaExpr => any 0
    | .generatorExp => ((t.slot 1).take 1).any fun clause => (clause.slot 1).any (suspends depth)
    | .forLoop true _ | .withStmt true _ => true
    | _ => t.children.any (suspends depth)

def isAsync (depth : Nat) (clauses made : List Tree) : Bool :=
  made.any (suspends depth) || match clauses with
    | [] => false
    | first :: rest =>
      first.kind = .comprehension true || rest.any (suspends depth) ||
        [0, 2].any fun k => (first.slot k).any (suspends depth)

/-! ## Leaving a block -/

def groupMessage : String :=
  "'break', 'continue' and 'return' cannot appear in an except* block"

def leaveLoop (line : Nat) (message : String) : List Block → Check Unit
  | [] => refuse line message
  | .groupHandler :: _ => refuse line groupMessage
  | .loop :: _ => .ok ()
  | .other :: rest => leaveLoop line message rest

/-! ## Arguments and targets -/

def keywords : List Tree → Check Unit
  | [] => .ok ()
  | t :: rest => do
      match t.kind with
      | .keyword (some name) =>
        refuseFixed t.mark.line name
        match rest.find? fun u => u.kind == .keyword (some name) with
        | some u => refuse u.mark.line ("keyword argument repeated: " ++ name)
        | none => pure ()
      | _ => pure ()
      keywords rest

def parameters (line : Nat) (t : Tree) : Check Unit :=
  (Scope.parameterNames t).forM fun name => refuseFixed line name

def unstarred (t : Tree) : Tree :=
  match t.kind with
  | .starred _ => t.part 0
  | _ => t

def isStarred (t : Tree) : Bool :=
  match t.kind with
  | .starred _ => true
  | _ => false

def severalTargets (line : Nat) (ts : List Tree) : Check Unit := do
  if 1 < (ts.filter isStarred).length then
    refuse line "multiple starred expressions in assignment"
  if ts.any isStarred && 256 ≤ (ts.takeWhile fun t => !isStarred t).length then
    refuse line "too many expressions in star-unpacking assignment"

/-! ## Patterns -/

def literal? (t : Tree) : Option Scalar :=
  match t.kind with
  | .constant v _ => some v
  | .unaryOp .minus =>
    match (t.part 0).kind with
    | .constant (.int n) _ => some (.int (-n))
    | .constant (.float d) _ => some (.float d.neg)
    | .constant (.complex re im) _ => some (.complex re.neg im.neg)
    | _ => none
  | _ => none

def repeatedKey? (seen : List Scalar) : List Tree → Option Scalar
  | [] => none
  | t :: rest =>
    match literal? t with
    | some v =>
      if seen.any fun w => w.same v then some v else repeatedKey? (v :: seen) rest
    | none => repeatedKey? seen rest

def bindName (line : Nat) (bound : List String) : Option String → Check (List String)
  | none => .ok bound
  | some name => do
      refuseFixed line name
      if bound.contains name then
        refuse line ("multiple assignments to name '" ++ name ++ "' in pattern")
      return bound ++ [name]

def attributes : List (String × Nat) → Check Unit
  | [] => .ok ()
  | (name, line) :: rest => do
      refuseFixed line name
      match rest.find? fun e => e.1 == name with
      | some (_, line) => refuse line ("attribute name repeated in class pattern: " ++ name)
      | none => attributes rest

def alternatives (each : Bool → Tree → Check (List String)) (mayTakeAll : Bool)
    (first : Option (List String)) : List Tree → Check (List String)
  | [] => .ok (first.getD [])
  | t :: rest => do
      let names ← each (mayTakeAll && rest.isEmpty) t
      let expected := first.getD names
      if names.length ≠ expected.length || expected.any fun n => !names.contains n then
        refuse t.mark.line "alternative patterns bind different names"
      alternatives each mayTakeAll (some expected) rest

/-- Check a pattern: `mayTakeAll` if it may match whatever there is.  Answers the names bound so
far. -/
def pattern : Nat → Bool → List String → Tree → Check (List String)
  | 0, _, bound, _ => .ok bound
  | depth + 1, mayTakeAll, bound, t => do
      let line := t.mark.line
      let all := fun (bound : List String) (ts : List Tree) =>
        ts.foldlM (fun bound t => pattern depth true bound t) bound
      match t.kind with
      | .matchSequence =>
        let isRest := fun (t : Tree) => match t.kind with
          | .matchStar _ => true
          | _ => false
        if 1 < ((t.slot 0).filter isRest).length then
          refuse line "multiple starred names in sequence pattern"
        else all bound (t.slot 0)
      | .matchMapping rest => do
          match repeatedKey? [] (t.slot 0) with
          | some v =>
            refuse line
              ("mapping pattern checks duplicate key (" ++ String.ofList v.text ++ ")")
          | none => pure ()
          let bound ← all bound (t.slot 1)
          bindName line bound rest
      | .matchClass names => do
          attributes (names.zip ((t.slot 2).map fun t => t.mark.line))
          let bound ← all bound (t.slot 1)
          all bound (t.slot 2)
      | .matchStar name => bindName line bound name
      | .matchAs name =>
        match t.part? 0 with
        | some inner => do
            let bound ← pattern depth mayTakeAll bound inner
            bindName line bound name
        | none =>
          if mayTakeAll then bindName line bound name
          else match name with
            | some name =>
              refuse line ("name capture '" ++ name ++ "' makes remaining patterns unreachable")
            | none => refuse line "wildcard makes remaining patterns unreachable"
      | .matchOr => do
          let names ← alternatives (fun mayTakeAll t => pattern depth mayTakeAll [] t) mayTakeAll none
            (t.slot 0)
          names.foldlM (fun bound name => bindName line bound (some name)) bound
      | _ => return bound

/-! ## Statements and expressions -/

def functionSpot (spot : Spot) (depth : Nat) (isAsync : Bool) (body : List Tree) : Spot :=
  { spot with
    region := if isAsync then .asyncFunction else .function
    blocks := []
    isAsyncGenerator := Scope.yields body && (isAsync || body.any (suspends depth)) }

def needsAsync (spot : Spot) (line : Nat) (what : String) : Check Unit := do
  if spot.region ≠ .asyncFunction then
    refuse line ("'async " ++ what ++ "' outside async function")

/-- Check the cases of a `match`: none but the last may match whatever there is, unless it is
guarded. -/
def cases (depth : Nat) (each : Tree → Check Unit) : List Tree → Check Unit
  | [] => .ok ()
  | t :: rest => do
      let mayTakeAll := rest.isEmpty || !(t.slot 1).isEmpty
      (t.slot 0).forM fun p => discard (pattern depth mayTakeAll [] p)
      (t.slot 1 ++ t.slot 2).forM each
      cases depth each rest

def handlers (each : Spot → Tree → Check Unit) (spot : Spot) : List Tree → Check Unit
  | [] => .ok ()
  | t :: rest => do
      let line := t.mark.line
      if (t.slot 0).isEmpty && !rest.isEmpty then refuse line "default 'except:' must be last"
      (t.slot 0).forM (each spot)
      match t.kind with
      | .exceptHandler (some name) => refuseFixed line name
      | _ => pure ()
      let inner ← spot.inside line .other
      (t.slot 1).forM (each inner)
      handlers each spot rest

def comprehension (depth : Nat) (each : Spot → Tree → Check Unit) (spot : Spot) (t : Tree)
    (clauses made : List Tree) : Check Unit := do
  let isPatient := spot.region = .asyncFunction || spot.region = .comprehension
  if isAsync depth clauses made && t.kind ≠ .generatorExp && !isPatient then
    refuse t.mark.line "asynchronous comprehension outside of an asynchronous function"
  let inner := { spot with region := .comprehension, blocks := [] }
  (clauses.take 1).forM fun clause => (clause.slot 0 ++ clause.slot 2).forM (each inner)
  (clauses.drop 1).forM fun clause =>
    (clause.slot 1 ++ clause.slot 0 ++ clause.slot 2).forM (each inner)
  made.forM (each inner)
  (clauses.take 1).forM fun clause => (clause.slot 1).forM (each spot)

def check : Nat → Spot → Tree → Check Unit
  | 0, _, _ => .ok ()
  | depth + 1, spot, t => do
      let line := t.mark.line
      let all := fun (spot : Spot) (ts : List Tree) => ts.forM (check depth spot)
      let each := fun (k : Nat) => all spot (t.slot k)
      let starry := fun (ts : List Tree) => all spot (ts.map unstarred)
      match t.kind with
      | .functionDef name isAsync _ => do
          let given := t.part 0
          parameters line given
          each 2
          all spot (given.slot 6)
          all spot (given.slot 4)
          if !spot.postponed then
            [1, 0, 2, 3, 5].forM fun k => (given.slot k).forM fun a => starry (a.slot 0)
            each 3
          all (functionSpot spot depth isAsync (t.slot 1)) (t.slot 1)
          refuseFixed line name
      | .lambdaExpr => do
          let given := t.part 0
          parameters line given
          all spot (given.slot 6)
          all spot (given.slot 4)
          all { spot with region := .lambda, blocks := [] } (t.slot 1)
      | .classDef name => do
          each 3
          all { spot with region := .classBody, blocks := [] } (t.slot 2)
          keywords (t.slot 1)
          starry (t.slot 0)
          each 1
          refuseFixed line name
      | .returnStmt => do
          if spot.region ≠ .function && spot.region ≠ .asyncFunction then
            refuse line "'return' outside function"
          if spot.isAsyncGenerator && !(t.slot 0).isEmpty then
            refuse line "'return' with value in async generator"
          each 0
          if spot.blocks.contains .groupHandler then refuse line groupMessage
      | .assign _ => do
          each 1
          each 0
      | .annAssign _ => do
          each 2
          match (t.part 0).kind with
          | .name id _ => refuseFixed (t.part 0).mark.line id
          | _ => each 0
          if !spot.postponed && (spot.region = .file || spot.region = .classBody) then each 1
      | .forLoop isAsync _ => do
          if isAsync then needsAsync spot line "for"
          let inner ← spot.inside line .loop
          all inner (t.slot 1)
          all inner (t.slot 0)
          all inner (t.slot 2)
          each 3
      | .whileLoop => do
          let inner ← spot.inside line .loop
          all inner (t.slot 0)
          all inner (t.slot 1)
          each 2
      | .withStmt isAsync _ => do
          if isAsync then needsAsync spot line "with"
          let inner ← (t.slot 0).foldlM (fun (spot : Spot) item => do
            check depth spot item
            spot.inside line .other) spot
          all inner (t.slot 1)
      | .matchStmt => do
          each 0
          cases depth (check depth spot) (t.slot 1)
      | .tryStmt star => do
          let outer ← if (t.slot 3).isEmpty then pure spot else spot.inside line .other
          if (t.slot 1).isEmpty then all outer (t.slot 0)
          else
            let inner ← outer.inside line .other
            all inner (t.slot 0)
            all outer (t.slot 2)
            let handling ← outer.inside line (if star then .groupHandler else .other)
            handlers (check depth) handling (t.slot 1)
          if !(t.slot 3).isEmpty then
            let last ← spot.inside line .other
            all last (t.slot 3)
      | .importStmt =>
        (t.slot 0).forM fun a => (Scope.importedName true a).forM fun n => refuseFixed line n
      | .importFrom module _ => do
          if module = some "__future__" && spot.lastFuture < line then
            refuse line "from __future__ imports must occur at the beginning of the file"
          (t.slot 0).forM fun a => (Scope.importedName false a).forM fun n => refuseFixed line n
      | .breakStmt => leaveLoop line "'break' outside loop" spot.blocks
      | .continueStmt => leaveLoop line "'continue' not properly in loop" spot.blocks
      | .name id usage => if usage ≠ .load then refuseFixed line id (usage = .del)
      | .attribute name usage => do
          if usage = .store then refuseFixed line name
          each 0
      | .starred .store => refuse line "starred assignment target must be in a list or tuple"
      | .starred _ => refuse line "can't use starred expression here"
      | .list .store | .tuple .store => do
          severalTargets line (t.slot 0)
          starry (t.slot 0)
      | .list _ | .tuple _ | .set => starry (t.slot 0)
      | .namedExpr => do
          each 1
          each 0
      | .call => do
          keywords (t.slot 2)
          each 0
          starry (t.slot 1)
          each 2
      | .listComp | .setComp | .generatorExp => comprehension depth (check depth) spot t (t.slot 1) (t.slot 0)
      | .dictComp => comprehension depth (check depth) spot t (t.slot 2) (t.slot 0 ++ t.slot 1)
      | .yieldExpr | .yieldFrom => do
          if spot.region = .file || spot.region = .classBody then
            refuse line "'yield' outside function"
          each 0
          if t.kind = .yieldFrom && spot.region = .asyncFunction then
            refuse line "'yield from' inside async function"
      | .awaitExpr => do
          match spot.region with
          | .file | .classBody => refuse line "'await' outside function"
          | .function | .lambda => refuse line "'await' outside async function"
          | .asyncFunction | .comprehension => each 0
      | _ => all spot t.children

/-- The first statement or expression that is out of place; `lastFuture` is the last line of the
imports that change the language, and `postponed` tells whether annotations are never evaluated. -/
def fault? (postponed : Bool) (lastFuture : Nat) (trees : List Tree) : Option SourceFault :=
  match trees.forM (check (Tree.sizeAll trees) { postponed, lastFuture }) with
  | .error fault => some fault
  | .ok () => none

end Placement

end MacroExpand
