import MacroExpand.Syntax.Scope

/-!
# Bodies that hand out values

A body that hands out values can stop in the middle of an expression.  Here such a body is brought
into a form in which values are handed out only by statements of their own: what an expression has
computed before is kept under names that no program can write.  The order of evaluation stays the
same.
-/

set_option autoImplicit false

namespace MacroExpand

namespace Suspension

abbrev Fresh := StateM Nat

def isOpen (t : Tree) : Bool := Scope.yields [t]

def made (kind : Kind) (slots : List (List Tree)) : Tree := .node {} kind slots

def load (name : String) : Tree := made (.name name .load) []

def store (name : String) (value : Tree) : Tree :=
  made (.assign none) [[made (.name name .store) []], [value]]

def fresh : Fresh String := do
  let n ← get
  set (n + 1)
  return "." ++ toString n

def keep (t : Tree) : Fresh (List Tree × Tree) := do
  match t with
  | .node m kind slots =>
    match kind, slots with
    | .constant .., _ | .absent, _ | .name _ .store, _ => return ([], t)
    | .starred _, [[inner]] | .keyword _, [[inner]] =>
      let n ← fresh
      return ([store n inner], .node m kind [[load n]])
    | _, _ =>
      let n ← fresh
      return ([store n t], load n)

/-- Take the handing out of values out of expressions that are evaluated one after another, given
how that is done for one. -/
def hoistAll (hoist : Tree → Fresh (List Tree × Tree)) : List Tree → Fresh (List Tree × List Tree)
  | [] => return ([], [])
  | t :: rest => do
      let (before, t) ← hoist t
      let (kept, t) ← if rest.any isOpen then keep t else pure ([], t)
      let (more, rest) ← hoistAll hoist rest
      return (before ++ kept ++ more, t :: rest)

def regroup : List (List Tree) → List Tree → List (List Tree)
  | [], _ => []
  | slot :: rest, ts => ts.take slot.length :: regroup rest (ts.drop slot.length)

def hoistSlots (hoist : Tree → Fresh (List Tree × Tree)) (slots : List (List Tree)) :
    Fresh (List Tree × List (List Tree)) := do
  let (before, parts) ← hoistAll hoist slots.flatten
  return (before, regroup slots parts)

def junction (hoist : Tree → Fresh (List Tree × Tree)) (isAnd : Bool) (name : String) :
    List Tree → Fresh (List Tree)
  | [] => return []
  | t :: rest => do
      let (before, t) ← hoist t
      let more ← junction hoist isAnd name rest
      let next := if more.isEmpty then []
        else if isAnd then [made .ifStmt [[load name], more, []]]
        else [made .ifStmt [[made (.unaryOp .not) [[load name]]], more, []]]
      return before ++ [store name t] ++ next

def chain (hoist : Tree → Fresh (List Tree × Tree)) (name : String) (left : Tree) :
    List (CompareOperator × Tree) → Fresh (List Tree)
  | [] => return []
  | (op, t) :: rest => do
      let (before, t) ← hoist t
      let (kept, right) ← keep t
      let more ← chain hoist name right rest
      let next := if more.isEmpty then [] else [made .ifStmt [[load name], more, []]]
      return before ++ kept ++ [store name (made (.compare [op]) [[left], [right]])] ++ next

/-- Take the handing out of values out of an expression nested at most `fuel` deep: the statements
that come first, and an expression that hands out nothing. -/
def hoist : Nat → Tree → Fresh (List Tree × Tree)
  | 0, t => return ([], t)
  | fuel + 1, .node m kind slots => do
      let t := Tree.node m kind slots
      if !isOpen t then return ([], t)
      match kind, slots with
      | .yieldExpr, _ | .yieldFrom, _ =>
        let (before, slots) ← hoistSlots (hoist fuel) slots
        let n ← fresh
        return (before ++ [store n (.node m kind slots)], load n)
      | .boolOp op, operands :: _ =>
        let n ← fresh
        return (← junction (hoist fuel) (op == .conj) n operands, load n)
      | .ifExp, [[test], [first], [second]] =>
        let n ← fresh
        let (before, test) ← hoist fuel test
        let (beforeFirst, first) ← hoist fuel first
        let (beforeSecond, second) ← hoist fuel second
        return (before ++ [made .ifStmt [[test], beforeFirst ++ [store n first],
          beforeSecond ++ [store n second]]], load n)
      | .compare (op :: next :: ops), [[left], others] =>
        let n ← fresh
        let (before, left) ← hoist fuel left
        let (kept, left) ← keep left
        let more ← chain (hoist fuel) n left ((op :: next :: ops).zip others)
        return (before ++ kept ++ more, load n)
      | .namedExpr, [target, value] =>
        let (before, value) ← hoistAll (hoist fuel) value
        return (before, .node m kind [target, value])
      | .listComp, [element, .node cm ck (target :: source :: rest) :: clauses]
      | .setComp, [element, .node cm ck (target :: source :: rest) :: clauses]
      | .generatorExp, [element, .node cm ck (target :: source :: rest) :: clauses] =>
        let (before, source) ← hoistAll (hoist fuel) source
        return (before, .node m kind [element, .node cm ck (target :: source :: rest) :: clauses])
      | .dictComp, [key, value, .node cm ck (target :: source :: rest) :: clauses] =>
        let (before, source) ← hoistAll (hoist fuel) source
        return (before,
          .node m kind [key, value, .node cm ck (target :: source :: rest) :: clauses])
      | .lambdaExpr, _ => return ([], t)
      | _, _ =>
        let (before, slots) ← hoistSlots (hoist fuel) slots
        return (before, .node m kind slots)

def hoisted (t : Tree) : Fresh (List Tree × Tree) := hoist t.size t

def assignTarget : Nat → Tree → String → Fresh (List Tree)
  | 0, t, name => return [made (.assign none) [[t], [load name]]]
  | fuel + 1, .node m kind slots, name => do
      let t := Tree.node m kind slots
      let whole := [made (.assign none) [[t], [load name]]]
      if !isOpen t then return whole
      match kind, slots with
      | .tuple _, [targets] | .list _, [targets] =>
        let names ← targets.mapM fun _ => fresh
        let spread := (targets.zip names).map fun (target, n) =>
          let place := made (.name n .store) []
          match target.kind with
          | .starred usage => made (.starred usage) [[place]]
          | _ => place
        let parts ← (targets.zip names).mapM fun (target, n) =>
          match target.kind with
          | .starred _ => assignTarget fuel (target.part 0) n
          | _ => assignTarget fuel target n
        return made (.assign none) [[made (.tuple .store) [spread]], [load name]] :: parts.flatten
      | _, _ =>
        let (before, slots) ← hoistSlots hoisted slots
        return before ++ [made (.assign none) [[.node m kind slots], [load name]]]

def augment (op : BinaryOperator) (target value : Tree) : Fresh (List Tree) := do
  let (before, place) ← match target with
    | .node _ (.name ..) _ => pure ([], target)
    | .node m kind slots => do
        let (first, parts) ← hoistAll (fun t => do
          let (b, t) ← hoisted t
          let (kept, t) ← keep t
          return (b ++ kept, t)) slots.flatten
        pure (first, .node m kind (regroup slots parts))
  let reading := match place with
    | .node m (.name id _) slots => .node m (.name id .load) slots
    | .node m (.attribute name _) slots => .node m (.attribute name .load) slots
    | .node m (.subscript _) slots => .node m (.subscript .load) slots
    | other => other
  let n ← fresh
  let (more, value) ← hoisted value
  return before ++ [store n reading] ++ more ++
    [made (.augAssign op) [[made (.name n .store) []], [value]],
      made (.assign none) [[place], [load n]]]

def block (statement : Tree → Fresh (List Tree)) (ts : List Tree) : Fresh (List Tree) := do
  return (← ts.mapM statement).flatten

def testedLoop (before : List Tree) (test : Tree) (body orElse : List Tree) : Fresh (List Tree) := do
  let n ← fresh
  let truth := fun (b : Bool) => made (.constant (.bool b) false) []
  let leave := made .ifStmt [[made (.unaryOp .not) [[test]]],
    [store n (truth true), made .breakStmt []], []]
  return [store n (truth false),
    made .whileLoop [[truth true], before ++ leave :: body, []],
    made .ifStmt [[load n], orElse ++ [made .pass []], []]]

def statement : Nat → Tree → Fresh (List Tree)
  | 0, t => return [t]
  | fuel + 1, .node m kind slots => do
      let t := Tree.node m kind slots
      let inner := block (statement fuel)
      let plainly := do
        let (before, slots) ← hoistSlots hoisted slots
        return before ++ [Tree.node m kind slots]
      if !isOpen t then return [t]
      match kind, slots with
      | .exprStmt, [[.node ym yk ys]] =>
        match yk with
        | .yieldExpr | .yieldFrom =>
          let (before, ys) ← hoistSlots hoisted ys
          return before ++ [.node m kind [[.node ym yk ys]]]
        | _ => plainly
      | .assign c, [targets, [.node ym yk ys]] =>
        let isDirect := match yk, targets with
          | .yieldExpr, [.node _ (.name ..) _] | .yieldFrom, [.node _ (.name ..) _] => true
          | _, _ => false
        if isDirect then
          let (before, ys) ← hoistSlots hoisted ys
          return before ++ [.node m kind [targets, [.node ym yk ys]]]
        let (before, value) ← hoisted (.node ym yk ys)
        if !targets.any isOpen then return before ++ [.node m (.assign c) [targets, [value]]]
        let n ← fresh
        let parts ← targets.mapM fun target => assignTarget target.size target n
        return before ++ [store n value] ++ parts.flatten
      | .augAssign op, [[target], [value]] => augment op target value
      | .assertStmt, [[test], message] =>
        let (before, test) ← hoisted test
        let (more, message) ← hoistAll hoisted message
        return before ++ [made .ifStmt [[test], [made .pass []],
          more ++ [.node m kind [[made (.constant (.bool false) false) []], message]]]]
      | .ifStmt, [[test], body, orElse] =>
        let (before, test) ← hoisted test
        return before ++ [.node m kind [[test], ← inner body, ← inner orElse]]
      | .whileLoop, [[test], body, orElse] =>
        let body ← inner body
        let orElse ← inner orElse
        if !isOpen test then return [.node m kind [[test], body, orElse]]
        let (before, test) ← hoisted test
        testedLoop before test body orElse
      | .forLoop .., [target, source, body, orElse] =>
        let (before, source) ← hoistAll hoisted source
        return before ++ [.node m kind [target, source, ← inner body, ← inner orElse]]
      | .withStmt .., [items, body] =>
        let body ← inner body
        if !items.any isOpen then return [.node m kind [items, body]]
        items.reverse.foldlM (fun (done : List Tree) (item : Tree) => do
          let (before, context) ← hoistAll hoisted (item.slot 0)
          return before ++ [.node m kind [[made .withItem [context, item.slot 1]], done]]) body
      | .tryStmt _, [body, handlers, orElse, last] =>
        let handlers ← handlers.mapM fun h => do
          match h with
          | .node hm hk [type, body] => return Tree.node hm hk [type, ← inner body]
          | h => return h
        return [.node m kind [← inner body, handlers, ← inner orElse, ← inner last]]
      | .matchStmt, [subject, cases] =>
        let (before, subject) ← hoistAll hoisted subject
        let cases ← cases.mapM fun c => do
          match c with
          | .node cm ck [pattern, guard, body] => return Tree.node cm ck [pattern, guard, ← inner body]
          | c => return c
        return before ++ [.node m kind [subject, cases]]
      | .functionDef .., _ | .classDef _, _ => return [t]
      | _, _ => plainly

def ofBody (body : List Tree) : List Tree :=
  ((block (fun t => statement t.size t) body).run 1).1

end Suspension

end MacroExpand
