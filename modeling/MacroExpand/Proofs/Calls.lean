import MacroExpand.Proofs.Displays

/-!
# Readings of calls and functions

A call is read from its callee and its arguments, an attribute and an element from what they are
taken from, and a function without a name from its parameters and its body.
-/

set_option autoImplicit false

namespace MacroExpand

namespace Parser

variable {o : ParseOptions} {c c' : Cursor} {t : Token} {more : List Token}

/-! ## A closing bracket begins no expression -/

theorem leftAssoc_none {operators : List (String × BinaryOperator)} {operand : Parser Tree}
    (front : c.rest = t :: more) (run : operand o c = none) : leftAssoc operators operand o c = none := by
  unfold leftAssoc
  rw [bind_some (here_run front)]
  exact bind_none run

theorem chained_none {between : String} {operator : BoolOperator} {operand : Parser Tree}
    (front : c.rest = t :: more) (run : operand o c = none) :
    chained between operator operand o c = none := by
  unfold chained
  rw [bind_some (here_run front)]
  exact bind_none run

theorem atom_closing {r : Rules} (front : c.rest = t :: more) (is : t.lexeme = (.op, [')'])) :
    atom r o c = none := by
  unfold atom
  rw [bind_some (here_run front), bind_some (peek_run front), kind_eq is]
  simp only [isOp_eq is]
  rfl

theorem expression_closing {r : Rules} (front : c.rest = t :: more) (is : t.lexeme = (.op, [')'])) :
    expression r o c = none := by
  have noWord : ∀ text, t.isWord text = false := by
    intro text
    rw [isWord_eq is]
    rfl
  have primary : primary r o c = none := by
    unfold Parser.primary
    rw [bind_some (here_run front)]
    exact bind_none (atom_closing front is)
  have power : power r o c = none := by
    unfold Parser.power
    rw [bind_some (here_run front)]
    refine bind_none ?_
    unfold awaitPrimary
    rw [bind_some (here_run front), bind_some (takeWord_false front (noWord "await"))]
    exact primary
  have factor : factor r o c = none := by
    unfold Parser.factor
    rw [bind_some (here_run front), bind_some (peek_run front)]
    simp only [isOp_eq is]
    exact power
  have bitOr : bitOr r o c = none :=
    leftAssoc_none front (leftAssoc_none front (leftAssoc_none front (leftAssoc_none front
      (leftAssoc_none front (leftAssoc_none front factor)))))
  have comparison : comparison r o c = none := by
    unfold Parser.comparison
    rw [bind_some (here_run front)]
    exact bind_none bitOr
  have inversion : inversion r o c = none := by
    unfold Parser.inversion
    rw [bind_some (here_run front), bind_some (takeWord_false front (noWord "not"))]
    exact comparison
  have disjunction : disjunction r o c = none := chained_none front (chained_none front inversion)
  unfold expression
  rw [bind_some (atWord_run front "lambda"), noWord, if_neg Bool.false_ne_true,
    bind_some (here_run front)]
  exact bind_none disjunction

theorem one_none {n : Nat} {rule : Rule} {p : Nat → Parser Tree}
    (is : ∀ k, step (rules k) rule = step.single (p k)) (run : ∀ k, p k o c = none) :
    one (rules n) rule o c = none := by
  unfold one
  refine bind_none ?_
  cases n with
  | zero => rfl
  | succ n =>
    unfold rules
    rw [is]
    exact bind_none (run n)

theorem starNamed_closing {n : Nat} (front : c.rest = t :: more) (is : t.lexeme = (.op, [')'])) :
    starNamed (rules n) o c = none := by
  have noName : isFreeName t = false := by
    unfold isFreeName
    rw [kind_eq is]
    rfl
  have noWalrus : atWalrus o c = some (false, c) := by
    have none : name o c = Option.none := by
      unfold name
      exact bind_none (takeIf_none front noName)
    have nothing : ahead (do
        let _ ← name
        op ":=") o c = Option.none := by
      unfold ahead
      rw [bind_none none]
    unfold atWalrus test
    exact orElse_none (bind_none nothing)
  have expression : ∀ k, one (rules k) .expression o c = none := fun k =>
    one_none (p := fun k => expression (rules k)) (fun _ => rfl) fun _ => expression_closing front is
  unfold starNamed
  rw [bind_some (atOp_run front "*"), isOp_eq is]
  refine one_none (p := fun k => named (rules k)) (fun _ => rfl) fun k => ?_
  unfold named
  rw [bind_some (here_run front), bind_some noWalrus, if_neg Bool.false_ne_true]
  exact bind_none (expression k)

section Items

variable {ι : Type} {lex : ι → List Lexeme} {post : ι → Tree → Prop}

/-- A single item with a comma between parentheses is a tuple. -/
theorem reading_single (i : ι) (reading : Reading (lex i) (post i)) :
    Reading ((.op, ['(']) :: (lex i ++ [(.op, [',']), (.op, [')'])]))
      (IsDisplay (.tuple .load) [i] post) := by
  refine Reading.of_atom beginsAtom_parenthesis ?_ ?_
  · exact Unbound.cons (by decide)
      (reading.unbound.append (by decide))
  intro n enough o c tokens s rest front same _
  rw [List.length_cons, List.length_append, List.length_cons, List.length_singleton] at enough
  obtain ⟨opening, inner, rfl, isOpen, same⟩ := cons_tokens same
  obtain ⟨between, final, rfl, left, right⟩ := split_tokens same
  obtain ⟨comma, final, rfl, isComma, right⟩ := cons_tokens right
  obtain ⟨close, none, rfl, isClose, nothing⟩ := cons_tokens right
  rw [List.map_eq_nil_iff] at nothing
  subst nothing
  rw [show opening :: (between ++ [comma, close]) ++ s :: rest =
    opening :: (between ++ comma :: close :: s :: rest) by simp] at front
  have stopComma : Stop comma := stop_comma isComma
  obtain ⟨c1, took, rest1⟩ := op_run (o := o) front (isOp_of_lexeme "(" isOpen)
  obtain ⟨t, u, tail, split, begins, -, -⟩ :=
    reading.front (close :: s :: rest) left stopComma
  obtain ⟨first, c2, run2, rest2, holds⟩ :=
    reading.starNamed n (by omega) o c1 between comma _ rest1 left stopComma
  obtain ⟨c3, took3, rest3⟩ := takeOp_true (o := o) rest2 (isOp_of_lexeme "," isComma)
  have noMore : optional (commaList (starNamed (rules n))) o c3 = some (none, c3) := by
    refine optional_none (bind_none ?_)
    unfold commas
    exact bind_none (starNamed_closing rest3 isClose)
  obtain ⟨c4, took4, rest4⟩ := op_run (o := o) rest3 (isOp_of_lexeme ")" isClose)
  obtain ⟨m, made⟩ := node_run (o := o) (c := c4) { line := opening.line, column := opening.column }
    (.tuple .load) [[first]]
  refine ⟨_, c4, ?_, rest4, m, [first], rfl, List.Forall₂.cons holds List.Forall₂.nil⟩
  rw [atom_open "(" front isOpen (by decide)]
  simp only [if_true]
  unfold parenthesized
  rw [bind_some (here_run front), bind_some took,
    bind_some (takeOp_false (rest1.trans split) (begins.isOp (by decide))),
    if_neg Bool.false_ne_true, bind_some (atWord_run (rest1.trans split) "yield"), begins.noYield,
    if_neg Bool.false_ne_true, bind_some run2, bind_some (atClause_false rest2 stopComma),
    Bool.and_false, if_neg Bool.false_ne_true, bind_some took3, if_pos rfl, bind_some noMore,
    bind_some took4]
  exact made

theorem atomReads_group {lexemes : List Lexeme} {post : Tree → Prop} (reading : Reading lexemes post)
    (unstarred : ∀ tree, post tree → isStarred tree = false) :
    AtomReads ((.op, ['(']) :: (lexemes ++ [(.op, [')'])])) post := by
  intro n o c tokens rest enough front same
  rw [List.length_cons, List.length_append, List.length_singleton] at enough
  obtain ⟨opening, between, close, front, isOpen, left, isClose⟩ := bracket_tokens front same
  have stopClose : Stop close := stop_of_op (s := ")") isClose (by decide)
  obtain ⟨c1, took, rest1⟩ := op_run (o := o) front (isOp_of_lexeme "(" isOpen)
  obtain ⟨t, u, tail, split, begins, -, -⟩ := reading.front rest left stopClose
  obtain ⟨tree, c2, run2, rest2, holds⟩ :=
    reading.starNamed n (by omega) o c1 between close _ rest1 left stopClose
  obtain ⟨c3, took3, rest3⟩ := op_run (o := o) rest2 (isOp_of_lexeme ")" isClose)
  refine ⟨tree, c3, ?_, rest3, holds⟩
  rw [atom_open "(" front isOpen (by decide)]
  simp only [if_true]
  unfold parenthesized
  rw [bind_some (here_run front), bind_some took,
    bind_some (takeOp_false (rest1.trans split) (begins.isOp (by decide))),
    if_neg Bool.false_ne_true, bind_some (atWord_run (rest1.trans split) "yield"), begins.noYield,
    if_neg Bool.false_ne_true, bind_some run2, bind_some (atClause_false rest2 stopClose),
    Bool.and_false, if_neg Bool.false_ne_true,
    bind_some (takeOp_false rest2 (by rw [isOp_eq isClose]; rfl)), if_neg Bool.false_ne_true,
    bind_some took3, unstarred tree holds]
  rfl

/-! ## Arguments -/

theorem argumentsFrom_positional {n : Nat} (fuel : Nat) (a : Arguments) {lexemes : List Lexeme} {kept : Tree → Prop}
    (reading : Reading lexemes kept) (enough : 2 * lexemes.length + 2 ≤ n) {s : Token}
    {tokens rest : List Token} (front : c.rest = tokens ++ s :: rest)
    (same : tokens.map Token.lexeme = lexemes) (stop : Stop s) (unpacked : a.unpacked = false)
    (keywords : a.keywords = []) :
    ∃ v c1, argumentsFrom (rules n) (fuel + 1) a o c =
        (do
          if ← takeOp "," then
            argumentsFrom (rules n) fuel { a with positional := a.positional ++ [v] }
          else
            guardThat (← atOp ")")
            return { a with positional := a.positional ++ [v] } : Parser Arguments) o c1 ∧
      c1.rest = s :: rest ∧ kept v := by
  obtain ⟨t, u, tail, split, begins, -, noEqual⟩ := reading.front rest same stop
  obtain ⟨v, c1, run1, rest1, holds⟩ := reading.one_named n enough o c tokens s rest front same stop
  have front' := front.trans split
  refine ⟨v, c1, ?_, rest1, holds⟩
  conv =>
    lhs
    unfold argumentsFrom
  rw [bind_some (atOp_run front' ")"), begins.isOp (by decide), if_neg Bool.false_ne_true,
    bind_some (here_run front'), bind_some (takeOp_false front' (begins.isOp (by decide))),
    if_neg Bool.false_ne_true, bind_some (atOp_run front' "*"), begins.isOp (by decide),
    if_neg Bool.false_ne_true, bind_some (test_marked_false "=" front' noEqual),
    if_neg Bool.false_ne_true, bind_some run1, bind_some (atClause_false rest1 stop),
    if_neg Bool.false_ne_true, bind_some (atOp_run rest1 "="), stop.isOp _ (by decide)]
  have plain : guardThat (!false && !a.unpacked && a.keywords.isEmpty) o c1 = some ((), c1) := by
    rw [unpacked, keywords]
    rfl
  exact bind_some plain

theorem argumentsFrom_keyword {n : Nat} (fuel : Nat) (a : Arguments) {name : Text} (plain : PlainWord name)
    {lexemes : List Lexeme} {kept : Tree → Prop} (reading : Reading lexemes kept)
    (enough : 2 * lexemes.length + 1 ≤ n) {word equal close : Token} {tokens rest : List Token}
    (front : c.rest = word :: equal :: (tokens ++ close :: rest)) (isWord : word.lexeme = (.name, name))
    (isEqual : equal.lexeme = (.op, ['='])) (isClose : close.lexeme = (.op, [')']))
    (same : tokens.map Token.lexeme = lexemes) :
    ∃ (m : Mark) (v : Tree) (c' : Cursor), argumentsFrom (rules n) (fuel + 1) a o c =
        some ({ a with keywords := a.keywords ++ [.node m (.keyword (some (String.ofList name))) [[v]]] }, c') ∧
      c'.rest = close :: rest ∧ kept v := by
  have notOp : ∀ text, word.isOp text = false := by
    intro text
    rw [isOp_eq isWord]
    rfl
  obtain ⟨c1, run1, rest1⟩ := plain.name_run (o := o) front isWord
  obtain ⟨c2, took2, rest2⟩ := op_run (o := o) rest1 (isOp_of_lexeme "=" isEqual)
  obtain ⟨v, c3, run3, rest3, holds⟩ := reading.one_expression n enough o c2 tokens close rest rest2 same
    (stop_of_op (s := ")") isClose (by decide))
  obtain ⟨m, made⟩ := node_run (o := o) (c := c3) { line := word.line, column := word.column }
    (.keyword (some (String.ofList name))) [[v]]
  have isKeyword : test (do
      let _ ← Parser.name
      op "=") o c = some (true, c) := by
    have marked : (do
        let _ ← Parser.name
        op "=" : Parser Token) o c = some (equal, c2) := (bind_some run1).trans took2
    have looked : ahead (do
        let _ ← Parser.name
        op "=" : Parser Token) o c = some (equal, c) := by
      unfold ahead
      rw [marked]
    unfold test
    exact orElse_some (bind_some looked)
  refine ⟨m, v, c3, ?_, rest3, holds⟩
  unfold argumentsFrom
  rw [bind_some (atOp_run front ")"), notOp, if_neg Bool.false_ne_true, bind_some (here_run front),
    bind_some (takeOp_false front (notOp "**")), if_neg Bool.false_ne_true, bind_some (atOp_run front "*"), notOp,
    if_neg Bool.false_ne_true, bind_some isKeyword, if_pos rfl, bind_some run1, bind_some took2, bind_some run3,
    bind_some made]
  dsimp only
  rw [bind_some (takeOp_false rest3 (by rw [isOp_eq isClose]; rfl)), if_neg Bool.false_ne_true,
    bind_some (atOp_run rest3 ")"), isOp_of_lexeme ")" isClose]
  rfl

theorem argumentsFrom_items {n : Nat} {close : Token} (rest : List Token)
    (isClose : close.lexeme = (.op, [')'])) (items : List ι) :
    ∀ (fuel : Nat) (a : Arguments) (c : Cursor) (tokens : List Token),
      (∀ i ∈ items, Reading (lex i) (post i)) →
      (∀ i ∈ items, 2 * (lex i).length + 2 ≤ n) → items.length < fuel → a.unpacked = false →
      a.keywords = [] → c.rest = tokens ++ close :: rest →
      tokens.map Token.lexeme = listed (items.map lex) →
      ∃ trees c', argumentsFrom (rules n) fuel a o c =
          some ({ a with positional := a.positional ++ trees }, c') ∧ c'.rest = close :: rest ∧
        List.Forall₂ post items trees := by
  have stopClose : Stop close := stop_of_op (s := ")") isClose (by decide)
  induction items with
  | nil =>
    intro fuel a c tokens _ _ enough _ _ front same
    rw [List.map_nil, listed, List.map_eq_nil_iff] at same
    subst same
    obtain ⟨fuel, rfl⟩ : ∃ k, fuel = k + 1 := ⟨fuel - 1, by omega⟩
    refine ⟨[], c, ?_, front, List.Forall₂.nil⟩
    unfold argumentsFrom
    rw [bind_some (atOp_run front ")"), isOp_of_lexeme ")" isClose, if_pos rfl,
      List.append_nil]
    rfl
  | cons i items ih =>
    intro fuel a c tokens each bounds enough unpacked keywords front same
    rw [List.length_cons] at enough
    obtain ⟨fuel, rfl⟩ : ∃ k, fuel = k + 1 := ⟨fuel - 1, by omega⟩
    obtain ⟨before, after, rfl, left, same1⟩ := split_tokens same
    obtain ⟨u1, tail1, form1, stop1, -⟩ := separated_front rest stopClose (items.map lex) after same1
    rw [List.append_assoc, form1] at front
    obtain ⟨v, c1, run1, rest1, holds⟩ := argumentsFrom_positional (o := o) fuel a (each i (by simp))
      (bounds i (by simp)) front left stop1 unpacked keywords
    rw [← form1] at rest1
    -- what follows one argument: the end, or a comma and the other arguments
    obtain ⟨trees, c2, run2, rest2, all⟩ : ∃ trees c2,
        (do
          if ← takeOp "," then
            argumentsFrom (rules n) fuel { a with positional := a.positional ++ [v] }
          else
            guardThat (← atOp ")")
            return { a with positional := a.positional ++ [v] } : Parser Arguments) o c1 =
          some ({ a with positional := a.positional ++ v :: trees }, c2) ∧
        c2.rest = close :: rest ∧ List.Forall₂ post items trees := by
      cases items with
      | nil =>
        rw [List.map_nil, separated, List.flatMap_nil, List.map_eq_nil_iff] at same1
        subst same1
        refine ⟨[], c1, ?_, rest1, List.Forall₂.nil⟩
        rw [bind_some (takeOp_false rest1 (by rw [isOp_eq isClose]; rfl)),
          if_neg Bool.false_ne_true, bind_some (atOp_run rest1 ")"),
          isOp_of_lexeme ")" isClose]
        rfl
      | cons j items =>
        obtain ⟨comma, inner, rfl, isComma, same2⟩ := cons_tokens same1
        rw [List.cons_append] at rest1
        obtain ⟨c3, took3, rest3⟩ :=
          takeOp_true (o := o) rest1 (isOp_of_lexeme "," isComma)
        obtain ⟨trees, c4, run4, rest4, all⟩ :=
          ih fuel { a with positional := a.positional ++ [v] } c3 inner
            (fun k member => each k (by simp [member]))
            (fun k member => bounds k (by simp [member])) (by omega) unpacked keywords rest3 same2
        refine ⟨trees, c4, ?_, rest4, all⟩
        rw [bind_some took3, if_pos rfl, run4]
        simp
    exact ⟨v :: trees, c2, run1.trans run2, rest2, List.Forall₂.cons holds all⟩

theorem arguments_items {n : Nat} {close : Token} {rest tokens : List Token}
    (isClose : close.lexeme = (.op, [')'])) (items : List ι)
    (each : ∀ i ∈ items, Reading (lex i) (post i)) (bounds : ∀ i ∈ items, 2 * (lex i).length + 2 ≤ n)
    (front : c.rest = tokens ++ close :: rest)
    (same : tokens.map Token.lexeme = listed (items.map lex)) :
    ∃ trees c', arguments (rules n) o c = some ({ positional := trees }, c') ∧
      c'.rest = close :: rest ∧ List.Forall₂ post items trees := by
  have count : items.length ≤ tokens.length := by
    cases items with
    | nil => exact Nat.zero_le _
    | cons i items =>
      obtain ⟨l, tail, form, -⟩ := (each i (by simp)).begins
      obtain ⟨before, after, rfl, left, right⟩ := split_tokens same
      have rest := separated_length items after right
      have first : 0 < before.length := by
        rw [← List.length_map Token.lexeme, left, form]
        exact Nat.succ_pos _
      rw [List.length_append, List.length_cons]
      omega
  obtain ⟨trees, c', run, behind, all⟩ := argumentsFrom_items (o := o) (n := n) rest
    isClose items (c.rest.length + 1) {} c tokens each bounds
    (by rw [front, List.length_append]; omega) rfl rfl front same
  exact ⟨trees, c', run, behind, all⟩

/-! ## Trailers -/

theorem trailers_arguments {r : Rules} (fuel : Nat) (start : Mark) (tree : Tree) {opening close : Token}
    {inner rest : List Token} (kept : Arguments → Prop) (front : c.rest = opening :: inner)
    (isOpen : opening.lexeme = (.op, ['('])) (isClose : close.lexeme = (.op, [')']))
    (inside : ∀ c1 : Cursor, c1.rest = inner → ∃ a c2, arguments r o c1 = some (a, c2) ∧
      c2.rest = close :: rest ∧ a.generator = [] ∧ kept a) :
    ∃ (m : Mark) (a : Arguments) (c' : Cursor),
      trailers r start (fuel + 1) tree o c =
        trailers r start fuel (.node m .call [[tree], a.positional, a.keywords]) o c' ∧
      c'.rest = rest ∧ kept a := by
  obtain ⟨c1, took, rest1⟩ := next_run (o := o) front
  obtain ⟨a, c2, run2, rest2, noGenerator, holds⟩ := inside c1 rest1
  obtain ⟨c3, took3, rest3⟩ := op_run (o := o) rest2 (isOp_of_lexeme ")" isClose)
  obtain ⟨m, made⟩ := node_run (o := o) (c := c3) start .call [[tree], a.positional, a.keywords]
  refine ⟨m, a, c3, ?_, rest3, holds⟩
  conv =>
    lhs
    unfold trailers
  rw [bind_some (peek_run front)]
  simp only [isOp_eq isOpen]
  refine (bind_some (here_run front)).trans ((bind_some took).trans ((bind_some run2).trans
    ((bind_some took3).trans ?_)))
  simp only [noGenerator]
  exact bind_some made

theorem trailers_call {n : Nat} (fuel : Nat) (start : Mark) (tree : Tree) {opening close : Token}
    {between rest : List Token} (items : List ι) (each : ∀ i ∈ items, Reading (lex i) (post i))
    (bounds : ∀ i ∈ items, 2 * (lex i).length + 2 ≤ n)
    (front : c.rest = opening :: (between ++ close :: rest)) (isOpen : opening.lexeme = (.op, ['(']))
    (isClose : close.lexeme = (.op, [')']))
    (same : between.map Token.lexeme = listed (items.map lex)) :
    ∃ (m : Mark) (trees : List Tree) (c' : Cursor),
      trailers (rules n) start (fuel + 1) tree o c =
        trailers (rules n) start fuel (.node m .call [[tree], trees, []]) o c' ∧
      c'.rest = rest ∧ List.Forall₂ post items trees := by
  obtain ⟨m, a, c', run, behind, trees, rfl, all⟩ := trailers_arguments (o := o) (r := rules n) fuel start tree
    (fun a => ∃ trees, a = { positional := trees } ∧ List.Forall₂ post items trees) front isOpen isClose
    (fun c1 rest1 => by
      obtain ⟨trees, c2, run2, rest2, all⟩ := arguments_items (o := o) isClose items each bounds rest1 same
      exact ⟨_, c2, run2, rest2, rfl, trees, rfl, all⟩)
  exact ⟨m, trees, c', run, behind, all⟩

theorem trailers_attribute {r : Rules} (fuel : Nat) (start : Mark) (tree : Tree) {text : Text}
    (plain : PlainWord text) {point word : Token} {rest : List Token}
    (front : c.rest = point :: word :: rest) (isPoint : point.lexeme = (.op, ['.']))
    (isWord : word.lexeme = (.name, text)) :
    ∃ (m : Mark) (c' : Cursor), trailers r start (fuel + 1) tree o c =
        trailers r start fuel (.node m (.attribute (String.ofList text) .load) [[tree]]) o c' ∧
      c'.rest = rest := by
  obtain ⟨c1, took, rest1⟩ := next_run (o := o) front
  obtain ⟨c2, run2, rest2⟩ := plain.name_run (o := o) rest1 isWord
  obtain ⟨m, made⟩ := node_run (o := o) (c := c2) start (.attribute (String.ofList text) .load) [[tree]]
  refine ⟨m, c2, ?_, rest2⟩
  conv =>
    lhs
    unfold trailers
  rw [bind_some (peek_run front)]
  simp only [isOp_eq isPoint]
  exact (bind_some took).trans ((bind_some run2).trans (bind_some made))

theorem trailers_subscript {n : Nat} (fuel : Nat) (start : Mark) (tree : Tree) {lexemes : List Lexeme}
    {post : Tree → Prop} (reading : Reading lexemes post)
    (unstarred : ∀ tree, post tree → isStarred tree = false) (enough : 2 * lexemes.length + 2 ≤ n)
    {opening close : Token} {between rest : List Token}
    (front : c.rest = opening :: (between ++ close :: rest)) (isOpen : opening.lexeme = (.op, ['[']))
    (isClose : close.lexeme = (.op, [']'])) (same : between.map Token.lexeme = lexemes) :
    ∃ (m : Mark) (i : Tree) (c' : Cursor), trailers (rules n) start (fuel + 1) tree o c =
        trailers (rules n) start fuel (.node m (.subscript .load) [[tree], [i]]) o c' ∧
      c'.rest = rest ∧ post i := by
  have stopClose : Stop close := stop_of_op (s := "]") isClose (by decide)
  obtain ⟨c1, took, rest1⟩ := next_run (o := o) front
  obtain ⟨t, u, tail, split, begins, noWalrus, -⟩ := reading.front rest same stopClose
  obtain ⟨i, c2, run2, rest2, holds⟩ := reading.one_named n enough o c1 between close rest rest1 same stopClose
  have front1 := rest1.trans split
  have isIndex : index (rules n) o c1 = some (i, c2) := by
    unfold index
    rw [bind_some (here_run front1), bind_some (atOp_run front1 "*"), begins.isOp (by decide),
      if_neg Bool.false_ne_true, bind_some (atWalrus_false front1 noWalrus),
      bind_some (atOp_run front1 ":"), begins.isOp (by decide)]
    refine (bind_some run2).trans ?_
    exact bind_some (takeOp_false rest2 (by rw [isOp_eq isClose]; rfl))
  have isIndices : indices (rules n) o c1 = some (i, c2) := by
    have list : commaList (index (rules n)) o c1 = some (([i], false), c2) := by
      have noComma : close.isOp "," = false := by
        rw [isOp_eq isClose]
        rfl
      unfold commaList commas
      rw [bind_some ((bind_some isIndex).trans
        (bind_some (many_none (bind_none (op_none rest2 noComma))))), bind_some (takeOp_false rest2 noComma)]
      rfl
    unfold indices
    rw [bind_some (here_run front1), bind_some list]
    simp only [unstarred i holds, Bool.false_eq_true, if_false]
    rfl
  obtain ⟨c3, took3, rest3⟩ := op_run (o := o) rest2 (isOp_of_lexeme "]" isClose)
  obtain ⟨m, made⟩ := node_run (o := o) (c := c3) start (.subscript .load) [[tree], [i]]
  refine ⟨m, i, c3, ?_, rest3, holds⟩
  conv =>
    lhs
    unfold trailers
  rw [bind_some (peek_run front)]
  simp only [isOp_eq isOpen]
  exact (bind_some took).trans ((bind_some isIndices).trans ((bind_some took3).trans (bind_some made)))

def IsCall (callee : Tree → Prop) (items : List ι) (post : ι → Tree → Prop) (tree : Tree) : Prop :=
  ∃ (m : Mark) (inner : Tree) (trees : List Tree), tree = .node m .call [[inner], trees, []] ∧
    callee inner ∧ List.Forall₂ post items trees

def callLexemes (items : List (List Lexeme)) : List Lexeme :=
  (.op, ['(']) :: (listed items ++ [(.op, [')'])])

theorem unbound_callLexemes {items : List ι} (each : ∀ i ∈ items, Reading (lex i) (post i)) :
    Unbound (callLexemes (items.map lex)) :=
  unbound_bracketed each (by decide) (by decide)

theorem bounds_callLexemes (lex : ι → List Lexeme) {items : List ι} (front : List Lexeme) {n : Nat}
    (enough : 2 * (front ++ callLexemes (items.map lex)).length ≤ n) :
    ∀ i ∈ items, 2 * (lex i).length + 2 ≤ n := by
  intro i member
  have bound := length_le_listed (List.mem_map_of_mem (f := lex) member)
  unfold callLexemes at enough
  rw [List.length_append, List.length_cons, List.length_append, List.length_singleton] at enough
  omega

theorem reading_call {l : Lexeme} {tail : List Lexeme} {callee : Tree → Prop}
    (reads : AtomReads (l :: tail) callee) (begins : BeginsAtom l) (unbound : Unbound (l :: tail))
    (items : List ι) (each : ∀ i ∈ items, Reading (lex i) (post i)) :
    Reading (l :: tail ++ callLexemes (items.map lex)) (IsCall callee items post) := by
  refine Reading.of_primary rfl begins (unbound.append (unbound_callLexemes each)) ?_
  intro n enough o c tokens s rest front same stop
  have bounds := bounds_callLexemes lex (l :: tail) enough
  obtain ⟨before, after, rfl, left, right⟩ := split_tokens same
  rw [List.append_assoc] at front
  obtain ⟨tree, c1, run1, rest1, holds⟩ := reads n o c before _ (by
    rw [List.length_append] at enough
    omega) front left
  obtain ⟨opening, between, close, front1, isOpen, same1, isClose⟩ := bracket_tokens rest1 right
  obtain ⟨t, others, rfl, -, -⟩ := cons_tokens left
  rw [List.cons_append] at front
  obtain ⟨m, trees, c2, run2, rest2, all⟩ := trailers_call (o := o) c1.rest.length
    { line := t.line, column := t.column } tree items each bounds front1 isOpen
    isClose same1
  refine ⟨_, c2, ?_, rest2, m, tree, trees, rfl, holds, all⟩
  exact ((primary_of_atom front run1).trans run2).trans (trailers_stop rest2 stop)

def IsMethod (object method : Text) (tree : Tree) : Prop :=
  ∃ (m : Mark) (inner : Tree), tree = .node m (.attribute (String.ofList method) .load) [[inner]] ∧
    IsName object inner

theorem reading_method {object method : Text} (plain : PlainWord object) (plain' : PlainWord method)
    (items : List ι) (each : ∀ i ∈ items, Reading (lex i) (post i)) :
    Reading ([(.name, object), (.op, ['.']), (.name, method)] ++ callLexemes (items.map lex))
      (IsCall (IsMethod object method) items post) := by
  refine Reading.of_primary rfl plain.beginsAtom ?_ ?_
  · refine Unbound.append (Unbound.append (unbound_name object)
      (Unbound.cons (by decide) (unbound_name method)))
      (unbound_callLexemes each)
  intro n enough o c tokens s rest front same stop
  have bounds := bounds_callLexemes lex [(.name, object), (.op, ['.']), (.name, method)] enough
  obtain ⟨before, after, rfl, left, right⟩ := split_tokens same
  obtain ⟨first, others, rfl, isFirst, left⟩ := cons_tokens left
  obtain ⟨point, others, rfl, isPoint, left⟩ := cons_tokens left
  obtain ⟨word, others, rfl, isWord, left⟩ := cons_tokens left
  rw [List.map_eq_nil_iff] at left
  subst left
  rw [List.append_assoc] at front
  simp only [List.cons_append, List.nil_append] at front
  obtain ⟨m1, c1, run1, rest1⟩ := atom_name (r := rules n) (o := o) plain front isFirst
  obtain ⟨m2, c2, run2, rest2⟩ := trailers_attribute (o := o) (r := rules n)
    c1.rest.length { line := first.line, column := first.column }
    (.node m1 (.name (String.ofList object) .load) []) plain' rest1
    isPoint isWord
  obtain ⟨opening, between, close, front2, isOpen, same2, isClose⟩ := bracket_tokens rest2 right
  have longer : c1.rest.length = (c1.rest.length - 1) + 1 := by
    rw [rest1]
    rfl
  obtain ⟨m, trees, c3, run3, rest3, all⟩ := trailers_call (o := o) (c1.rest.length - 1)
    { line := first.line, column := first.column }
    (.node m2 (.attribute (String.ofList method) .load)
      [[.node m1 (.name (String.ofList object) .load) []]])
    items each bounds front2 isOpen isClose same2
  refine ⟨_, c3, ?_, rest3, m, _, trees, rfl, ⟨m2, _, rfl, m1, rfl⟩, all⟩
  rw [← longer] at run3
  exact (((primary_of_atom front run1).trans run2).trans run3).trans (trailers_stop rest3 stop)

def IsElement (container index : Tree → Prop) (tree : Tree) : Prop :=
  ∃ (m : Mark) (inner i : Tree), tree = .node m (.subscript .load) [[inner], [i]] ∧
    container inner ∧ index i

theorem reading_element {l : Lexeme} {tail lexemes : List Lexeme} {container index : Tree → Prop}
    (reads : AtomReads (l :: tail) container) (begins : BeginsAtom l) (unbound : Unbound (l :: tail))
    (reading : Reading lexemes index) (unstarred : ∀ tree, index tree → isStarred tree = false) :
    Reading (l :: tail ++ (.op, ['[']) :: (lexemes ++ [(.op, [']'])])) (IsElement container index) := by
  refine Reading.of_primary rfl begins (unbound.append (Unbound.cons (by decide)
    (reading.unbound.append (by decide)))) ?_
  intro n enough o c tokens s rest front same stop
  obtain ⟨before, after, rfl, left, right⟩ := split_tokens same
  rw [List.append_assoc] at front
  have enough' := enough
  rw [List.length_append, List.length_cons (a := (TokenKind.op, ['['])), List.length_append,
    List.length_singleton] at enough'
  obtain ⟨tree, c1, run1, rest1, holds⟩ := reads n o c before _ (by omega) front left
  obtain ⟨opening, between, close, front1, isOpen, same1, isClose⟩ := bracket_tokens rest1 right
  obtain ⟨t, others, rfl, -, -⟩ := cons_tokens left
  rw [List.cons_append] at front
  obtain ⟨m, i, c2, run2, rest2, isIndex⟩ := trailers_subscript (o := o) (n := n) c1.rest.length
    { line := t.line, column := t.column } tree reading unstarred (by omega) front1
    isOpen isClose same1
  refine ⟨_, c2, ?_, rest2, m, tree, i, rfl, holds, isIndex⟩
  exact ((primary_of_atom front run1).trans run2).trans (trailers_stop rest2 stop)

end Items

/-! ## Signs -/

def IsNegated (value : Scalar) (tree : Tree) : Prop :=
  ∃ (m : Mark) (inner : Tree), tree = .node m (.unaryOp .minus) [[inner]] ∧ IsConstant value inner

theorem reading_negated {text : Text} {value : Scalar} (is : Number.value text = value)
    (short : Number.isTooLong text = false) (noGap : text.contains '_' = false) :
    Reading [(.op, ['-']), (.number, text)] (IsNegated value) := by
  refine ⟨⟨_, _, rfl, Or.inr (Or.inr (Or.inr ⟨rfl, "-", by decide, rfl⟩))⟩, ?_, ?_⟩
  · exact Unbound.cons (by decide) (reading_number is short noGap).unbound
  intro n enough o c tokens s rest front same stop
  obtain ⟨sign, after, rfl, isSign, same⟩ := cons_tokens same
  obtain ⟨t, after, rfl, isNumber, none⟩ := cons_tokens same
  rw [List.map_eq_nil_iff] at none
  subst none
  rw [List.length_cons, List.length_singleton] at enough
  obtain ⟨n, rfl⟩ : ∃ k, n = k + 1 := ⟨n - 1, by omega⟩
  obtain ⟨c1, took, rest1⟩ := next_run (o := o) front
  obtain ⟨inner, c2, run2, rest2, isInner⟩ :=
    atom_number (o := o) (r := rules n) is short noGap rest1 isNumber
  have run : primary (rules n) o c1 = some (inner, c2) :=
    (primary_of_atom rest1 run2).trans (trailers_stop rest2 stop)
  have operand : BeginsOperand t := BeginsAtom.operand (by rw [isNumber]; exact Or.inl rfl)
  have inside : one (rules (n + 1)) .factor o c1 = some (inner, c2) :=
    one_of_single (p := factor (rules n)) rfl (factor_of_primary rest1 operand run rest2 stop)
  obtain ⟨m, made⟩ := node_run (o := o) (c := c2) { line := sign.line, column := sign.column }
    (.unaryOp .minus) [[inner]]
  have whole : factor (rules (n + 1)) o c = some (.node m (.unaryOp .minus) [[inner]], c2) := by
    unfold factor
    rw [bind_some (here_run front), bind_some (peek_run front)]
    simp only [isOp_eq isSign]
    exact (bind_some took).trans ((bind_some inside).trans made)
  refine ⟨_, c2, expression_of_factor front whole rest2 stop ?_ ?_, rest2, m, inner, rfl, isInner⟩
  · rw [isWord_eq isSign]
    rfl
  · rw [isWord_eq isSign]
    rfl

/-! ## Functions without a name -/

def IsParameter (name : Text) (tree : Tree) : Prop :=
  ∃ m : Mark, tree = .node m (.arg (String.ofList name) none) [[]]

def nameLexemes (name : Text) : List Lexeme := [(.name, name)]

theorem stops_colon {colon : Token} (isColon : colon.lexeme = (.op, [':'])) : colon.isOp ":" = true :=
  isOp_of_lexeme ":" isColon

theorem parametersFrom_names {r : Rules} {colon : Token} {rest : List Token}
    (isColon : colon.lexeme = (.op, [':'])) (names : List Text) :
    ∀ (fuel : Nat) (done : List Tree) (c : Cursor) (tokens : List Token),
      (∀ name ∈ names, PlainWord name) → names.length < fuel → c.rest = tokens ++ colon :: rest →
      tokens.map Token.lexeme = listed (names.map nameLexemes) →
      ∃ trees c', parametersFrom r false (·.isOp ":") fuel { positional := done } o c =
          some ({ positional := done ++ trees }, c') ∧ c'.rest = colon :: rest ∧
        List.Forall₂ IsParameter names trees := by
  induction names with
  | nil =>
    intro fuel done c tokens _ enough front same
    rw [List.map_nil, listed, List.map_eq_nil_iff] at same
    subst same
    obtain ⟨fuel, rfl⟩ : ∃ k, fuel = k + 1 := ⟨fuel - 1, by omega⟩
    refine ⟨[], c, ?_, front, List.Forall₂.nil⟩
    unfold parametersFrom
    rw [bind_some (peek_run front), stops_colon isColon, if_pos rfl, List.append_nil]
    rfl
  | cons name names ih =>
    intro fuel done c tokens plain enough front same
    rw [List.length_cons] at enough
    obtain ⟨fuel, rfl⟩ : ∃ k, fuel = k + 1 := ⟨fuel - 1, by omega⟩
    have split : tokens.map Token.lexeme = (.name, name) :: separated (names.map nameLexemes) := same
    obtain ⟨word, after, rfl, isWord, same⟩ := cons_tokens split
    rw [List.cons_append] at front
    obtain ⟨c1, run1, rest1⟩ := (plain name (by simp)).name_run (o := o) front isWord
    obtain ⟨m, made⟩ := node_run (o := o) (c := c1) { line := word.line, column := word.column }
      (.arg (String.ofList name) none) [[]]
    have notOp : ∀ text, word.isOp text = false := by
      intro text
      rw [isOp_eq isWord]
      rfl
    have isParameter : parameter r false false o c =
        some (.node m (.arg (String.ofList name) none) [[]], c1) := by
      unfold parameter
      rw [bind_some (here_run front), bind_some run1]
      exact made
    obtain ⟨u, tail, form, stop, -⟩ := separated_front rest
      (stop_of_op (s := ":") isColon (by decide)) (names.map nameLexemes) after same
    have front1 := rest1.trans form
    -- behind a parameter: a comma and the others, or the colon
    obtain ⟨comma, c2, inner, run2, rest2, goesOn, same2⟩ : ∃ comma c2 inner,
        takeOp "," o c1 = some (comma, c2) ∧ c2.rest = inner ++ colon :: rest ∧
        (∃ u tail, c2.rest = u :: tail ∧ (comma || u.isOp ":") = true) ∧
        inner.map Token.lexeme = listed (names.map nameLexemes) := by
      cases names with
      | nil =>
        rw [List.map_nil, separated, List.flatMap_nil, List.map_eq_nil_iff] at same
        subst same
        refine ⟨false, c1, [], takeOp_false rest1 ?_, rest1, ⟨colon, rest, rest1, ?_⟩, rfl⟩
        · rw [isOp_eq isColon]
          rfl
        · exact stops_colon isColon
      | cons other names =>
        obtain ⟨sep, inner, rfl, isComma, same⟩ := cons_tokens same
        rw [List.cons_append] at rest1
        obtain ⟨c2, took, rest2⟩ :=
          takeOp_true (o := o) rest1 (isOp_of_lexeme "," isComma)
        obtain ⟨v, others, rfl, -, -⟩ := cons_tokens same
        exact ⟨true, c2, _, took, rest2, ⟨v, _, rest2, rfl⟩, same⟩
    obtain ⟨u2, tail2, front2, goesOn⟩ := goesOn
    have behind : afterParameter false (.node m (.arg (String.ofList name) none) [[]]) o c1 =
        some ((.node m (.arg (String.ofList name) none) [[]], comma), c2) := by
      unfold afterParameter
      rw [bind_some run2]
      rfl
    obtain ⟨trees, c3, run3, rest3, all⟩ :=
      ih fuel (done ++ [.node m (.arg (String.ofList name) none) [[]]]) c2 inner
        (fun x member => plain x (by simp [member])) (by omega) rest2 same2
    rw [List.append_assoc] at run3
    refine ⟨.node m (.arg (String.ofList name) none) [[]] :: trees, c3, ?_, rest3,
      List.Forall₂.cons ⟨m, rfl⟩ all⟩
    unfold parametersFrom
    rw [bind_some (peek_run front), notOp, if_neg Bool.false_ne_true, notOp,
      if_neg Bool.false_ne_true, notOp, if_neg Bool.false_ne_true, notOp, if_neg Bool.false_ne_true,
      bind_some isParameter, bind_some (takeOp_false front1 (stop.isOp _ (by decide)))]
    refine (bind_some behind).trans ((bind_some (peek_run front2)).trans ?_)
    rw [goesOn]
    exact run3

def IsLambda (names : List Text) (body : Tree → Prop) (tree : Tree) : Prop :=
  ∃ (m : Mark) (trees : List Tree) (inner : Tree), tree = .node m .lambdaExpr
      [[.node {} .arguments [[], trees, [], [], [], [], []]], [inner]] ∧
    List.Forall₂ IsParameter names trees ∧ body inner

theorem unbound_names (names : List Text) : Unbound (listed (names.map nameLexemes)) := by
  refine unbound_listed ?_
  intro item member
  obtain ⟨name, -, rfl⟩ := List.mem_map.mp member
  exact unbound_name name

theorem reading_lambda {names : List Text} (plain : ∀ name ∈ names, PlainWord name)
    {lexemes : List Lexeme} {post : Tree → Prop} (reading : Reading lexemes post) :
    Reading ((.name, chars "lambda") :: (listed (names.map nameLexemes) ++ (.op, [':']) :: lexemes))
      (IsLambda names post) := by
  refine ⟨⟨_, _, rfl, Or.inr (Or.inr (Or.inl ⟨rfl, by decide⟩))⟩, ?_, ?_⟩
  · exact Unbound.append (unbound_name (chars "lambda"))
      ((unbound_names names).append (Unbound.cons (by decide) reading.unbound))
  intro n enough o c tokens s rest front same stop
  rw [List.length_cons, List.length_append, List.length_cons] at enough
  obtain ⟨word, after, rfl, isWord, same⟩ := cons_tokens same
  obtain ⟨before, after, rfl, left, right⟩ := split_tokens same
  obtain ⟨colon, inner, rfl, isColon, right⟩ := cons_tokens right
  rw [show word :: (before ++ colon :: inner) ++ s :: rest =
    word :: (before ++ colon :: (inner ++ s :: rest)) by simp] at front
  have isLambda : word.isWord "lambda" = true := by
    rw [isWord_eq isWord]
    rfl
  obtain ⟨c1, took, rest1⟩ := takeIf_run (o := o) (·.isWord "lambda") front isLambda
  have count : names.length ≤ before.length := by
    cases names with
    | nil => exact Nat.zero_le _
    | cons name names =>
      have split : before.map Token.lexeme = (.name, name) :: separated (names.map nameLexemes) := left
      obtain ⟨first, others, rfl, -, left⟩ := cons_tokens split
      have rest := separated_length names others left
      rw [List.length_cons, List.length_cons]
      omega
  obtain ⟨trees, c2, run2, rest2, all⟩ := parametersFrom_names (o := o) (r := rules n) isColon names
    (c1.rest.length + 1) [] c1 before plain (by rw [rest1, List.length_append]; omega) rest1 left
  obtain ⟨c3, took3, rest3⟩ := op_run (o := o) rest2 (stops_colon isColon)
  obtain ⟨body, c4, run4, rest4, holds⟩ :=
    reading.one_expression n (by omega) o c3 inner s rest rest3 right stop
  obtain ⟨m, made⟩ := node_run (o := o) (c := c4) { line := word.line, column := word.column } .lambdaExpr
    [[.node {} .arguments [[], trees, [], [], [], [], []]], [body]]
  refine ⟨_, c4, ?_, rest4, m, trees, body, rfl, all, holds⟩
  have isParameters : parameters (rules n) false (·.isOp ":") o c1 =
      some (.node {} .arguments [[], trees, [], [], [], [], []], c2) := by
    unfold parameters
    rw [bind_some run2]
    rfl
  unfold expression
  rw [bind_some (atWord_run front "lambda"), isLambda, if_pos rfl]
  unfold lambdaExpr
  rw [bind_some (here_run front), bind_some (p := Parser.word "lambda") took, bind_some isParameters,
    bind_some took3, bind_some run4]
  exact made

end Parser

end MacroExpand
