import MacroExpand.Proofs.Cutting
import MacroExpand.Syntax.Parser
import Mathlib.Data.List.Forall2

/-!
# Reading displays

What the grammar makes of the tokens of a display is followed rule by rule.  `Reads p lexemes post`
says that a parsing step takes exactly the tokens `lexemes` when they stand in front of a comma, of a
closing bracket, of a colon or of the end, and that its result satisfies `post`.  An expression that
begins with an atom runs through all the rules for operators unchanged, and a display is read from
its parts.
-/

set_option autoImplicit false

namespace MacroExpand

namespace Parser

variable {α β : Type} {o : ParseOptions} {c c' : Cursor}

/-! ## Steps one after the other -/

theorem bind_some {p : Parser α} {f : α → Parser β} {a : α} (run : p o c = some (a, c')) :
    (p >>= f) o c = f a o c' := by
  show Parser.bind p f o c = _
  rw [Parser.bind, run]

theorem bind_none {p : Parser α} {f : α → Parser β} (run : p o c = none) : (p >>= f) o c = none := by
  show Parser.bind p f o c = _
  rw [Parser.bind, run]

/-- What follows a choice between two steps follows the one that was chosen. -/
theorem bind_choice {p q : Parser α} {f : α → Parser β} {b : Bool} {a : α}
    (run : (if b = true then p else q) o c = some (a, c')) :
    (if b = true then p >>= f else q >>= f) o c = f a o c' := by
  cases b with
  | true => exact bind_some run
  | false => exact bind_some run

theorem orElse_some {p q : Parser α} {a : α} (run : p o c = some (a, c')) :
    orElse p q o c = some (a, c') := by
  unfold orElse
  rw [run]

theorem orElse_none {p q : Parser α} (run : p o c = none) : orElse p q o c = q o c := by
  unfold orElse
  rw [run]

theorem optional_some {p : Parser α} {a : α} (run : p o c = some (a, c')) :
    optional p o c = some (some a, c') := by
  unfold optional
  exact orElse_some (bind_some run)

theorem optional_none {p : Parser α} (run : p o c = none) : optional p o c = some (none, c) := by
  unfold optional
  exact orElse_none (bind_none run)

theorem many_none {p : Parser α} (run : p o c = none) : many p o c = some ([], c) := by
  unfold many repeatFrom
  rw [bind_some (optional_none run)]
  rfl

/-! ## Looking at the next token -/

variable {t : Token} {more : List Token}

theorem peek_run (front : c.rest = t :: more) : peek o c = some (t, c) := by
  unfold peek
  rw [front]

theorem next_run (front : c.rest = t :: more) : ∃ c', next o c = some (t, c') ∧ c'.rest = more := by
  unfold next
  rw [front]
  simp only
  split <;> exact ⟨_, rfl, rfl⟩

theorem here_run (front : c.rest = t :: more) :
    here o c = some ({ line := t.line, column := t.column }, c) := by
  unfold here
  rw [bind_some (peek_run front)]
  rfl

theorem takeIf_run (fits : Token → Bool) (front : c.rest = t :: more) (fit : fits t = true) :
    ∃ c', takeIf fits o c = some (t, c') ∧ c'.rest = more := by
  obtain ⟨c', run, rest⟩ := next_run (o := o) front
  refine ⟨c', ?_, rest⟩
  unfold takeIf
  rw [bind_some (peek_run front), if_pos fit, run]

theorem takeIf_none {fits : Token → Bool} (front : c.rest = t :: more) (fit : fits t = false) :
    takeIf fits o c = none := by
  unfold takeIf
  rw [bind_some (peek_run front), fit]
  rfl

theorem atOp_run (front : c.rest = t :: more) (text : String) :
    atOp text o c = some (t.isOp text, c) := by
  unfold atOp
  rw [bind_some (peek_run front)]
  rfl

theorem atWord_run (front : c.rest = t :: more) (text : String) :
    atWord text o c = some (t.isWord text, c) := by
  unfold atWord
  rw [bind_some (peek_run front)]
  rfl

theorem takeOp_true {text : String} (front : c.rest = t :: more) (is : t.isOp text = true) :
    ∃ c', takeOp text o c = some (true, c') ∧ c'.rest = more := by
  obtain ⟨c', run, rest⟩ := next_run (o := o) front
  refine ⟨c', ?_, rest⟩
  unfold takeOp
  rw [bind_some (atOp_run front text), is, if_pos rfl, bind_some run]
  rfl

theorem takeOp_false {text : String} (front : c.rest = t :: more) (is : t.isOp text = false) :
    takeOp text o c = some (false, c) := by
  unfold takeOp
  rw [bind_some (atOp_run front text), is]
  rfl

theorem takeWord_false {text : String} (front : c.rest = t :: more) (is : t.isWord text = false) :
    takeWord text o c = some (false, c) := by
  unfold takeWord
  rw [bind_some (atWord_run front text), is]
  rfl

theorem op_run {text : String} (front : c.rest = t :: more) (is : t.isOp text = true) :
    ∃ c', op text o c = some (t, c') ∧ c'.rest = more := takeIf_run _ front is

theorem op_none {text : String} (front : c.rest = t :: more) (is : t.isOp text = false) :
    op text o c = none := takeIf_none front is

theorem word_none {text : String} (front : c.rest = t :: more) (is : t.isWord text = false) :
    word text o c = none := takeIf_none front is

theorem node_run (start : Mark) (kind : Kind) (slots : List (List Tree)) :
    ∃ m : Mark, node start kind slots o c = some (.node m kind slots, c) := ⟨_, rfl⟩

/-! ## Kinds of tokens -/

theorem isOp_eq {l : Lexeme} (same : t.lexeme = l) (text : String) :
    t.isOp text = (decide (l.1 = .op) && decide (l.2 = text.toList)) := by
  subst same
  rfl

theorem isWord_eq {l : Lexeme} (same : t.lexeme = l) (text : String) :
    t.isWord text = (decide (l.1 = .name) && decide (l.2 = text.toList)) := by
  subst same
  rfl

theorem kind_eq {l : Lexeme} (same : t.lexeme = l) : t.kind = l.1 := by
  subst same
  rfl

theorem text_eq {l : Lexeme} (same : t.lexeme = l) : t.text = l.2 := by
  subst same
  rfl

def stopOperators : List String := [",", ")", "]", "\x7d", ":"]

def Stop (t : Token) : Prop :=
  (t.kind = .op ∧ ∃ s ∈ stopOperators, t.text = s.toList) ∨ t.kind = .newline ∨ t.kind = .finish

theorem Stop.isWord (stop : Stop t) (text : String) : t.isWord text = false := by
  unfold Token.isWord
  rcases stop with ⟨kind, -⟩ | kind | kind <;> rw [kind] <;> rfl

theorem Stop.isOp (stop : Stop t) (text : String) (other : ∀ s ∈ stopOperators, s.toList ≠ text.toList) :
    t.isOp text = false := by
  unfold Token.isOp
  rcases stop with ⟨-, s, member, same⟩ | kind | kind
  · rw [same, decide_eq_false (other s member), Bool.and_false]
  · rw [kind]
    rfl
  · rw [kind]
    rfl

theorem stop_of_op {s : String} (same : t.lexeme = (.op, s.toList)) (member : s ∈ stopOperators) :
    Stop t := Or.inl ⟨kind_eq same, s, member, text_eq same⟩

/-- A token that begins an operand: neither a sign nor a word in front of one. -/
structure BeginsOperand (t : Token) : Prop where
  plus : t.isOp "+" = false
  minus : t.isOp "-" = false
  invert : t.isOp "~" = false
  await : t.isWord "await" = false
  not : t.isWord "not" = false
  lambda : t.isWord "lambda" = false

/-! ## From an operand to an expression -/

theorem leftAssoc_stop {operators : List (String × BinaryOperator)} {operand : Parser Tree}
    {tree : Tree} {s : Token} {rest : List Token} (front : c.rest = t :: more)
    (run : operand o c = some (tree, c')) (behind : c'.rest = s :: rest)
    (none : operators.find? (fun e => s.isOp e.1) = none) :
    leftAssoc operators operand o c = some (tree, c') := by
  have noOperator : operatorFrom operators o c' = Option.none := by
    unfold operatorFrom
    rw [bind_some (peek_run behind), none]
    rfl
  have stopped : ∀ start fuel, leftFrom start (operatorFrom operators) operand (fuel + 1) tree o c' =
      some (tree, c') := by
    intro start fuel
    unfold leftFrom
    rw [bind_some (optional_none (bind_none noOperator))]
    rfl
  unfold leftAssoc
  rw [bind_some (here_run front)]
  exact (bind_some run).trans (stopped _ _)

theorem chained_stop {between : String} (operator : BoolOperator) {operand : Parser Tree}
    {tree : Tree} {s : Token} {rest : List Token} (front : c.rest = t :: more)
    (run : operand o c = some (tree, c')) (behind : c'.rest = s :: rest)
    (is : s.isWord between = false) : chained between operator operand o c = some (tree, c') := by
  unfold chained
  rw [bind_some (here_run front), bind_some run,
    bind_some (many_none (bind_none (word_none behind is)))]
  rfl

theorem comparator_stop {s : Token} {rest : List Token} (front : c.rest = s :: rest)
    (stop : Stop s) : comparator o c = none := by
  unfold comparator
  rw [bind_some (peek_run front)]
  have simple : ([("==", .eq), ("!=", .notEq), ("<=", .ltE), ("<", .lt), (">=", .gtE), (">", .gt)] :
      List (String × CompareOperator)).find? (fun e => s.isOp e.1) = none := by
    simp only [List.find?_cons, List.find?_nil,
      stop.isOp "==" (by decide), stop.isOp "!=" (by decide),
      stop.isOp "<=" (by decide), stop.isOp "<" (by decide),
      stop.isOp ">=" (by decide), stop.isOp ">" (by decide)]
  simp only [simple]
  rw [bind_some (takeWord_false front (stop.isWord "not")), if_neg Bool.false_ne_true,
    bind_some (takeWord_false front (stop.isWord "in")), if_neg Bool.false_ne_true,
    bind_some (takeWord_false front (stop.isWord "is"))]
  rfl

/-- No operator for numbers stands in front of the end of an expression. -/
theorem Stop.noOperator {s : Token} (stop : Stop s) (operators : List (String × BinaryOperator))
    (other : ∀ e ∈ operators, ∀ text ∈ stopOperators, text.toList ≠ e.1.toList) :
    operators.find? (fun e => s.isOp e.1) = none := by
  rw [List.find?_eq_none]
  intro e member
  rw [stop.isOp _ (other e member)]
  exact Bool.false_ne_true

theorem expression_of_factor {r : Rules} {tree : Tree} {s : Token} {rest : List Token}
    (front : c.rest = t :: more) (run : factor r o c = some (tree, c'))
    (behind : c'.rest = s :: rest) (stop : Stop s) (noLambda : t.isWord "lambda" = false)
    (noNot : t.isWord "not" = false) : expression r o c = some (tree, c') := by
  have term := leftAssoc_stop front run behind (stop.noOperator
    [("*", .mult), ("/", .div), ("//", .floorDiv), ("%", .mod), ("@", .matMult)] (by decide))
  have sum := leftAssoc_stop front term behind (stop.noOperator [("+", .add), ("-", .sub)] (by decide))
  have shift := leftAssoc_stop front sum behind
    (stop.noOperator [("<<", .lShift), (">>", .rShift)] (by decide))
  have bitAnd := leftAssoc_stop front shift behind (stop.noOperator [("&", .bitAnd)] (by decide))
  have bitXor := leftAssoc_stop front bitAnd behind (stop.noOperator [("^", .bitXor)] (by decide))
  have bitOr := leftAssoc_stop front bitXor behind (stop.noOperator [("|", .bitOr)] (by decide))
  have comparison : comparison r o c = some (tree, c') := by
    unfold Parser.comparison
    rw [bind_some (here_run front), bind_some (p := Parser.bitOr r) bitOr,
      bind_some (many_none (bind_none (comparator_stop behind stop)))]
    rfl
  have inversion : inversion r o c = some (tree, c') := by
    unfold Parser.inversion
    rw [bind_some (here_run front), bind_some (takeWord_false front noNot)]
    exact comparison
  have conjunction := chained_stop .conj front inversion behind (stop.isWord "and")
  have disjunction := chained_stop .disj front conjunction behind (stop.isWord "or")
  unfold expression
  rw [bind_some (atWord_run front "lambda"), noLambda, if_neg Bool.false_ne_true,
    bind_some (here_run front), bind_some (p := Parser.disjunction r) disjunction,
    bind_some (optional_none (bind_none (word_none behind (stop.isWord "if"))))]
  rfl

theorem factor_of_primary {r : Rules} {tree : Tree} {s : Token} {rest : List Token}
    (front : c.rest = t :: more) (begins : BeginsOperand t) (run : primary r o c = some (tree, c'))
    (behind : c'.rest = s :: rest) (stop : Stop s) : factor r o c = some (tree, c') := by
  have awaited : awaitPrimary r o c = some (tree, c') := by
    unfold awaitPrimary
    rw [bind_some (here_run front), bind_some (takeWord_false front begins.await)]
    exact run
  have power : power r o c = some (tree, c') := by
    unfold Parser.power
    rw [bind_some (here_run front), bind_some awaited,
      bind_some (takeOp_false behind (stop.isOp _ (by decide)))]
    rfl
  unfold factor
  rw [bind_some (here_run front), bind_some (peek_run front)]
  simp only [begins.plus, begins.minus, begins.invert, Bool.false_eq_true, if_false]
  exact power

theorem expression_of_primary {r : Rules} {tree : Tree} {s : Token} {rest : List Token}
    (front : c.rest = t :: more) (begins : BeginsOperand t) (run : primary r o c = some (tree, c'))
    (behind : c'.rest = s :: rest) (stop : Stop s) : expression r o c = some (tree, c') :=
  expression_of_factor front (factor_of_primary front begins run behind stop) behind stop
    begins.lambda begins.not

/-! ## Rules that refer to each other -/

theorem one_of_single {n : Nat} {rule : Rule} {p : Parser Tree} {tree : Tree}
    (is : step (rules n) rule = step.single p) (run : p o c = some (tree, c')) :
    one (rules (n + 1)) rule o c = some (tree, c') := by
  have whole : rules (n + 1) rule o c = some ([tree], c') := by
    unfold rules
    rw [is]
    exact bind_some run
  unfold one
  rw [bind_some whole]
  rfl

theorem one_expression {n : Nat} {tree : Tree} (run : expression (rules n) o c = some (tree, c')) :
    one (rules (n + 1)) .expression o c = some (tree, c') := one_of_single rfl run

theorem name_run (front : c.rest = t :: more) (free : isFreeName t = true) :
    ∃ c', name o c = some (String.ofList t.text.plainName, c') ∧ c'.rest = more := by
  obtain ⟨c', run, rest⟩ := takeIf_run (o := o) _ front free
  refine ⟨c', ?_, rest⟩
  unfold name
  rw [bind_some run]
  rfl

theorem test_marked_false {u : Token} (mark : String) (front : c.rest = t :: u :: more)
    (is : u.isOp mark = false) : test (do
      let _ ← name
      op mark) o c = some (false, c) := by
  have fails : (do
      let _ ← name
      op mark : Parser Token) o c = none := by
    cases free : isFreeName t with
    | true =>
      obtain ⟨c', run, rest⟩ := name_run (o := o) front free
      rw [bind_some run]
      exact op_none rest is
    | false =>
      have none : name o c = Option.none := by
        unfold name
        exact bind_none (takeIf_none front free)
      exact bind_none none
  have nothing : ahead (do
      let _ ← name
      op mark) o c = none := by
    unfold ahead
    rw [fails]
  unfold test
  exact orElse_none (bind_none nothing)

theorem atWalrus_false {u : Token} (front : c.rest = t :: u :: more) (is : u.isOp ":=" = false) :
    atWalrus o c = some (false, c) := test_marked_false ":=" front is

theorem atClause_false {s : Token} {rest : List Token} (front : c.rest = s :: rest) (stop : Stop s) :
    atClause o c = some (false, c) := by
  unfold atClause
  rw [bind_some (peek_run front)]
  show some (s.isWord "for" || s.isWord "async", c) = _
  rw [stop.isWord, stop.isWord]
  rfl

/-! ## What reads which tokens -/

/-- A step takes exactly these tokens in front of the end of an expression. -/
def Reads (p : Parser α) (lexemes : List Lexeme) (post : α → Prop) : Prop :=
  ∀ (o : ParseOptions) (c : Cursor) (tokens : List Token) (s : Token) (rest : List Token),
    c.rest = tokens ++ s :: rest → tokens.map Token.lexeme = lexemes → Stop s →
      ∃ a c', p o c = some (a, c') ∧ c'.rest = s :: rest ∧ post a

def startOperators : List String := ["(", "[", "\x7b", "...", "-"]

def Begins (l : Lexeme) : Prop :=
  l.1 = .number ∨ l.1 = .string ∨ (l.1 = .name ∧ l.2 ≠ "yield".toList) ∨
    (l.1 = .op ∧ ∃ s ∈ startOperators, l.2 = s.toList)

theorem Begins.isOp (begins : Begins t.lexeme) {text : String}
    (other : ∀ s ∈ startOperators, s.toList ≠ text.toList) : t.isOp text = false := by
  rw [isOp_eq rfl]
  rcases begins with kind | kind | ⟨kind, -⟩ | ⟨-, s, member, same⟩
  · rw [kind]
    rfl
  · rw [kind]
    rfl
  · rw [kind]
    rfl
  · rw [same, decide_eq_false (other s member), Bool.and_false]

theorem Begins.noYield (begins : Begins t.lexeme) : t.isWord "yield" = false := by
  rw [isWord_eq rfl]
  rcases begins with kind | kind | ⟨-, other⟩ | ⟨kind, -⟩
  · rw [kind]
    rfl
  · rw [kind]
    rfl
  · rw [decide_eq_false other, Bool.and_false]
  · rw [kind]
    rfl

def Unbound (lexemes : List Lexeme) : Prop :=
  ∀ l ∈ lexemes, l ≠ (.op, [':', '=']) ∧ l ≠ (.op, ['='])

instance (lexemes : List Lexeme) : Decidable (Unbound lexemes) :=
  inferInstanceAs (Decidable (∀ l ∈ lexemes, l ≠ (.op, [':', '=']) ∧ l ≠ (.op, ['='])))

theorem Unbound.append {first second : List Lexeme} (left : Unbound first) (right : Unbound second) :
    Unbound (first ++ second) := by
  intro l member
  rcases List.mem_append.mp member with inner | inner
  · exact left l inner
  · exact right l inner

theorem Unbound.cons {l : Lexeme} {lexemes : List Lexeme} (first : Unbound [l])
    (rest : Unbound lexemes) : Unbound (l :: lexemes) :=
  first.append rest

/-- The tokens of an expression, and what is known of its tree.  Every bracket costs two rules. -/
structure Reading (lexemes : List Lexeme) (post : Tree → Prop) : Prop where
  begins : ∃ l tail, lexemes = l :: tail ∧ Begins l
  unbound : Unbound lexemes
  reads : ∀ n, 2 * lexemes.length ≤ n → Reads (expression (rules n)) lexemes post

theorem Reading.weaken {lexemes : List Lexeme} {post post' : Tree → Prop}
    (reading : Reading lexemes post) (implied : ∀ tree, post tree → post' tree) :
    Reading lexemes post' := by
  refine ⟨reading.begins, reading.unbound, ?_⟩
  intro n enough o c tokens s rest front same stop
  obtain ⟨tree, c', run, behind, holds⟩ := reading.reads n enough o c tokens s rest front same stop
  exact ⟨tree, c', run, behind, implied tree holds⟩

section Front

variable {lexemes : List Lexeme} {post : Tree → Prop} {tokens : List Token} {s : Token}

theorem Reading.front (reading : Reading lexemes post) (rest : List Token)
    (same : tokens.map Token.lexeme = lexemes) (stop : Stop s) : ∃ t u tail, tokens ++ s :: rest = t :: u :: tail ∧ Begins t.lexeme ∧
      u.isOp ":=" = false ∧ u.isOp "=" = false := by
  obtain ⟨l, tail, form, begins⟩ := reading.begins
  cases tokens with
  | nil =>
    rw [form] at same
    cases same
  | cons t tokens =>
    rw [List.map_cons, form] at same
    obtain ⟨first, -⟩ := List.cons.inj same
    cases tokens with
    | nil =>
      exact ⟨t, s, rest, rfl, first ▸ begins, stop.isOp _ (by decide), stop.isOp _ (by decide)⟩
    | cons u tokens =>
      have member : u.lexeme ∈ lexemes := by
        rw [form, ← same]
        simp
      obtain ⟨noWalrus, noEqual⟩ := reading.unbound u.lexeme member
      refine ⟨t, u, tokens ++ s :: rest, rfl, first ▸ begins, ?_, ?_⟩
      · rw [isOp_eq rfl, Bool.and_eq_false_iff, decide_eq_false_iff_not, decide_eq_false_iff_not]
        by_cases op : u.lexeme.1 = .op
        · exact Or.inr fun text => noWalrus (Prod.ext op text)
        · exact Or.inl op
      · rw [isOp_eq rfl, Bool.and_eq_false_iff, decide_eq_false_iff_not, decide_eq_false_iff_not]
        by_cases op : u.lexeme.1 = .op
        · exact Or.inr fun text => noEqual (Prod.ext op text)
        · exact Or.inl op

end Front

theorem Reading.one_named {lexemes : List Lexeme} {post : Tree → Prop}
    (reading : Reading lexemes post) (n : Nat) (enough : 2 * lexemes.length + 2 ≤ n) :
    Reads (one (rules n) .named) lexemes post := by
  intro o c tokens s rest front same stop
  obtain ⟨n, rfl⟩ : ∃ k, n = k + 2 := ⟨n - 2, by omega⟩
  obtain ⟨tree, c', run, behind, holds⟩ :=
    reading.reads n (by omega) o c tokens s rest front same stop
  obtain ⟨t, u, tail, split, -, noWalrus, -⟩ := reading.front rest same stop
  rw [split] at front
  refine ⟨tree, c', one_of_single (p := named (rules (n + 1))) rfl ?_, behind, holds⟩
  unfold named
  rw [bind_some (here_run front), bind_some (atWalrus_false front noWalrus),
    if_neg Bool.false_ne_true, bind_some (one_expression run), bind_some (atOp_run behind ":="),
    stop.isOp _ (by decide)]
  rfl

theorem Reading.starNamed {lexemes : List Lexeme} {post : Tree → Prop}
    (reading : Reading lexemes post) (n : Nat) (enough : 2 * lexemes.length + 2 ≤ n) :
    Reads (starNamed (rules n)) lexemes post := by
  intro o c tokens s rest front same stop
  obtain ⟨tree, c', run, behind, holds⟩ :=
    reading.one_named n enough o c tokens s rest front same stop
  obtain ⟨t, u, tail, split, begins, -, -⟩ := reading.front rest same stop
  rw [split] at front
  refine ⟨tree, c', ?_, behind, holds⟩
  unfold Parser.starNamed
  rw [bind_some (atOp_run front "*"), begins.isOp (by decide)]
  exact run

/-! ## Items with commas between them -/

def separated (items : List (List Lexeme)) : List Lexeme :=
  items.flatMap fun item => (.op, [',']) :: item

def listed : List (List Lexeme) → List Lexeme
  | [] => []
  | item :: items => item ++ separated items

theorem unbound_separated {items : List (List Lexeme)} (each : ∀ item ∈ items, Unbound item) :
    Unbound (separated items) := by
  intro l member
  obtain ⟨item, among, inner⟩ := List.mem_flatMap.mp member
  rcases List.mem_cons.mp inner with rfl | inner
  · exact ⟨by decide, by decide⟩
  · exact each item among l inner

theorem unbound_listed {items : List (List Lexeme)} (each : ∀ item ∈ items, Unbound item) :
    Unbound (listed items) := by
  cases items with
  | nil =>
    intro l member
    cases member
  | cons item items =>
    exact (each item (by simp)).append
      (unbound_separated fun other member => each other (by simp [member]))

theorem length_le_separated {item : List Lexeme} {items : List (List Lexeme)} (member : item ∈ items) :
    item.length ≤ (separated items).length := by
  obtain ⟨before, after, rfl⟩ := List.append_of_mem member
  unfold separated
  rw [List.flatMap_append, List.flatMap_cons, List.length_append, List.length_append,
    List.length_cons]
  omega

theorem length_le_listed {item : List Lexeme} {items : List (List Lexeme)} (member : item ∈ items) :
    item.length ≤ (listed items).length := by
  cases items with
  | nil => cases member
  | cons first items =>
    unfold listed
    rw [List.length_append]
    rcases List.mem_cons.mp member with rfl | later
    · omega
    · have bound := length_le_separated later
      omega

section Items

variable {ι : Type} {p : Parser α} {lex : ι → List Lexeme} {post : ι → α → Prop}
  {s : Token} {rest : List Token}

theorem split_tokens {tokens : List Token} {first second : List Lexeme}
    (same : tokens.map Token.lexeme = first ++ second) : ∃ before after, tokens = before ++ after ∧
      before.map Token.lexeme = first ∧ after.map Token.lexeme = second := by
  obtain ⟨before, after, form, left, right⟩ := List.map_eq_append_iff.mp same
  exact ⟨before, after, form, left, right⟩

theorem cons_tokens {tokens : List Token} {l : Lexeme} {lexemes : List Lexeme}
    (same : tokens.map Token.lexeme = l :: lexemes) : ∃ t after, tokens = t :: after ∧
      t.lexeme = l ∧ after.map Token.lexeme = lexemes := by
  obtain ⟨t, after, form, left, right⟩ := List.map_eq_cons_iff.mp same
  exact ⟨t, after, form, left, right⟩

theorem isOp_of_lexeme (text : String) (same : t.lexeme = (.op, text.toList)) : t.isOp text = true := by
  rw [isOp_eq same]
  simp

theorem stop_comma {u : Token} (same : u.lexeme = (.op, [','])) : Stop u :=
  stop_of_op (s := ",") same (by decide)

theorem separated_front (rest : List Token) (stop : Stop s) (items : List (List Lexeme)) (tokens : List Token)
    (same : tokens.map Token.lexeme = separated items) : ∃ u tail, tokens ++ s :: rest = u :: tail ∧
      Stop u ∧ (u = s ∨ u.lexeme = (.op, [','])) := by
  cases items with
  | nil =>
    rw [separated, List.flatMap_nil, List.map_eq_nil_iff] at same
    subst same
    exact ⟨s, rest, rfl, stop, Or.inl rfl⟩
  | cons item items =>
    obtain ⟨u, after, rfl, comma, -⟩ := cons_tokens same
    exact ⟨u, after ++ s :: rest, rfl, stop_comma comma, Or.inr comma⟩

/-- The first token of several items, and the one behind it. -/
theorem Reading.listed_front {lexemes : List Lexeme} {post : Tree → Prop}
    (reading : Reading lexemes post) (rest : List Token) (stop : Stop s) (items : List (List Lexeme))
    (tokens : List Token) (same : tokens.map Token.lexeme = lexemes ++ separated items) :
    ∃ t u tail, tokens ++ s :: rest = t :: u :: tail ∧ Begins t.lexeme ∧
      u.isOp ":=" = false ∧ u.isOp "=" = false := by
  obtain ⟨before, after, rfl, left, right⟩ := split_tokens same
  obtain ⟨u, tail, form, stops, -⟩ := separated_front rest stop items after right
  rw [List.append_assoc, form]
  exact reading.front _ left stops

theorem Reads.front {lexemes : List Lexeme} {post : α → Prop} (reads : Reads p lexemes post)
    (items : List (List Lexeme)) (tokens : List Token)
    (front : c.rest = tokens ++ s :: rest)
    (same : tokens.map Token.lexeme = lexemes ++ separated items) (stop : Stop s) :
    ∃ a c' after, p o c = some (a, c') ∧ c'.rest = after ++ s :: rest ∧ post a ∧
      after.map Token.lexeme = separated items := by
  obtain ⟨before, after, rfl, left, right⟩ := split_tokens same
  obtain ⟨u, tail, form, stops, -⟩ := separated_front rest stop items after right
  rw [List.append_assoc, form] at front
  obtain ⟨a, c', run, behind, holds⟩ := reads o c before u tail front left stops
  exact ⟨a, c', after, run, behind.trans form.symm, holds, right⟩

theorem repeatFrom_separated (rest : List Token) (items : List ι) (each : ∀ i ∈ items, Reads p (lex i) (post i))
    (noComma : s.isOp "," = false) (stop : Stop s) :
    ∀ (fuel : Nat) (done : List α) (c : Cursor) (tokens : List Token), items.length < fuel →
      c.rest = tokens ++ s :: rest → tokens.map Token.lexeme = separated (items.map lex) →
      ∃ found c', repeatFrom (do
          let _ ← op ","
          p) fuel done o c = some (done.reverse ++ found, c') ∧ c'.rest = s :: rest ∧
        List.Forall₂ post items found := by
  induction items with
  | nil =>
    intro fuel done c tokens enough front same
    rw [List.map_nil, separated, List.flatMap_nil, List.map_eq_nil_iff] at same
    subst same
    obtain ⟨fuel, rfl⟩ : ∃ k, fuel = k + 1 := ⟨fuel - 1, by omega⟩
    refine ⟨[], c, ?_, front, List.Forall₂.nil⟩
    unfold repeatFrom
    rw [bind_some (optional_none (bind_none (op_none front noComma))), List.append_nil]
    rfl
  | cons i items ih =>
    intro fuel done c tokens enough front same
    rw [List.length_cons] at enough
    obtain ⟨fuel, rfl⟩ : ∃ k, fuel = k + 1 := ⟨fuel - 1, by omega⟩
    obtain ⟨comma, inner, rfl, isComma, same⟩ := cons_tokens same
    rw [List.cons_append] at front
    obtain ⟨c1, took, rest1⟩ := op_run (o := o) front (isOp_of_lexeme "," isComma)
    obtain ⟨a, c2, after, run, rest2, holds, same⟩ :=
      (each i (by simp)).front (o := o) (items.map lex) inner rest1 same stop
    obtain ⟨found, c3, more, rest3, all⟩ :=
      ih (fun j member => each j (by simp [member])) fuel (a :: done) c2 after (by omega) rest2 same
    refine ⟨a :: found, c3, ?_, rest3, List.Forall₂.cons holds all⟩
    unfold repeatFrom
    have item : (do
        let _ ← op ","
        p) o c = some (a, c2) := by
      rw [bind_some took, run]
    rw [bind_some (optional_some item)]
    simp only
    rw [more]
    simp

theorem separated_length (items : List ι) (tokens : List Token)
    (same : tokens.map Token.lexeme = separated (items.map lex)) : items.length ≤ tokens.length := by
  have total : tokens.length = (separated (items.map lex)).length := by
    rw [← same, List.length_map]
  rw [total, separated, List.length_flatMap]
  clear same total
  induction items with
  | nil => exact Nat.le_refl 0
  | cons i items ih =>
    rw [List.map_cons, List.map_cons, List.sum_cons, List.length_cons, List.length_cons]
    omega

theorem commaList_run (i : ι) (items : List ι) (each : ∀ j ∈ i :: items, Reads p (lex j) (post j))
    (noComma : s.isOp "," = false) (stop : Stop s) (tokens : List Token)
    (front : c.rest = tokens ++ s :: rest)
    (same : tokens.map Token.lexeme = listed ((i :: items).map lex)) :
    ∃ found c', commaList p o c = some ((found, decide (1 < found.length)), c') ∧
      c'.rest = s :: rest ∧ List.Forall₂ post (i :: items) found := by
  obtain ⟨a, c1, after, run, rest1, holds, same⟩ :=
    (each i (by simp)).front (o := o) (items.map lex) tokens front same stop
  have count := separated_length items after same
  obtain ⟨found, c2, more, rest2, all⟩ := repeatFrom_separated (o := o) rest items
    (fun j member => each j (by simp [member])) noComma stop (c1.rest.length + 1) [] c1 after
    (by rw [rest1, List.length_append]; omega) rest1 same
  refine ⟨a :: found, c2, ?_, rest2, List.Forall₂.cons holds all⟩
  have commas_run : commas p o c = some (a :: found, c2) := by
    unfold commas
    rw [bind_some run]
    have many_run : many (do
        let _ ← op ","
        p) o c1 = some (found, c2) := more
    rw [bind_some many_run]
    rfl
  unfold commaList
  rw [bind_some commas_run, bind_some (takeOp_false rest2 noComma)]
  rfl

theorem more_items (items : List ι) (each : ∀ j ∈ items, Reads p (lex j) (post j))
    (noComma : s.isOp "," = false) (stop : Stop s) (tokens : List Token)
    (front : c.rest = tokens ++ s :: rest)
    (same : tokens.map Token.lexeme = separated (items.map lex)) :
    ∃ b c1 more c', takeOp "," o c = some (b, c1) ∧
      (if b = true then optional (commaList p) else Pure.pure none : Parser _) o c1 = some (more, c') ∧
      c'.rest = s :: rest ∧ List.Forall₂ post items ((more.map Prod.fst).getD []) ∧
      b = !items.isEmpty := by
  cases items with
  | nil =>
    rw [List.map_nil, separated, List.flatMap_nil, List.map_eq_nil_iff] at same
    subst same
    exact ⟨false, c, none, c, takeOp_false front noComma, rfl, front, List.Forall₂.nil, rfl⟩
  | cons i items =>
    obtain ⟨comma, inner, rfl, isComma, same⟩ := cons_tokens same
    rw [List.cons_append] at front
    obtain ⟨c1, took, rest1⟩ :=
      takeOp_true (o := o) front (isOp_of_lexeme "," isComma)
    obtain ⟨found, c2, run, rest2, all⟩ :=
      commaList_run (o := o) i items each noComma stop inner rest1 same
    exact ⟨true, c1, some (found, _), c2, took, optional_some run, rest2, all, rfl⟩

end Items

end Parser

end MacroExpand
