import MacroExpand.Proofs.Literals
import MacroExpand.Proofs.Numerals
import MacroExpand.Proofs.Reading

/-!
# Readings of literals, displays and calls

Each kind of expression that rebuilds a plain value is read back: literals from one token, displays
from the readings of their items, and calls from the readings of their arguments.
-/

set_option autoImplicit false

namespace MacroExpand

namespace Parser

variable {o : ParseOptions} {c c' : Cursor} {t : Token} {more : List Token}

/-! ## Expressions that begin with an atom -/

def BeginsAtom (l : Lexeme) : Prop :=
  l.1 = .number ∨ l.1 = .string ∨
    (l.1 = .name ∧ l.2 ∉ [chars "yield", chars "await", chars "not", chars "lambda"]) ∨
    (l.1 = .op ∧ ∃ s ∈ ["(", "[", "\x7b", "..."], l.2 = s.toList)

theorem BeginsAtom.begins {l : Lexeme} (atom : BeginsAtom l) : Begins l := by
  rcases atom with kind | kind | ⟨kind, other⟩ | ⟨kind, s, member, same⟩
  · exact Or.inl kind
  · exact Or.inr (Or.inl kind)
  · refine Or.inr (Or.inr (Or.inl ⟨kind, ?_⟩))
    rintro same
    exact other (by rw [same]; decide)
  · refine Or.inr (Or.inr (Or.inr ⟨kind, s, ?_, same⟩))
    simp only [startOperators, List.mem_cons, List.not_mem_nil, or_false] at member ⊢
    rcases member with rfl | rfl | rfl | rfl <;> simp

theorem BeginsAtom.operand (atom : BeginsAtom t.lexeme) : BeginsOperand t := by
  have noOp : ∀ text : String, (∀ s ∈ ["(", "[", "\x7b", "..."], s.toList ≠ text.toList) →
      t.isOp text = false := by
    intro text other
    rw [isOp_eq rfl]
    rcases atom with kind | kind | ⟨kind, -⟩ | ⟨-, s, member, same⟩
    · rw [kind]
      rfl
    · rw [kind]
      rfl
    · rw [kind]
      rfl
    · rw [same, decide_eq_false (other s member), Bool.and_false]
  have noWord : ∀ text : String,
      text.toList ∈ [chars "yield", chars "await", chars "not", chars "lambda"] →
      t.isWord text = false := by
    intro text special
    rw [isWord_eq rfl]
    rcases atom with kind | kind | ⟨-, other⟩ | ⟨kind, -⟩
    · rw [kind]
      rfl
    · rw [kind]
      rfl
    · have differs : t.lexeme.2 ≠ text.toList := fun same => other (same ▸ special)
      rw [decide_eq_false differs, Bool.and_false]
    · rw [kind]
      rfl
  exact ⟨noOp "+" (by decide), noOp "-" (by decide), noOp "~" (by decide),
    noWord "await" (by decide), noWord "not" (by decide), noWord "lambda" (by decide)⟩

theorem Reading.of_primary {lexemes : List Lexeme} {l : Lexeme} {tail : List Lexeme}
    {post : Tree → Prop} (form : lexemes = l :: tail) (atom : BeginsAtom l) (unbound : Unbound lexemes)
    (reads : ∀ n, 2 * lexemes.length ≤ n → Reads (primary (rules n)) lexemes post) :
    Reading lexemes post := by
  refine ⟨⟨l, tail, form, atom.begins⟩, unbound, ?_⟩
  intro n enough o c tokens s rest front same stop
  obtain ⟨tree, c', run, behind, holds⟩ := reads n enough o c tokens s rest front same stop
  obtain ⟨t, after, rfl, first, -⟩ := cons_tokens (same.trans form)
  exact ⟨tree, c', expression_of_primary front (first ▸ atom).operand run behind stop, behind, holds⟩

theorem trailers_stop {r : Rules} {start : Mark} {fuel : Nat} {tree : Tree} {s : Token}
    {rest : List Token} (front : c.rest = s :: rest) (stop : Stop s) :
    trailers r start fuel tree o c = some (tree, c) := by
  cases fuel with
  | zero => rfl
  | succ fuel =>
    unfold trailers
    rw [bind_some (peek_run front), stop.isOp _ (by decide), if_neg Bool.false_ne_true,
      stop.isOp _ (by decide), if_neg Bool.false_ne_true, stop.isOp _ (by decide)]
    rfl

theorem primary_of_atom {r : Rules} {tree : Tree} {c1 : Cursor} (front : c.rest = t :: more)
    (run : atom r o c = some (tree, c1)) :
    primary r o c =
      trailers r { line := t.line, column := t.column } (c1.rest.length + 1) tree o c1 := by
  unfold primary
  rw [bind_some (here_run front)]
  exact bind_some run

theorem Reading.of_atom {l : Lexeme} {tail : List Lexeme} {post : Tree → Prop}
    (begins : BeginsAtom l)
    (unbound : Unbound (l :: tail))
    (reads : ∀ n, 2 * (l :: tail).length ≤ n → Reads (atom (rules n)) (l :: tail) post) :
    Reading (l :: tail) post := by
  refine Reading.of_primary rfl begins unbound ?_
  intro n enough o c tokens s rest front same stop
  obtain ⟨tree, c', run, behind, holds⟩ := reads n enough o c tokens s rest front same stop
  obtain ⟨t, after, rfl, -, -⟩ := cons_tokens same
  exact ⟨tree, c', (primary_of_atom front run).trans (trailers_stop behind stop), behind, holds⟩

def AtomReads (lexemes : List Lexeme) (post : Tree → Prop) : Prop :=
  ∀ (n : Nat) (o : ParseOptions) (c : Cursor) (tokens rest : List Token),
    2 * lexemes.length ≤ n → c.rest = tokens ++ rest → tokens.map Token.lexeme = lexemes →
      ∃ tree c', atom (rules n) o c = some (tree, c') ∧ c'.rest = rest ∧ post tree

theorem AtomReads.reading {l : Lexeme} {tail : List Lexeme} {post : Tree → Prop}
    (reads : AtomReads (l :: tail) post) (begins : BeginsAtom l) (unbound : Unbound (l :: tail)) :
    Reading (l :: tail) post := by
  refine Reading.of_atom begins unbound ?_
  intro n enough o c tokens s rest front same _
  exact reads n o c tokens (s :: rest) enough front same

/-! ## Literals -/

def IsConstant (value : Scalar) (tree : Tree) : Prop :=
  ∃ m : Mark, tree = .node m (.constant value false) []

theorem atom_number {r : Rules} {text : Text} {value : Scalar} (is : Number.value text = value)
    (short : Number.isTooLong text = false) (noGap : text.contains '_' = false)
    (front : c.rest = t :: more) (isNumber : t.lexeme = (.number, text)) :
    ∃ tree c', atom r o c = some (tree, c') ∧ c'.rest = more ∧ IsConstant value tree := by
  obtain ⟨c1, took, behind⟩ := takeIf_run (o := o) (·.kind = .number) front
    (by rw [kind_eq isNumber]; rfl)
  obtain ⟨m, made⟩ := node_run (o := o) (c := c1) { line := t.line, column := t.column }
    (.constant value false) []
  refine ⟨_, c1, ?_, behind, m, rfl⟩
  unfold atom
  rw [bind_some (here_run front), bind_some (peek_run front), kind_eq isNumber]
  simp only
  unfold number
  rw [bind_some (here_run front), bind_some (p := kind .number) took, text_eq isNumber]
  simp only [short, noGap, is]
  exact made

theorem reading_number {text : Text} {value : Scalar} (is : Number.value text = value)
    (short : Number.isTooLong text = false) (noGap : text.contains '_' = false) :
    Reading [(.number, text)] (IsConstant value) := by
  refine Reading.of_atom (Or.inl rfl) ?_ ?_
  · intro l member
    rw [List.mem_singleton] at member
    subst member
    exact ⟨by simp, by simp⟩
  · intro n _ o c tokens s rest front same _
    obtain ⟨t, after, rfl, isNumber, none⟩ := cons_tokens same
    rw [List.map_eq_nil_iff] at none
    subst none
    exact atom_number is short noGap front isNumber

theorem many_string {s : Token} {rest : List Token} (front : c.rest = t :: s :: rest)
    (isString : t.kind = .string) (stop : Stop s) :
    ∃ c', many (kind .string) o c = some ([t], c') ∧ c'.rest = s :: rest := by
  obtain ⟨c1, took, behind⟩ := takeIf_run (o := o) (·.kind = .string) front
    (by rw [isString]; rfl)
  have noMore : kind .string o c1 = none := by
    refine takeIf_none behind ?_
    rcases stop with ⟨kind, -⟩ | kind | kind <;> rw [kind] <;> rfl
  refine ⟨c1, ?_, behind⟩
  unfold many
  rw [front, List.length_cons, List.length_cons]
  unfold repeatFrom
  rw [bind_some (optional_some (p := kind .string) took)]
  simp only
  unfold repeatFrom
  rw [bind_some (optional_none noMore)]
  rfl

theorem atom_string {r : Rules} (front : c.rest = t :: more) (isString : t.kind = .string) :
    atom r o c = strings r o c := by
  unfold atom
  rw [bind_some (here_run front), bind_some (peek_run front), isString]

theorem reading_points (points : List CodePoint) :
    Reading [(.string, Text.quotedPoints points)] (IsConstant (.ofPoints points)) := by
  refine Reading.of_atom (Or.inr (Or.inl rfl)) ?_ ?_
  · intro l member
    rw [List.mem_singleton] at member
    subst member
    exact ⟨by simp, by simp⟩
  · intro n _ o c tokens s rest front same stop
    obtain ⟨t, after, rfl, isString, none⟩ := cons_tokens same
    rw [List.map_eq_nil_iff] at none
    subst none
    obtain ⟨isBytes, isFormatted, isMarked, read⟩ := text_ofToken_quoted points t (text_eq isString)
    obtain ⟨c1, took, behind⟩ := many_string (o := o) front (kind_eq isString) stop
    obtain ⟨m, made⟩ := node_run (o := o) (c := c1) { line := t.line, column := t.column } .absent []
    refine ⟨_, c1, ?_, behind, m, rfl⟩
    have parts : [t].mapM (tokenParts (rules n) m) o c1 = some ([[.inl points]], c1) := by
      have part : tokenParts (rules n) m t o c1 = some ([.inl points], c1) := by
        unfold tokenParts
        simp only [isFormatted, read]
        rfl
      unfold List.mapM List.mapM.loop
      rw [bind_some part]
      rfl
    rw [atom_string front (kind_eq isString)]
    unfold strings
    rw [bind_some (here_run front), bind_some took, bind_some made]
    simp only [List.map_cons, List.map_nil, List.any_cons, List.any_nil, isBytes, isFormatted,
      Bool.or_false, Bool.false_eq_true, if_false, List.headD_cons, isMarked]
    refine (bind_some parts).trans ?_
    show some (Tree.node m (.constant (.ofPoints (points ++ [])) false) [], c1) = _
    rw [List.append_nil]

theorem reading_text (text : Text) : Reading [(.string, Text.quoted text)] (IsConstant (.str text)) := by
  rw [← quotedPoints_chars, ← Scalar.ofPoints_chars]
  exact reading_points _

theorem reading_bytes (bytes : List UInt8) :
    Reading [(.string, quotedBytes bytes)] (IsConstant (.bytes bytes)) := by
  refine Reading.of_atom (Or.inr (Or.inl rfl)) ?_ ?_
  · intro l member
    rw [List.mem_singleton] at member
    subst member
    exact ⟨by simp, by simp⟩
  · intro n _ o c tokens s rest front same stop
    obtain ⟨t, after, rfl, isString, none⟩ := cons_tokens same
    rw [List.map_eq_nil_iff] at none
    subst none
    obtain ⟨isBytes, read⟩ := bytes_ofToken_quotedBytes bytes t (text_eq isString)
    obtain ⟨c1, took, behind⟩ := many_string (o := o) front (kind_eq isString) stop
    obtain ⟨m, made⟩ := node_run (o := o) (c := c1) { line := t.line, column := t.column } .absent []
    obtain ⟨m', made'⟩ := node_run (o := o) (c := c1) { line := t.line, column := t.column }
      (.constant (.bytes bytes) false) []
    refine ⟨_, c1, ?_, behind, m', rfl⟩
    rw [atom_string front (kind_eq isString)]
    unfold strings
    rw [bind_some (here_run front), bind_some took, bind_some made]
    have read' : [StringLiteral.ofToken t].mapM (fun x => x.bytes) = .ok [bytes] := by
      rw [List.mapM_cons, read]
      rfl
    simp only [List.map_cons, List.map_nil, List.any_cons, List.any_nil, List.all_cons, List.all_nil,
      isBytes, Bool.or_false, Bool.and_true, if_true, read', List.flatten_cons, List.flatten_nil,
      List.append_nil]
    exact made'

theorem reading_word {text : String} {value : Scalar}
    (is : (text, value) ∈ [("True", Scalar.bool true), ("False", .bool false), ("None", .nil)]) :
    Reading [(.name, text.toList)] (IsConstant value) := by
  have cases : (text = "True" ∧ value = .bool true) ∨ (text = "False" ∧ value = .bool false) ∨
      (text = "None" ∧ value = .nil) := by
    simpa using is
  refine Reading.of_atom ?_ ?_ ?_
  · refine Or.inr (Or.inr (Or.inl ⟨rfl, ?_⟩))
    rcases cases with ⟨rfl, -⟩ | ⟨rfl, -⟩ | ⟨rfl, -⟩ <;> decide
  · intro l member
    rw [List.mem_singleton] at member
    subst member
    exact ⟨by simp, by simp⟩
  · intro n _ o c tokens s rest front same _
    obtain ⟨t, after, rfl, isName, none⟩ := cons_tokens same
    rw [List.map_eq_nil_iff] at none
    subst none
    obtain ⟨c1, took, behind⟩ := next_run (o := o) front
    obtain ⟨m, made⟩ := node_run (o := o) (c := c1) { line := t.line, column := t.column }
      (.constant value false) []
    refine ⟨_, c1, ?_, behind, m, rfl⟩
    have literal : (if t.isWord "True" then some (Scalar.bool true)
        else if t.isWord "False" then some (.bool false)
        else if t.isWord "None" then some .nil
        else none) = some value := by
      rw [isWord_eq isName, isWord_eq isName, isWord_eq isName]
      rcases cases with ⟨rfl, rfl⟩ | ⟨rfl, rfl⟩ | ⟨rfl, rfl⟩ <;> decide
    unfold atom
    rw [bind_some (here_run front), bind_some (peek_run front), kind_eq isName]
    simp only [literal]
    rw [bind_some took]
    exact made

theorem reading_ellipsis : Reading [(.op, ['.', '.', '.'])] (IsConstant .ellipsis) := by
  refine Reading.of_atom (Or.inr (Or.inr (Or.inr ⟨rfl, "...", by decide, rfl⟩))) (by decide) ?_
  intro n _ o c tokens s rest front same _
  obtain ⟨t, after, rfl, isOp, none⟩ := cons_tokens same
  rw [List.map_eq_nil_iff] at none
  subst none
  obtain ⟨c1, took, behind⟩ := next_run (o := o) front
  obtain ⟨m, made⟩ := node_run (o := o) (c := c1) { line := t.line, column := t.column }
    (.constant .ellipsis false) []
  refine ⟨_, c1, ?_, behind, m, rfl⟩
  unfold atom
  rw [bind_some (here_run front), bind_some (peek_run front), kind_eq isOp]
  simp only [isOp_eq isOp]
  exact (bind_some took).trans made

/-! ## Names -/

/-- A word that is no keyword and is its own normal form. -/
structure PlainWord (text : Text) : Prop where
  plainName : text.plainName = text
  free : isKeyword text = false

theorem PlainWord.of_ascii {text : Text} (ascii : text.isAscii = true) (free : isKeyword text = false) :
    PlainWord text := by
  refine ⟨?_, free⟩
  unfold Text.plainName Text.composed
  rw [ascii, if_pos rfl]

theorem PlainWord.isFreeName {text : Text} (plain : PlainWord text) (same : t.lexeme = (.name, text)) :
    isFreeName t = true := by
  unfold Parser.isFreeName
  rw [kind_eq same, text_eq same, plain.free]
  rfl

theorem PlainWord.name_run {text : Text} (plain : PlainWord text) (front : c.rest = t :: more)
    (same : t.lexeme = (.name, text)) :
    ∃ c', name o c = some (String.ofList text, c') ∧ c'.rest = more := by
  obtain ⟨c1, run, behind⟩ := Parser.name_run (o := o) front (plain.isFreeName same)
  rw [text_eq same, plain.plainName] at run
  exact ⟨c1, run, behind⟩

theorem PlainWord.ne_keyword {text : Text} (plain : PlainWord text) (word : Text)
    (keyword : isKeyword word = true) : text ≠ word := by
  rintro rfl
  rw [plain.free] at keyword
  cases keyword

theorem PlainWord.beginsAtom {text : Text} (plain : PlainWord text) : BeginsAtom (.name, text) := by
  refine Or.inr (Or.inr (Or.inl ⟨rfl, ?_⟩))
  simp only [List.mem_cons, List.not_mem_nil, or_false, not_or]
  exact ⟨plain.ne_keyword _ (by decide), plain.ne_keyword _ (by decide), plain.ne_keyword _ (by decide),
    plain.ne_keyword _ (by decide)⟩

theorem atom_name {r : Rules} {text : Text} (plain : PlainWord text) (front : c.rest = t :: more)
    (same : t.lexeme = (.name, text)) : ∃ (m : Mark) (c' : Cursor),
      atom r o c = some (.node m (.name (String.ofList text) .load) [], c') ∧ c'.rest = more := by
  obtain ⟨c1, took, behind⟩ := plain.name_run (o := o) front same
  obtain ⟨m, made⟩ := node_run (o := o) (c := c1) { line := t.line, column := t.column }
    (.name (String.ofList text) .load) []
  have noLiteral : (if t.isWord "True" then some (Scalar.bool true)
      else if t.isWord "False" then some (.bool false)
      else if t.isWord "None" then some .nil
      else none) = none := by
    rw [isWord_eq same, isWord_eq same, isWord_eq same,
      decide_eq_false (plain.ne_keyword "True".toList (by decide)),
      decide_eq_false (plain.ne_keyword "False".toList (by decide)),
      decide_eq_false (plain.ne_keyword "None".toList (by decide))]
    rfl
  refine ⟨m, c1, ?_, behind⟩
  unfold atom
  rw [bind_some (here_run front), bind_some (peek_run front), kind_eq same]
  simp only [noLiteral]
  rw [bind_some took]
  exact made

def IsName (text : Text) (tree : Tree) : Prop :=
  ∃ m : Mark, tree = .node m (.name (String.ofList text) .load) []

theorem atomReads_name {text : Text} (plain : PlainWord text) :
    AtomReads [(.name, text)] (IsName text) := by
  intro n o c tokens rest _ front same
  obtain ⟨t, after, rfl, isName, none⟩ := cons_tokens same
  rw [List.map_eq_nil_iff] at none
  subst none
  obtain ⟨m, c1, run, behind⟩ := atom_name (r := rules n) (o := o) plain front isName
  exact ⟨_, c1, run, behind, m, rfl⟩

theorem unbound_name (text : Text) : Unbound [(.name, text)] := by
  intro l member
  rw [List.mem_singleton] at member
  subst member
  exact ⟨by simp, by simp⟩

theorem reading_name {text : Text} (plain : PlainWord text) : Reading [(.name, text)] (IsName text) :=
  (atomReads_name plain).reading plain.beginsAtom (unbound_name text)

/-! ## Displays -/

section Displays

variable {ι : Type} {lex : ι → List Lexeme} {post : ι → Tree → Prop}

theorem unbound_bracketed {items : List ι} {opening closing : Lexeme}
    (each : ∀ i ∈ items, Reading (lex i) (post i)) (left : Unbound [opening]) (right : Unbound [closing]) :
    Unbound (opening :: (listed (items.map lex) ++ [closing])) := by
  refine Unbound.cons left (Unbound.append (unbound_listed ?_) right)
  intro item member
  obtain ⟨i, among, rfl⟩ := List.mem_map.mp member
  exact (each i among).unbound

theorem starNamed_items {items : List ι} {n k : Nat} (each : ∀ i ∈ items, Reading (lex i) (post i))
    (enough : 2 * (listed (items.map lex)).length + 2 ≤ n) (fits : k = n) :
    ∀ i ∈ items, Reads (starNamed (rules k)) (lex i) (post i) := by
  subst fits
  intro i member
  have bound := length_le_listed (List.mem_map_of_mem (f := lex) member)
  exact (each i member).starNamed k (by omega)

def IsDisplay (kind : Kind) (items : List ι) (post : ι → Tree → Prop) (tree : Tree) : Prop :=
  ∃ (m : Mark) (trees : List Tree), tree = .node m kind [trees] ∧ List.Forall₂ post items trees

theorem atom_open {r : Rules} (text : String) (front : c.rest = t :: more)
    (is : t.lexeme = (.op, text.toList)) (member : text ∈ ["(", "[", "\x7b"]) :
    atom r o c = (if text = "(" then parenthesized r else if text = "[" then bracketed r
      else braced r) o c := by
  unfold atom
  rw [bind_some (here_run front), bind_some (peek_run front), kind_eq is]
  simp only [isOp_eq is]
  simp only [List.mem_cons, List.not_mem_nil, or_false] at member
  rcases member with rfl | rfl | rfl <;> rfl

theorem bracket_tokens {tokens rest : List Token} {opening closing : Lexeme} {inner : List Lexeme}
    (front : c.rest = tokens ++ rest) (same : tokens.map Token.lexeme = opening :: (inner ++ [closing])) :
    ∃ first between last, c.rest = first :: (between ++ last :: rest) ∧ first.lexeme = opening ∧
      between.map Token.lexeme = inner ∧ last.lexeme = closing := by
  obtain ⟨first, after, rfl, isOpen, same⟩ := cons_tokens same
  obtain ⟨between, final, rfl, left, right⟩ := split_tokens same
  obtain ⟨last, none, rfl, isClose, nothing⟩ := cons_tokens right
  rw [List.map_eq_nil_iff] at nothing
  subst nothing
  refine ⟨first, between, last, ?_, isOpen, left, isClose⟩
  rw [front]
  simp

theorem first_item {n : Nat} {i : ι} {items : List ι} {s : Token} {rest tokens : List Token}
    (each : ∀ j ∈ i :: items, Reading (lex j) (post j))
    (enough : 2 * (listed ((i :: items).map lex)).length + 2 ≤ n)
    (front : c.rest = tokens ++ s :: rest)
    (same : tokens.map Token.lexeme = listed ((i :: items).map lex)) (stop : Stop s) :
    ∃ a c1 after u tail, starNamed (rules n) o c = some (a, c1) ∧ c1.rest = after ++ s :: rest ∧
      post i a ∧ after.map Token.lexeme = separated (items.map lex) ∧ c1.rest = u :: tail ∧ Stop u ∧
      (u = s ∨ u.lexeme = (.op, [','])) := by
  have reads := starNamed_items each enough rfl i (by simp)
  obtain ⟨a, c1, after, run, rest1, holds, left⟩ :=
    reads.front (o := o) (items.map lex) tokens front same stop
  obtain ⟨u, tail, form, stops, which⟩ := separated_front rest stop (items.map lex) after left
  exact ⟨a, c1, after, u, tail, run, rest1, holds, left, rest1.trans form, stops, which⟩

/-- An empty display is a node as soon as it is closed. -/
theorem empty_run {text : String} {t : Token} {more : List Token} (front : c.rest = t :: more) (is : t.isOp text = true)
    (start : Mark) (kind : Kind) (slots : List (List Tree)) (other : Parser Tree) :
    ∃ m c', (takeOp text >>= fun empty => if empty = true then node start kind slots else other) o c =
      some (.node m kind slots, c') ∧ c'.rest = more := by
  obtain ⟨c', took, rest⟩ := takeOp_true (o := o) front is
  obtain ⟨m, made⟩ := node_run (o := o) (c := c') start kind slots
  rw [bind_some took, if_pos rfl]
  exact ⟨m, c', made, rest⟩

theorem reading_list (items : List ι) (each : ∀ i ∈ items, Reading (lex i) (post i)) :
    Reading ((.op, ['[']) :: (listed (items.map lex) ++ [(.op, [']'])]))
      (IsDisplay (.list .load) items post) := by
  refine Reading.of_atom (Or.inr (Or.inr (Or.inr ⟨rfl, "[", by decide, rfl⟩)))
    (unbound_bracketed each (by decide) (by decide)) ?_
  intro n enough o c tokens s rest front same _
  rw [List.length_cons, List.length_append, List.length_singleton] at enough
  obtain ⟨opening, between, close, front, isOpen, left, isClose⟩ := bracket_tokens front same
  have stopClose : Stop close := stop_of_op (s := "]") isClose (by decide)
  obtain ⟨c1, took, rest1⟩ := op_run (o := o) front (isOp_of_lexeme "[" isOpen)
  rw [atom_open "[" front isOpen (by decide)]
  simp only [String.reduceEq, if_false, if_true]
  unfold bracketed
  rw [bind_some (here_run front), bind_some took]
  cases items with
  | nil =>
    rw [List.map_nil, listed, List.map_eq_nil_iff] at left
    subst left
    obtain ⟨m, c2, run, rest2⟩ := empty_run (o := o) rest1 (isOp_of_lexeme "]" isClose) _ (.list .load) [[]] _
    exact ⟨_, c2, run, rest2, m, [], rfl, List.Forall₂.nil⟩
  | cons i items =>
    obtain ⟨t, u, tail, split, begins, -, -⟩ :=
      (each i (by simp)).listed_front (s :: rest) stopClose (items.map lex) between left
    obtain ⟨first, c2, after, u2, tail2, run, rest2, holds, left2, front2, stop2, -⟩ :=
      first_item (o := o) each (show _ ≤ n by omega) rest1 left stopClose
    have readers := starNamed_items (k := n) each (by omega) rfl
    obtain ⟨b, c3, found, c4, took3, more, rest4, all, -⟩ :=
      more_items (o := o) items (fun j member => readers j (by simp [member]))
        (by rw [isOp_eq isClose]; rfl) stopClose after rest2 left2
    obtain ⟨c5, took5, rest5⟩ := op_run (o := o) rest4 (isOp_of_lexeme "]" isClose)
    obtain ⟨m, made⟩ := node_run (o := o) (c := c5) { line := opening.line, column := opening.column }
      (.list .load) [first :: (found.map Prod.fst).getD []]
    refine ⟨_, c5, ?_, rest5, m, _, rfl, List.Forall₂.cons holds all⟩
    rw [bind_some (takeOp_false (rest1.trans split) (begins.isOp (by decide))),
      if_neg Bool.false_ne_true, bind_some run, bind_some (atClause_false front2 stop2),
      Bool.and_false, if_neg Bool.false_ne_true, bind_some took3]
    exact (bind_choice more).trans ((bind_some took5).trans made)

theorem atomReads_tuple (items : List ι) (each : ∀ i ∈ items, Reading (lex i) (post i))
    (several : items.length ≠ 1) :
    AtomReads ((.op, ['(']) :: (listed (items.map lex) ++ [(.op, [')'])]))
      (IsDisplay (.tuple .load) items post) := by
  intro n o c tokens rest enough front same
  rw [List.length_cons, List.length_append, List.length_singleton] at enough
  obtain ⟨opening, between, close, front, isOpen, left, isClose⟩ := bracket_tokens front same
  have stopClose : Stop close := stop_of_op (s := ")") isClose (by decide)
  obtain ⟨c1, took, rest1⟩ := op_run (o := o) front (isOp_of_lexeme "(" isOpen)
  rw [atom_open "(" front isOpen (by decide)]
  simp only [if_true]
  unfold parenthesized
  rw [bind_some (here_run front), bind_some took]
  cases items with
  | nil =>
    rw [List.map_nil, listed, List.map_eq_nil_iff] at left
    subst left
    obtain ⟨m, c2, run, rest2⟩ := empty_run (o := o) rest1 (isOp_of_lexeme ")" isClose) _ (.tuple .load) [[]] _
    exact ⟨_, c2, run, rest2, m, [], rfl, List.Forall₂.nil⟩
  | cons i items =>
    obtain ⟨t, u, tail, split, begins, -, -⟩ :=
      (each i (by simp)).listed_front rest stopClose (items.map lex) between left
    obtain ⟨first, c2, after, u2, tail2, run, rest2, holds, left2, front2, stop2, -⟩ :=
      first_item (o := o) each (show _ ≤ n by omega) rest1 left stopClose
    have readers := starNamed_items (k := n) each (by omega) rfl
    obtain ⟨b, c3, found, c4, took3, more, rest4, all, isMore⟩ :=
      more_items (o := o) items (fun j member => readers j (by simp [member]))
        (by rw [isOp_eq isClose]; rfl) stopClose after rest2 left2
    obtain ⟨c5, took5, rest5⟩ := op_run (o := o) rest4 (isOp_of_lexeme ")" isClose)
    obtain ⟨m, made⟩ := node_run (o := o) (c := c5) { line := opening.line, column := opening.column }
      (.tuple .load) [first :: (found.map Prod.fst).getD []]
    refine ⟨_, c5, ?_, rest5, m, _, rfl, List.Forall₂.cons holds all⟩
    have isTrue : b = true := by
      cases items with
      | nil => exact absurd rfl several
      | cons j items => exact isMore
    subst isTrue
    rw [if_pos rfl] at more
    rw [bind_some (takeOp_false (rest1.trans split) (begins.isOp (by decide))),
      if_neg Bool.false_ne_true, bind_some (atWord_run (rest1.trans split) "yield"), begins.noYield,
      if_neg Bool.false_ne_true, bind_some run, bind_some (atClause_false front2 stop2),
      Bool.and_false, if_neg Bool.false_ne_true, bind_some took3, if_pos rfl, bind_some more,
      bind_some took5]
    exact made

theorem beginsAtom_parenthesis : BeginsAtom (.op, ['(']) :=
  Or.inr (Or.inr (Or.inr ⟨rfl, "(", by decide, rfl⟩))

theorem reading_tuple (items : List ι) (each : ∀ i ∈ items, Reading (lex i) (post i))
    (several : items.length ≠ 1) :
    Reading ((.op, ['(']) :: (listed (items.map lex) ++ [(.op, [')'])]))
      (IsDisplay (.tuple .load) items post) :=
  (atomReads_tuple items each several).reading beginsAtom_parenthesis
    (unbound_bracketed each (by decide) (by decide))

theorem reading_set (i : ι) (items : List ι) (each : ∀ j ∈ i :: items, Reading (lex j) (post j)) :
    Reading ((.op, ['\x7b']) :: (listed ((i :: items).map lex) ++ [(.op, ['\x7d'])]))
      (IsDisplay .set (i :: items) post) := by
  refine Reading.of_atom (Or.inr (Or.inr (Or.inr ⟨rfl, "\x7b", by decide, rfl⟩)))
    (unbound_bracketed each (by decide) (by decide)) ?_
  intro n enough o c tokens s rest front same _
  rw [List.length_cons, List.length_append, List.length_singleton] at enough
  obtain ⟨opening, between, close, front, isOpen, left, isClose⟩ := bracket_tokens front same
  have stopClose : Stop close := stop_of_op (s := "\x7d") isClose (by decide)
  obtain ⟨c1, took, rest1⟩ := op_run (o := o) front (isOp_of_lexeme "\x7b" isOpen)
  rw [atom_open "\x7b" front isOpen (by decide)]
  simp only [String.reduceEq, if_false]
  unfold braced
  rw [bind_some (here_run front), bind_some took]
  obtain ⟨t, u, tail, split, begins, noWalrus, -⟩ :=
    (each i (by simp)).listed_front (s :: rest) stopClose (items.map lex) between left
  obtain ⟨first, c2, after, u2, tail2, run, rest2, holds, left2, front2, stop2, which⟩ :=
    first_item (o := o) each (show _ ≤ n by omega) rest1 left stopClose
  have noColon : u2.isOp ":" = false := by
    rcases which with rfl | comma
    · rw [isOp_eq isClose]
      rfl
    · rw [isOp_eq comma]
      rfl
  have readers := starNamed_items (k := n) each (by omega) rfl
  obtain ⟨b, c3, found, c4, took3, more, rest4, all, -⟩ :=
    more_items (o := o) items (fun j member => readers j (by simp [member]))
      (by rw [isOp_eq isClose]; rfl) stopClose after rest2 left2
  obtain ⟨c5, took5, rest5⟩ := op_run (o := o) rest4 (isOp_of_lexeme "\x7d" isClose)
  obtain ⟨m, made⟩ := node_run (o := o) (c := c5) { line := opening.line, column := opening.column }
    .set [first :: (found.map Prod.fst).getD []]
  refine ⟨_, c5, ?_, rest5, m, _, rfl, List.Forall₂.cons holds all⟩
  rw [bind_some (takeOp_false (rest1.trans split) (begins.isOp (by decide))),
    if_neg Bool.false_ne_true, bind_some (atOp_run (rest1.trans split) "**"), begins.isOp (by decide),
    if_neg Bool.false_ne_true, bind_some (atWalrus_false (rest1.trans split) noWalrus), bind_some run,
    bind_some (takeOp_false front2 noColon), Bool.and_false, if_neg Bool.false_ne_true,
    bind_some (atClause_false front2 stop2), Bool.and_false, if_neg Bool.false_ne_true,
    bind_some took3]
  exact (bind_choice more).trans ((bind_some took5).trans made)

/-! ## Dictionaries -/

def entryLexemes (key value : ι → List Lexeme) (i : ι) : List Lexeme :=
  key i ++ (.op, [':']) :: value i

def IsDict (items : List ι) (key value : ι → Tree → Prop) (tree : Tree) : Prop :=
  ∃ (m : Mark) (entries : List (Tree × Tree)),
    tree = .node m .dict [entries.map Prod.fst, entries.map Prod.snd] ∧
      List.Forall₂ (fun i (entry : Tree × Tree) => key i entry.1 ∧ value i entry.2) items entries

variable {key value : ι → List Lexeme} {isKey isValue : ι → Tree → Prop}

theorem unbound_entry {i : ι} (first : Reading (key i) (isKey i)) (second : Reading (value i) (isValue i)) :
    Unbound (entryLexemes key value i) :=
  first.unbound.append (Unbound.cons (by decide) second.unbound)

theorem Reading.one_expression {lexemes : List Lexeme} {post : Tree → Prop}
    (reading : Reading lexemes post) (n : Nat) (enough : 2 * lexemes.length + 1 ≤ n) :
    Reads (one (rules n) .expression) lexemes post := by
  intro o c tokens s rest front same stop
  obtain ⟨n, rfl⟩ : ∃ k, n = k + 1 := ⟨n - 1, by omega⟩
  obtain ⟨tree, c', run, behind, holds⟩ :=
    reading.reads n (by omega) o c tokens s rest front same stop
  exact ⟨tree, c', Parser.one_expression run, behind, holds⟩

theorem reads_entry {i : ι} {n : Nat} (first : Reading (key i) (isKey i))
    (second : Reading (value i) (isValue i)) (enough : 2 * (entryLexemes key value i).length + 2 ≤ n) :
    Reads (entry (rules n)) (entryLexemes key value i) (fun e => isKey i e.1 ∧ isValue i e.2) := by
  intro o c tokens s rest front same stop
  unfold entryLexemes at enough
  rw [List.length_append, List.length_cons] at enough
  obtain ⟨before, after, rfl, left, right⟩ := split_tokens same
  obtain ⟨colon, inner, rfl, isColon, right⟩ := cons_tokens right
  have stopColon : Stop colon := stop_of_op (s := ":") isColon (by decide)
  rw [List.append_assoc, List.cons_append] at front
  obtain ⟨t, u, tail, split, begins, -, -⟩ := first.front (inner ++ s :: rest) left stopColon
  obtain ⟨k, c1, run1, rest1, isK⟩ := first.one_expression n (by omega) o c before colon _ front left stopColon
  obtain ⟨c2, took, rest2⟩ := op_run (o := o) rest1 (isOp_of_lexeme ":" isColon)
  obtain ⟨v, c3, run3, rest3, isV⟩ := second.one_expression n (by omega) o c2 inner s rest rest2 right stop
  refine ⟨(k, v), c3, ?_, rest3, isK, isV⟩
  unfold entry
  rw [bind_some (takeOp_false (front.trans split) (begins.isOp (by decide))),
    if_neg Bool.false_ne_true, bind_some run1, bind_some took, bind_some run3]
  rfl

theorem reading_dict (items : List ι) (keys : ∀ i ∈ items, Reading (key i) (isKey i))
    (values : ∀ i ∈ items, Reading (value i) (isValue i))
    (unstarred : ∀ i tree, isKey i tree → isStarred tree = false) :
    Reading ((.op, ['\x7b']) :: (listed (items.map (entryLexemes key value)) ++ [(.op, ['\x7d'])]))
      (IsDict items isKey isValue) := by
  refine Reading.of_atom (Or.inr (Or.inr (Or.inr ⟨rfl, "\x7b", by decide, rfl⟩))) ?_ ?_
  · refine Unbound.cons (by decide)
      (Unbound.append (unbound_listed ?_) (by decide))
    intro item member
    obtain ⟨i, among, rfl⟩ := List.mem_map.mp member
    exact unbound_entry (keys i among) (values i among)
  intro n enough o c tokens s rest front same _
  rw [List.length_cons, List.length_append, List.length_singleton] at enough
  obtain ⟨opening, between, close, front, isOpen, left, isClose⟩ := bracket_tokens front same
  have stopClose : Stop close := stop_of_op (s := "\x7d") isClose (by decide)
  obtain ⟨c1, took, rest1⟩ := op_run (o := o) front (isOp_of_lexeme "\x7b" isOpen)
  rw [atom_open "\x7b" front isOpen (by decide)]
  simp only [String.reduceEq, if_false]
  unfold braced
  rw [bind_some (here_run front), bind_some took]
  cases items with
  | nil =>
    rw [List.map_nil, listed, List.map_eq_nil_iff] at left
    subst left
    obtain ⟨m, c2, run, rest2⟩ := empty_run (o := o) rest1 (isOp_of_lexeme "\x7d" isClose) _ .dict [[], []] _
    exact ⟨_, c2, run, rest2, m, [], rfl, List.Forall₂.nil⟩
  | cons i items =>
    have bounds : ∀ j ∈ i :: items, 2 * (entryLexemes key value j).length + 2 ≤ n := by
      intro j member
      have bound := length_le_listed (List.mem_map_of_mem (f := entryLexemes key value) member)
      omega
    have bound := bounds i (by simp)
    unfold entryLexemes at bound
    rw [List.length_append, List.length_cons] at bound
    -- the first key is read as an item of a set would be, up to its colon
    obtain ⟨before, after, form, leftEntry, leftMore⟩ := split_tokens left
    subst form
    obtain ⟨keyTokens, after', form, leftKey, right⟩ := split_tokens leftEntry
    subst form
    obtain ⟨colon, valueTokens, form, isColon, leftValue⟩ := cons_tokens right
    subst form
    have stopColon : Stop colon := stop_of_op (s := ":") isColon (by decide)
    have keyFront : c1.rest = keyTokens ++ colon :: (valueTokens ++ (after ++ close :: s :: rest)) := by
      rw [rest1]
      simp
    obtain ⟨t, u, tail, split, begins, noWalrus, -⟩ := (keys i (by simp)).front
      (valueTokens ++ (after ++ close :: s :: rest)) leftKey stopColon
    obtain ⟨k, c2, run2, rest2, isK⟩ := (keys i (by simp)).starNamed n (by omega) o c1 keyTokens colon _
      keyFront leftKey stopColon
    obtain ⟨c3, took3, rest3⟩ :=
      takeOp_true (o := o) rest2 (isOp_of_lexeme ":" isColon)
    obtain ⟨v, c4, after4, run4, rest4, isV, leftMore⟩ :=
      ((values i (by simp)).one_expression n (by omega)).front (o := o)
        (items.map (entryLexemes key value)) (valueTokens ++ after)
        (rest3.trans (List.append_assoc _ _ _).symm)
        (by rw [List.map_append, leftValue, leftMore]) stopClose
    obtain ⟨u4, tail4, form4, stop4, -⟩ := separated_front (s :: rest) stopClose
      (items.map (entryLexemes key value)) after4 leftMore
    have entries : ∀ j ∈ items, Reads (entry (rules n)) (entryLexemes key value j)
        (fun e => isKey j e.1 ∧ isValue j e.2) := fun j member =>
      reads_entry (keys j (by simp [member])) (values j (by simp [member])) (bounds j (by simp [member]))
    obtain ⟨b, c5, found, c6, took5, more, rest6, all, -⟩ :=
      more_items (o := o) items entries
        (by rw [isOp_eq isClose]; rfl) stopClose after4 rest4 leftMore
    obtain ⟨c7, took7, rest7⟩ := op_run (o := o) rest6 (isOp_of_lexeme "\x7d" isClose)
    obtain ⟨m, made⟩ := node_run (o := o) (c := c7) { line := opening.line, column := opening.column }
      .dict [((k, v) :: (found.map Prod.fst).getD []).map Prod.fst,
        ((k, v) :: (found.map Prod.fst).getD []).map Prod.snd]
    refine ⟨_, c7, ?_, rest7, m, (k, v) :: (found.map Prod.fst).getD [], rfl,
      List.Forall₂.cons ⟨isK, isV⟩ all⟩
    rw [bind_some (takeOp_false (keyFront.trans split) (begins.isOp (by decide))),
      if_neg Bool.false_ne_true, bind_some (atOp_run (keyFront.trans split) "**"),
      begins.isOp (by decide), if_neg Bool.false_ne_true,
      bind_some (atWalrus_false (keyFront.trans split) noWalrus), bind_some run2, bind_some took3,
      unstarred i k isK]
    simp only [Bool.not_false, Bool.and_true, if_true]
    rw [bind_some run4]
    unfold dictRest
    rw [bind_some (atClause_false (rest4.trans form4) stop4), Bool.and_false,
      if_neg Bool.false_ne_true, bind_some took5]
    exact (bind_choice more).trans ((bind_some took7).trans made)

end Displays

end Parser

end MacroExpand
