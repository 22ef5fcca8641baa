import MacroExpand.Proofs.Calls
import MacroExpand.Value.Serialize

/-!
# Texts of expressions

A text is `Written` for some property of trees if it is one line of printable characters that is cut
into the tokens of an expression whose tree has the property.  The text of a display or of a call is
written if its parts are, and a text that is written is parsed as a whole, unless its brackets are
nested too deeply.
-/

set_option autoImplicit false

namespace MacroExpand

open MacroExpand.Parser MacroExpand.Lexer

/-- A piece of a line of printable characters, and the tokens that it is cut into. -/
structure Stretch (before : List Char) (text : Text) (lexemes : List Lexeme) (after : List Char)
    (follow : Text → Prop) : Prop where
  cuts : Cuts before text lexemes after follow
  short : lexemes.length ≤ text.length
  printable : ∀ c ∈ text, isPrintable c = true

theorem Stretch.append {before between after : List Char} {text more : Text}
    {lexemes others : List Lexeme} {follow next : Text → Prop}
    (first : Stretch before text lexemes between follow)
    (second : Stretch between more others after next)
    (fits : ∀ rest, next rest → follow (more ++ rest)) :
    Stretch before (text ++ more) (lexemes ++ others) after next := by
  refine ⟨first.cuts.append second.cuts fits, ?_, ?_⟩
  · have left := first.short
    have right := second.short
    rw [List.length_append, List.length_append]
    omega
  · intro c member
    rcases List.mem_append.mp member with inner | inner
    · exact first.printable c inner
    · exact second.printable c inner

/-- A text that is read as an expression whose tree satisfies `post`. -/
structure Written (text : Text) (lexemes : List Lexeme) (post : Tree → Prop) : Prop where
  stretch : ∀ opened, Stretch opened text lexemes opened Closes
  reading : Reading lexemes post
  solid : ∀ c ∈ text.head?, c ≠ ' ' ∧ c ≠ '#' ∧ c ≠ '\\'

theorem Written.printable {text : Text} {lexemes : List Lexeme} {post : Tree → Prop}
    (written : Written text lexemes post) : ∀ c ∈ text, isPrintable c = true :=
  (written.stretch []).printable

theorem Written.weaken {text : Text} {lexemes : List Lexeme} {post post' : Tree → Prop}
    (written : Written text lexemes post) (implied : ∀ tree, post tree → post' tree) :
    Written text lexemes post' :=
  ⟨written.stretch, written.reading.weaken implied, written.solid⟩

/-! ## A whole text -/

structure Tokenized (text : Text) (lexemes : List Lexeme) : Prop where
  stretch : Stretch [] text lexemes [] Closes
  nonempty : lexemes ≠ []
  solid : ∀ c ∈ text.head?, c ≠ ' ' ∧ c ≠ '#' ∧ c ≠ '\\'

theorem Written.tokenized {text : Text} {lexemes : List Lexeme} {post : Tree → Prop}
    (written : Written text lexemes post) : Tokenized text lexemes := by
  obtain ⟨l, tail, form, -⟩ := written.reading.begins
  exact ⟨written.stretch [], by simp [form], written.solid⟩

theorem measure_solid (c : Char) (text : Text) (place : Nat × Nat) (fuel : Nat)
    (solid : c ≠ ' ' ∧ c ≠ '\t' ∧ c ≠ '\x0c' ∧ c ≠ '\\') :
    Lexer.measure (fuel + 1) 0 0 0 place (c :: text) = ((0, 0), place, c :: text) := by
  obtain ⟨noSpace, noTab, noForm, noJoin⟩ := solid
  unfold Lexer.measure
  split
  · rename_i found
    cases found
    exact absurd rfl noSpace
  · rename_i found
    cases found
    exact absurd rfl noTab
  · rename_i found
    cases found
    exact absurd rfl noForm
  · rename_i found
    cases found
    exact absurd rfl noJoin
  · rfl

theorem not_printable {c d : Char} (shown : isPrintable c = true) (hidden : isPrintable d = false) :
    c ≠ d := by
  rintro rfl
  rw [hidden] at shown
  cases shown

/-- The first step of cutting puts the text inside its line. -/
theorem step_start {c : Char} (text : Text) (shown : isPrintable c = true)
    (solid : c ≠ ' ' ∧ c ≠ '#' ∧ c ≠ '\\') :
    ∃ s, Runs 1 { rest := c :: text, line := 1, column := 0 } s ∧ Inside s (c :: text) [] ∧
      s.tokens = [] := by
  obtain ⟨noSpace, noComment, noJoin⟩ := solid
  have noFeed : c ≠ '\n' := not_printable shown (by decide)
  have measured := measure_solid c text (1, 0) (text.length + 1)
    ⟨noSpace, not_printable shown (by decide), not_printable shown (by decide), noJoin⟩
  refine ⟨{ rest := c :: text, line := 1, column := 0, fresh := false }, Runs.one ?_,
    ⟨rfl, rfl, rfl, rfl⟩, rfl⟩
  show lineStart { rest := c :: text, line := 1, column := 0 } = _
  unfold lineStart
  simp only [List.length_cons, measured]
  split
  · rename_i found
    cases found
    exact absurd rfl noComment
  · rename_i found
    cases found
    exact absurd rfl noFeed
  · rename_i found
    cases found
    exact absurd rfl noJoin
  · rename_i found
    cases found
  · rfl

/-- Whether cutting a text does not stop at a bracket that is nested too deeply. -/
def NestingFits (text : Text) : Prop :=
  ∀ fault ∈ (Lexer.run {} text).stopped, fault.fault.message ≠ nestingMessage

/-- A text is cut into its tokens and a mark for its end, or has more than two hundred brackets. -/
theorem Tokenized.run_cases {text : Text} {lexemes : List Lexeme} (tokenized : Tokenized text lexemes) :
    (∃ (tokens : List Token) (finish : Token), (Lexer.run {} text).tokens = tokens ++ [finish] ∧
      tokens.map Token.lexeme = lexemes ∧ finish.kind = .finish ∧ (Lexer.run {} text).stopped = none) ∨
    ∃ fault, (Lexer.run {} text).stopped = some fault ∧ fault.fault.message = nestingMessage ∧
      200 < openings lexemes := by
  cases text with
  | nil =>
    have short := tokenized.stretch.short
    exact absurd (List.length_eq_zero_iff.mp (Nat.le_zero.mp short)) tokenized.nonempty
  | cons c text =>
    have shown := tokenized.stretch.printable c (by simp)
    obtain ⟨s, start, inside, noTokens⟩ := step_start text shown (tokenized.solid c rfl)
    have none : s.brackets.length = 0 := by
      rw [List.map_eq_nil_iff.mp inside.brackets, List.length_nil]
    have fuel : ∀ k, k ≤ (c :: text).length → ∃ left, 2 * (c :: text).length + 4 = 1 + (k + 1 + left) := by
      intro k bound
      exact ⟨2 * (c :: text).length + 4 - (k + 2), by omega⟩
    rcases tokenized.stretch.cuts s [] Closes.nil (by rw [List.append_nil]; exact inside) with
      ⟨n, s', tokens, bound, run, inside', tokensEq, lexemesEq, -⟩ | ⟨n, bound, stop, deep⟩
    · obtain ⟨left, enough⟩ := fuel n bound
      have final : loop {} (1 + left) s' = (s'.mark .finish, Option.none) := by
        have noBrackets : s'.brackets = [] := List.map_eq_nil_iff.mp inside'.brackets
        rw [Nat.add_comm, loop]
        unfold Lexer.step
        rw [inside'.fresh, leaveAsynchronous_none inside'.asynchronous]
        simp only [Bool.false_eq_true, if_false, inside'.rest_eq, noBrackets]
      have whole : loop {} (2 * (c :: text).length + 4) { rest := c :: text, line := 1, column := 0 } =
          (s'.mark .finish, Option.none) := by
        rw [enough, start, Nat.add_assoc, run, final]
      have result : (Lexer.run {} (c :: text)).tokens = (s'.mark .finish).tokens.reverse ∧
          (Lexer.run {} (c :: text)).stopped = Option.none := by
        unfold Lexer.run
        simp only [whole, and_self]
      refine .inl ⟨tokens, ⟨.finish, [], s'.line, s'.column, s'.line, s'.column⟩, ?_, lexemesEq, rfl, result.2⟩
      rw [result.1]
      unfold State.mark
      rw [tokensEq, noTokens]
      simp
    · obtain ⟨last, fault, message, stops⟩ := stop
      obtain ⟨left, enough⟩ := fuel n (by omega)
      have whole : loop {} (2 * (c :: text).length + 4) { rest := c :: text, line := 1, column := 0 } =
          (last, some fault) := by
        rw [enough, start, stops]
      have stopped : (Lexer.run {} (c :: text)).stopped = some fault := by
        unfold Lexer.run
        simp only [whole]
      exact .inr ⟨fault, stopped, message, by omega⟩

/-- A text whose brackets are not nested too deeply is cut into its tokens and a mark for its end. -/
theorem Tokenized.run {text : Text} {lexemes : List Lexeme} (tokenized : Tokenized text lexemes)
    (fits : NestingFits text) :
    ∃ (tokens : List Token) (finish : Token), (Lexer.run {} text).tokens = tokens ++ [finish] ∧
      tokens.map Token.lexeme = lexemes ∧ finish.kind = .finish := by
  rcases tokenized.run_cases with ⟨tokens, finish, cut, same, isFinish, -⟩ | ⟨fault, stopped, message, -⟩
  · exact ⟨tokens, finish, cut, same, isFinish⟩
  · exact absurd message (fits fault stopped)

/-- Two hundred brackets are never nested too deeply. -/
theorem Tokenized.nestingFits {text : Text} {lexemes : List Lexeme} (tokenized : Tokenized text lexemes)
    (few : openings lexemes ≤ 200) : NestingFits text := by
  rcases tokenized.run_cases with ⟨tokens, finish, -, -, -, none⟩ | ⟨fault, -, -, deep⟩
  · intro fault stopped
    rw [none] at stopped
    cases stopped
  · omega

theorem unifyLineEnds_printable {text : Text} (printable : ∀ c ∈ text, isPrintable c = true) :
    text.unifyLineEnds = text := by
  induction text with
  | nil => rfl
  | cons c text ih =>
    have noReturn : c ≠ '\r' := not_printable (printable c (by simp)) (by decide)
    have rest := ih fun d member => printable d (by simp [member])
    unfold Text.unifyLineEnds
    split
    · rename_i found
      cases found
    · rename_i found
      cases found
      exact absurd rfl noReturn
    · rename_i found
      cases found
      rw [rest, if_neg noReturn]

theorem Tokenized.parse {text : Text} {lexemes : List Lexeme} {post : Tree → Prop}
    (tokenized : Tokenized text lexemes) (fits : NestingFits text)
    (reads : ∀ n, 2 * lexemes.length ≤ n → Reads (expression (rules n)) lexemes post) :
    ∃ tree, parseExpression text = .ok tree ∧ post tree := by
  obtain ⟨tokens, finish, cut, same, isFinish⟩ := tokenized.run fits
  have stop : Stop finish := Or.inr (Or.inr isFinish)
  have printable := tokenized.stretch.printable
  have noNull : text.contains '\x00' = false := by
    rw [List.contains_eq_mem, decide_eq_false_iff_not]
    intro member
    exact absurd (printable _ member) (by decide)
  have short := tokenized.stretch.short
  have front : ({ rest := (Lexer.run {} text).tokens } : Cursor).rest = tokens ++ finish :: [] := cut
  obtain ⟨t, others, rfl⟩ : ∃ t others, tokens = t :: others :=
    List.exists_cons_of_ne_nil fun none => tokenized.nonempty (by rw [← same, none, List.map_nil])
  obtain ⟨tree, c1, run, rest1, holds⟩ := reads (8 * text.length + 39) (by omega) { version := 11 } _
    _ finish [] front same stop
  have run1 : one (rules (8 * text.length + 40)) .expression { version := 11 }
      { rest := (Lexer.run {} text).tokens } = some (tree, c1) := one_expression run
  have noOp : ∀ word : String, finish.isOp word = false := by
    intro word
    unfold Token.isOp
    rw [isFinish]
    rfl
  have list : Parser.commaList (one (rules (8 * text.length + 40)) .expression) { version := 11 }
      { rest := (Lexer.run {} text).tokens } = some (([tree], false), c1) := by
    unfold Parser.commaList Parser.commas
    rw [bind_some ((bind_some run1).trans (bind_some (many_none (bind_none (op_none rest1 (noOp ",")))))),
      bind_some (takeOp_false rest1 (noOp ","))]
    rfl
  have noNewline : Parser.kind .newline { version := 11 } c1 = none := by
    refine takeIf_none rest1 ?_
    rw [isFinish]
    rfl
  obtain ⟨c2, took, -⟩ := takeIf_run (o := { version := 11 }) (·.kind = .finish) rest1
    (by rw [isFinish]; rfl)
  have sole : soleExpression (rules (8 * text.length + 40)) { version := 11 }
      { rest := (Lexer.run {} text).tokens } = some (tree, c2) := by
    unfold soleExpression
    rw [bind_some (here_run front), bind_some list]
    exact (bind_some (many_none noNewline)).trans (bind_some (p := Parser.kind .finish) took)
  refine ⟨tree, ?_, holds⟩
  unfold parseExpression
  rw [noNull, if_neg Bool.false_ne_true, unifyLineEnds_printable printable]
  unfold parseTokens
  simp only [sole]

theorem Written.parse {text : Text} {lexemes : List Lexeme} {post : Tree → Prop}
    (written : Written text lexemes post) (fits : NestingFits text) :
    ∃ tree, parseExpression text = .ok tree ∧ post tree :=
  written.tokenized.parse fits written.reading.reads

/-! ## Small pieces -/

theorem stretch_open (opened : List Char) (c : Char) (isOpen : c = '(' ∨ c = '[' ∨ c = '\x7b') :
    Stretch opened [c] [(.op, [c])] (c :: opened) (fun _ => True) := by
  refine ⟨cuts_open opened c isOpen, Nat.le_refl 1, ?_⟩
  intro d member
  rw [List.mem_singleton] at member
  subst member
  rcases isOpen with rfl | rfl | rfl <;> decide

theorem stretch_close (opened : List Char) (o c : Char) (isClose : c = ')' ∨ c = ']' ∨ c = '\x7d')
    (fits : closing o = c) : Stretch (o :: opened) [c] [(.op, [c])] opened (fun _ => True) := by
  refine ⟨cuts_close opened o c isClose fits, Nat.le_refl 1, ?_⟩
  intro d member
  rw [List.mem_singleton] at member
  subst member
  rcases isClose with rfl | rfl | rfl <;> decide

theorem stretch_comma (opened : List Char) :
    Stretch opened [',', ' '] [(.op, [','])] opened (fun _ => True) :=
  ⟨(cuts_comma opened).append (cuts_space opened) (fun _ _ => trivial), by decide, List.all_eq_true.mp (by decide)⟩

theorem stretch_colon (opened : List Char) :
    Stretch opened [':', ' '] [(.op, [':'])] opened (fun _ => True) :=
  ⟨(cuts_colon opened).append (cuts_space opened) (fun _ _ => rfl), by decide, List.all_eq_true.mp (by decide)⟩

theorem stretch_point (opened : List Char) : Stretch opened ['.'] [(.op, ['.'])] opened
    (fun rest => ∃ c tail, rest = c :: tail ∧ c ≠ '.' ∧ c.isDigit = false) :=
  ⟨cuts_point opened, Nat.le_refl 1, List.all_eq_true.mp (by decide)⟩

structure WordForm (text : Text) : Prop where
  nonempty : text ≠ []
  start : ∀ c ∈ text.head?, c.isDigit = false
  words : ∀ c ∈ text, Number.isWordChar c = true
  printable : ∀ c ∈ text, isPrintable c = true
  isName : Text.isName text = true

theorem wordForm_of_decide {text : Text} (nonempty : text ≠ [])
    (start : text.head?.all fun c => !c.isDigit)
    (words : text.all fun c => Number.isWordChar c && isPrintable c)
    (isName : Text.isName text = true) : WordForm text := by
  simp only [List.all_eq_true, Bool.and_eq_true] at words
  refine ⟨nonempty, ?_, fun c inside => (words c inside).1, fun c inside => (words c inside).2, isName⟩
  intro c member
  rw [Option.mem_def.mp member] at start
  simpa using start

theorem stretch_word {text : Text} (form : WordForm text) (opened : List Char) :
    Stretch opened text [(.name, text)] opened EndsName := by
  cases shape : text with
  | nil => exact absurd shape form.nonempty
  | cons c more =>
    subst shape
    refine ⟨cuts_name opened c more (form.start c rfl) form.words form.isName, ?_, form.printable⟩
    simp

theorem WordForm.behindPoint {text : Text} (form : WordForm text) (rest : Text) :
    ∃ c tail, text ++ rest = c :: tail ∧ c ≠ '.' ∧ c.isDigit = false := by
  cases shape : text with
  | nil => exact absurd shape form.nonempty
  | cons c more =>
    refine ⟨c, _, rfl, ?_, form.start c (by rw [shape]; rfl)⟩
    rintro rfl
    exact absurd (form.words '.' (by rw [shape]; simp)) (by decide)

theorem WordForm.solid {text : Text} (form : WordForm text) :
    ∀ c ∈ text.head?, c ≠ ' ' ∧ c ≠ '#' ∧ c ≠ '\\' := by
  intro c member
  have word := form.words c (List.mem_of_mem_head? member)
  refine ⟨?_, ?_, ?_⟩ <;> (rintro rfl; exact absurd word (by decide))

/-! ## Items -/

theorem commaList_cons (first second : Text) (parts : List Text) :
    MacroExpand.commaList (first :: second :: parts) =
      first ++ ([',', ' '] ++ MacroExpand.commaList (second :: parts)) := by
  simp [MacroExpand.commaList, Text.joinWith, List.intercalate]

section Items

variable {ι : Type} {text : ι → Text} {lex : ι → List Lexeme} {post : ι → Tree → Prop}

theorem stretch_commaList (items : List ι)
    (each : ∀ i ∈ items, ∀ opened, Stretch opened (text i) (lex i) opened Closes) (opened : List Char) :
    Stretch opened (MacroExpand.commaList (items.map text)) (listed (items.map lex)) opened Closes := by
  induction items with
  | nil => exact ⟨Cuts.nil opened Closes, Nat.le_refl 0, by simp [MacroExpand.commaList, Text.joinWith]⟩
  | cons i items ih =>
    cases items with
    | nil =>
      have single := each i (by simp) opened
      simpa [MacroExpand.commaList, Text.joinWith, listed, separated] using single
    | cons j items =>
      have others := ih fun k member => each k (by simp [member])
      have first := each i (by simp) opened
      have tail := (stretch_comma opened).append others (fun _ _ => trivial)
      have whole := first.append tail (fun rest _ => Closes.cons _ (Or.inl rfl))
      rw [List.map_cons, List.map_cons, commaList_cons]
      exact whole

theorem closes_close {c : Char} (rest : Text) (isClose : c = ')' ∨ c = ']' ∨ c = '\x7d') :
    Closes (c :: rest) := by
  refine Closes.cons rest ?_
  rcases isClose with rfl | rfl | rfl <;> simp

theorem stretch_bracketed {inner : Text} {lexemes : List Lexeme}
    (between : ∀ opened, Stretch opened inner lexemes opened Closes) (o c : Char)
    (isOpen : o = '(' ∨ o = '[' ∨ o = '\x7b') (isClose : c = ')' ∨ c = ']' ∨ c = '\x7d')
    (fits : closing o = c) (opened : List Char) :
    Stretch opened (o :: (inner ++ [c])) ((.op, [o]) :: (lexemes ++ [(.op, [c])])) opened
      (fun _ => True) := by
  have tail := (between (o :: opened)).append (stretch_close opened o c isClose fits)
    (fun rest _ => closes_close rest isClose)
  exact (stretch_open opened o isOpen).append tail (fun _ _ => trivial)

theorem Stretch.closes {before after : List Char} {text : Text} {lexemes : List Lexeme}
    (stretch : Stretch before text lexemes after (fun _ => True)) :
    Stretch before text lexemes after Closes :=
  ⟨stretch.cuts.weaken fun _ _ => trivial, stretch.short, stretch.printable⟩

theorem Written.stretches {items : List ι} (each : ∀ i ∈ items, Written (text i) (lex i) (post i)) :
    ∀ opened, Stretch opened (MacroExpand.commaList (items.map text)) (listed (items.map lex)) opened Closes :=
  stretch_commaList items fun i member => (each i member).stretch

theorem written_list (items : List ι) (each : ∀ i ∈ items, Written (text i) (lex i) (post i)) :
    Written ('[' :: (MacroExpand.commaList (items.map text) ++ [']']))
      ((.op, ['[']) :: (listed (items.map lex) ++ [(.op, [']'])]))
      (IsDisplay (.list .load) items post) := by
  refine ⟨fun opened => ?_, reading_list items fun i member => (each i member).reading, ?_⟩
  · exact (stretch_bracketed (Written.stretches each) '[' ']' (by simp) (by simp) rfl opened).closes
  · intro c member
    cases member
    decide

theorem written_tuple (items : List ι) (each : ∀ i ∈ items, Written (text i) (lex i) (post i))
    (several : items.length ≠ 1) :
    Written ('(' :: (MacroExpand.commaList (items.map text) ++ [')']))
      ((.op, ['(']) :: (listed (items.map lex) ++ [(.op, [')'])]))
      (IsDisplay (.tuple .load) items post) := by
  refine ⟨fun opened => ?_, reading_tuple items (fun i member => (each i member).reading) several, ?_⟩
  · exact (stretch_bracketed (Written.stretches each) '(' ')' (by simp) (by simp) rfl opened).closes
  · intro c member
    cases member
    decide

theorem written_single (i : ι) (written : Written (text i) (lex i) (post i)) :
    Written ('(' :: (text i ++ [',', ')'])) ((.op, ['(']) :: (lex i ++ [(.op, [',']), (.op, [')'])]))
      (IsDisplay (.tuple .load) [i] post) := by
  refine ⟨fun opened => ?_, reading_single i written.reading, ?_⟩
  · have comma : Stretch ('(' :: opened) [','] [(.op, [','])] ('(' :: opened) (fun _ => True) :=
      ⟨cuts_comma _, Nat.le_refl 1, List.all_eq_true.mp (by decide)⟩
    have final := comma.append (stretch_close opened '(' ')' (by simp) rfl) (fun _ _ => trivial)
    have tail := (written.stretch ('(' :: opened)).append final
      (fun rest _ => Closes.cons _ (Or.inl rfl))
    exact ((stretch_open opened '(' (by simp)).append tail (fun _ _ => trivial)).closes
  · intro c member
    cases member
    decide

theorem written_set (i : ι) (items : List ι)
    (each : ∀ j ∈ i :: items, Written (text j) (lex j) (post j)) :
    Written ('\x7b' :: (MacroExpand.commaList ((i :: items).map text) ++ ['\x7d']))
      ((.op, ['\x7b']) :: (listed ((i :: items).map lex) ++ [(.op, ['\x7d'])]))
      (IsDisplay .set (i :: items) post) := by
  refine ⟨fun opened => ?_, reading_set i items fun j member => (each j member).reading, ?_⟩
  · exact (stretch_bracketed (Written.stretches each) '\x7b' '\x7d' (by simp) (by simp) rfl opened).closes
  · intro c member
    cases member
    decide

def entryText (key value : ι → Text) (i : ι) : Text := key i ++ ':' :: ' ' :: value i

theorem written_dict {keyText valueText : ι → Text} {key value : ι → List Lexeme}
    {isKey isValue : ι → Tree → Prop} (items : List ι)
    (keys : ∀ i ∈ items, Written (keyText i) (key i) (isKey i))
    (values : ∀ i ∈ items, Written (valueText i) (value i) (isValue i))
    (unstarred : ∀ i tree, isKey i tree → isStarred tree = false) :
    Written ('\x7b' :: (MacroExpand.commaList (items.map (entryText keyText valueText)) ++ ['\x7d']))
      ((.op, ['\x7b']) :: (listed (items.map (entryLexemes key value)) ++ [(.op, ['\x7d'])]))
      (IsDict items isKey isValue) := by
  have entries : ∀ i ∈ items, ∀ opened, Stretch opened (entryText keyText valueText i)
      (entryLexemes key value i) opened Closes := by
    intro i member opened
    have tail := (stretch_colon opened).append ((values i member).stretch opened) (fun _ _ => trivial)
    exact ((keys i member).stretch opened).append tail
      (fun rest _ => Closes.cons _ (by simp))
  refine ⟨fun opened => ?_, reading_dict items (fun i member => (keys i member).reading)
    (fun i member => (values i member).reading) unstarred, ?_⟩
  · exact (stretch_bracketed (stretch_commaList items entries) '\x7b' '\x7d' (by simp) (by simp) rfl
      opened).closes
  · intro c member
    cases member
    decide

/-! ## Calls -/

def callText (parts : List Text) : Text := '(' :: (MacroExpand.commaList parts ++ [')'])

theorem stretch_call {items : List ι} (each : ∀ i ∈ items, Written (text i) (lex i) (post i))
    (opened : List Char) :
    Stretch opened (callText (items.map text)) (callLexemes (items.map lex)) opened Closes :=
  (stretch_bracketed (Written.stretches each) '(' ')' (by simp) (by simp) rfl opened).closes

theorem endsName_call (parts : List Text) (rest : Text) : EndsName (callText parts ++ rest) := by
  intro c member
  cases member
  decide

theorem written_call {name : Text} (form : WordForm name) (plain : PlainWord name) (items : List ι)
    (each : ∀ i ∈ items, Written (text i) (lex i) (post i)) :
    Written (name ++ callText (items.map text)) ([(.name, name)] ++ callLexemes (items.map lex))
      (IsCall (IsName name) items post) := by
  refine ⟨fun opened => ?_, ?_, ?_⟩
  · exact (stretch_word form opened).append (stretch_call each opened)
      (fun rest _ => endsName_call _ rest)
  · exact reading_call (atomReads_name plain) plain.beginsAtom (unbound_name name) items
      fun i member => (each i member).reading
  · intro c member
    refine form.solid c ?_
    cases shape : name with
    | nil => exact absurd shape form.nonempty
    | cons d more =>
      rw [shape] at member
      exact member

theorem written_method {object method : Text} (form : WordForm object) (plain : PlainWord object)
    (form' : WordForm method) (plain' : PlainWord method) (items : List ι)
    (each : ∀ i ∈ items, Written (text i) (lex i) (post i)) :
    Written (object ++ (['.'] ++ (method ++ callText (items.map text))))
      ([(.name, object), (.op, ['.']), (.name, method)] ++ callLexemes (items.map lex))
      (IsCall (IsMethod object method) items post) := by
  refine ⟨fun opened => ?_, reading_method plain plain' items fun i member => (each i member).reading, ?_⟩
  · have called := (stretch_word form' opened).append (stretch_call each opened)
      (fun rest _ => endsName_call _ rest)
    have behind := (stretch_point opened).append called (fun rest _ => by
      rw [List.append_assoc]
      exact form'.behindPoint _)
    refine (stretch_word form opened).append behind (fun rest _ => ?_)
    intro c member
    cases member
    decide
  · intro c member
    refine form.solid c ?_
    cases shape : object with
    | nil => exact absurd shape form.nonempty
    | cons d more =>
      rw [shape] at member
      exact member

end Items

/-! ## Literals -/

theorem written_word {word : String} {value : Scalar}
    (is : (word, value) ∈ [("True", Scalar.bool true), ("False", .bool false), ("None", .nil)])
    (form : WordForm word.toList) :
    Written word.toList [(.name, word.toList)] (IsConstant value) := by
  refine ⟨fun opened => ?_, reading_word is, form.solid⟩
  have stretch := stretch_word form opened
  exact ⟨stretch.cuts.weaken fun rest closes => closes.endsName, stretch.short, stretch.printable⟩

theorem written_name {name : Text} (form : WordForm name) (plain : PlainWord name) :
    Written name [(.name, name)] (IsName name) := by
  refine ⟨fun opened => ?_, reading_name plain, form.solid⟩
  have stretch := stretch_word form opened
  exact ⟨stretch.cuts.weaken fun rest closes => closes.endsName, stretch.short, stretch.printable⟩

theorem written_ellipsis :
    Written ['.', '.', '.'] [(.op, ['.', '.', '.'])] (IsConstant .ellipsis) := by
  refine ⟨fun opened => ⟨?_, by decide, List.all_eq_true.mp (by decide)⟩, reading_ellipsis, ?_⟩
  · exact (cuts_dots opened).weaken fun _ _ => trivial
  · intro c member
    cases member
    decide

theorem closes_endsString {q : Char} (quote : IsQuote q) {rest : Text} (closes : Closes rest) :
    EndsString q rest := by
  intro first
  rcases quote with rfl | rfl
  · rcases closes _ first with h | h | h | h | h <;> exact absurd h (by decide)
  · rcases closes _ first with h | h | h | h | h <;> exact absurd h (by decide)

theorem printable_chunks {q : Char} {chunks : List Text} (all : ∀ chunk ∈ chunks, Chunk q chunk)
    (quote : IsQuote q) : ∀ c ∈ q :: (chunks.flatten ++ [q]), isPrintable c = true := by
  have shown : isPrintable q = true := by
    rcases quote with rfl | rfl <;> decide
  intro c member
  rw [List.mem_cons, List.mem_append, List.mem_singleton] at member
  rcases member with rfl | inner | rfl
  · exact shown
  · obtain ⟨chunk, among, inner⟩ := List.mem_flatten.mp inner
    exact (all chunk among).printable c inner
  · exact shown

theorem written_points (points : List CodePoint) :
    Written (Text.quotedPoints points) [(.string, Text.quotedPoints points)]
      (IsConstant (.ofPoints points)) := by
  obtain ⟨q, chunks, quote, quoted, -, all⟩ := quoted_chunks points
  refine ⟨fun opened => ⟨?_, ?_, ?_⟩, reading_points points, ?_⟩
  · rw [quoted]
    exact (cuts_string opened quote chunks all).weaken fun rest closes => closes_endsString quote closes
  · rw [quoted]
    simp
  · rw [quoted]
    exact printable_chunks all quote
  · intro c member
    rw [quoted] at member
    cases member
    rcases quote with rfl | rfl <;> decide

theorem written_text (text : Text) :
    Written (Text.quoted text) [(.string, Text.quoted text)] (IsConstant (.str text)) := by
  rw [← quotedPoints_chars, ← Scalar.ofPoints_chars]
  exact written_points _

theorem written_codes (s : Codes) :
    Written (Scalar.codes s).text [(.string, (Scalar.codes s).text)] (IsConstant (.codes s)) := by
  have written := written_points s.points
  rwa [Scalar.ofPoints_codes] at written

theorem written_bytes (bytes : List UInt8) :
    Written (quotedBytes bytes) [(.string, quotedBytes bytes)] (IsConstant (.bytes bytes)) := by
  obtain ⟨chunks, quoted, -, all⟩ := quotedBytes_chunks bytes
  have quote := byteQuoteFor_isQuote bytes
  refine ⟨fun opened => ⟨?_, ?_, ?_⟩, reading_bytes bytes, ?_⟩
  · rw [quoted]
    exact (cuts_bytes opened quote chunks all).weaken fun rest closes => closes_endsString quote closes
  · rw [quoted]
    simp
  · rw [quoted]
    intro c member
    rcases List.mem_cons.mp member with rfl | inner
    · decide
    · exact printable_chunks all quote c inner
  · intro c member
    rw [quoted] at member
    cases member
    decide

theorem digit_solid {c : Char} (digit : c.isDigit = true) : c ≠ ' ' ∧ c ≠ '#' ∧ c ≠ '\\' := by
  refine ⟨?_, ?_, ?_⟩ <;> (rintro rfl; exact absurd digit (by decide))

theorem written_number {text : Text} {value : Scalar} (is : Number.value text = value)
    (short : Number.isTooLong text = false) (noGap : text.contains '_' = false)
    (cuts : ∀ opened, Cuts opened text [(.number, text)] opened Closes)
    (printable : ∀ c ∈ text, isPrintable c = true) (digit : ∃ c more, text = c :: more ∧ c.isDigit = true) :
    Written text [(.number, text)] (IsConstant value) ∧
      Written ('-' :: text) [(.op, ['-']), (.number, text)] (IsNegated value) := by
  obtain ⟨c, more, rfl, digit⟩ := digit
  have stretch : ∀ opened, Stretch opened (c :: more) [(.number, c :: more)] opened Closes :=
    fun opened => ⟨cuts opened, by simp, printable⟩
  refine ⟨⟨stretch, reading_number is short noGap, ?_⟩,
    ⟨fun opened => ?_, reading_negated is short noGap, ?_⟩⟩
  · intro d member
    cases member
    exact digit_solid digit
  · have minus : Stretch opened ['-'] [(.op, ['-'])] opened
        (fun rest => ∃ c tail, rest = c :: tail ∧ c.isDigit = true) :=
      ⟨cuts_minus opened, Nat.le_refl 1, List.all_eq_true.mp (by decide)⟩
    exact minus.append (stretch opened) (fun rest _ => ⟨c, more ++ rest, rfl, digit⟩)
  · intro d member
    cases member
    decide

theorem contains_gap {text : Text} (noGap : ∀ c ∈ text, c ≠ '_') : text.contains '_' = false := by
  rw [List.contains_eq_mem, decide_eq_false_iff_not]
  intro member
  exact noGap '_' member rfl

theorem written_decimal (n : Nat) (small : n < 10 ^ 1000) :
    Written (decimalDigits n) [(.number, decimalDigits n)] (IsConstant (.int n)) ∧
      Written ('-' :: decimalDigits n) [(.op, ['-']), (.number, decimalDigits n)] (IsNegated (.int n)) := by
  have digits := decimalDigits_isDigit n
  refine written_number (value_decimalDigits n) (isTooLong_decimalDigits n small)
    (contains_gap fun c member => (isDigit_of_digitChar (digits c member)).2.2.1)
    (fun opened => cuts_whole opened n) (fun c member => (isDigit_of_digitChar (digits c member)).2.1) ?_
  cases shape : decimalDigits n with
  | nil => exact absurd shape (decimalDigits_ne_nil n)
  | cons c more => exact ⟨c, more, rfl, digits c (by rw [shape]; simp)⟩

theorem printable_exponent {tail : Text} (form : Number.ExponentForm tail) :
    ∀ c ∈ tail, isPrintable c = true ∧ c ≠ '_' := by
  cases form with
  | none =>
    intro c member
    cases member
  | signed isSign all _ =>
    intro c member
    rw [List.mem_cons, List.mem_cons] at member
    rcases member with rfl | rfl | inner
    · decide
    · rcases isSign with rfl | rfl <;> decide
    · obtain ⟨-, shown, noGap, -, -⟩ := isDigit_of_digitChar (all c inner)
      exact ⟨shown, noGap⟩

theorem printable_double {text : Text} (form : Number.DoubleForm text) :
    ∀ c ∈ text, isPrintable c = true ∧ c ≠ '_' := by
  have digits : ∀ part : Text, (∀ c ∈ part, c.isDigit = true) →
      ∀ c ∈ part, isPrintable c = true ∧ c ≠ '_' := by
    intro part all c member
    obtain ⟨-, shown, noGap, -, -⟩ := isDigit_of_digitChar (all c member)
    exact ⟨shown, noGap⟩
  cases form with
  | fraction _ _ _ all _ more _ tail =>
    intro c member
    rw [List.mem_append, List.mem_cons, List.mem_append] at member
    rcases member with inner | rfl | inner | inner
    · exact digits _ all c inner
    · decide
    · exact digits _ more c inner
    · exact printable_exponent tail c inner
  | exponent all _ tail _ =>
    intro c member
    rcases List.mem_append.mp member with inner | inner
    · exact digits _ all c inner
    · exact printable_exponent tail c inner

theorem written_double {text : Text} {value : Scalar} (form : Number.DoubleForm text)
    (is : Number.value text = value) :
    Written text [(.number, text)] (IsConstant value) ∧
      Written ('-' :: text) [(.op, ['-']), (.number, text)] (IsNegated value) :=
  written_number is (isTooLong_double form)
    (contains_gap fun c member => (printable_double form c member).2)
    (fun opened => cuts_double opened form) (fun c member => (printable_double form c member).1)
    form.head

/-! ## Functions -/

section Functions

variable {ι : Type} {text : ι → Text} {lex : ι → List Lexeme} {post : ι → Tree → Prop}

theorem written_last (items : List ι) (each : ∀ i ∈ items, Written (text i) (lex i) (post i))
    (several : items.length ≠ 1) :
    Written ('(' :: (MacroExpand.commaList (items.map text) ++ chars ")[-1]"))
      ((.op, ['(']) :: (listed (items.map lex) ++ [(.op, [')'])]) ++
        (.op, ['[']) :: ([(.op, ['-']), (.number, ['1'])] ++ [(.op, [']'])]))
      (IsElement (IsDisplay (.tuple .load) items post) (IsNegated (.int 1))) := by
  have index : Written ['-', '1'] [(.op, ['-']), (.number, ['1'])] (IsNegated (.int 1)) :=
    (written_decimal 1 (by decide +kernel)).2
  have shape : '(' :: (MacroExpand.commaList (items.map text) ++ chars ")[-1]") =
      '(' :: (MacroExpand.commaList (items.map text) ++ [')']) ++ '[' :: (['-', '1'] ++ [']']) := by
    simp [chars]
  rw [shape]
  refine ⟨fun opened => ?_, ?_, ?_⟩
  · have tuple := stretch_bracketed (Written.stretches each) '(' ')' (by simp) (by simp) rfl opened
    have element := stretch_bracketed index.stretch '[' ']' (by simp) (by simp) rfl opened
    exact (tuple.append element (fun _ _ => trivial)).closes
  · refine reading_element (atomReads_tuple items (fun i member => (each i member).reading) several)
      beginsAtom_parenthesis
      (unbound_bracketed (fun i member => (each i member).reading) (by decide) (by decide))
      index.reading ?_
    rintro tree ⟨m, inner, rfl, -⟩
    rfl
  · intro c member
    cases member
    decide

theorem written_function {names : List Text} (forms : ∀ name ∈ names, WordForm name ∧ PlainWord name)
    {body : Text} {lexemes : List Lexeme} {inner : Tree → Prop} (written : Written body lexemes inner)
    (items : List ι) (each : ∀ i ∈ items, Written (text i) (lex i) (post i)) :
    Written (chars "(lambda " ++ MacroExpand.commaList names ++ chars ": " ++ body ++ chars ")(" ++
        MacroExpand.commaList (items.map text) ++ [')'])
      ((.op, ['(']) :: (((.name, chars "lambda") :: (listed (names.map nameLexemes) ++
        (.op, [':']) :: lexemes)) ++ [(.op, [')'])]) ++ callLexemes (items.map lex))
      (IsCall (IsLambda names inner) items post) := by
  have shape : chars "(lambda " ++ MacroExpand.commaList names ++ chars ": " ++ body ++ chars ")(" ++
      MacroExpand.commaList (items.map text) ++ [')'] =
      '(' :: ((chars "lambda" ++ ([' '] ++ (MacroExpand.commaList (names.map id) ++
        ([':', ' '] ++ body)))) ++ [')']) ++ callText (items.map text) := by
    simp [chars, callText]
  have form : WordForm (chars "lambda") :=
    wordForm_of_decide (by decide) (by decide) (by decide) (by decide)
  have function : Reading ((.name, chars "lambda") :: (listed (names.map nameLexemes) ++
      (.op, [':']) :: lexemes)) (IsLambda names inner) :=
    reading_lambda (fun name member => (forms name member).2) written.reading
  have unstarred : ∀ tree, IsLambda names inner tree → isStarred tree = false := by
    rintro tree ⟨m, trees, value, rfl, -⟩
    rfl
  rw [shape]
  refine ⟨fun opened => ?_, ?_, ?_⟩
  · have space : ∀ opened, Stretch opened [' '] [] opened (fun _ => True) :=
      fun opened => ⟨cuts_space opened, Nat.zero_le 1, List.all_eq_true.mp (by decide)⟩
    have named : ∀ name ∈ names, ∀ opened, Stretch opened (id name) (nameLexemes name) opened Closes :=
      fun name member opened => (written_name (forms name member).1 (forms name member).2).stretch opened
    have parameters := stretch_commaList names named
    have between : ∀ opened, Stretch opened
        (chars "lambda" ++ ([' '] ++ (MacroExpand.commaList (names.map id) ++ ([':', ' '] ++ body))))
        ([(.name, chars "lambda")] ++ ([] ++ (listed (names.map nameLexemes) ++
          ([(.op, [':'])] ++ lexemes)))) opened Closes := by
      intro opened
      have behind := (stretch_colon opened).append (written.stretch opened) (fun _ _ => trivial)
      have listed := (parameters opened).append behind (fun rest _ => Closes.cons _ (by simp))
      have spaced := (space opened).append listed (fun _ _ => trivial)
      refine (stretch_word form opened).append spaced (fun rest _ => ?_)
      intro c member
      cases member
      decide
    have group := stretch_bracketed between '(' ')' (by simp) (by simp) rfl opened
    exact group.append (stretch_call each opened) (fun _ _ => trivial)
  · refine reading_call (atomReads_group function unstarred) beginsAtom_parenthesis ?_ items
      fun i member => (each i member).reading
    exact Unbound.cons (by decide) (function.unbound.append (by decide))
  · intro c member
    cases member
    decide

end Functions

end MacroExpand
