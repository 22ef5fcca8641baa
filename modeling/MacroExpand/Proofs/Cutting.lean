import MacroExpand.Syntax.Lexer

/-!
# Cutting the pieces of a line

Cutting a text into tokens is followed piece by piece.  `Cuts before text lexemes after follow` says
that a piece of text that stands inside a line, behind the open brackets `before`, is cut into the
tokens `lexemes` and leaves the brackets `after` open, whatever stands behind it as long as that
satisfies `follow`; or that cutting stops there at a bracket that is nested too deeply, which takes
more than two hundred brackets (`openings`).  Pieces are put together by `Cuts.append`.
-/

set_option autoImplicit false

namespace MacroExpand

abbrev Lexeme := TokenKind × Text

def Token.lexeme (t : Token) : Lexeme := (t.kind, t.text)

namespace Lexer

open Number (isWordChar)

def nestingMessage : String := "too many nested parentheses"

/-- Cutting stands inside a line, in front of `rest` and inside the brackets `opened`. -/
structure Inside (s : State) (rest : Text) (opened : List Char) : Prop where
  rest_eq : s.rest = rest
  fresh : s.fresh = false
  asynchronous : s.asynchronous = none
  brackets : s.brackets.map Prod.fst = opened

def Runs (n : Nat) (s s' : State) : Prop := ∀ fuel, loop {} (n + fuel) s = loop {} fuel s'

/-- After some number of steps the next one stops at a bracket that is nested too deeply. -/
def Overflows (n : Nat) (s : State) : Prop :=
  ∃ s' fault, fault.fault.message = nestingMessage ∧
    ∀ fuel, loop {} (n + 1 + fuel) s = (s', some fault)

def openings (lexemes : List Lexeme) : Nat :=
  lexemes.countP fun l => l.1 = .op ∧ (l.2 = ['('] ∨ l.2 = ['['] ∨ l.2 = ['\x7b'])

/-- A piece of `size` characters in front of `rest` is cut into `lexemes`, or holds a bracket that is
nested too deeply: with those that stand open in front of it, the piece opens more than two hundred. -/
def Reaches (s : State) (size : Nat) (rest : Text) (lexemes : List Lexeme) (opened : List Char) :
    Prop :=
  (∃ (n : Nat) (s' : State) (tokens : List Token), n ≤ size ∧ Runs n s s' ∧
    Inside s' rest opened ∧ s'.tokens = tokens.reverse ++ s.tokens ∧ tokens.map Token.lexeme = lexemes ∧
    s'.brackets.length ≤ s.brackets.length + openings lexemes) ∨
  ∃ n, n + 1 ≤ size ∧ Overflows n s ∧ 200 < s.brackets.length + openings lexemes

/-- A text is cut into `lexemes` and turns the open brackets `before` into `after`, if what stands
behind it satisfies `follow`. -/
def Cuts (before : List Char) (text : Text) (lexemes : List Lexeme) (after : List Char)
    (follow : Text → Prop) : Prop :=
  ∀ s rest, follow rest → Inside s (text ++ rest) before →
    Reaches s text.length rest lexemes after

/-! ## Putting pieces together -/

theorem Runs.zero (s : State) : Runs 0 s s := by
  intro fuel
  rw [Nat.zero_add]

theorem Runs.trans {n m : Nat} {s s' s'' : State} (first : Runs n s s') (second : Runs m s' s'') :
    Runs (n + m) s s'' := by
  intro fuel
  rw [Nat.add_assoc, first, second]

theorem Runs.overflows {n m : Nat} {s s' : State} (run : Runs n s s') (stop : Overflows m s') :
    Overflows (n + m) s := by
  obtain ⟨last, fault, message, stops⟩ := stop
  refine ⟨last, fault, message, ?_⟩
  intro fuel
  rw [show n + m + 1 + fuel = n + (m + 1 + fuel) by omega, run, stops]

theorem Runs.one {s s' : State} (taken : step {} s = .more s') : Runs 1 s s' := by
  intro fuel
  rw [Nat.add_comm, loop, taken]

theorem Overflows.now {s s' : State} {fault : SourceFault} {isLoud : Bool}
    (taken : step {} s = .fault s' fault isLoud) (message : fault.message = nestingMessage) :
    Overflows 0 s := by
  refine ⟨s', ⟨fault, isLoud, s'.brackets.head?⟩, message, ?_⟩
  intro fuel
  rw [show 0 + 1 + fuel = fuel + 1 by omega, loop, taken]

theorem Cuts.nil (opened : List Char) (follow : Text → Prop) : Cuts opened [] [] opened follow := by
  intro s rest _ inside
  exact Or.inl ⟨0, s, [], Nat.le_refl 0, Runs.zero s, inside, rfl, rfl, Nat.le_refl _⟩

theorem openings_append (first second : List Lexeme) :
    openings (first ++ second) = openings first + openings second := List.countP_append

theorem Cuts.append {before between after : List Char} {text more : Text}
    {lexemes others : List Lexeme} {follow next : Text → Prop}
    (first : Cuts before text lexemes between follow)
    (second : Cuts between more others after next)
    (fits : ∀ rest, next rest → follow (more ++ rest)) :
    Cuts before (text ++ more) (lexemes ++ others) after next := by
  intro s rest nextRest inside
  rw [List.append_assoc] at inside
  rcases first s (more ++ rest) (fits rest nextRest) inside with
    ⟨n, s', tokens, bound, run, inside', tokensEq, lexemesEq, depth⟩ | ⟨n, bound, stop, deep⟩
  · rcases second s' rest nextRest inside' with
      ⟨m, s'', tokens', bound', run', inside'', tokensEq', lexemesEq', depth'⟩ | ⟨m, bound', stop, deep⟩
    · refine Or.inl ⟨n + m, s'', tokens ++ tokens', ?_, run.trans run', inside'', ?_, ?_, ?_⟩
      · rw [List.length_append]
        omega
      · rw [tokensEq', tokensEq, List.reverse_append, List.append_assoc]
      · rw [List.map_append, lexemesEq, lexemesEq']
      · rw [openings_append]
        omega
    · refine Or.inr ⟨n + m, ?_, run.overflows stop, ?_⟩
      · rw [List.length_append]
        omega
      · rw [openings_append]
        omega
  · refine Or.inr ⟨n, ?_, stop, ?_⟩
    · rw [List.length_append]
      omega
    · rw [openings_append]
      omega

theorem Cuts.weaken {before after : List Char} {text : Text} {lexemes : List Lexeme}
    {follow next : Text → Prop} (cuts : Cuts before text lexemes after follow)
    (fits : ∀ rest, next rest → follow rest) : Cuts before text lexemes after next := by
  intro s rest nextRest inside
  exact cuts s rest (fits rest nextRest) inside

/-! ## One step inside a line -/

theorem leaveAsynchronous_none {s : State} (plain : s.asynchronous = none) :
    leaveAsynchronous s = s := by
  unfold leaveAsynchronous
  rw [plain]

/-- A step in front of a character that neither ends nor continues a line. -/
theorem step_inside {s : State} {c : Char} {rest : Text} {opened : List Char}
    (inside : Inside s (c :: rest) opened) (noFeed : c ≠ '\n') (noJoin : c ≠ '\\') :
    step {} s =
      if c == ' ' || c == '\t' || c == '\x0c' then .more (s.skip [c] rest)
      else if c == '#' then comment {} s
      else if c.isDigit || (c == '.' && rest.head?.any Char.isDigit) then
        match Number.take (c :: rest) with
        | .ok (text, after) => .more (s.push .number text after)
        | .error message => s.fail message
      else if c == '\'' || c == '"' then string s [] (c :: rest)
      else if isWordChar c then word {} s
      else operator s c rest := by
  unfold step
  rw [inside.fresh, leaveAsynchronous_none inside.asynchronous]
  simp only [Bool.false_eq_true, if_false]
  rw [inside.rest_eq]
  split
  · rename_i h
    cases h
  · rename_i h
    cases h
    exact absurd rfl noFeed
  · rename_i h
    cases h
    exact absurd rfl noJoin
  · rename_i h
    cases h
    rfl

theorem Inside.push {s : State} {text rest whole : Text} {opened : List Char} {kind : TokenKind}
    (inside : Inside s whole opened) : Inside (s.push kind text rest) rest opened :=
  ⟨rfl, inside.fresh, inside.asynchronous, inside.brackets⟩

theorem push_tokens (s : State) (kind : TokenKind) (text rest : Text) :
    ∃ token : Token, (s.push kind text rest).tokens = [token].reverse ++ s.tokens ∧
      [token].map Token.lexeme = [(kind, text)] :=
  ⟨_, rfl, rfl⟩

theorem Cuts.ofPush {opened : List Char} {text : Text} {kind : TokenKind} {follow : Text → Prop}
    (nonempty : text ≠ [])
    (taken : ∀ s rest, follow rest → Inside s (text ++ rest) opened →
      step {} s = .more (s.push kind text rest)) :
    Cuts opened text [(kind, text)] opened follow := by
  intro s rest followRest inside
  obtain ⟨token, tokensEq, lexemesEq⟩ := push_tokens s kind text rest
  exact Or.inl ⟨1, _, [token], List.length_pos_iff.mpr nonempty,
    Runs.one (taken s rest followRest inside), inside.push, tokensEq, lexemesEq, Nat.le_add_right _ _⟩

/-! ## Brackets, blanks and operators -/

theorem cuts_space (opened : List Char) : Cuts opened [' '] [] opened (fun _ => True) := by
  intro s rest _ inside
  refine Or.inl ⟨1, s.skip [' '] rest, [], Nat.le_refl 1, Runs.one ?_, ?_, rfl, rfl, Nat.le_refl _⟩
  · rw [step_inside inside (by decide) (by decide)]
    rfl
  · exact ⟨rfl, inside.fresh, inside.asynchronous, inside.brackets⟩

/-- An opening bracket, unless there are too many around it. -/
theorem cuts_open (opened : List Char) (c : Char) (isOpen : c = '(' ∨ c = '[' ∨ c = '\x7b') :
    Cuts opened [c] [(.op, [c])] (c :: opened) (fun _ => True) := by
  intro s rest _ inside
  have taken : step {} s = operator s c rest := by
    rcases isOpen with rfl | rfl | rfl <;>
      rw [step_inside inside (by decide) (by decide)] <;> rfl
  have test : (c == '(' || c == '[' || c == '\x7b') = true := by
    rcases isOpen with rfl | rfl | rfl <;> decide
  have one : openings [(.op, [c])] = 1 := by
    rcases isOpen with rfl | rfl | rfl <;> rfl
  unfold operator at taken
  rw [if_pos test] at taken
  by_cases deep : 200 ≤ s.brackets.length
  · rw [if_pos deep] at taken
    exact Or.inr ⟨0, Nat.le_refl 1, Overflows.now taken rfl, by omega⟩
  · rw [if_neg deep] at taken
    obtain ⟨token, tokensEq, lexemesEq⟩ := push_tokens s .op [c] rest
    refine Or.inl ⟨1, _, [token], Nat.le_refl 1, Runs.one taken, ?_, tokensEq, lexemesEq, Nat.le_of_eq (by rw [one]; rfl)⟩
    refine ⟨rfl, inside.fresh, inside.asynchronous, ?_⟩
    rw [List.map_cons, inside.brackets]

theorem cuts_close (opened : List Char) (o c : Char) (isClose : c = ')' ∨ c = ']' ∨ c = '\x7d')
    (fits : closing o = c) : Cuts (o :: opened) [c] [(.op, [c])] opened (fun _ => True) := by
  intro s rest _ inside
  have taken : step {} s = operator s c rest := by
    rcases isClose with rfl | rfl | rfl <;>
      rw [step_inside inside (by decide) (by decide)] <;> rfl
  have notOpen : (c == '(' || c == '[' || c == '\x7b') = false := by
    rcases isClose with rfl | rfl | rfl <;> decide
  have test : (c == ')' || c == ']' || c == '\x7d') = true := by
    rcases isClose with rfl | rfl | rfl <;> decide
  have brackets := inside.brackets
  unfold operator at taken
  rw [notOpen, if_neg Bool.false_ne_true, if_pos test] at taken
  cases around : s.brackets with
  | nil =>
    rw [around] at brackets
    cases brackets
  | cons pair outer =>
    rw [around] at brackets taken
    rw [List.map_cons] at brackets
    obtain ⟨headEq, tailEq⟩ := List.cons.inj brackets
    dsimp only at taken
    rw [if_pos (by rw [headEq, fits])] at taken
    obtain ⟨token, tokensEq, lexemesEq⟩ := push_tokens s .op [c] rest
    exact Or.inl ⟨1, _, [token], Nat.le_refl 1, Runs.one taken,
      ⟨rfl, inside.fresh, inside.asynchronous, tailEq⟩, tokensEq, lexemesEq, by
        show outer.length ≤ s.brackets.length + _
        rw [around, List.length_cons]
        omega⟩

theorem operator_single {s : State} {c : Char} {rest : Text}
    (notOpen : (c == '(' || c == '[' || c == '\x7b') = false)
    (notClose : (c == ')' || c == ']' || c == '\x7d') = false)
    (alone : operators.find? (fun o => o.isPrefixOf (c :: rest)) = none)
    (printable : isPrintable c = true) : operator s c rest = .more (s.push .op [c] rest) := by
  unfold operator
  rw [notOpen, if_neg Bool.false_ne_true, notClose, if_neg Bool.false_ne_true, alone]
  simp only [printable, if_true]

theorem cuts_comma (opened : List Char) : Cuts opened [','] [(.op, [','])] opened (fun _ => True) := by
  refine Cuts.ofPush (by decide) ?_
  intro s rest _ inside
  rw [List.singleton_append] at inside
  rw [step_inside inside (by decide) (by decide)]
  exact operator_single (c := ',') (by decide) (by decide) rfl (by decide)

theorem cuts_colon (opened : List Char) :
    Cuts opened [':'] [(.op, [':'])] opened (fun rest => rest.head? = some ' ') := by
  refine Cuts.ofPush (by decide) ?_
  intro s rest blank inside
  rw [List.singleton_append] at inside
  rw [step_inside inside (by decide) (by decide)]
  obtain ⟨tail, rfl⟩ := List.head?_eq_some_iff.mp blank
  have alone : operators.find? (fun o => o.isPrefixOf (':' :: ' ' :: tail)) = none := rfl
  exact operator_single (c := ':') (by decide) (by decide) alone (by decide)

theorem cuts_point (opened : List Char) : Cuts opened ['.'] [(.op, ['.'])] opened
    (fun rest => ∃ c tail, rest = c :: tail ∧ c ≠ '.' ∧ c.isDigit = false) := by
  refine Cuts.ofPush (by decide) ?_
  rintro s rest ⟨c, tail, rfl, noPoint, noDigit⟩ inside
  rw [List.singleton_append] at inside
  rw [step_inside inside (by decide) (by decide)]
  have noNumber : (Char.isDigit '.' || ('.' == '.' && (c :: tail).head?.any Char.isDigit)) = false := by
    simp [noDigit]
  have alone : operators.find? (fun o => o.isPrefixOf ('.' :: c :: tail)) = none := by
    simp [operators, List.isPrefixOf, Ne.symm noPoint]
  rw [noNumber]
  exact operator_single (c := '.') (by decide) (by decide) alone (by decide)

theorem cuts_dots (opened : List Char) :
    Cuts opened ['.', '.', '.'] [(.op, ['.', '.', '.'])] opened (fun _ => True) := by
  refine Cuts.ofPush (by decide) ?_
  intro s rest _ inside
  rw [step_inside inside (by decide) (by decide)]
  rfl

theorem cuts_minus (opened : List Char) : Cuts opened ['-'] [(.op, ['-'])] opened
    (fun rest => ∃ c tail, rest = c :: tail ∧ c.isDigit = true) := by
  refine Cuts.ofPush (by decide) ?_
  rintro s rest ⟨c, tail, rfl, digit⟩ inside
  rw [List.singleton_append] at inside
  rw [step_inside inside (by decide) (by decide)]
  have noEqual : c ≠ '=' := by
    rintro rfl
    exact absurd digit (by decide)
  have noArrow : c ≠ '>' := by
    rintro rfl
    exact absurd digit (by decide)
  have alone : operators.find? (fun o => o.isPrefixOf ('-' :: c :: tail)) = none := by
    simp [operators, List.isPrefixOf, Ne.symm noEqual, Ne.symm noArrow]
  exact operator_single (c := '-') (by decide) (by decide) alone (by decide)

/-! ## Names -/

/-- What may stand behind a name: neither a character that would belong to it nor a quote. -/
def EndsName (rest : Text) : Prop :=
  ∀ c ∈ rest.head?, isWordChar c = false ∧ c ≠ '\'' ∧ c ≠ '"'

theorem takeWhile_append_of_stop {p : Char → Bool} {text : Text} (rest : Text)
    (all : ∀ c ∈ text, p c = true) (stop : ∀ c ∈ rest.head?, p c = false) :
    (text ++ rest).takeWhile p = text ∧ (text ++ rest).dropWhile p = rest := by
  induction text with
  | nil =>
    cases rest with
    | nil => exact ⟨rfl, rfl⟩
    | cons c tail =>
      have stopped := stop c rfl
      simp [stopped]
  | cons c text ih =>
    have passed := all c (by simp)
    obtain ⟨taken, dropped⟩ := ih fun d member => all d (by simp [member])
    simp [passed, taken, dropped]

theorem cuts_name (opened : List Char) (c : Char) (text : Text)
    (noDigit : c.isDigit = false) (words : ∀ d ∈ c :: text, isWordChar d = true)
    (isName : Text.isName (c :: text) = true) :
    Cuts opened (c :: text) [(.name, c :: text)] opened EndsName := by
  refine Cuts.ofPush (List.cons_ne_nil c text) ?_
  intro s rest ends inside
  have stop : ∀ d ∈ rest.head?, isWordChar d = false := fun d member => (ends d member).1
  obtain ⟨taken, dropped⟩ := takeWhile_append_of_stop _ words stop
  have wordChar := words c (by simp)
  have notSpecial : c ≠ '\n' ∧ c ≠ '\\' ∧ c ≠ ' ' ∧ c ≠ '\t' ∧ c ≠ '\x0c' ∧ c ≠ '#' ∧ c ≠ '.' ∧
      c ≠ '\'' ∧ c ≠ '"' := by
    refine ⟨?_, ?_, ?_, ?_, ?_, ?_, ?_, ?_, ?_⟩ <;>
      (rintro rfl; exact absurd wordChar (by decide))
  obtain ⟨noFeed, noJoin, noSpace, noTab, noForm, noComment, noPoint, noQuote, noDouble⟩ := notSpecial
  rw [List.cons_append] at inside
  rw [step_inside inside noFeed noJoin]
  simp only [beq_eq_false_iff_ne.mpr noSpace, beq_eq_false_iff_ne.mpr noTab,
    beq_eq_false_iff_ne.mpr noForm, beq_eq_false_iff_ne.mpr noComment,
    beq_eq_false_iff_ne.mpr noPoint, beq_eq_false_iff_ne.mpr noQuote,
    beq_eq_false_iff_ne.mpr noDouble, noDigit, wordChar, Bool.false_or, Bool.false_and,
    Bool.false_eq_true, if_false, if_true]
  unfold word
  rw [inside.rest_eq]
  rw [List.cons_append] at taken dropped
  rw [taken, dropped]
  have noString : (rest.head?.any fun d => d == '\'' || d == '"') = false := by
    cases first : rest.head? with
    | none => rfl
    | some d =>
      obtain ⟨-, single, double⟩ := ends d first
      simp [single, double]
  simp only [noString, Bool.false_and, Bool.false_eq_true, if_false, isName, if_true]
  rfl

end Lexer

end MacroExpand
