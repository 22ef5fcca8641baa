import MacroExpand.Proofs.Written
import MacroExpand.Text.Identifier

/-!
# Access paths

The name that rebuilds an object is written as a chain of attributes, behind a built-in name or behind a call that
imports a module.  If the parts of the name are identifiers, the text is parsed as exactly that chain, whatever the name
of the module is.
-/

set_option autoImplicit false

namespace MacroExpand

open MacroExpand.Parser MacroExpand.Lexer

/-! ## Identifiers are written as they are -/

def rangesApart : List (Nat × Nat) → List (Nat × Nat) → Bool
  | [], _ => true
  | r :: rest, others =>
    let behind := others.dropWhile fun o => o.2 < r.1
    behind.head?.all (fun o => r.2 < o.1) && rangesApart rest behind

theorem inRanges_dropWhile {n low : Nat} (above : low ≤ n) {ranges : List (Nat × Nat)}
    (inside : inRanges n ranges = true) : inRanges n (ranges.dropWhile fun r => r.2 < low) = true := by
  induction ranges with
  | nil => cases inside
  | cons r rest ih =>
    rw [List.dropWhile_cons]
    split
    · rename_i below
      rw [decide_eq_true_eq] at below
      refine ih ?_
      obtain ⟨lo, hi⟩ := r
      rw [inRanges] at inside
      split at inside
      · cases inside
      · simp only [Bool.or_eq_true, decide_eq_true_eq] at inside
        exact inside.resolve_left (by dsimp only at below; omega)
    · exact inside

theorem inRanges_below {n : Nat} {ranges : List (Nat × Nat)} (below : ranges.head?.all fun r => n < r.1) :
    inRanges n ranges = false := by
  cases ranges with
  | nil => rfl
  | cons r rest =>
    obtain ⟨lo, hi⟩ := r
    rw [inRanges, if_pos (by simpa using below)]

theorem inRanges_apart {n : Nat} {ranges others : List (Nat × Nat)} (apart : rangesApart ranges others = true)
    (inside : inRanges n ranges = true) : inRanges n others = false := by
  induction ranges generalizing others with
  | nil => cases inside
  | cons r rest ih =>
    obtain ⟨lo, hi⟩ := r
    rw [rangesApart, Bool.and_eq_true] at apart
    rw [inRanges] at inside
    split at inside
    · cases inside
    · rename_i above
      by_contra met
      have met' := inRanges_dropWhile (Nat.le_of_not_lt above) (Bool.of_not_eq_false met)
      simp only [Bool.or_eq_true, decide_eq_true_eq] at inside
      rcases inside with low | later
      · rw [inRanges_below] at met'
        · cases met'
        · cases first : (others.dropWhile fun o => o.2 < lo).head? with
          | none => rfl
          | some o =>
            have beyond := apart.1
            simp only [first, Option.all_some, decide_eq_true_eq] at beyond ⊢
            omega
      · rw [ih apart.2 later] at met'
        cases met'

theorem nameStart_apart : rangesApart nameStartRanges unprintableRanges = true := by decide +kernel

theorem nameExtend_apart : rangesApart nameExtendRanges unprintableRanges = true := by decide +kernel

theorem isNameRest_forms {c : Char} (rest : isNameRest c = true) :
    isPrintable c = true ∧ Number.isWordChar c = true ∧ (isNameStart c = true → c.isDigit = false) := by
  by_cases ascii : c.toNat < 128
  · have all : ∀ n < 128, isNameRest (Char.ofNat n) = true → isPrintable (Char.ofNat n) = true ∧
        Number.isWordChar (Char.ofNat n) = true ∧
        (isNameStart (Char.ofNat n) = true → (Char.ofNat n).isDigit = false) := by
      decide +kernel
    have result := all c.toNat ascii
    rw [Char.ofNat_toNat] at result
    exact result rest
  · have high : 128 ≤ c.toNat := Nat.le_of_not_lt ascii
    have noDigit : c.isDigit = false := by
      by_contra digit
      have small := (isDigit_of_digitChar (Bool.of_not_eq_false digit)).1
      omega
    have outside : inRanges c.toNat unprintableRanges = false := by
      rw [isNameRest, isNameStart, if_neg ascii, noDigit] at rest
      simp only [Bool.or_false, Bool.or_eq_true, Bool.and_eq_true] at rest
      rcases rest with start | ⟨-, extend⟩
      · exact inRanges_apart nameStart_apart start
      · exact inRanges_apart nameExtend_apart extend
    refine ⟨?_, ?_, fun _ => noDigit⟩
    · rw [isPrintable, if_neg (by omega), outside]
      simp
      omega
    · rw [Number.isWordChar, decide_eq_true high, Bool.or_true]

/-- A text that is read as a name and means itself: no keyword, and its own normal form. -/
structure Identifier (text : Text) : Prop where
  isName : text.isName = true
  plain : PlainWord text

theorem Identifier.rest {text : Text} (identifier : Identifier text) : ∀ c ∈ text, isNameRest c = true := by
  have isName := identifier.isName
  cases text with
  | nil => cases isName
  | cons c more =>
    rw [Text.isName, Bool.and_eq_true, List.all_eq_true] at isName
    intro d member
    rcases List.mem_cons.mp member with rfl | later
    · rw [isNameRest, isName.1, Bool.true_or, Bool.true_or]
    · exact isName.2 d later

theorem Identifier.wordForm {text : Text} (identifier : Identifier text) : WordForm text := by
  refine ⟨?_, ?_, fun c member => (isNameRest_forms (identifier.rest c member)).2.1,
    fun c member => (isNameRest_forms (identifier.rest c member)).1, identifier.isName⟩
  · rintro rfl
    cases identifier.isName
  · intro c first
    have isName := identifier.isName
    cases text with
    | nil => cases first
    | cons d more =>
      cases first
      rw [Text.isName, Bool.and_eq_true] at isName
      exact (isNameRest_forms (identifier.rest _ List.mem_cons_self)).2.2 isName.1

theorem Identifier.noPoint {text : Text} (identifier : Identifier text) : '.' ∉ text := by
  intro member
  exact absurd (identifier.wordForm.words '.' member) (by decide)

/-! ## Chains of attributes -/

def attributeText (parts : List Text) : Text := parts.flatMap fun part => '.' :: part

def attributeLexemes (parts : List Text) : List Lexeme :=
  parts.flatMap fun part => [(.op, ['.']), (.name, part)]

/-- The tree of a chain of attributes of what some expression stands for. -/
inductive IsChain (base : Tree → Prop) : List Text → Tree → Prop where
  | base {tree : Tree} (holds : base tree) : IsChain base [] tree
  | access {parts : List Text} {inner : Tree} (m : Mark) (part : Text) (chain : IsChain base parts inner) :
      IsChain base (parts ++ [part]) (.node m (.attribute (String.ofList part) .load) [[inner]])

theorem endsName_attributes (parts : List Text) {rest : Text} (closes : Closes rest) :
    EndsName (attributeText parts ++ rest) := by
  cases parts with
  | nil => exact closes.endsName
  | cons part parts =>
    intro c first
    cases first
    decide

theorem stretch_attributes {parts : List Text} (identifiers : ∀ part ∈ parts, Identifier part) (opened : List Char) :
    Stretch opened (attributeText parts) (attributeLexemes parts) opened Closes := by
  induction parts with
  | nil => exact ⟨Cuts.nil opened Closes, Nat.le_refl 0, List.forall_mem_nil _⟩
  | cons part parts ih =>
    have form := (identifiers part (by simp)).wordForm
    have behind := (stretch_word form opened).append (ih fun p member => identifiers p (by simp [member]))
      fun rest closes => endsName_attributes parts closes
    refine (stretch_point opened).append behind fun rest _ => ?_
    have first := form.behindPoint (attributeText parts ++ rest)
    rwa [← List.append_assoc] at first

theorem trailers_chain {r : Rules} (start : Mark) {base : Tree → Prop} {s : Token} {rest : List Token} {o : ParseOptions}
    (stop : Stop s) (parts : List Text) (identifiers : ∀ part ∈ parts, Identifier part) :
    ∀ (done : List Text) (tree : Tree) (fuel : Nat) (c : Cursor) (tokens : List Token), IsChain base done tree →
      parts.length ≤ fuel → c.rest = tokens ++ s :: rest → tokens.map Token.lexeme = attributeLexemes parts →
      ∃ tree' c', trailers r start fuel tree o c = some (tree', c') ∧ c'.rest = s :: rest ∧
        IsChain base (done ++ parts) tree' := by
  induction parts with
  | nil =>
    intro done tree fuel c tokens chain _ front same
    rw [attributeLexemes, List.flatMap_nil, List.map_eq_nil_iff] at same
    subst same
    exact ⟨tree, c, trailers_stop front stop, front, by rwa [List.append_nil]⟩
  | cons part parts ih =>
    intro done tree fuel c tokens chain enough front same
    rw [List.length_cons] at enough
    obtain ⟨fuel, rfl⟩ : ∃ k, fuel = k + 1 := ⟨fuel - 1, by omega⟩
    obtain ⟨point, after, rfl, isPoint, same⟩ := cons_tokens same
    obtain ⟨word, after, rfl, isWord, same⟩ := cons_tokens same
    obtain ⟨m, c1, run1, rest1⟩ := trailers_attribute (o := o) (r := r) fuel start tree
      (identifiers part (by simp)).plain front isPoint isWord
    obtain ⟨tree', c2, run2, rest2, chain'⟩ := ih (fun p member => identifiers p (by simp [member]))
      (done ++ [part]) _ fuel c1 after (.access m part chain) (by omega) rest1 same
    exact ⟨tree', c2, run1.trans run2, rest2, by rwa [List.append_assoc] at chain'⟩

/-! ## Imports -/

theorem import_identifiers : Identifier (chars "__import__") ∧ Identifier (chars "fromlist") :=
  ⟨⟨by decide +kernel, .of_ascii (by decide +kernel) (by decide +kernel)⟩,
    ⟨by decide +kernel, .of_ascii (by decide +kernel) (by decide +kernel)⟩⟩

/-- What follows the name of the module: for a module inside a package, a name to be taken from it. -/
def takenText : Option Text → Text
  | none => []
  | some head => [',', ' '] ++ (chars "fromlist" ++ (['='] ++ ('[' :: (Text.quoted head ++ [']']))))

def importText (module : Text) (head : Option Text) : Text :=
  chars "__import__" ++ '(' :: ((Text.quoted module ++ takenText head) ++ [')'])

def takenLexemes : Option Text → List Lexeme
  | none => []
  | some head =>
    (.op, [',']) :: (.name, chars "fromlist") :: (.op, ['=']) ::
      ((.op, ['[']) :: ([(.string, Text.quoted head)] ++ [(.op, [']'])]))

def importLexemes (module : Text) (head : Option Text) : List Lexeme :=
  (.name, chars "__import__") :: (.op, ['(']) ::
    (([(.string, Text.quoted module)] ++ takenLexemes head) ++ [(.op, [')'])])

inductive IsImport (module : Text) : Option Text → Tree → Prop where
  | whole {callee name : Tree} (m : Mark) (isCallee : IsName (chars "__import__") callee)
      (isName : IsConstant (.str module) name) : IsImport module none (.node m .call [[callee], [name], []])
  | taken {callee name names : Tree} {head : Text} (m m' : Mark) (isCallee : IsName (chars "__import__") callee)
      (isName : IsConstant (.str module) name)
      (isNames : IsDisplay (.list .load) [()] (fun _ => IsConstant (.str head)) names) :
      IsImport module (some head)
        (.node m .call [[callee], [name], [.node m' (.keyword (some "fromlist")) [[names]]]])

theorem stretch_text (text : Text) (opened : List Char) :
    Stretch opened (Text.quoted text) [(.string, Text.quoted text)] opened Closes := (written_text text).stretch opened

theorem cuts_equal (opened : List Char) :
    Cuts opened ['='] [(.op, ['='])] opened (fun rest => rest.head? = some '[') := by
  refine Cuts.ofPush (by decide) ?_
  intro s rest bracket inside
  rw [List.singleton_append] at inside
  rw [step_inside inside (by decide) (by decide)]
  obtain ⟨tail, rfl⟩ := List.head?_eq_some_iff.mp bracket
  have alone : operators.find? (fun o => o.isPrefixOf ('=' :: '[' :: tail)) = none := rfl
  exact operator_single (c := '=') (by decide) (by decide) alone (by decide)

theorem stretch_taken (head : Option Text) (opened : List Char) :
    Stretch opened (takenText head) (takenLexemes head) opened Closes := by
  cases head with
  | none => exact ⟨Cuts.nil opened Closes, Nat.le_refl 0, List.forall_mem_nil _⟩
  | some head =>
    have equal : Stretch opened ['='] [(.op, ['='])] opened (fun rest => rest.head? = some '[') :=
      ⟨cuts_equal opened, Nat.le_refl 1, List.all_eq_true.mp (by decide)⟩
    have names := stretch_bracketed (stretch_text head) '[' ']' (by simp) (by simp) rfl opened
    have value := equal.append names fun _ _ => rfl
    have word := (stretch_word import_identifiers.2.wordForm opened).append value fun rest _ => by
      intro c first
      cases first
      decide
    exact ((stretch_comma opened).append word fun _ _ => trivial).closes

theorem closes_taken (head : Option Text) {rest : Text} (closes : Closes rest) : Closes (takenText head ++ rest) := by
  cases head with
  | none => exact closes
  | some head => exact Closes.cons _ (.inl rfl)

theorem stretch_import (module : Text) (head : Option Text) (opened : List Char) :
    Stretch opened (importText module head) (importLexemes module head) opened (fun _ => True) := by
  have between : ∀ opened, Stretch opened (Text.quoted module ++ takenText head)
      ([(.string, Text.quoted module)] ++ takenLexemes head) opened Closes := fun opened =>
    (stretch_text module opened).append (stretch_taken head opened) fun _ closes => closes_taken head closes
  have group := stretch_bracketed between '(' ')' (by simp) (by simp) rfl opened
  refine (stretch_word import_identifiers.1.wordForm opened).append group fun rest _ => ?_
  intro c first
  cases first
  decide

/-- A primary expression begins with exactly these tokens, whatever stands behind them. -/
def PrimaryReads (lexemes : List Lexeme) (post : Tree → Prop) : Prop :=
  ∀ (n : Nat) (o : ParseOptions) (c : Cursor) (tokens rest : List Token),
    2 * lexemes.length ≤ n → c.rest = tokens ++ rest → tokens.map Token.lexeme = lexemes →
      ∃ (start : Mark) (fuel : Nat) (tree : Tree) (c' : Cursor),
        primary (rules n) o c = trailers (rules n) start fuel tree o c' ∧ c'.rest = rest ∧ rest.length ≤ fuel ∧ post tree

theorem primaryReads_name {name : Text} (plain : PlainWord name) : PrimaryReads [(.name, name)] (IsName name) := by
  intro n o c tokens rest _ front same
  obtain ⟨t, after, rfl, isName, none⟩ := cons_tokens same
  rw [List.map_eq_nil_iff] at none
  subst none
  obtain ⟨m, c', run, behind⟩ := atom_name (r := rules n) (o := o) plain front isName
  refine ⟨_, _, _, c', primary_of_atom front run, behind, ?_, m, rfl⟩
  rw [behind]
  exact Nat.le_succ _

theorem reading_names (head : Text) :
    Reading ((.op, ['[']) :: ([(.string, Text.quoted head)] ++ [(.op, [']'])]))
      (IsDisplay (.list .load) [()] fun _ => IsConstant (.str head)) := by
  have each : ∀ i ∈ [()], Reading ((fun _ => [(.string, Text.quoted head)]) i) (IsConstant (.str head)) :=
    fun _ _ => reading_text head
  exact reading_list [()] each

theorem arguments_import {n : Nat} {o : ParseOptions} {c : Cursor} (module : Text) (head : Option Text) {close : Token}
    {tokens rest : List Token} (enough : 2 * (importLexemes module head).length ≤ n)
    (isClose : close.lexeme = (.op, [')'])) (front : c.rest = tokens ++ close :: rest)
    (same : tokens.map Token.lexeme = [(.string, Text.quoted module)] ++ takenLexemes head) :
    ∃ a c', arguments (rules n) o c = some (a, c') ∧ c'.rest = close :: rest ∧ a.generator = [] ∧
      ∀ (m : Mark) (callee : Tree), IsName (chars "__import__") callee →
        IsImport module head (.node m .call [[callee], a.positional, a.keywords]) := by
  have stopClose : Stop close := stop_of_op (s := ")") isClose (by decide)
  obtain ⟨before, after, rfl, left, right⟩ := split_tokens same
  cases head with
  | none =>
    rw [takenLexemes, List.map_eq_nil_iff] at right
    subst right
    rw [List.append_nil] at front
    have long : 8 ≤ n := enough
    obtain ⟨v, c1, run, rest1, isName⟩ := argumentsFrom_positional (o := o) c.rest.length {}
      (reading_text module) (show 4 ≤ n by omega) front left stopClose rfl rfl
    refine ⟨{ positional := [v] }, c1, ?_, rest1, rfl, fun m callee isCallee => .whole m isCallee isName⟩
    refine run.trans ?_
    rw [bind_some (takeOp_false rest1 (by rw [isOp_eq isClose]; rfl)), if_neg Bool.false_ne_true,
      bind_some (atOp_run rest1 ")"), isOp_of_lexeme ")" isClose]
    rfl
  | some head =>
    have long : 20 ≤ n := enough
    obtain ⟨comma, after, rfl, isComma, right⟩ := cons_tokens right
    obtain ⟨word, after, rfl, isWord, right⟩ := cons_tokens right
    obtain ⟨equal, after, rfl, isEqual, right⟩ := cons_tokens right
    rw [List.append_assoc, List.cons_append] at front
    obtain ⟨v, c1, run, rest1, isName⟩ := argumentsFrom_positional (o := o) c.rest.length {}
      (reading_text module) (show 4 ≤ n by omega) front left (stop_comma isComma)
      rfl rfl
    obtain ⟨c2, took2, rest2⟩ := takeOp_true (o := o) rest1 (isOp_of_lexeme "," isComma)
    obtain ⟨fuel, more⟩ : ∃ k, c.rest.length = k + 1 := ⟨c.rest.length - 1, by
      rw [front, List.length_append, List.length_cons]
      omega⟩
    obtain ⟨m', names, c3, run3, rest3, isNames⟩ := argumentsFrom_keyword (o := o) (n := n) fuel
      { positional := [v] } import_identifiers.2.plain (reading_names head)
      (show 7 ≤ n by omega) rest2 isWord isEqual isClose right
    refine ⟨{ positional := [v], keywords := [.node m' (.keyword (some "fromlist")) [[names]]] }, c3, ?_, rest3, rfl,
      fun m callee isCallee => .taken m m' isCallee isName isNames⟩
    refine run.trans ?_
    rw [bind_some took2, if_pos rfl, more]
    exact run3

theorem primaryReads_import (module : Text) (head : Option Text) :
    PrimaryReads (importLexemes module head) (IsImport module head) := by
  intro n o c tokens rest enough front same
  obtain ⟨word, after, rfl, isWord, same⟩ := cons_tokens same
  obtain ⟨m, c1, run1, rest1⟩ := atom_name (r := rules n) (o := o) import_identifiers.1.plain front isWord
  obtain ⟨opening, between, close, front1, isOpen, same1, isClose⟩ := bracket_tokens rest1 same
  obtain ⟨m', a, c2, run2, rest2, isImport⟩ := trailers_arguments (o := o) (r := rules n) c1.rest.length
    { line := word.line, column := word.column } (.node m (.name (String.ofList (chars "__import__")) .load) [])
    _ front1 isOpen isClose fun c' inside => arguments_import module head enough isClose inside same1
  refine ⟨_, c1.rest.length, _, c2, (primary_of_atom front run1).trans run2, rest2, ?_, isImport m' _ ⟨m, rfl⟩⟩
  rw [front1, List.length_cons, List.length_append, List.length_cons]
  omega

/-! ## Whole paths -/

theorem length_attributeLexemes (parts : List Text) : (attributeLexemes parts).length = 2 * parts.length := by
  induction parts with
  | nil => rfl
  | cons part parts ih =>
    rw [attributeLexemes, List.flatMap_cons, List.length_append, List.length_cons, List.length_cons]
    rw [attributeLexemes] at ih
    simp only [List.length_cons, List.length_nil, ih]
    omega

theorem reads_chain {l : Lexeme} {tail : List Lexeme} {base : Tree → Prop} (begins : BeginsAtom l)
    (reads : PrimaryReads (l :: tail) base) {parts : List Text} (identifiers : ∀ part ∈ parts, Identifier part)
    {n : Nat} (enough : 2 * (l :: tail ++ attributeLexemes parts).length ≤ n) :
    Reads (expression (rules n)) (l :: tail ++ attributeLexemes parts) (IsChain base parts) := by
  intro o c tokens s rest front same stop
  obtain ⟨before, after, rfl, left, right⟩ := split_tokens same
  rw [List.append_assoc] at front
  rw [List.length_append] at enough
  obtain ⟨start, fuel, tree, c1, run1, rest1, deep, holds⟩ := reads n o c before _ (by omega) front left
  have size : after.length = 2 * parts.length := by
    rw [← length_attributeLexemes, ← right, List.length_map]
  rw [List.length_append, List.length_cons, size] at deep
  obtain ⟨tree', c2, run2, rest2, chain⟩ := trailers_chain (o := o) (r := rules n) start stop parts
    identifiers [] tree fuel c1 after (.base holds) (by omega) rest1 right
  obtain ⟨t, others, rfl, first, -⟩ := cons_tokens left
  exact ⟨tree', c2, expression_of_primary front (first ▸ begins).operand (run1.trans run2) rest2 stop, rest2, chain⟩

/-- A chain of attributes behind a text that is read as a primary expression is parsed. -/
theorem parse_chain {text : Text} (l : Lexeme) (tail : List Lexeme) {base : Tree → Prop} {parts : List Text}
    (stretch : Stretch [] (text ++ attributeText parts) (l :: tail ++ attributeLexemes parts) [] Closes)
    (solid : ∀ c ∈ (text ++ attributeText parts).head?, c ≠ ' ' ∧ c ≠ '#' ∧ c ≠ '\\')
    (begins : BeginsAtom l) (reads : PrimaryReads (l :: tail) base) (few : openings (l :: tail) ≤ 200)
    (identifiers : ∀ part ∈ parts, Identifier part) :
    ∃ tree, parseExpression (text ++ attributeText parts) = .ok tree ∧ IsChain base parts tree := by
  have tokenized : Tokenized (text ++ attributeText parts) (l :: tail ++ attributeLexemes parts) :=
    ⟨stretch, by simp, solid⟩
  have none : openings (attributeLexemes parts) = 0 := by
    rw [openings, List.countP_eq_zero]
    intro lexeme member
    obtain ⟨part, -, inside⟩ := List.mem_flatMap.mp member
    simp only [List.mem_cons, List.not_mem_nil, or_false] at inside
    rcases inside with rfl | rfl <;> simp
  exact tokenized.parse (tokenized.nestingFits (by rw [openings_append, none]; exact few))
    fun n enough => reads_chain begins reads identifiers enough

theorem parse_builtin {part : Text} {parts : List Text} (identifiers : ∀ p ∈ part :: parts, Identifier p) :
    ∃ tree, parseExpression (part ++ attributeText parts) = .ok tree ∧ IsChain (IsName part) parts tree := by
  have first := identifiers part List.mem_cons_self
  have others : ∀ p ∈ parts, Identifier p := fun p member => identifiers p (List.mem_cons_of_mem _ member)
  refine parse_chain (.name, part) [] ?_ ?_ first.plain.beginsAtom (primaryReads_name first.plain) ?_
    others
  · refine (stretch_word first.wordForm []).append (stretch_attributes others []) fun rest closes => ?_
    exact endsName_attributes parts closes
  · intro c member
    refine first.wordForm.solid c ?_
    cases shape : part with
    | nil => exact absurd shape first.wordForm.nonempty
    | cons d more =>
      rw [shape] at member
      exact member
  · simp [openings]

theorem parse_import (module : Text) (head : Option Text) {parts : List Text}
    (identifiers : ∀ p ∈ parts, Identifier p) :
    ∃ tree, parseExpression (importText module head ++ attributeText parts) = .ok tree ∧
      IsChain (IsImport module head) parts tree := by
  refine parse_chain (.name, chars "__import__") _ ?_ ?_ import_identifiers.1.plain.beginsAtom
    (primaryReads_import module head) ?_ identifiers
  · exact (stretch_import module head []).append (stretch_attributes identifiers []) fun _ _ => trivial
  · intro c member
    have first : (importText module head ++ attributeText parts).head? = some '_' := rfl
    rw [first] at member
    cases member
    decide
  · cases head <;> simp [openings, takenLexemes]

end MacroExpand
