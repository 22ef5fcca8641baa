import Mathlib.Data.List.Find
import MacroExpand.Proofs.Ending
import MacroExpand.Proofs.Noting

/-!
# Cutting passes over notes

Cutting passes over a comment at the end of a line.  So a text whose lines get notes is cut into the same tokens at
the same places (`Lexer.run_withNotes`), as long as no line gets one that ends inside a string or with a backslash:
there the comment would become a part of the string, or stand behind the backslash.  The two texts are cut step by step
beside each other (`Lexer.State.Twin`).
-/

set_option autoImplicit false

namespace MacroExpand

/-! ## Strings and indentations -/

namespace Lexer

open Number (isWordChar)
open Text (withNotes Passed)

theorem advance_line (place : Nat × Nat) (text : Text) : (advance place text).1 = place.1 + text.count '\n' := by
  induction text generalizing place with
  | nil => rfl
  | cons c rest ih =>
    rw [advance]
    split
    case isTrue feed =>
      rw [ih, feed, List.count_cons_self]
      omega
    case isFalse noFeed => rw [ih, List.count_cons_of_ne noFeed]

variable {note : Nat → Text} {line : Nat}

/-- What a string takes of a text does not depend on what stands behind it. -/
theorem stringBody_front {quote : Char} (isQuote : quote = '\'' ∨ quote = '"') {triple : Bool}
    {done text body after : Text} (read : stringBody quote triple done text = some (body, after)) :
    ∃ taken, body = done.reverse ++ taken ∧ taken ++ after = text ∧ (triple = true → 3 ≤ taken.length) ∧
      ∀ other, stringBody quote triple done (taken ++ other) = some (body, other) := by
  have noEscape : quote ≠ '\\' := by rcases isQuote with rfl | rfl <;> decide
  have plain : ∀ {c : Char} {done rest : Text}, c ≠ '\\' → stringBody quote triple done (c :: rest) =
      if triple then
        if c = quote ∧ [quote, quote].isPrefixOf rest then
          some ((quote :: quote :: quote :: done).reverse, rest.drop 2)
        else stringBody quote triple (c :: done) rest
      else if c = quote then some ((c :: done).reverse, rest)
      else if c = '\n' then none
      else stringBody quote triple (c :: done) rest := by
    intro c done rest noEscape
    rw [stringBody]
    rintro _ _ rfl
    exact absurd rfl noEscape
  -- A backslash with nothing behind it closes no string.
  have unescaped : ∀ {c : Char} {done rest : Text}, (∀ d more, c = '\\' → rest = d :: more → False) →
      stringBody quote triple (c :: done) rest = some (body, after) → c ≠ '\\' := by
    rintro c done rest noPair read rfl
    cases rest with
    | nil => cases read
    | cons d more => exact noPair d more rfl rfl
  fun_induction stringBody quote triple done text with
  | case1 | case6 => cases read
  | case2 done c text ih =>
    obtain ⟨taken, rfl, rfl, long, same⟩ := ih read
    refine ⟨'\\' :: c :: taken, by simp, rfl, fun isTriple => ?_, fun other => ?_⟩
    · have enough := long isTriple
      simp
      omega
    · rw [List.cons_append, List.cons_append, stringBody, same]
  | case3 done c text noPair isTriple ends =>
    obtain ⟨rfl, begins⟩ := ends
    obtain ⟨rest, rfl⟩ := List.isPrefixOf_iff_prefix.mp begins
    obtain ⟨rfl, rfl⟩ := Prod.mk.inj (Option.some.inj read)
    refine ⟨[c, c, c], by simp, rfl, fun _ => by simp, fun other => ?_⟩
    rw [List.cons_append, plain noEscape, if_pos isTriple, if_pos ⟨rfl, by simp⟩]
    rfl
  | case4 done c text noPair isTriple noEnd ih =>
    have notEscape := unescaped noPair read
    obtain ⟨taken, rfl, rfl, long, same⟩ := ih read
    refine ⟨c :: taken, by simp, rfl, fun _ => ?_, fun other => ?_⟩
    · have enough := long isTriple
      simp
      omega
    · rw [List.cons_append, plain notEscape, if_pos isTriple, if_neg, same]
      rintro ⟨isQuote, begins⟩
      refine noEnd ⟨isQuote, ?_⟩
      have enough := long isTriple
      obtain ⟨a, b, more, rfl⟩ : ∃ a b more, taken = a :: b :: more := by
        rcases taken with _ | ⟨a, _ | ⟨b, more⟩⟩
        · simp at enough
        · simp at enough
        · exact ⟨a, b, more, rfl⟩
      simpa using begins
  | case5 done text noTriple noPair =>
    obtain ⟨rfl, rfl⟩ := Prod.mk.inj (Option.some.inj read)
    refine ⟨[quote], by simp, rfl, fun isTriple => absurd isTriple noTriple, fun other => ?_⟩
    rw [List.singleton_append, plain noEscape, if_neg noTriple, if_pos rfl]
  | case7 done c text noPair noTriple noQuote noFeed ih =>
    have notEscape := unescaped noPair read
    obtain ⟨taken, rfl, rfl, -, same⟩ := ih read
    refine ⟨c :: taken, by simp, rfl, fun isTriple => absurd isTriple noTriple, fun other => ?_⟩
    rw [List.cons_append, plain notEscape, if_neg noTriple, if_neg noQuote, if_neg noFeed, same]

def Clear (note : Nat → Text) (line : Nat) (text : Text) : Prop :=
  ∀ front back, text = front ++ '\\' :: '\n' :: back → note (line + front.count '\n') = []

theorem Clear.behind (front : Text) {back : Text} (clear : Clear note line (front ++ back)) :
    Clear note (line + front.count '\n') back := by
  rintro before behind rfl
  have free := clear (front ++ before) behind (by simp)
  rwa [List.count_append, ← Nat.add_assoc] at free

/-- In front of the end of a line, measuring passes over the blanks of a note. -/
theorem measure_passed {fuel col alt held : Nat} {place : Nat × Nat} {text rest : Text} (passed : Passed text)
    (enough : text.length < fuel) : ∃ tail column, (tail = [] ∨ tail.head? = some '#') ∧ Passed tail ∧
      (measure fuel col alt held place (text ++ '\n' :: rest)).2 = ((place.1, column), tail ++ '\n' :: rest) := by
  induction passed generalizing fuel col alt place with
  | nil =>
    obtain ⟨fuel, rfl⟩ : ∃ k, fuel = k + 1 := ⟨fuel - 1, by omega⟩
    exact ⟨[], place.2, .inl rfl, .nil, rfl⟩
  | @blank text passed ih =>
    obtain ⟨fuel, rfl⟩ : ∃ k, fuel = k + 1 := ⟨fuel - 1, by omega⟩
    rw [List.length_cons] at enough
    exact @ih fuel (col + 1) (alt + 1) (place.1, place.2 + 1) (by omega)
  | @comment words oneLine =>
    obtain ⟨fuel, rfl⟩ : ∃ k, fuel = k + 1 := ⟨fuel - 1, by omega⟩
    exact ⟨'#' :: words, place.2, .inr rfl, .comment oneLine, rfl⟩

/-- What measuring gives of a text and of the text with notes: the same, or there is nothing else on the line, and the
blanks of its note are passed over. -/
inductive Beside (note : Nat → Text) : (Nat × Nat) × (Nat × Nat) × Text → (Nat × Nat) × (Nat × Nat) × Text → Prop where
  | inside {columns place : Nat × Nat} {rest : Text} (noFeed : rest.head? ≠ some '\n') :
      Beside note (columns, place, rest) (columns, place, withNotes note place.1 rest)
  | ended {columns columns' : Nat × Nat} {line column column' : Nat} {rest tail : Text}
      (ends : tail = [] ∨ tail.head? = some '#') (passed : Passed tail) :
      Beside note (columns, (line, column), '\n' :: rest)
        (columns', (line, column'), tail ++ '\n' :: withNotes note (line + 1) rest)

theorem measure_withNotes (isNote : ∀ n, (note n).IsNote) {fuel fuel' col alt held : Nat} {place : Nat × Nat}
    {text : Text} (enough : text.length < fuel) (enough' : (withNotes note place.1 text).length < fuel')
    (clear : Clear note place.1 text) :
    Beside note (measure fuel col alt held place text)
      (measure fuel' col alt held place (withNotes note place.1 text)) := by
  fun_induction measure fuel col alt held place text generalizing fuel' with
  | case1 => omega
  | case2 fuel col alt held line column rest ih | case3 fuel col alt held line column rest ih
  | case4 fuel col alt held line column rest ih =>
    rw [Text.withNotes_cons (by decide), List.length_cons] at enough'
    obtain ⟨fuel', rfl⟩ : ∃ k, fuel' = k + 1 := ⟨fuel' - 1, by omega⟩
    rw [Text.withNotes_cons (by decide)]
    exact ih (by simpa using enough) (by simpa using enough') (clear.behind [_])
  | case5 fuel col alt held line column c rest ih =>
    have bare : withNotes note line ('\\' :: '\n' :: c :: rest) =
        '\\' :: '\n' :: withNotes note (line + 1) (c :: rest) := by
      have free : note line = [] := clear [] (c :: rest) rfl
      rw [Text.withNotes_cons (by decide), Text.withNotes_feed, free]
      rfl
    obtain ⟨d, more, same⟩ : ∃ d more, withNotes note (line + 1) (c :: rest) = d :: more := by
      obtain ⟨none, -⟩ | ⟨_, d, more, -, same, -⟩ | ⟨d, more, -, -, same⟩ :=
        Text.withNotes_cases isNote (line + 1) (c :: rest)
      · cases none
      · exact ⟨d, more, same⟩
      · exact ⟨d, _, same⟩
    rw [bare, List.length_cons, List.length_cons] at enough'
    obtain ⟨fuel', rfl⟩ : ∃ k, fuel' = k + 1 := ⟨fuel' - 1, by omega⟩
    rw [List.length_cons, List.length_cons] at enough
    have behind : Beside note (measure fuel col alt (if held = 0 then col else held) (line + 1, 0) (c :: rest))
        (measure fuel' col alt (if held = 0 then col else held) (line + 1, 0) (withNotes note (line + 1) (c :: rest))) :=
      ih (by omega) (by dsimp only; omega) (clear.behind ['\\', '\n'])
    rw [bare, same]
    rwa [same] at behind
  | case6 fuel col alt held line column text noSpace noTab noFeed noLine =>
    obtain ⟨fuel', rfl⟩ : ∃ k, fuel' = k + 1 := ⟨fuel' - 1, by omega⟩
    obtain ⟨rfl, same⟩ | ⟨rest, -, -, rfl, -⟩ | ⟨c, rest, notFeed, rfl, same⟩ := Text.withNotes_cases isNote line text
    · rw [same]
      exact @Beside.inside note _ (line, column) [] (by simp)
    · rw [Text.withNotes_feed] at enough' ⊢
      obtain ⟨tail, column', ends, passed, ended⟩ := @measure_passed (fuel' + 1) col alt held (line, column)
        (note line) (withNotes note (line + 1) rest) (isNote line).passed (by simp at enough'; omega)
      have whole := @Beside.ended note (if held = 0 then (col, alt) else (held, held)) (measure (fuel' + 1) col alt held
        (line, column) (note line ++ '\n' :: withNotes note (line + 1) rest)).1 line column column' rest tail ends passed
      rw [← ended] at whole
      exact whole
    · have stops : measure (fuel' + 1) col alt held (line, column) (c :: withNotes note line rest) =
          (if held = 0 then (col, alt) else (held, held), (line, column), c :: withNotes note line rest) := by
        rw [measure]
        · rintro _ ⟨⟩
          exact noSpace _ rfl
        · rintro _ ⟨⟩
          exact noTab _ rfl
        · rintro _ ⟨⟩
          exact noFeed _ rfl
        · intro d more continued
          obtain ⟨rfl, behind⟩ := List.cons.inj continued
          obtain ⟨rfl, none⟩ | ⟨last, _, _, rfl, -⟩ | ⟨e, last, notFeed', rfl, same'⟩ :=
            Text.withNotes_cases isNote line rest
          · cases none.symm.trans behind
          · cases last with
            | nil =>
              have free : note line = [] := clear [] [] rfl
              rw [Text.withNotes_feed, free] at behind
              cases behind
            | cons e last => exact noLine e last rfl
          · exact notFeed' (List.cons.inj (same'.symm.trans behind)).1
      rw [same, stops, ← same]
      exact @Beside.inside note _ (line, column) _ (by simpa using notFeed)

end Lexer

/-! ## States -/

/-- The same token, except that the end of a line may stand at another column. -/
def Token.Same (t t' : Token) : Prop :=
  t' = { t with column := t'.column } ∧ (t.kind ≠ .newline → t'.column = t.column)

theorem Token.Same.refl (t : Token) : t.Same t := ⟨rfl, fun _ => rfl⟩

namespace Lexer

open Text (withNotes Passed)
open Number (isWordChar)

variable {note : Nat → Text} {s t : State} {tokens' : List Token} {rest : Text}

def State.noted (note : Nat → Text) (tokens' : List Token) (s : State) : State :=
  { s with rest := withNotes note s.line s.rest, tokens := tokens' }

/-- The states of cutting a text and the text with notes: they are at the same place, or both at the end of a line, of
whose note there is something left. -/
inductive State.Twin (note : Nat → Text) (s : State) : State → Prop where
  | inside {tokens' : List Token} (tokens : List.Forall₂ Token.Same s.tokens tokens') : Twin note s (s.noted note tokens')
  | ended {tokens' : List Token} {column' : Nat} {rest tail : Text} (tokens : List.Forall₂ Token.Same s.tokens tokens')
      (stale : s.fresh = false) (isRest : s.rest = '\n' :: rest) (passed : Passed tail) :
      Twin note s { s with
        rest := tail ++ '\n' :: withNotes note (s.line + 1) rest, column := column', tokens := tokens' }

theorem push_noted (kind : TokenKind) (text rest : Text) :
    (s.noted note tokens').push kind text (withNotes note (s.line + text.count '\n') rest) =
      (s.push kind text rest).noted note
        (⟨kind, text, s.line, s.column, (advance (s.line, s.column) text).1, (advance (s.line, s.column) text).2⟩ ::
          tokens') := by
  rw [← advance_line (s.line, s.column) text]
  rfl

theorem skip_noted (text rest : Text) :
    (s.noted note tokens').skip text (withNotes note (s.line + text.count '\n') rest) =
      (s.skip text rest).noted note tokens' := by
  rw [← advance_line (s.line, s.column) text]
  rfl

/-- Beside each other, outside of asynchronous functions, the two texts are cut, and no line that is left and ends with a
backslash has a note. -/
structure State.Along (note : Nat → Text) (s s' : State) : Prop where
  twin : s.Twin note s'
  synchronous : s.asynchronous = none
  clear : Clear note s.line s.rest

/-- What is known where both texts are cut at the same place. -/
structure State.Ready (note : Nat → Text) (tokens' : List Token) (s : State) : Prop where
  tokens : List.Forall₂ Token.Same s.tokens tokens'
  synchronous : s.asynchronous = none
  clear : Clear note s.line s.rest

theorem State.Ready.along (ready : s.Ready note tokens') : s.Along note (s.noted note tokens') :=
  ⟨.inside ready.tokens, ready.synchronous, ready.clear⟩

theorem State.Ready.push (ready : s.Ready note tokens') (kind : TokenKind) {text : Text}
    (whole : text ++ rest = s.rest) :
    ∃ tokens'', (s.noted note tokens').push kind text (withNotes note (s.line + text.count '\n') rest) =
      (s.push kind text rest).noted note tokens'' ∧ (s.push kind text rest).Ready note tokens'' := by
  refine ⟨_, push_noted kind text rest, .cons (.refl _) ready.tokens, ready.synchronous, ?_⟩
  have behind := Clear.behind text (whole ▸ ready.clear)
  rw [← advance_line (s.line, s.column) text] at behind
  exact behind

theorem State.Ready.skip (ready : s.Ready note tokens') {text : Text} (whole : text ++ rest = s.rest) :
    (s.noted note tokens').skip text (withNotes note (s.line + text.count '\n') rest) =
      (s.skip text rest).noted note tokens' ∧ (s.skip text rest).Ready note tokens' := by
  refine ⟨skip_noted text rest, ready.tokens, ready.synchronous, ?_⟩
  have behind := Clear.behind text (whole ▸ ready.clear)
  rw [← advance_line (s.line, s.column) text] at behind
  exact behind

/-! ## Steps -/

/-- A state inside a line, outside of asynchronous functions. -/
structure State.Plain (s : State) : Prop where
  stale : s.fresh = false
  synchronous : s.asynchronous = none

theorem State.Plain.leave (plain : s.Plain) : leaveAsynchronous s = s := by
  unfold leaveAsynchronous
  rw [plain.synchronous]

theorem State.Plain.step_feed (plain : s.Plain) (options : LexOptions) (isRest : s.rest = '\n' :: rest) :
    step options s = .more { (if s.blank || !s.brackets.isEmpty then s.skip ['\n'] rest
      else s.push .newline ['\n'] rest) with fresh := true, asynchronous := none } := by
  unfold step
  rw [if_neg (by simp [plain.stale]), plain.leave]
  dsimp only
  split
  case h_1 none => cases isRest.symm.trans none
  case h_2 same =>
    cases isRest.symm.trans same
    rw [plain.synchronous, Option.map_none, ite_self]
  case h_3 same => cases isRest.symm.trans same
  case h_4 noFeed _ same =>
    cases isRest.symm.trans same
    exact absurd rfl noFeed

theorem State.Plain.step_end (plain : s.Plain) (options : LexOptions) (isRest : s.rest = [])
    (closed : s.brackets = []) : step options s = .done (s.mark .finish) := by
  rw [step, if_neg (by simp [plain.stale]), plain.leave]
  dsimp only
  simp only [isRest, closed]

theorem State.Plain.step_unclosed (plain : s.Plain) (options : LexOptions) (isRest : s.rest = [])
    {top : Char × Nat} {outer : List (Char × Nat)} (isBrackets : s.brackets = top :: outer) :
    step options s = .fault s (unclosed top.1 top.2) false := by
  rw [step, if_neg (by simp [plain.stale]), plain.leave]
  dsimp only
  simp only [isRest, isBrackets]

theorem State.Plain.step_backslash (plain : s.Plain) (options : LexOptions) (isRest : s.rest = '\\' :: rest) :
    (∀ c after, rest = '\n' :: c :: after → step options s = .more (s.skip ['\\', '\n'] (c :: after))) ∧
      ∀ t, step options s = .more t → ∃ c after, rest = '\n' :: c :: after := by
  unfold step
  rw [if_neg (by simp [plain.stale]), plain.leave]
  dsimp only
  split
  case h_1 none => cases isRest.symm.trans none
  case h_2 same => cases isRest.symm.trans same
  case h_3 same =>
    cases isRest.symm.trans same
    constructor
    · rintro c after rfl
      rfl
    · intro t more
      split at more
      · cases more
      · rename_i after nonempty
        cases after with
        | nil => exact absurd rfl nonempty
        | cons c after => exact ⟨c, after, rfl⟩
      · cases more
  case h_4 noEscape same =>
    cases isRest.symm.trans same
    exact absurd rfl noEscape

theorem State.Plain.step_cons (plain : s.Plain) (options : LexOptions) {c : Char} (isRest : s.rest = c :: rest)
    (noFeed : c ≠ '\n') (noEscape : c ≠ '\\') :
    step options s =
      if c == ' ' || c == '\t' || c == '\x0c' then .more (s.skip [c] rest)
      else if c == '#' then comment options s
      else if c.isDigit || (c == '.' && rest.head?.any Char.isDigit) then
        match Number.take s.rest with
        | .ok (text, after) => .more (s.push .number text after)
        | .error message => s.fail message
      else if c == '\'' || c == '"' then string s [] s.rest
      else if isWordChar c then word options s
      else operator s c rest := by
  unfold step
  rw [if_neg (by simp [plain.stale]), plain.leave]
  dsimp only
  split
  case h_1 none => cases isRest.symm.trans none
  case h_2 same =>
    cases isRest.symm.trans same
    exact absurd rfl noFeed
  case h_3 same =>
    cases isRest.symm.trans same
    exact absurd rfl noEscape
  case h_4 same =>
    cases isRest.symm.trans same
    rfl

/-- A comment without types is skipped up to the end of the line. -/
theorem comment_eq (s : State) :
    comment {} s = .more (s.skip (s.rest.takeWhile (· != '\n')) (s.rest.dropWhile (· != '\n'))) := rfl

theorem takeWhile_line {text : Text} (oneLine : '\n' ∉ text) (rest : Text) :
    (text ++ '\n' :: rest).takeWhile (· != '\n') = text ∧
      (text ++ '\n' :: rest).dropWhile (· != '\n') = '\n' :: rest := by
  have all : ∀ c ∈ text, (c != '\n') = true := by
    rintro c member
    rw [bne_iff_ne]
    rintro rfl
    exact oneLine member
  rw [List.takeWhile_append_of_pos all, List.dropWhile_append_of_pos all]
  exact ⟨List.append_nil text, rfl⟩

theorem steps_passed {text : Text} (passed : Passed text) (s : State) (plain : s.Plain)
    (isRest : s.rest = text ++ '\n' :: rest) : ∃ column, Steps {} s { s with rest := '\n' :: rest, column } := by
  induction passed generalizing s with
  | nil =>
    refine ⟨s.column, ?_⟩
    rw [List.nil_append] at isRest
    rw [← isRest]
    exact .refl s
  | @blank text passed ih =>
    have skipped : step {} s = .more (s.skip [' '] (text ++ '\n' :: rest)) :=
      plain.step_cons {} isRest (by decide) (by decide)
    obtain ⟨column, steps⟩ := ih (s.skip [' '] (text ++ '\n' :: rest)) ⟨plain.stale, plain.synchronous⟩ rfl
    exact ⟨column, .next skipped steps⟩
  | @comment words oneLine =>
    have oneLine : '\n' ∉ '#' :: words := by simpa using oneLine
    obtain ⟨taken, dropped⟩ := takeWhile_line oneLine rest
    have skipped : step {} s = .more (s.skip ('#' :: words) ('\n' :: rest)) := by
      rw [plain.step_cons {} isRest (by decide) (by decide)]
      change comment {} s = _
      rw [comment_eq, isRest, taken, dropped]
    have line : (advance (s.line, s.column) ('#' :: words)).1 = s.line := by
      rw [advance_line, List.count_eq_zero.mpr oneLine]
      rfl
    have same : s.skip ('#' :: words) ('\n' :: rest) = { s with
        rest := '\n' :: rest, line := (advance (s.line, s.column) ('#' :: words)).1
        column := (advance (s.line, s.column) ('#' :: words)).2 } := rfl
    rw [line] at same
    rw [same] at skipped
    exact ⟨_, .next skipped (.refl _)⟩

def Goes (note : Nat → Text) (s' : State) (t : State) : Prop := ∃ t', Steps {} s' t' ∧ t.Along note t'

theorem goes_of_more {s' t' : State} (more : step {} s' = .more t') (along : t.Along note t') : Goes note s' t :=
  ⟨t', .next more (.refl t'), along⟩

variable (isNote : ∀ n, (note n).IsNote)
include isNote

/-- A string is cut from both texts alike, if the lines that end in it have no notes. -/
theorem string_noted (ready : s.Ready note tokens') {letters text : Text} (whole : letters ++ text = s.rest)
    (flat : '\n' ∉ letters) (quoted : text.head?.any (fun c => c == '\'' || c == '"') = true)
    (more : string s letters text = .more t)
    (free : ∀ u ∈ t.tokens, u.kind = .string → ∀ n, u.line ≤ n → n < u.endLine → note n = []) :
    ∃ t', string (s.noted note tokens') letters (withNotes note s.line text) = .more t' ∧ t.Along note t' := by
  unfold string at more
  split at more
  case h_2 => cases quoted
  case h_1 quote rest =>
    have isQuote : quote = '\'' ∨ quote = '"' := by simpa using quoted
    have noFeed : quote ≠ '\n' := by rcases isQuote with rfl | rfl <;> decide
    have noBlank : quote ≠ ' ' := by rcases isQuote with rfl | rfl <;> decide
    have sameTriple : [quote, quote].isPrefixOf (withNotes note s.line rest) = [quote, quote].isPrefixOf rest :=
      Text.isPrefixOf_withNotes isNote (by simpa using noBlank.symm) (by simpa using noFeed.symm) rest
    dsimp only at more
    split at more
    case h_2 => cases more
    case h_1 body after isBody =>
      cases more
      unfold string
      rw [Text.withNotes_cons noFeed]
      dsimp only
      rw [sameTriple]
      generalize isOpening : (if [quote, quote].isPrefixOf rest = true then [quote, quote, quote]
        else [quote]) = opening at isBody free ⊢
      have begins : opening.isPrefixOf (quote :: rest) = true := by
        subst isOpening
        split
        · simpa using ‹[quote, quote].isPrefixOf rest = true›
        · simp
      have flatOpening : '\n' ∉ opening := by
        subst isOpening
        split <;> simpa using noFeed.symm
      obtain ⟨behind, isText⟩ := List.isPrefixOf_iff_prefix.mp begins
      have dropped : (withNotes note s.line (quote :: rest)).drop opening.length = _ :=
        Text.drop_withNotes flatOpening begins
      rw [Text.withNotes_cons noFeed] at dropped
      rw [dropped]
      rw [← isText, List.drop_left] at isBody
      rw [← isText, List.drop_left]
      obtain ⟨taken, isTaken, rfl, -, front⟩ := stringBody_front isQuote isBody
      obtain rfl : body = taken := isTaken
      have counted : (letters ++ opening ++ body).count '\n' = body.count '\n' := by
        rw [List.count_append, List.count_append, List.count_eq_zero.mpr flat, List.count_eq_zero.mpr flatOpening]
        omega
      have lines := advance_line (s.line, s.column) (letters ++ opening ++ body)
      rw [counted] at lines
      have bare : ∀ n, s.line ≤ n → n < s.line + body.count '\n' → note n = [] := fun n after before =>
        free _ (.head _) rfl n after (lt_of_lt_of_eq before lines.symm)
      have all : letters ++ opening ++ body ++ after = s.rest := by
        rw [← whole, ← isText]
        simp
      obtain ⟨tokens'', same, ready⟩ := ready.push .string all
      rw [counted] at same
      rw [Text.withNotes_bare bare, front]
      exact ⟨_, rfl, same ▸ ready.along⟩

theorem word_noted (ready : s.Ready note tokens') (more : word {} s = .more t)
    (free : ∀ u ∈ t.tokens, u.kind = .string → ∀ n, u.line ≤ n → n < u.endLine → note n = []) :
    ∃ t', word {} (s.noted note tokens') = .more t' ∧ t.Along note t' := by
  have whole : s.rest.takeWhile isWordChar ++ s.rest.dropWhile isWordChar = s.rest :=
    List.takeWhile_append_dropWhile
  have flat : '\n' ∉ s.rest.takeWhile isWordChar := fun member => absurd (List.mem_takeWhile_imp member) (by decide)
  have taken : (s.noted note tokens').rest.takeWhile isWordChar = s.rest.takeWhile isWordChar :=
    Text.takeWhile_withNotes isNote (by decide) (by decide) s.rest
  have behind : (s.noted note tokens').rest.dropWhile isWordChar = withNotes note s.line (s.rest.dropWhile isWordChar) :=
    Text.dropWhile_withNotes (by decide) (by decide) isNote s.rest
  unfold word at more ⊢
  dsimp only at more ⊢
  rw [taken, behind, Text.head_withNotes isNote (by decide)]
  split
  case isTrue isString =>
    rw [if_pos isString] at more
    rw [Bool.and_eq_true] at isString
    exact string_noted isNote ready whole flat isString.1 more free
  case isFalse noString =>
    rw [if_neg noString] at more
    split
    case isTrue isName =>
      rw [if_pos isName] at more
      cases more
      obtain ⟨tokens'', same, pushed⟩ := ready.push .name whole
      rw [List.count_eq_zero.mpr flat] at same
      refine ⟨_, rfl, ?_⟩
      change (s.push .name _ _).Along note ((s.noted note tokens').push .name _ _)
      exact same ▸ pushed.along
    case isFalse noName =>
      rw [if_neg noName] at more
      split at more
      · split at more <;> cases more
      · cases more

theorem operator_noted (ready : s.Ready note tokens') {c : Char} (isRest : s.rest = c :: rest) (noFeed : c ≠ '\n')
    (more : operator s c rest = .more t) :
    ∃ t', operator (s.noted note tokens') c (withNotes note s.line rest) = .more t' ∧ t.Along note t' := by
  have one : ∃ tokens'', (s.noted note tokens').push .op [c] (withNotes note s.line rest) =
      (s.push .op [c] rest).noted note tokens'' ∧ (s.push .op [c] rest).Ready note tokens'' := by
    have pushed := @State.Ready.push note s tokens' rest ready .op [c] isRest.symm
    rwa [List.count_eq_zero.mpr (by simpa using noFeed.symm)] at pushed
  obtain ⟨tokens'', same, ready'⟩ := one
  have brackets : (s.noted note tokens').brackets = s.brackets := rfl
  have found : (operators.find? fun o => o.isPrefixOf (c :: withNotes note s.line rest)) =
      operators.find? fun o => o.isPrefixOf (c :: rest) := by
    refine List.find?_congr fun o isOperator => ?_
    have flat : ∀ o ∈ operators, ' ' ∉ o ∧ '\n' ∉ o := by decide
    rw [← Text.withNotes_cons noFeed]
    exact Text.isPrefixOf_withNotes isNote (flat o isOperator).1 (flat o isOperator).2 _
  unfold operator at more ⊢
  rw [same, brackets, found]
  split
  case isTrue opens =>
    rw [if_pos opens] at more
    split
    case isTrue deep =>
      rw [if_pos deep] at more
      cases more
    case isFalse shallow =>
      rw [if_neg shallow] at more
      cases more
      exact ⟨_, rfl, .inside ready'.tokens, ready'.synchronous, ready'.clear⟩
  case isFalse noOpen =>
    rw [if_neg noOpen] at more
    split
    case isTrue closes =>
      rw [if_pos closes] at more
      split at more
      case h_1 => cases more
      case h_2 o line outer isBrackets =>
        split at more
        case isTrue fits =>
          cases more
          simp only [if_pos fits]
          exact ⟨_, rfl, .inside ready'.tokens, ready'.synchronous, ready'.clear⟩
        case isFalse => cases more
    case isFalse noClose =>
      rw [if_neg noClose] at more
      split at more
      case h_1 o isFound =>
        cases more
        have flat : ∀ o ∈ operators, '\n' ∉ o := by decide
        have oneLine := flat o (List.mem_of_find?_eq_some isFound)
        have begins := List.find?_some isFound
        obtain ⟨behind, isText⟩ := List.isPrefixOf_iff_prefix.mp begins
        have dropped : (withNotes note s.line (c :: rest)).drop o.length = _ := Text.drop_withNotes oneLine begins
        rw [Text.withNotes_cons noFeed] at dropped
        have whole : o ++ (c :: rest).drop o.length = s.rest := by rw [isRest, ← isText, List.drop_left]
        obtain ⟨tokens'', same, ready⟩ := ready.push .op whole
        rw [List.count_eq_zero.mpr oneLine] at same
        rw [dropped]
        exact ⟨_, rfl, same ▸ ready.along⟩
      case h_2 none =>
        split at more
        case isTrue printable =>
          cases more
          simp only [if_pos printable]
          exact ⟨_, rfl, ready'.along⟩
        case isFalse => cases more

/-- At the end of a line both texts go on with the next line. -/
theorem feed_noted {s' : State} (along : s.Along note s') (stale : s.fresh = false) (isRest : s.rest = '\n' :: rest)
    (more : step {} s = .more t) : Goes note s' t := by
  -- Inside the line the whole note is left.
  have ended : ∃ tokens' column' tail, List.Forall₂ Token.Same s.tokens tokens' ∧ Passed tail ∧
      s' = { s with rest := tail ++ '\n' :: withNotes note (s.line + 1) rest, column := column', tokens := tokens' } := by
    cases along.twin with
    | @inside tokens' tokens =>
      refine ⟨tokens', s.column, note s.line, tokens, (isNote s.line).passed, ?_⟩
      rw [← Text.withNotes_feed, ← isRest]
      rfl
    | @ended tokens' column' rest' tail tokens _ isRest' passed =>
      cases isRest.symm.trans isRest'
      exact ⟨tokens', column', tail, tokens, passed, rfl⟩
  obtain ⟨tokens', column', tail, tokens, passed, rfl⟩ := ended
  have plain : s.Plain := ⟨stale, along.synchronous⟩
  obtain ⟨column, steps⟩ := steps_passed passed { s with
    rest := tail ++ '\n' :: withNotes note (s.line + 1) rest, column := column', tokens := tokens' }
    ⟨stale, along.synchronous⟩ rfl
  have plain' : State.Plain { s with
      rest := '\n' :: withNotes note (s.line + 1) rest, column := column, tokens := tokens' } :=
    ⟨stale, along.synchronous⟩
  have last := plain'.step_feed {} rfl
  have clear : Clear note (s.line + 1) rest := by
    have whole := along.clear
    rw [isRest] at whole
    exact whole.behind ['\n']
  rw [plain.step_feed {} isRest] at more
  cases more
  refine ⟨_, steps.trans (.next last (.refl _)), ?_, rfl, ?_⟩
  · dsimp only
    split
    · exact .inside tokens
    · refine .inside (.cons ⟨rfl, fun noEnd => absurd rfl noEnd⟩ tokens)
  · dsimp only
    split <;> exact clear

omit isNote in
theorem backslash_noted (ready : s.Ready note tokens') (plain : s.Plain) (isRest : s.rest = '\\' :: rest)
    (isNote : ∀ n, (note n).IsNote) (more : step {} s = .more t) : Goes note (s.noted note tokens') t := by
  obtain ⟨skips, continued⟩ := plain.step_backslash {} isRest
  obtain ⟨c, after, rfl⟩ := continued t more
  cases (skips c after rfl).symm.trans more
  have free : note s.line = [] := ready.clear [] (c :: after) isRest
  have bare : withNotes note s.line s.rest = '\\' :: '\n' :: withNotes note (s.line + 1) (c :: after) := by
    rw [isRest, Text.withNotes_cons (by decide), Text.withNotes_feed, free]
    rfl
  obtain ⟨d, behind, some⟩ : ∃ d behind, withNotes note (s.line + 1) (c :: after) = d :: behind := by
    obtain ⟨none, -⟩ | ⟨_, d, behind, -, same, -⟩ | ⟨d, behind, -, -, same⟩ :=
      Text.withNotes_cases isNote (s.line + 1) (c :: after)
    · cases none
    · exact ⟨d, behind, same⟩
    · exact ⟨d, _, same⟩
  have plain' : (s.noted note tokens').Plain := ⟨plain.stale, plain.synchronous⟩
  have skipped := (plain'.step_backslash {} bare).1 d behind (congrArg _ some)
  obtain ⟨same, ready⟩ := @State.Ready.skip note s tokens' (c :: after) ready ['\\', '\n'] isRest.symm
  rw [← some] at skipped
  exact goes_of_more skipped (same ▸ ready.along)

theorem comment_noted (ready : s.Ready note tokens') (stale : s.fresh = false) (more : comment {} s = .more t) :
    ∃ t', comment {} (s.noted note tokens') = .more t' ∧ t.Along note t' := by
  rw [comment_eq] at more ⊢
  cases more
  refine ⟨_, rfl, ?_⟩
  have whole : s.rest.takeWhile (· != '\n') ++ s.rest.dropWhile (· != '\n') = s.rest :=
    List.takeWhile_append_dropWhile
  have flat : '\n' ∉ s.rest.takeWhile (· != '\n') := fun member => by
    simpa using List.mem_takeWhile_imp member
  have ends : ∀ c after, s.rest.dropWhile (· != '\n') = c :: after → c = '\n' := fun c after isRest => by
    simpa [isRest] using List.head?_dropWhile_not (· != '\n') s.rest
  obtain ⟨same, skipped⟩ := ready.skip whole
  generalize s.rest.takeWhile (· != '\n') = words at whole flat same skipped ⊢
  generalize s.rest.dropWhile (· != '\n') = rest at whole ends same skipped ⊢
  have noted : (s.noted note tokens').rest = words ++ withNotes note s.line rest := by
    change withNotes note s.line s.rest = _
    rw [← whole, Text.withNotes_append flat]
  cases rest with
  | nil =>
    have all : ∀ c ∈ words, (c != '\n') = true := by
      rintro c member
      rw [bne_iff_ne]
      rintro rfl
      exact flat member
    rw [List.count_eq_zero.mpr flat] at same
    change _ = words ++ [] at noted
    rw [noted, List.takeWhile_append_of_pos all, List.dropWhile_append_of_pos all]
    change State.Along note _ ((s.noted note tokens').skip (words ++ []) [])
    rw [List.append_nil]
    exact same ▸ skipped.along
  | cons c after =>
    obtain rfl := ends c after rfl
    rw [Text.withNotes_feed, ← List.append_assoc] at noted
    have oneLine : '\n' ∉ words ++ note s.line := by
      rw [List.mem_append, not_or]
      exact ⟨flat, (isNote s.line).passed.oneLine⟩
    obtain ⟨taken, dropped⟩ := takeWhile_line oneLine (withNotes note (s.line + 1) after)
    rw [noted, taken, dropped]
    have line : ∀ text, '\n' ∉ text → (advance (s.line, s.column) text).1 = s.line := fun text flat => by
      rw [advance_line, List.count_eq_zero.mpr flat]
      rfl
    have ended := @State.Twin.ended note (s.skip words ('\n' :: after)) tokens'
      (advance (s.line, s.column) (words ++ note s.line)).2 after [] skipped.tokens stale rfl .nil
    refine ⟨?_, skipped.synchronous, skipped.clear⟩
    have plain : s.skip words ('\n' :: after) = { s with
        rest := '\n' :: after, line := (advance (s.line, s.column) words).1
        column := (advance (s.line, s.column) words).2 } := rfl
    have behind : (s.noted note tokens').skip (words ++ note s.line) ('\n' :: withNotes note (s.line + 1) after) =
        { s with
          rest := '\n' :: withNotes note (s.line + 1) after, tokens := tokens'
          line := (advance (s.line, s.column) (words ++ note s.line)).1
          column := (advance (s.line, s.column) (words ++ note s.line)).2 } := rfl
    rw [line _ flat] at plain
    rw [line _ oneLine] at behind
    rw [plain] at ended ⊢
    rw [behind]
    exact ended

theorem inside_noted (ready : s.Ready note tokens') (plain : s.Plain) {c : Char} (isRest : s.rest = c :: rest)
    (noFeed : c ≠ '\n') (more : step {} s = .more t)
    (free : ∀ u ∈ t.tokens, u.kind = .string → ∀ n, u.line ≤ n → n < u.endLine → note n = []) :
    Goes note (s.noted note tokens') t := by
  by_cases escape : c = '\\'
  · subst escape
    exact backslash_noted ready plain isRest isNote more
  have noted : (s.noted note tokens').rest = c :: withNotes note s.line rest := by
    change withNotes note s.line s.rest = _
    rw [isRest, Text.withNotes_cons noFeed]
  have plain' : (s.noted note tokens').Plain := ⟨plain.stale, plain.synchronous⟩
  rw [plain.step_cons {} isRest noFeed escape] at more
  have next := plain'.step_cons {} noted noFeed escape
  suffices goes : ∃ t', step {} (s.noted note tokens') = .more t' ∧ t.Along note t' by
    obtain ⟨t', more, along⟩ := goes
    exact goes_of_more more along
  rw [next]
  split
  case isTrue blank =>
    rw [if_pos blank] at more
    cases more
    obtain ⟨same, skipped⟩ := @State.Ready.skip note s tokens' rest ready [c] isRest.symm
    rw [List.count_eq_zero.mpr (by simpa using noFeed.symm)] at same
    exact ⟨_, rfl, same ▸ skipped.along⟩
  case isFalse noBlank =>
  rw [if_neg noBlank] at more
  split
  case isTrue hash =>
    rw [if_pos hash] at more
    exact comment_noted isNote ready plain.stale more
  case isFalse noHash =>
  rw [if_neg noHash] at more
  rw [Text.head_withNotes isNote (by decide)]
  split
  case isTrue number =>
    rw [if_pos number] at more
    have taken : Number.take (s.noted note tokens').rest = _ := Number.take_withNotes isNote s.rest
    rw [taken]
    cases isNumber : Number.take s.rest with
    | error message =>
      rw [isNumber] at more
      cases more
    | ok found =>
      obtain ⟨text, after⟩ := found
      rw [isNumber] at more
      cases more
      have reads := Number.take_reads isNumber
      obtain ⟨tokens'', same, pushed⟩ := ready.push .number reads.whole
      rw [List.count_eq_zero.mpr (reads.oneLine (by simp))] at same
      exact ⟨_, rfl, same ▸ pushed.along⟩
  case isFalse noNumber =>
  rw [if_neg noNumber] at more
  split
  case isTrue quoted =>
    rw [if_pos quoted] at more
    have quotes : s.rest.head?.any (fun c => c == '\'' || c == '"') = true := by
      rw [isRest]
      exact quoted
    exact string_noted isNote ready rfl (by simp) quotes more free
  case isFalse noQuote =>
  rw [if_neg noQuote] at more
  split
  case isTrue isWord =>
    rw [if_pos isWord] at more
    exact word_noted isNote ready more free
  case isFalse noWord =>
    rw [if_neg noWord] at more
    exact operator_noted isNote ready isRest noFeed more

/-! ## Fronts of lines -/

omit isNote in
theorem State.Ready.mark (ready : s.Ready note tokens') (kind : TokenKind) :
    ∃ tokens'', (s.noted note tokens').mark kind = (s.mark kind).noted note tokens'' ∧ (s.mark kind).Ready note tokens'' :=
  ⟨_, rfl, .cons (.refl _) ready.tokens, ready.synchronous, ready.clear⟩

omit isNote in
theorem closeIndents_noted (ready : s.Ready note tokens') (col : Nat) (indents : List (Nat × Nat)) :
    ∃ tokens'', closeIndents col (s.noted note tokens') indents = (closeIndents col s indents).noted note tokens'' ∧
      (closeIndents col s indents).Ready note tokens'' := by
  induction indents generalizing s tokens' with
  | nil => exact ⟨_, rfl, ready.tokens, ready.synchronous, ready.clear⟩
  | cons top indents ih =>
    rw [closeIndents, closeIndents]
    split
    · obtain ⟨tokens'', same, marked⟩ := ready.mark .dedent
      rw [same]
      exact ih marked
    · exact ⟨_, rfl, ready.tokens, ready.synchronous, ready.clear⟩

omit isNote in
theorem indentation_noted (ready : s.Ready note tokens') {col alt : Nat} (more : indentation s col alt = .more t) :
    ∃ t', indentation (s.noted note tokens') col alt = .more t' ∧ t.Along note t' := by
  obtain ⟨tokens'', closed, ready'⟩ := closeIndents_noted ready col s.indents
  unfold indentation at more ⊢
  dsimp only at more ⊢
  change ∃ t', (if col = (s.indents.headD (0, 0)).1 then _ else _) = Step.more t' ∧ _
  split
  case isTrue same =>
    rw [if_pos same] at more
    change ∃ t', (if alt = (s.indents.headD (0, 0)).2 then _ else _) = Step.more t' ∧ _
    split
    case isTrue alike =>
      rw [if_pos alike] at more
      cases more
      exact ⟨_, rfl, ready.along⟩
    case isFalse other =>
      rw [if_neg other] at more
      cases more
  case isFalse other =>
  rw [if_neg other] at more
  change ∃ t', (if (s.indents.headD (0, 0)).1 < col then if alt ≤ (s.indents.headD (0, 0)).2 then _ else _ else _) =
    Step.more t' ∧ _
  split
  case isTrue deeper =>
    rw [if_pos deeper] at more
    split
    case isTrue mixed =>
      rw [if_pos mixed] at more
      cases more
    case isFalse fine =>
      rw [if_neg fine] at more
      cases more
      exact ⟨_, rfl, .inside (.cons (.refl _) ready.tokens), ready.synchronous, ready.clear⟩
  case isFalse outer =>
    rw [if_neg outer] at more
    change ∃ t', (if col ≠ ((closeIndents col (s.noted note tokens') s.indents).indents.headD (0, 0)).1 then _ else
      if alt ≠ ((closeIndents col (s.noted note tokens') s.indents).indents.headD (0, 0)).2 then _ else
        Step.more (closeIndents col (s.noted note tokens') s.indents)) = Step.more t' ∧ _
    rw [closed]
    change ∃ t', (if col ≠ ((closeIndents col s s.indents).indents.headD (0, 0)).1 then _ else
      if alt ≠ ((closeIndents col s s.indents).indents.headD (0, 0)).2 then _ else _) = Step.more t' ∧ _
    split
    case isTrue unmatched =>
      rw [if_pos unmatched] at more
      cases more
    case isFalse matched =>
      rw [if_neg matched] at more
      split
      case isTrue mixed =>
        rw [if_pos mixed] at more
        cases more
      case isFalse fine =>
        rw [if_neg fine] at more
        cases more
        exact ⟨_, rfl, ready'.along⟩

theorem lineStart_noted (ready : s.Ready note tokens') (more : lineStart s = .more t) :
    ∃ t', lineStart (s.noted note tokens') = .more t' ∧ t.Along note t' := by
  obtain ⟨taken, whole, moved, -⟩ := measure_append (s.rest.length + 1) 0 0 0 (s.line, s.column) s.rest
  have beside : Beside note (measure (s.rest.length + 1) 0 0 0 (s.line, s.column) s.rest)
      (measure ((s.noted note tokens').rest.length + 1) 0 0 0
        ((s.noted note tokens').line, (s.noted note tokens').column) (s.noted note tokens').rest) :=
    @measure_withNotes note isNote _ _ 0 0 0 (s.line, s.column) _ (Nat.lt_succ_self _) (Nat.lt_succ_self _) ready.clear
  have line := advance_line (s.line, s.column) taken
  have clear := ready.clear
  rw [← whole] at clear
  replace clear := clear.behind taken
  rw [moved] at line
  rw [← line] at clear
  unfold lineStart at more ⊢
  generalize measure (s.rest.length + 1) 0 0 0 (s.line, s.column) s.rest = found at more beside clear
  generalize measure ((s.noted note tokens').rest.length + 1) 0 0 0
    ((s.noted note tokens').line, (s.noted note tokens').column) (s.noted note tokens').rest = found' at beside ⊢
  cases beside with
  | @ended columns columns' line column column' rest tail ends passed =>
    obtain ⟨col, alt⟩ := columns
    obtain ⟨col', alt'⟩ := columns'
    cases more
    have behind : ∃ c more, tail ++ '\n' :: withNotes note (line + 1) rest = c :: more ∧ (c = '#' ∨ c = '\n') := by
      obtain rfl | hash := ends
      · exact ⟨'\n', _, rfl, .inr rfl⟩
      · obtain ⟨words, rfl⟩ := List.head?_eq_some_iff.mp hash
        exact ⟨'#', _, rfl, .inl rfl⟩
    have twin := @State.Twin.ended note { s with
      rest := '\n' :: rest, line, column, fresh := false, blank := true } tokens' column' rest tail ready.tokens rfl
      rfl passed
    dsimp only at twin ⊢
    obtain ⟨c, more, same, isHash⟩ := behind
    rw [same] at twin ⊢
    refine ⟨{ s with rest := c :: more, line, column := column', fresh := false, blank := true, tokens := tokens' }, ?_,
      twin, ready.synchronous, clear⟩
    rcases isHash with rfl | rfl <;> rfl
  | @inside columns place rest noFeed =>
    obtain ⟨col, alt⟩ := columns
    obtain ⟨line, column⟩ := place
    have at_ : ∀ blank, State.Ready note tokens' { s with rest, line, column, fresh := false, blank } := fun _ =>
      ⟨ready.tokens, ready.synchronous, clear⟩
    dsimp only at more ⊢
    cases rest with
    | nil =>
      change ∃ t', (if s.brackets.isEmpty = true then _ else _) = Step.more t' ∧ _
      split
      case isTrue noBracket =>
        have last : State.Ready note tokens'
            { s with rest := [], line := line - 1, column := 0, fresh := false, blank := false } :=
          ⟨ready.tokens, ready.synchronous, fun front back none => by simp at none⟩
        obtain ⟨tokens'', same, closed⟩ := closeIndents_noted last 0 s.indents
        dsimp only at more
        rw [if_pos noBracket] at more
        cases more
        exact ⟨_, congrArg Step.more same, closed.along⟩
      case isFalse bracket =>
        dsimp only at more
        rw [if_neg bracket] at more
        cases more
        exact ⟨_, rfl, (at_ false).along⟩
    | cons c rest =>
      have noFeed : c ≠ '\n' := by simpa using noFeed
      have same : ∀ blank, State.noted note tokens' { s with rest := c :: rest, line, column, fresh := false, blank } =
          { s with
            rest := c :: withNotes note line rest, line, column, fresh := false, blank, tokens := tokens' } := by
        intro blank
        rw [State.noted]
        exact congrArg (fun rest : Text =>
          ({ s with rest, line, column, fresh := false, blank, tokens := tokens' } : State))
          (Text.withNotes_cons noFeed rest)
      rw [Text.withNotes_cons noFeed]
      split at more
      case h_1 isMark | h_3 isMark =>
        obtain ⟨rfl, -⟩ := List.cons.inj isMark
        cases more
        exact ⟨_, congrArg Step.more (same _).symm, (at_ _).along⟩
      case h_2 isFeed => exact absurd (List.cons.inj isFeed).1 noFeed
      case h_4 none => cases none
      case h_5 noHash _ noEscape _ =>
        split
        case h_1 isHash => exact absurd (congrArg (· :: rest) (List.cons.inj isHash).1) (noHash _)
        case h_2 isFeed => exact absurd (List.cons.inj isFeed).1 noFeed
        case h_3 isEscape => exact absurd (congrArg (· :: rest) (List.cons.inj isEscape).1) (noEscape _)
        case h_4 none => cases none
        case h_5 =>
          change ∃ t', (if s.brackets.isEmpty = true then _ else _) = Step.more t' ∧ _
          split
          case isTrue noBracket =>
            rw [if_pos noBracket] at more
            obtain ⟨t', next, along⟩ := indentation_noted (at_ false) more
            rw [same] at next
            exact ⟨t', next, along⟩
          case isFalse bracket =>
            rw [if_neg bracket] at more
            cases more
            exact ⟨_, congrArg Step.more (same _).symm, (at_ _).along⟩

/-! ## Runs -/

theorem step_noted {s' : State} (along : s.Along note s') (more : step {} s = .more t)
    (free : ∀ u ∈ t.tokens, u.kind = .string → ∀ n, u.line ≤ n → n < u.endLine → note n = []) : Goes note s' t := by
  by_cases fresh : s.fresh = true
  · cases along.twin with
    | ended _ stale => cases fresh.symm.trans stale
    | @inside tokens' tokens =>
      rw [step, if_pos fresh] at more
      obtain ⟨t', next, along⟩ := lineStart_noted isNote ⟨tokens, along.synchronous, along.clear⟩ more
      refine goes_of_more ?_ along
      rw [step]
      exact (if_pos fresh).trans next
  · rw [Bool.not_eq_true] at fresh
    have plain : s.Plain := ⟨fresh, along.synchronous⟩
    cases isRest : s.rest with
    | nil =>
      cases isBrackets : s.brackets with
      | nil => cases (plain.step_end {} isRest isBrackets).symm.trans more
      | cons top outer => cases (plain.step_unclosed {} isRest isBrackets).symm.trans more
    | cons c rest =>
      by_cases feed : c = '\n'
      · subst feed
        exact feed_noted isNote along fresh isRest more
      · cases along.twin with
        | ended _ _ isRest' => exact absurd (List.cons.inj (isRest.symm.trans isRest')).1 feed
        | inside tokens =>
          exact inside_noted isNote ⟨tokens, along.synchronous, along.clear⟩ plain isRest feed more free

omit isNote in
theorem done_noted {s' u : State} (along : s.Along note s') (done : step {} s = .done u) :
    ∃ u', step {} s' = .done u' ∧ List.Forall₂ Token.Same u.tokens u'.tokens := by
  obtain ⟨stale, isRest, closed, rfl⟩ := step_done done
  cases along.twin with
  | ended _ _ isRest' => cases isRest.symm.trans isRest'
  | @inside tokens' tokens =>
    have plain : s.Plain := ⟨stale, along.synchronous⟩
    have plain' : (s.noted note tokens').Plain := ⟨stale, along.synchronous⟩
    have none : (s.noted note tokens').rest = [] := congrArg (withNotes note s.line) isRest
    rw [plain.leave]
    exact ⟨_, plain'.step_end {} none closed, .cons (.refl _) tokens⟩

/-- Steps in the text have their steps in the text with notes, if lines that end in strings have no notes. -/
theorem steps_noted {s' : State} (steps : Steps {} s t) (along : s.Along note s')
    (free : ∀ u ∈ t.tokens, u.kind = .string → ∀ n, u.line ≤ n → n < u.endLine → note n = []) : Goes note s' t := by
  induction steps generalizing s' with
  | refl s => exact ⟨s', .refl s', along⟩
  | @next s t u more steps ih =>
    obtain ⟨t', first, along⟩ := step_noted isNote along more fun v member => free v (steps.tokens.subset member)
    obtain ⟨u', rest, along⟩ := ih along free
    exact ⟨u', first.trans rest, along⟩

/-- A text that is cut to its end is cut into the same tokens at the same places if its lines get notes, unless one gets
a note that ends with a backslash or inside a string; only the ends of lines stand behind the notes. -/
theorem run_withNotes {text : Text} (unstopped : (run {} text).stopped = none) (clear : Clear note 1 text)
    (free : ∀ u ∈ (run {} text).tokens, u.kind = .string → ∀ n, u.line ≤ n → n < u.endLine → note n = []) :
    (run {} (withNotes note 1 text)).stopped = none ∧
      List.Forall₂ Token.Same (run {} text).tokens (run {} (withNotes note 1 text)).tokens := by
  obtain ⟨t, u, steps, last⟩ := run_ends unstopped
  have plain := run_of_steps steps last
  have kept : t.tokens <:+ u.tokens := by
    obtain ⟨-, -, -, rfl⟩ := step_done last
    obtain ⟨asynchronous, same⟩ := leaveAsynchronous_eq t
    rw [same]
    exact List.suffix_cons _ _
  rw [plain] at free ⊢
  have along : (begun {} text).Along note (begun {} (withNotes note 1 text)) :=
    ⟨@State.Twin.inside note (begun {} text) [] .nil, rfl, clear⟩
  obtain ⟨t', steps', along⟩ := steps_noted isNote steps along fun v member => free v (by
    rw [List.mem_reverse]
    exact kept.subset member)
  obtain ⟨u', last', tokens⟩ := done_noted along last
  rw [run_of_steps steps' last']
  exact ⟨rfl, List.forall₂_reverse_iff.mpr tokens⟩

end Lexer

end MacroExpand
