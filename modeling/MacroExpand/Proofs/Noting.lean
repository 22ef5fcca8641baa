import MacroExpand.Proofs.Breaks

/-!
# Texts with notes at the ends of their lines

`Text.withNotes` writes something at the end of each line.  What is asked of a text from its front on has the same
answer with notes, if blanks and line feeds are treated alike; so the same number is read (`Number.take_withNotes`).
-/

set_option autoImplicit false

namespace MacroExpand

/-- What cutting passes over in front of the end of a line: blanks, and a comment behind them. -/
inductive Text.Passed : Text → Prop where
  | nil : Passed []
  | blank {text : Text} (more : Passed text) : Passed (' ' :: text)
  | comment {words : Text} (oneLine : '\n' ∉ words) : Passed ('#' :: words)

theorem Text.Passed.oneLine {text : Text} (passed : text.Passed) : '\n' ∉ text := by
  induction passed with
  | nil => exact List.not_mem_nil
  | blank _ ih => simpa using ih
  | comment oneLine => simpa using oneLine

/-- What may be written at the end of a line: nothing, or a comment with a blank in front. -/
def Text.IsNote (text : Text) : Prop := text = [] ∨ ∃ more, text = ' ' :: more ∧ Passed more

theorem Text.IsNote.passed {text : Text} (isNote : text.IsNote) : text.Passed := by
  obtain rfl | ⟨more, rfl, passed⟩ := isNote
  · exact .nil
  · exact .blank passed

namespace Text

/-- A text, which begins on a line, with something written at the end of each line in front of its line feed. -/
def withNotes (note : Nat → Text) (line : Nat) : Text → Text
  | [] => []
  | c :: rest =>
    if c = '\n' then note line ++ '\n' :: withNotes note (line + 1) rest else c :: withNotes note line rest

section

variable {note : Nat → Text} {line : Nat} {text front back : Text}

theorem withNotes_feed (note : Nat → Text) (line : Nat) (rest : Text) :
    withNotes note line ('\n' :: rest) = note line ++ '\n' :: withNotes note (line + 1) rest := by
  rw [withNotes, if_pos rfl]

theorem withNotes_cons {c : Char} (noFeed : c ≠ '\n') (rest : Text) :
    withNotes note line (c :: rest) = c :: withNotes note line rest := by
  rw [withNotes, if_neg noFeed]

theorem withNotes_append (oneLine : '\n' ∉ front) (back : Text) :
    withNotes note line (front ++ back) = front ++ withNotes note line back := by
  induction front with
  | nil => rfl
  | cons c front ih =>
    rw [List.mem_cons, not_or] at oneLine
    rw [List.cons_append, withNotes_cons (Ne.symm oneLine.1), ih oneLine.2, List.cons_append]

theorem withNotes_bare (bare : ∀ n, line ≤ n → n < line + front.count '\n' → note n = []) (back : Text) :
    withNotes note line (front ++ back) = front ++ withNotes note (line + front.count '\n') back := by
  induction front generalizing line with
  | nil => rfl
  | cons c front ih =>
    by_cases feed : c = '\n'
    · subst feed
      rw [List.count_cons_self] at bare ⊢
      rw [List.cons_append, withNotes_feed, bare line le_rfl (by omega),
        ih fun n after before => bare n (by omega) (by omega), Nat.add_assoc, Nat.add_comm 1]
      rfl
    · rw [List.count_cons_of_ne feed] at bare ⊢
      rw [List.cons_append, withNotes_cons feed, ih bare, List.cons_append]

theorem withNotes_cases (isNote : ∀ n, (note n).IsNote) (line : Nat) (text : Text) :
    (text = [] ∧ withNotes note line text = []) ∨
    (∃ rest c more, text = '\n' :: rest ∧ withNotes note line text = c :: more ∧ (c = ' ' ∨ c = '\n')) ∨
    ∃ c rest, c ≠ '\n' ∧ text = c :: rest ∧ withNotes note line text = c :: withNotes note line rest := by
  cases text with
  | nil => exact .inl ⟨rfl, rfl⟩
  | cons c rest =>
    by_cases feed : c = '\n'
    · subst feed
      refine .inr (.inl ?_)
      rw [withNotes_feed]
      obtain none | ⟨more, some, -⟩ := isNote line
      · exact ⟨rest, '\n', _, rfl, by rw [none]; rfl, .inr rfl⟩
      · exact ⟨rest, ' ', _, rfl, by rw [some]; rfl, .inl rfl⟩
    · exact .inr (.inr ⟨c, rest, feed, rfl, withNotes_cons feed rest⟩)

/-- What is asked of the next character does not depend on notes if it is asked alike of blanks and line feeds. -/
theorem head_withNotes (isNote : ∀ n, (note n).IsNote) {fits : Char → Bool} (alike : fits ' ' = fits '\n') (text : Text) :
    (withNotes note line text).head?.any fits = text.head?.any fits := by
  obtain ⟨rfl, same⟩ | ⟨rest, c, more, rfl, same, rfl | rfl⟩ | ⟨c, rest, -, rfl, same⟩ :=
    withNotes_cases isNote line text
  · rw [same]
  · rw [same]
    simpa using alike
  · rw [same]
    rfl
  · rw [same]
    rfl

variable {fits : Char → Bool}

theorem takeWhile_withNotes (isNote : ∀ n, (note n).IsNote) (noBlank : fits ' ' = false) (noFeed : fits '\n' = false)
    (text : Text) : (withNotes note line text).takeWhile fits = text.takeWhile fits := by
  induction text with
  | nil => rfl
  | cons d text ih =>
    obtain ⟨none, -⟩ | ⟨rest, c, more, isText, same, isBlank⟩ | ⟨c, rest, -, isText, same⟩ :=
      withNotes_cases isNote line (d :: text)
    · cases none
    · rw [same, isText]
      rcases isBlank with rfl | rfl <;> simp [noBlank, noFeed]
    · obtain ⟨rfl, rfl⟩ := List.cons.inj isText
      rw [same, List.takeWhile_cons, List.takeWhile_cons, ih]

theorem dropWhile_withNotes (noBlank : fits ' ' = false) (noFeed : fits '\n' = false) (isNote : ∀ n, (note n).IsNote)
    (text : Text) : (withNotes note line text).dropWhile fits = withNotes note line (text.dropWhile fits) := by
  have oneLine : '\n' ∉ text.takeWhile fits := by
    intro member
    have holds := List.mem_takeWhile_imp member
    rw [noFeed] at holds
    cases holds
  have whole : withNotes note line (text.takeWhile fits ++ text.dropWhile fits) = _ :=
    withNotes_append oneLine (text.dropWhile fits)
  rw [List.takeWhile_append_dropWhile] at whole
  have split := List.takeWhile_append_dropWhile (p := fits) (l := withNotes note line text)
  rw [takeWhile_withNotes isNote noBlank noFeed] at split
  exact List.append_cancel_left (split.trans whole)

theorem isPrefixOf_withNotes (isNote : ∀ n, (note n).IsNote) {word : Text} (noBlank : ' ' ∉ word) (noFeed : '\n' ∉ word)
    (text : Text) : word.isPrefixOf (withNotes note line text) = word.isPrefixOf text := by
  induction word generalizing text with
  | nil => rw [List.isPrefixOf_nil_left, List.isPrefixOf_nil_left]
  | cons d word ih =>
    simp only [List.mem_cons, not_or] at noBlank noFeed
    obtain ⟨rfl, same⟩ | ⟨rest, c, more, rfl, same, isBlank⟩ | ⟨c, rest, -, rfl, same⟩ :=
      withNotes_cases isNote line text
    · rw [same]
    · rw [same, List.isPrefixOf_cons_cons, List.isPrefixOf_cons_cons]
      have left : (d == c) = false := by
        rcases isBlank with rfl | rfl
        · exact beq_false_of_ne (Ne.symm noBlank.1)
        · exact beq_false_of_ne (Ne.symm noFeed.1)
      rw [left, beq_false_of_ne (Ne.symm noFeed.1)]
      rfl
    · rw [same, List.isPrefixOf_cons_cons, List.isPrefixOf_cons_cons, ih noBlank.2 noFeed.2]

theorem drop_withNotes {word : Text} (noFeed : '\n' ∉ word) (begins : word.isPrefixOf text = true) :
    (withNotes note line text).drop word.length = withNotes note line (text.drop word.length) := by
  obtain ⟨rest, rfl⟩ := List.isPrefixOf_iff_prefix.mp begins
  rw [withNotes_append noFeed, List.drop_left, List.drop_left]

end

end Text

/-! ## Numbers -/

namespace Number

open Text (withNotes)

variable {note : Nat → Text} {line : Nat}

def noted (note : Nat → Text) (line : Nat) (found : Text × Text) : Text × Text := (found.1, withNotes note line found.2)

variable (isNote : ∀ n, (note n).IsNote)
include isNote

theorem digitRun_withNotes {isDigit : Char → Bool} (noBlank : isDigit ' ' = false) (noFeed : isDigit '\n' = false)
    {fuel fuel' : Nat} {text : Text} (enough : text.length ≤ fuel) (enough' : (withNotes note line text).length ≤ fuel') :
    digitRun isDigit fuel' (withNotes note line text) = (digitRun isDigit fuel text).map (noted note line) := by
  induction fuel generalizing text fuel' with
  | zero =>
    obtain rfl := List.eq_nil_of_length_eq_zero (Nat.le_zero.mp enough)
    cases fuel' <;> rfl
  | succ fuel ih =>
    cases fuel' with
    | zero =>
      have none := List.eq_nil_of_length_eq_zero (Nat.le_zero.mp enough')
      obtain ⟨rfl, -⟩ | ⟨_, _, _, -, same, -⟩ | ⟨_, _, -, -, same⟩ := Text.withNotes_cases isNote line text
      · rfl
      · rw [none] at same
        cases same
      · rw [none] at same
        cases same
    | succ fuel' =>
      have whole := List.takeWhile_append_dropWhile (p := isDigit) (l := text)
      have whole' := List.takeWhile_append_dropWhile (p := isDigit) (l := withNotes note line text)
      rw [digitRun, digitRun, Text.takeWhile_withNotes isNote noBlank noFeed,
        Text.dropWhile_withNotes noBlank noFeed isNote]
      rw [Text.takeWhile_withNotes isNote noBlank noFeed, Text.dropWhile_withNotes noBlank noFeed isNote] at whole'
      generalize text.takeWhile isDigit = digits at whole whole' ⊢
      generalize text.dropWhile isDigit = after at whole whole' ⊢
      obtain ⟨rfl, same⟩ | ⟨rest, c, more, rfl, same, rfl | rfl⟩ | ⟨c, rest, -, rfl, same⟩ :=
        Text.withNotes_cases isNote line after
      · rfl
      · rw [same]
        simp [noted, same]
      · rw [same]
        simp [noted, same]
      · rw [same]
        by_cases gap : c = '_'
        · subst gap
          have shorter : rest.length ≤ fuel := by
            have counted := congrArg List.length whole
            simp at counted
            omega
          have shorter' : (withNotes note line rest).length ≤ fuel' := by
            have counted := congrArg List.length whole'
            rw [same] at counted
            simp at counted
            omega
          have next : (withNotes note line rest).head?.any isDigit = rest.head?.any isDigit :=
            Text.head_withNotes isNote (noBlank.trans noFeed.symm) rest
          change (if (withNotes note line rest).head?.any isDigit = true then _ else none) =
            Option.map _ (if rest.head?.any isDigit = true then _ else none)
          rw [next]
          split
          · rw [ih shorter shorter', Option.map_map, Option.map_map]
            rfl
          · rfl
        · split
          · rename_i isGap
            exact absurd (List.cons.inj isGap).1 gap
          · split
            · rename_i isGap
              exact absurd (List.cons.inj isGap).1 gap
            · simp [noted, same]

theorem mayEnd_withNotes (text : Text) : mayEnd (withNotes note line text) = mayEnd text := by
  obtain ⟨rfl, same⟩ | ⟨rest, c, more, rfl, same, rfl | rfl⟩ | ⟨c, rest, noFeed, rfl, same⟩ :=
    Text.withNotes_cases isNote line text
  · rw [same]
  · rw [same]
    rfl
  · rw [same]
    rfl
  · have word : ∀ w : String, ' ' ∉ chars w → '\n' ∉ chars w →
        ((chars w).isPrefixOf (withNotes note line (c :: rest)) &&
          !((withNotes note line (c :: rest)).drop w.length).head?.any isWordChar) =
        ((chars w).isPrefixOf (c :: rest) && !((c :: rest).drop w.length).head?.any isWordChar) := by
      intro w noBlank noFeed
      rw [Text.isPrefixOf_withNotes isNote noBlank noFeed]
      cases begins : (chars w).isPrefixOf (c :: rest) with
      | false => rfl
      | true =>
        have behind : (withNotes note line (c :: rest)).drop (chars w).length = _ := Text.drop_withNotes noFeed begins
        rw [show (chars w).length = w.length from String.length_toList] at behind
        rw [behind, Text.head_withNotes isNote rfl]
    have front : ∀ w : String, ' ' ∉ chars w → '\n' ∉ chars w →
        (chars w).isPrefixOf (withNotes note line (c :: rest)) = (chars w).isPrefixOf (c :: rest) :=
      fun w noBlank noFeed => Text.isPrefixOf_withNotes isNote noBlank noFeed _
    rw [same] at word front
    rw [same, mayEnd, mayEnd]
    simp only [List.any_cons, List.any_nil]
    rw [word "and" (by decide) (by decide), word "else" (by decide) (by decide), word "for" (by decide) (by decide),
      word "or" (by decide) (by decide), word "not" (by decide) (by decide), front "if" (by decide) (by decide),
      front "in" (by decide) (by decide), front "is" (by decide) (by decide)]

theorem close_withNotes (what : String) (found : Text × Text) :
    close what (noted note line found) = (close what found).map (noted note line) := by
  unfold close
  rw [noted, mayEnd_withNotes isNote]
  split <;> rfl

theorem decimalEnd_withNotes (done text : Text) :
    decimalEnd done (withNotes note line text) = (decimalEnd done text).map (noted note line) := by
  have ends : ∀ text, close "decimal" (done, withNotes note line text) =
      (close "decimal" (done, text)).map (noted note line) := fun text => close_withNotes isNote _ (done, text)
  have first := ends text
  obtain ⟨rfl, same⟩ | ⟨rest, c, more, rfl, same, rfl | rfl⟩ | ⟨c, rest, -, rfl, same⟩ :=
    Text.withNotes_cases isNote line text
  · rw [same]
    rfl
  · rw [same] at first ⊢
    exact first
  · rw [same] at first ⊢
    exact first
  · rw [same] at first ⊢
    rw [decimalEnd, decimalEnd]
    split
    · exact close_withNotes isNote "imaginary" (done ++ [c], rest)
    · exact first

omit isNote in
def exponentDigits (done : Text) (mark : Char) (rest sign body : Text) : Except String (Text × Text) :=
  if body.head?.any Char.isDigit then
    match digitRun Char.isDigit body.length body with
    | some (digits, after) => decimalEnd (done ++ mark :: (sign ++ digits)) after
    | none => .error "invalid decimal literal"
  else if sign.isEmpty then close "decimal" (done, mark :: rest)
  else .error "invalid decimal literal"

theorem exponentDigits_withNotes (done : Text) {mark : Char} (noFeed : mark ≠ '\n') (rest sign body : Text) :
    exponentDigits done mark (withNotes note line rest) sign (withNotes note line body) =
      (exponentDigits done mark rest sign body).map (noted note line) := by
  unfold exponentDigits
  rw [Text.head_withNotes isNote (by decide), digitRun_withNotes isNote (by decide) (by decide) le_rfl le_rfl]
  split
  · cases digitRun Char.isDigit body.length body with
    | none => rfl
    | some run => exact decimalEnd_withNotes isNote _ run.2
  · split
    · have ends : close "decimal" (noted note line (done, mark :: rest)) = _ := close_withNotes isNote "decimal" _
      rwa [noted, Text.withNotes_cons noFeed] at ends
    · rfl

theorem exists_sign (done : Text) {mark : Char} (isMark : (mark == 'e' || mark == 'E') = true) (rest : Text) :
    ∃ sign body, exponent done (mark :: rest) = exponentDigits done mark rest sign body ∧
      exponent done (mark :: withNotes note line rest) =
        exponentDigits done mark (withNotes note line rest) sign (withNotes note line body) := by
  have plus : ∀ rest, exponent done (mark :: '+' :: rest) = exponentDigits done mark ('+' :: rest) ['+'] rest := by
    intro rest
    rw [exponent.eq_def]
    exact if_pos isMark
  have minus : ∀ rest, exponent done (mark :: '-' :: rest) = exponentDigits done mark ('-' :: rest) ['-'] rest := by
    intro rest
    rw [exponent.eq_def]
    exact if_pos isMark
  have plain : ∀ rest, rest.head? ≠ some '+' → rest.head? ≠ some '-' →
      exponent done (mark :: rest) = exponentDigits done mark rest [] rest := by
    intro rest noPlus noMinus
    rw [exponent.eq_def]
    dsimp only
    rw [if_pos isMark]
    split
    case h_1 => exact absurd rfl noPlus
    case h_2 => exact absurd rfl noMinus
    case h_3 => rfl
  obtain ⟨rfl, same⟩ | ⟨rest, d, more, rfl, same, isBlank⟩ | ⟨d, rest, -, rfl, same⟩ :=
    Text.withNotes_cases isNote line rest
  · refine ⟨[], [], plain [] nofun nofun, ?_⟩
    rw [same]
    exact plain [] nofun nofun
  · refine ⟨[], '\n' :: rest, plain _ (by simp) (by simp), ?_⟩
    rw [same]
    rcases isBlank with rfl | rfl <;> exact plain _ (by simp) (by simp)
  · by_cases isPlus : d = '+'
    · subst isPlus
      refine ⟨['+'], rest, plus rest, ?_⟩
      rw [same]
      exact plus _
    · by_cases isMinus : d = '-'
      · subst isMinus
        refine ⟨['-'], rest, minus rest, ?_⟩
        rw [same]
        exact minus _
      · refine ⟨[], d :: rest, plain _ (by simpa using isPlus) (by simpa using isMinus), ?_⟩
        rw [same]
        exact plain _ (by simpa using isPlus) (by simpa using isMinus)

theorem exponent_withNotes (done text : Text) :
    exponent done (withNotes note line text) = (exponent done text).map (noted note line) := by
  have ends : decimalEnd done (withNotes note line text) = _ := decimalEnd_withNotes isNote done text
  obtain ⟨rfl, same⟩ | ⟨rest, c, more, rfl, same, rfl | rfl⟩ | ⟨c, rest, noFeed, rfl, same⟩ :=
    Text.withNotes_cases isNote line text
  · rw [same]
    rfl
  · rw [same] at ends ⊢
    exact ends
  · rw [same] at ends ⊢
    exact ends
  · rw [same] at ends ⊢
    by_cases isMark : (c == 'e' || c == 'E') = true
    · obtain ⟨sign, body, plain, noted⟩ := exists_sign isNote done isMark rest
      rw [plain, noted, exponentDigits_withNotes isNote done noFeed]
    · rw [exponent.eq_def, exponent.eq_def]
      dsimp only
      rw [if_neg isMark, if_neg isMark, ends]

theorem fraction_withNotes (done text : Text) :
    fraction done (withNotes note line text) = (fraction done text).map (noted note line) := by
  have ends : exponent done (withNotes note line text) = _ := exponent_withNotes isNote done text
  have plain : ∀ c rest, c ≠ '.' → fraction done (c :: rest) = exponent done (c :: rest) := by
    intro c rest noPoint
    unfold fraction
    split
    case h_1 isPoint => exact absurd (List.cons.inj isPoint).1 noPoint
    case h_2 => rfl
  obtain ⟨rfl, same⟩ | ⟨rest, c, more, rfl, same, isBlank⟩ | ⟨c, rest, -, rfl, same⟩ :=
    Text.withNotes_cases isNote line text
  · rw [same]
    rfl
  · rw [same] at ends ⊢
    rw [plain '\n' rest (by decide), ← ends]
    rcases isBlank with rfl | rfl <;> exact plain _ _ (by decide)
  · rw [same] at ends ⊢
    by_cases point : c = '.'
    · subst point
      change (if (withNotes note line rest).head?.any Char.isDigit = true then _ else _) =
        Except.map _ (if rest.head?.any Char.isDigit = true then _ else _)
      rw [Text.head_withNotes isNote (by decide), digitRun_withNotes isNote (by decide) (by decide) le_rfl le_rfl]
      split
      · cases digitRun Char.isDigit rest.length rest with
        | none => rfl
        | some run => exact exponent_withNotes isNote _ run.2
      · exact exponent_withNotes isNote _ rest
    · rw [plain c _ point, plain c _ point, ends]

omit isNote in
def basedDigits (mark : Text) (what : String) (isDigit : Char → Bool) (lead body : Text) : Except String (Text × Text) :=
  if !body.head?.any isDigit then
    match body.head? with
    | some c =>
      if c.isDigit then
        .error ("invalid digit '" ++ String.ofList [c] ++ "' in " ++ what ++ " literal")
      else .error ("invalid " ++ what ++ " literal")
    | none => .error ("invalid " ++ what ++ " literal")
  else match digitRun isDigit body.length body with
    | none => .error ("invalid " ++ what ++ " literal")
    | some (digits, rest) =>
      match rest with
      | c :: _ =>
        if c.isDigit then
          .error ("invalid digit '" ++ String.ofList [c] ++ "' in " ++ what ++ " literal")
        else close what (mark ++ lead ++ digits, rest)
      | [] => .ok (mark ++ lead ++ digits, [])

theorem basedDigits_withNotes (mark : Text) (what : String) {isDigit : Char → Bool} (noBlank : isDigit ' ' = false)
    (noFeed : isDigit '\n' = false) (lead body : Text) :
    basedDigits mark what isDigit lead (withNotes note line body) =
      (basedDigits mark what isDigit lead body).map (noted note line) := by
  unfold basedDigits
  rw [Text.head_withNotes isNote (noBlank.trans noFeed.symm), digitRun_withNotes isNote noBlank noFeed le_rfl le_rfl]
  split
  · obtain ⟨rfl, same⟩ | ⟨rest, c, more, rfl, same, rfl | rfl⟩ | ⟨c, rest, -, rfl, same⟩ :=
      Text.withNotes_cases isNote line body
    · rfl
    · rw [same]
      rfl
    · rw [same]
      rfl
    · rw [same]
      dsimp only [List.head?_cons]
      split <;> rfl
  · cases digitRun isDigit body.length body with
    | none => rfl
    | some run =>
      obtain ⟨digits, rest⟩ := run
      have ends : close what (noted note line (mark ++ lead ++ digits, rest)) = _ := close_withNotes isNote what _
      dsimp only [Option.map, noted] at ends ⊢
      obtain ⟨rfl, same⟩ | ⟨rest, c, more, rfl, same, rfl | rfl⟩ | ⟨c, rest, -, rfl, same⟩ :=
        Text.withNotes_cases isNote line rest
      · rfl
      · rw [same] at ends ⊢
        exact ends
      · rw [same] at ends ⊢
        exact ends
      · rw [same] at ends ⊢
        dsimp only
        split
        · rfl
        · exact ends

theorem based_withNotes (mark : Text) (what : String) {isDigit : Char → Bool} (noBlank : isDigit ' ' = false)
    (noFeed : isDigit '\n' = false) (text : Text) :
    based mark what isDigit (withNotes note line text) = (based mark what isDigit text).map (noted note line) := by
  have plain : ∀ text, text.head? ≠ some '_' → based mark what isDigit text = basedDigits mark what isDigit [] text := by
    intro text noGap
    unfold based
    split
    rename_i lead body isLead
    split at isLead
    · exact absurd rfl noGap
    · cases isLead
      rfl
  have digits : ∀ lead body, basedDigits mark what isDigit lead (withNotes note line body) = _ :=
    basedDigits_withNotes isNote mark what noBlank noFeed
  have whole := digits [] text
  obtain ⟨rfl, same⟩ | ⟨rest, c, more, rfl, same, isBlank⟩ | ⟨c, rest, -, rfl, same⟩ :=
    Text.withNotes_cases isNote line text
  · rw [same] at whole ⊢
    rw [plain [] nofun, ← whole]
  · rw [same] at whole ⊢
    rw [plain ('\n' :: rest) (by simp), ← whole]
    rcases isBlank with rfl | rfl <;> exact plain _ (by simp)
  · rw [same] at whole ⊢
    by_cases gap : c = '_'
    · subst gap
      exact digits ['_'] rest
    · have noGap : ∀ rest, (c :: rest).head? ≠ some '_' := by simpa using gap
      rw [plain _ (noGap _), plain _ (noGap _), whole]

theorem decimal_withNotes (text : Text) :
    take.decimal (withNotes note line text) = (take.decimal text).map (noted note line) := by
  unfold take.decimal
  rw [digitRun_withNotes isNote (by decide) (by decide) le_rfl le_rfl]
  cases digitRun Char.isDigit text.length text with
  | none => rfl
  | some run =>
    obtain ⟨digits, rest⟩ := run
    dsimp only [Option.map, noted]
    rw [Text.head_withNotes isNote (by decide)]
    split
    · rfl
    · exact fraction_withNotes isNote digits rest

theorem take_withNotes (text : Text) :
    take (withNotes note line text) = (take text).map (noted note line) := by
  have other : take.decimal (withNotes note line text) = _ := decimal_withNotes isNote text
  obtain ⟨rfl, same⟩ | ⟨rest, c, more, rfl, same, rfl | rfl⟩ | ⟨c, rest, -, rfl, same⟩ :=
    Text.withNotes_cases isNote line text
  · rw [same]
    rfl
  · rw [same] at other ⊢
    exact other
  · rw [same] at other ⊢
    exact other
  · by_cases point : c = '.'
    · subst point
      have fractional : fraction [] (withNotes note line ('.' :: rest)) = _ := fraction_withNotes isNote [] ('.' :: rest)
      rw [same] at fractional ⊢
      exact fractional
    · by_cases zero : c = '0'
      · subst zero
        rw [same] at other ⊢
        obtain ⟨rfl, same'⟩ | ⟨more, d, x, rfl, same', isBlank⟩ | ⟨d, more, -, rfl, same'⟩ :=
          Text.withNotes_cases isNote line rest
        · exact other
        · rw [same'] at other ⊢
          rcases isBlank with rfl | rfl <;> exact other
        · rw [same'] at other ⊢
          change (if (d == 'x' || d == 'X') = true then _ else if (d == 'o' || d == 'O') = true then _ else
              if (d == 'b' || d == 'B') = true then _ else _) =
            Except.map _ (if (d == 'x' || d == 'X') = true then _ else if (d == 'o' || d == 'O') = true then _ else
              if (d == 'b' || d == 'B') = true then _ else _)
          split
          · exact based_withNotes isNote _ _ (by decide) (by decide) more
          · split
            · exact based_withNotes isNote _ _ (by decide) (by decide) more
            · split
              · exact based_withNotes isNote _ _ (by decide) (by decide) more
              · exact other
      · have plain : ∀ rest, take (c :: rest) = take.decimal (c :: rest) := by
          intro rest
          unfold take
          split
          case h_1 isZero => exact absurd (List.cons.inj isZero).1 zero
          case h_2 isPoint => exact absurd (List.cons.inj isPoint).1 point
          case h_3 => rfl
        rw [same] at other ⊢
        rw [plain, plain, other]

end Number

end MacroExpand
