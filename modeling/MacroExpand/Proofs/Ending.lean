import MacroExpand.Proofs.Tokens

/-!
# Cutting comes to an end

Every step of cutting takes something off the front of the text, except that at the front of a line there may be
nothing to take.  So the count of steps that `Lexer.run` is given is never used up: cutting ends where nothing is left,
or at a fault (`Lexer.run_ends`).
-/

set_option autoImplicit false

namespace MacroExpand

namespace Lexer

open Number (isWordChar)

/-- How much is left to be cut: characters count twice, and the front of a line counts once. -/
def State.left (s : State) : Nat := 2 * s.rest.length + if s.fresh then 1 else 0

/-- A state is behind another: less is left to be cut, and the tokens are kept. -/
structure State.Behind (s t : State) : Prop where
  left : t.left < s.left
  tokens : s.tokens <:+ t.tokens

variable {s t : State} {rest : Text}

theorem State.Behind.of_shorter (shorter : t.rest.length < s.rest.length) (tokens : s.tokens <:+ t.tokens) :
    s.Behind t := by
  refine ⟨?_, tokens⟩
  unfold State.left
  split <;> split <;> omega

theorem State.Behind.of_taken (front : Text) (whole : front ++ t.rest = s.rest) (some : front ≠ [])
    (tokens : s.tokens <:+ t.tokens) : s.Behind t := by
  refine of_shorter ?_ tokens
  have positive := List.length_pos_of_ne_nil some
  rw [← whole, List.length_append]
  omega

theorem closeIndents_keeps (col : Nat) (s : State) (indents : List (Nat × Nat)) :
    (closeIndents col s indents).left = s.left ∧ s.tokens <:+ (closeIndents col s indents).tokens := by
  induction indents generalizing s with
  | nil => exact ⟨rfl, List.suffix_rfl⟩
  | cons top indents ih =>
    rw [closeIndents]
    split
    · exact ⟨(ih _).1, (List.suffix_cons _ _).trans (ih (s.mark .dedent)).2⟩
    · exact ⟨rfl, List.suffix_rfl⟩

theorem indentation_keeps {col alt : Nat} (more : indentation s col alt = .more t) :
    t.left = s.left ∧ s.tokens <:+ t.tokens := by
  unfold indentation at more
  dsimp only at more
  split at more
  · split at more
    · cases more
      exact ⟨rfl, List.suffix_rfl⟩
    · cases more
  · split at more
    · split at more
      · cases more
      · cases more
        exact ⟨rfl, List.suffix_cons _ _⟩
    · split at more
      · cases more
      · split at more
        · cases more
        · cases more
          exact closeIndents_keeps col s s.indents

theorem lineStart_behind (fresh : s.fresh = true) (more : lineStart s = .more t) : s.Behind t := by
  obtain ⟨taken, whole, -, -⟩ := measure_append (s.rest.length + 1) 0 0 0 (s.line, s.column) s.rest
  unfold lineStart at more
  generalize measured : measure (s.rest.length + 1) 0 0 0 (s.line, s.column) s.rest = found at more whole
  obtain ⟨⟨col, alt⟩, ⟨line, column⟩, rest⟩ := found
  dsimp only at more whole
  have behind : ∀ u : State, u.rest = rest → u.fresh = false → s.tokens = u.tokens → s.Behind u := by
    intro u isRest stale same
    refine ⟨?_, same ▸ List.suffix_rfl⟩
    unfold State.left
    rw [isRest, stale, fresh, ← whole, List.length_append, if_neg Bool.false_ne_true, if_pos rfl]
    omega
  split at more
  · cases more
    exact behind _ rfl rfl rfl
  · cases more
    exact behind _ rfl rfl rfl
  · cases more
    exact behind _ rfl rfl rfl
  · split at more
    · cases more
      let ended : State := { s with rest := [], line := line - 1, column := 0, fresh := false, blank := false }
      obtain ⟨left, tokens⟩ := closeIndents_keeps 0 ended s.indents
      exact ⟨left.trans_lt (behind ended rfl rfl rfl).left, tokens⟩
    · cases more
      exact behind _ rfl rfl rfl
  · split at more
    · let measured : State := { s with rest, line, column, fresh := false, blank := false }
      obtain ⟨left, tokens⟩ := indentation_keeps more
      exact ⟨left.trans_lt (behind measured rfl rfl rfl).left, tokens⟩
    · cases more
      exact behind _ rfl rfl rfl

theorem comment_behind (options : LexOptions) (hash : s.rest.head? = some '#') (more : comment options s = .more t) :
    s.Behind t := by
  have whole : s.rest.takeWhile (· != '\n') ++ s.rest.dropWhile (· != '\n') = s.rest :=
    List.takeWhile_append_dropWhile
  have some : s.rest.takeWhile (· != '\n') ≠ [] := by
    obtain ⟨rest, isRest⟩ := List.head?_eq_some_iff.mp hash
    rw [isRest]
    simp
  have behind : ∀ u : State, u.rest = s.rest.dropWhile (· != '\n') → s.tokens <:+ u.tokens → s.Behind u :=
    fun u isRest => State.Behind.of_taken _ (isRest.symm ▸ whole) some
  unfold comment at more
  dsimp only at more
  split at more
  · cases more
    exact behind _ rfl List.suffix_rfl
  · split at more
    · split at more
      case h_1 after isFeed =>
        split at more
        · cases more
          refine State.Behind.of_taken (s.rest.takeWhile (· != '\n') ++ ['\n']) ?_ (by simp) List.suffix_rfl
          rw [List.append_assoc]
          exact (congrArg _ isFeed.symm).trans whole
        · cases more
          exact behind _ rfl List.suffix_rfl
      case h_2 =>
        cases more
        exact behind _ rfl List.suffix_rfl
    · cases more
      exact behind _ rfl (List.suffix_cons _ _)

theorem string_behind {letters text : Text} (whole : letters ++ text = s.rest)
    (more : string s letters text = .more t) : s.Behind t := by
  unfold string at more
  split at more
  case h_1 quote rest =>
    dsimp only at more
    split at more
    case h_1 body after isBody =>
      cases more
      generalize isOpening : (if [quote, quote].isPrefixOf rest = true then [quote, quote, quote]
        else [quote]) = opening at isBody ⊢
      have some : opening ≠ [] := by
        rintro rfl
        split at isOpening <;> cases isOpening
      have read := congrArg List.length (stringBody_append isBody)
      simp at read
      have positive := List.length_pos_of_ne_nil some
      refine State.Behind.of_shorter ?_ (List.suffix_cons _ _)
      rw [← whole]
      simp [State.push]
      omega
    case h_2 => cases more
  case h_2 => cases more

theorem pushName_keeps (options : LexOptions) (s : State) (text rest : Text) :
    (pushName options s text rest).rest = rest ∧ s.tokens <:+ (pushName options s text rest).tokens := by
  unfold pushName
  split
  · exact ⟨rfl, List.suffix_cons _ _⟩
  · split <;> exact ⟨rfl, List.suffix_cons _ _⟩

theorem word_behind (options : LexOptions) (begins : s.rest.head?.any isWordChar = true)
    (more : word options s = .more t) : s.Behind t := by
  have whole : s.rest.takeWhile isWordChar ++ s.rest.dropWhile isWordChar = s.rest :=
    List.takeWhile_append_dropWhile
  unfold word at more
  dsimp only at more
  split at more
  · exact string_behind whole more
  · split at more
    · cases more
      obtain ⟨isRest, tokens⟩ := pushName_keeps options s (s.rest.takeWhile isWordChar) (s.rest.dropWhile isWordChar)
      refine State.Behind.of_taken (s.rest.takeWhile isWordChar) (by rwa [isRest]) ?_ tokens
      cases isRest : s.rest with
      | nil =>
        rw [isRest] at begins
        cases begins
      | cons c rest =>
        rw [isRest] at begins
        rw [List.takeWhile_cons_of_pos (by simpa using begins)]
        exact List.cons_ne_nil _ _
    · split at more
      · split at more <;> cases more
      · cases more

theorem operator_behind {c : Char} (isRest : s.rest = c :: rest) (more : operator s c rest = .more t) :
    s.Behind t := by
  have one : ∀ u : State, u.rest = rest → s.tokens <:+ u.tokens → s.Behind u :=
    fun u same => State.Behind.of_taken [c] (by rw [same, isRest]; rfl) (List.cons_ne_nil _ _)
  unfold operator at more
  split at more
  · split at more
    · cases more
    · cases more
      exact one _ rfl (List.suffix_cons _ _)
  · split at more
    · split at more
      · cases more
      · split at more
        · cases more
          exact one _ rfl (List.suffix_cons _ _)
        · cases more
    · split at more
      case h_1 o found =>
        cases more
        have isOperator := List.mem_of_find?_eq_some found
        have nonempty : ∀ o ∈ operators, 0 < o.length := by decide
        have positive := nonempty o isOperator
        refine State.Behind.of_shorter ?_ (List.suffix_cons _ _)
        rw [isRest]
        simp [State.push]
        omega
      case h_2 =>
        split at more
        · cases more
          exact one _ rfl (List.suffix_cons _ _)
        · cases more

/-- Each step that does not end cutting leaves less to be cut, and keeps the tokens. -/
theorem step_behind (options : LexOptions) (more : step options s = .more t) : s.Behind t := by
  unfold step at more
  split at more
  case isTrue fresh => exact lineStart_behind fresh more
  case isFalse stale =>
    obtain ⟨asynchronous, same⟩ := leaveAsynchronous_eq s
    suffices behind : (leaveAsynchronous s).Behind t by
      rw [same] at behind
      exact ⟨behind.left, behind.tokens⟩
    generalize leaveAsynchronous s = s at more
    clear same stale
    dsimp only at more
    split at more
    · split at more <;> cases more
    case h_2 rest isRest =>
      cases more
      refine State.Behind.of_shorter ?_ ?_
      · rw [isRest]
        split <;> simp [State.push, State.skip]
      · split
        · exact List.suffix_rfl
        · exact List.suffix_cons _ _
    case h_3 rest isRest =>
      split at more
      · cases more
      · cases more
        exact State.Behind.of_taken ['\\', '\n'] (by rw [isRest]; rfl) (by simp) List.suffix_rfl
      · cases more
    case h_4 c rest _ _ isRest =>
      split at more
      · cases more
        exact State.Behind.of_taken [c] (by rw [isRest]; rfl) (by simp) List.suffix_rfl
      · split at more
        case isTrue hash =>
          rw [beq_iff_eq] at hash
          exact comment_behind options (by rw [isRest, hash]; rfl) more
        · split at more
          case isTrue isNumber =>
            split at more
            case h_1 text after taken =>
              cases more
              refine State.Behind.of_taken text (Number.take_reads taken).whole ?_ (List.suffix_cons _ _)
              rw [isRest] at taken
              refine Number.take_ne_nil ?_ taken
              simp only [Bool.or_eq_true, Bool.and_eq_true, beq_iff_eq] at isNumber
              exact isNumber.imp_right And.left
            case h_2 => cases more
          · split at more
            · exact string_behind rfl more
            · split at more
              case isTrue isWord => exact word_behind options (by rw [isRest]; exact isWord) more
              · exact operator_behind isRest more

/-! ## The last step -/

theorem lineStart_goesOn : lineStart s ≠ .done t := by
  unfold lineStart
  dsimp only
  split
  · nofun
  · nofun
  · nofun
  · split <;> nofun
  · split
    · unfold indentation
      dsimp only
      split
      · split <;> nofun
      · split
        · split <;> nofun
        · split
          · nofun
          · split <;> nofun
    · nofun

theorem comment_goesOn (options : LexOptions) : comment options s ≠ .done t := by
  unfold comment
  dsimp only
  split
  · nofun
  · split
    · split
      · split <;> nofun
      · nofun
    · nofun

theorem string_goesOn (letters text : Text) : string s letters text ≠ .done t := by
  unfold string
  split
  · dsimp only
    split <;> nofun
  · nofun

theorem word_goesOn (options : LexOptions) : word options s ≠ .done t := by
  unfold word
  dsimp only
  split
  · exact string_goesOn _ _
  · split
    · nofun
    · split
      · split <;> nofun
      · nofun

theorem operator_goesOn (c : Char) : operator s c rest ≠ .done t := by
  unfold operator
  split
  · split <;> nofun
  · split
    · split
      · nofun
      · split <;> nofun
    · split
      · nofun
      · split <;> nofun

/-- Cutting ends where nothing is left and no bracket is open. -/
theorem step_done {options : LexOptions} (done : step options s = .done t) :
    s.fresh = false ∧ s.rest = [] ∧ s.brackets = [] ∧ t = (leaveAsynchronous s).mark .finish := by
  unfold step at done
  split at done
  case isTrue fresh => exact absurd done lineStart_goesOn
  case isFalse stale =>
    obtain ⟨asynchronous, same⟩ := leaveAsynchronous_eq s
    have isRest : (leaveAsynchronous s).rest = s.rest := by rw [same]
    have brackets : (leaveAsynchronous s).brackets = s.brackets := by rw [same]
    rw [← isRest, ← brackets]
    generalize leaveAsynchronous s = s at done
    dsimp only at done
    split at done
    case h_1 none =>
      split at done
      · cases done
      case h_2 closed =>
        cases done
        exact ⟨by simpa using stale, none, closed, rfl⟩
    case h_2 => cases done
    case h_3 => split at done <;> cases done
    case h_4 =>
      split at done
      · cases done
      · split at done
        · exact absurd done (comment_goesOn options)
        · split at done
          · split at done <;> cases done
          · split at done
            · exact absurd done (string_goesOn _ _)
            · split at done
              · exact absurd done (word_goesOn options)
              · exact absurd done (operator_goesOn _)

/-- One state is reached from another by steps that do not end cutting. -/
inductive Steps (options : LexOptions) : State → State → Prop where
  | refl (s : State) : Steps options s s
  | next {s t u : State} (more : step options s = .more t) (rest : Steps options t u) : Steps options s u

theorem Steps.tokens {options : LexOptions} (steps : Steps options s t) : s.tokens <:+ t.tokens := by
  induction steps with
  | refl => exact List.suffix_rfl
  | next more _ ih => exact (step_behind options more).tokens.trans ih

theorem Steps.trans {options : LexOptions} {s t u : State} (first : Steps options s t) (rest : Steps options t u) :
    Steps options s u := by
  induction first with
  | refl => exact rest
  | next more _ ih => exact .next more (ih rest)

/-- Cutting that ends without a fault comes to a state where nothing is left: a count of steps that is larger than what
is left is not used up. -/
theorem loop_eq_done {options : LexOptions} {fuel : Nat} {u : State} (enough : s.left < fuel) :
    loop options fuel s = (u, none) ↔ ∃ t, Steps options s t ∧ step options t = .done u := by
  induction fuel generalizing s with
  | zero => omega
  | succ fuel ih =>
    rw [loop]
    cases next : step options s with
    | done t =>
      constructor
      · rintro ⟨⟩
        exact ⟨s, .refl s, next⟩
      · rintro ⟨v, steps, last⟩
        cases steps with
        | refl =>
          cases next.symm.trans last
          rfl
        | next more => cases next.symm.trans more
    | fault t fault isLoud =>
      constructor
      · rintro ⟨⟩
      · rintro ⟨v, steps, last⟩
        cases steps with
        | refl => cases next.symm.trans last
        | next more => cases next.symm.trans more
    | more t =>
      have smaller := (step_behind options next).left
      refine (ih (by omega)).trans ⟨?_, ?_⟩
      · rintro ⟨v, steps, last⟩
        exact ⟨v, .next next steps, last⟩
      · rintro ⟨v, steps, last⟩
        cases steps with
        | refl => cases next.symm.trans last
        | next more steps =>
          cases next.symm.trans more
          exact ⟨v, steps, last⟩

def begun (options : LexOptions) (text : Text) : State :=
  { rest := text, line := options.startLine, column := options.startColumn }

theorem left_begun (options : LexOptions) (text : Text) : (begun options text).left < 2 * text.length + 4 := by
  unfold State.left begun
  simp

theorem run_eq (options : LexOptions) (text : Text) :
    run options text =
      ⟨(loop options (2 * text.length + 4) (begun options text)).1.tokens.reverse,
        (loop options (2 * text.length + 4) (begun options text)).2,
        (loop options (2 * text.length + 4) (begun options text)).1.ignores⟩ := rfl

theorem run_of_steps {options : LexOptions} {text : Text} {t u : State} (steps : Steps options (begun options text) t)
    (last : step options t = .done u) : run options text = ⟨u.tokens.reverse, none, u.ignores⟩ := by
  have ended : loop options (2 * text.length + 4) (begun options text) = (u, none) :=
    (loop_eq_done (left_begun options text)).mpr ⟨t, steps, last⟩
  rw [run_eq, ended]

/-- A text is cut to its end, unless cutting stops at a fault. -/
theorem run_ends {options : LexOptions} {text : Text} (unstopped : (run options text).stopped = none) :
    ∃ t u, Steps options (begun options text) t ∧ step options t = .done u := by
  rcases ended : loop options (2 * text.length + 4) (begun options text) with ⟨u, fault⟩
  have stopped : (run options text).stopped = fault := by rw [run_eq, ended]
  obtain rfl : fault = none := stopped.symm.trans unstopped
  obtain ⟨t, steps, last⟩ := (loop_eq_done (left_begun options text)).mp ended
  exact ⟨t, u, steps, last⟩

end Lexer

end MacroExpand
