import MacroExpand.Proofs.Literals
import MacroExpand.Proofs.Rendering
import Mathlib.Data.List.Infix
import Mathlib.Data.List.TakeWhile
import Mathlib.Data.Prod.Lex

/-!
# What cutting takes from a text

Cutting goes through a text from its front: what is left is always an end of the text, and the place of the state is
that of the cut in front of it.  So tokens begin and end at places of the text, and the text of a string token stands
in it as it is (`Lexer.run_cut`).

At the end of a text its indentations are closed on the last line, not behind it.  That line is there if the text is
closed: it ends with a line feed, or with a bracket.
-/

set_option autoImplicit false

namespace MacroExpand

/-! ## Numbers -/

namespace Number

/-- Reading goes on from `done` and `text` to `found` and `rest`, and adds no line feed to what is found. -/
structure Reads (done text found rest : Text) : Prop where
  whole : found ++ rest = done ++ text
  oneLine : '\n' ∉ done → '\n' ∉ found
  keeps : done <+: found

variable {done text found rest : Text}

theorem Reads.stop (done text : Text) : Reads done text done text := ⟨rfl, id, List.prefix_rfl⟩

theorem Reads.after {taken more : Text} (reads : Reads (done ++ taken) more found rest)
    (whole : taken ++ more = text) (oneLine : '\n' ∉ taken) : Reads done text found rest where
  whole := by rw [reads.whole, List.append_assoc, whole]
  oneLine flat := reads.oneLine (by simp [flat, oneLine])
  keeps := (List.prefix_append done taken).trans reads.keeps

theorem digitRun_append {isDigit : Char → Bool} {fuel : Nat} {digits : Text} (noFeed : isDigit '\n' = false)
    (h : digitRun isDigit fuel text = some (digits, rest)) : digits ++ rest = text ∧ '\n' ∉ digits := by
  induction fuel generalizing text digits with
  | zero =>
    obtain ⟨rfl, rfl⟩ : [] = digits ∧ text = rest := by simpa [digitRun] using h
    exact ⟨rfl, by simp⟩
  | succ fuel ih =>
    rw [digitRun] at h
    have whole := List.takeWhile_append_dropWhile (p := isDigit) (l := text)
    have flat : '\n' ∉ text.takeWhile isDigit := by
      intro member
      have digit := List.mem_takeWhile_imp member
      simp [noFeed] at digit
    split at h
    case h_1 after heq =>
      split at h
      · obtain ⟨⟨more, left⟩, hrun, heq'⟩ := Option.map_eq_some_iff.1 h
        obtain ⟨rfl, rfl⟩ := Prod.mk.inj heq'
        obtain ⟨inner, flat'⟩ := ih hrun
        rw [heq, ← inner] at whole
        exact ⟨by simpa using whole, by simp [flat, flat']⟩
      · cases h
    case h_2 =>
      obtain ⟨rfl, rfl⟩ := Prod.mk.inj (Option.some.inj h)
      exact ⟨whole, flat⟩

theorem oneLine_of_either {c a b : Char} (either : (c == a || c == b) = true) (left : a ≠ '\n') (right : b ≠ '\n') :
    '\n' ∉ [c] := by
  rw [Bool.or_eq_true, beq_iff_eq, beq_iff_eq] at either
  rcases either with rfl | rfl
  · simpa using left.symm
  · simpa using right.symm

theorem close_eq {what : String} {result : Text × Text} (h : close what result = .ok (found, rest)) :
    result = (found, rest) := by
  unfold close at h
  split at h
  · cases h; rfl
  · cases h

theorem decimalEnd_reads (h : decimalEnd done text = .ok (found, rest)) : Reads done text found rest := by
  unfold decimalEnd at h
  split at h
  case h_1 c more =>
    split at h
    case isTrue isMark =>
      cases close_eq h
      exact (Reads.stop _ _).after rfl (oneLine_of_either isMark (by decide) (by decide))
    case isFalse => cases close_eq h; exact .stop _ _
  case h_2 => cases h; exact .stop _ _

theorem exponent_reads (h : exponent done text = .ok (found, rest)) : Reads done text found rest := by
  unfold exponent at h
  split at h
  case h_1 c more =>
    split at h
    case isTrue isMark =>
      have flat := oneLine_of_either isMark (by decide) (by decide)
      split at h
      rename_i sign body hsign
      have hbody : sign ++ body = more ∧ '\n' ∉ sign := by
        split at hsign <;> obtain ⟨rfl, rfl⟩ := Prod.mk.inj hsign <;> exact ⟨rfl, by decide⟩
      split at h
      · split at h
        case h_1 digits after hrun =>
          obtain ⟨run, flatRun⟩ := digitRun_append (by decide) hrun
          refine (decimalEnd_reads h).after ?_ (by simp_all)
          rw [← hbody.1, ← run]
          simp
        case h_2 => cases h
      · split at h
        · cases close_eq h; exact .stop _ _
        · cases h
    case isFalse => exact decimalEnd_reads h
  case h_2 => cases h; exact .stop _ _

theorem fraction_reads (h : fraction done text = .ok (found, rest)) : Reads done text found rest := by
  unfold fraction at h
  split at h
  case h_1 more =>
    split at h
    · split at h
      case h_1 digits after hrun =>
        obtain ⟨run, flatRun⟩ := digitRun_append (by decide) hrun
        exact (exponent_reads h).after (by rw [← run]; rfl) (by simp [flatRun])
      case h_2 => cases h
    · exact (exponent_reads h).after rfl (by decide)
  case h_2 => exact exponent_reads h

theorem based_reads {mark : Text} {what : String} {isDigit : Char → Bool} (noFeed : isDigit '\n' = false)
    (h : based mark what isDigit text = .ok (found, rest)) : Reads mark text found rest := by
  unfold based at h
  split at h
  rename_i lead body hlead
  have hbody : lead ++ body = text ∧ '\n' ∉ lead := by
    split at hlead <;> obtain ⟨rfl, rfl⟩ := Prod.mk.inj hlead <;> exact ⟨rfl, by decide⟩
  split at h
  · split at h
    · split at h <;> cases h
    · cases h
  · split at h
    case h_1 => cases h
    case h_2 digits after hrun =>
      obtain ⟨run, flatRun⟩ := digitRun_append noFeed hrun
      have taken : Reads mark text (mark ++ lead ++ digits) after := by
        rw [List.append_assoc]
        refine (Reads.stop _ _).after ?_ (by simp [hbody.2, flatRun])
        rw [← hbody.1, ← run, List.append_assoc]
      split at h
      · split at h
        · cases h
        · cases close_eq h
          exact taken
      · cases h
        exact taken

theorem decimal_reads (h : take.decimal text = .ok (found, rest)) : Reads [] text found rest := by
  unfold take.decimal at h
  split at h
  case h_1 => cases h
  case h_2 digits after hrun =>
    dsimp only at h
    split at h
    · cases h
    · obtain ⟨run, flatRun⟩ := digitRun_append (by decide) hrun
      have reads : Reads ([] ++ digits) after found rest := fraction_reads h
      exact reads.after run flatRun

/-- A number is what stands in front of what is left, and on one line. -/
theorem take_reads (h : take text = .ok (found, rest)) : Reads [] text found rest := by
  unfold take at h
  split at h
  case h_1 c after =>
    have marked : '\n' ∉ [c] → Reads ['0', c] after found rest → Reads [] ('0' :: c :: after) found rest := by
      intro oneLine reads
      have reads : Reads ([] ++ ['0', c]) after found rest := reads
      exact reads.after rfl (by simpa using oneLine)
    split at h
    case isTrue isMark =>
      exact marked (oneLine_of_either isMark (by decide) (by decide)) (based_reads (by decide) h)
    · split at h
      case isTrue isMark =>
        exact marked (oneLine_of_either isMark (by decide) (by decide)) (based_reads (by decide) h)
      · split at h
        case isTrue isMark =>
          exact marked (oneLine_of_either isMark (by decide) (by decide)) (based_reads (by decide) h)
        · exact decimal_reads h
  case h_2 => exact fraction_reads h
  case h_3 => exact decimal_reads h

theorem Reads.ne_nil {done text found rest : Text} (reads : Reads done text found rest) (some : done ≠ []) :
    found ≠ [] := by
  rintro rfl
  exact some (List.prefix_nil.mp reads.keeps)

theorem decimal_ne_nil {c : Char} (isDigit : c.isDigit = true) (h : take.decimal (c :: text) = .ok (found, rest)) :
    found ≠ [] := by
  unfold take.decimal at h
  split at h
  case h_1 => cases h
  case h_2 digits after run =>
    have some : digits ≠ [] := by
      rw [List.length_cons, digitRun, List.takeWhile_cons_of_pos isDigit] at run
      split at run
      · split at run
        · obtain ⟨⟨more, left⟩, -, same⟩ := Option.map_eq_some_iff.mp run
          obtain ⟨rfl, -⟩ := Prod.mk.inj same
          simp
        · cases run
      · cases run
        simp
    dsimp only at h
    split at h
    · cases h
    · exact (fraction_reads h).ne_nil some

theorem take_ne_nil {c : Char} (begins : c.isDigit = true ∨ c = '.')
    (h : take (c :: text) = .ok (found, rest)) : found ≠ [] := by
  unfold take at h
  split at h
  case h_1 d after isText =>
    obtain ⟨rfl, rfl⟩ := List.cons.inj isText
    split at h
    · exact (based_reads (by decide) h).ne_nil (by simp)
    · split at h
      · exact (based_reads (by decide) h).ne_nil (by simp)
      · split at h
        · exact (based_reads (by decide) h).ne_nil (by simp)
        · exact decimal_ne_nil (by decide) h
  case h_2 more isText =>
    rw [isText] at h
    unfold fraction at h
    split at h
    · split at h
      · split at h
        · exact (exponent_reads h).ne_nil (by simp)
        · cases h
      · exact (exponent_reads h).ne_nil (by simp)
    case h_2 noPoint => exact (noPoint more rfl).elim
  case h_3 noPoint =>
    rcases begins with isDigit | rfl
    · exact decimal_ne_nil isDigit h
    · exact (noPoint text rfl).elim

end Number

/-! ## Places -/

def IsPlainChar (c : Char) : Prop := c.utf8Size = 1 ∧ isBlank c = false

instance (c : Char) : Decidable (IsPlainChar c) := by unfold IsPlainChar; infer_instance

theorem IsPlainChar.noFeed {c : Char} (plain : IsPlainChar c) : c ≠ '\n' := by
  rintro rfl
  cases plain.2

namespace Lexer

theorem advance_cons (place : Nat × Nat) (c : Char) (rest : Text) :
    advance place (c :: rest) = advance (StringLiteral.move place c) rest := by
  unfold StringLiteral.move
  rw [advance]
  split <;> rfl

theorem advance_eq_foldl (place : Nat × Nat) (text : Text) :
    advance place text = text.foldl StringLiteral.move place := by
  induction text generalizing place with
  | nil => rfl
  | cons c rest ih => rw [advance_cons, ih, List.foldl_cons]

theorem advance_append (place : Nat × Nat) (front back : Text) :
    advance place (front ++ back) = advance (advance place front) back := by
  simp [advance_eq_foldl]

theorem lt_move (place : Nat × Nat) (c : Char) : toLex place < toLex (StringLiteral.move place c) := by
  have positive := c.utf8Size_pos
  unfold StringLiteral.move
  rw [Prod.Lex.toLex_lt_toLex]
  split
  · simp
  · simp
    omega

theorem le_advance (place : Nat × Nat) (text : Text) : toLex place ≤ toLex (advance place text) := by
  induction text generalizing place with
  | nil => exact le_rfl
  | cons c rest ih =>
    rw [advance_cons]
    exact (lt_move place c).le.trans (ih _)

theorem lt_advance (place : Nat × Nat) {text : Text} (some : text ≠ []) :
    toLex place < toLex (advance place text) := by
  cases text with
  | nil => exact absurd rfl some
  | cons c rest =>
    rw [advance_cons]
    exact (lt_move place c).trans_le (le_advance _ rest)

theorem advance_plain (place : Nat × Nat) {text : Text} (plain : ∀ c ∈ text, IsPlainChar c) :
    advance place text = (place.1, place.2 + text.length) := by
  induction text generalizing place with
  | nil => rfl
  | cons c rest ih =>
    obtain ⟨here, others⟩ := List.forall_mem_cons.mp plain
    rw [advance, if_neg here.noFeed, ih _ others, here.1]
    simp
    omega

end Lexer

structure Text.CutAt (start : Nat × Nat) (text front back : Text) (place : Nat × Nat) : Prop where
  whole : front ++ back = text
  place : Lexer.advance start front = place

def Text.HasPlace (start : Nat × Nat) (text : Text) (place : Nat × Nat) : Prop :=
  ∃ front back, text.CutAt start front back place ∧ (back = [] → front.getLast? ≠ some '\n')

namespace Text.CutAt

variable {start place : Nat × Nat} {text front back taken rest : Text}

theorem hasPlace (cut : text.CutAt start front back place) (more : back ≠ []) : text.HasPlace start place :=
  ⟨front, back, cut, fun none => absurd none more⟩

theorem start_le (cut : text.CutAt start front back place) : toLex start ≤ toLex place :=
  cut.place ▸ Lexer.le_advance start front

theorem le_end (cut : text.CutAt start front back place) : toLex place ≤ toLex (Lexer.advance start text) := by
  rw [← cut.whole, Lexer.advance_append, cut.place]
  exact Lexer.le_advance place back

theorem moved (cut : text.CutAt start front back place) (whole : taken ++ rest = back) :
    text.CutAt start (front ++ taken) rest (Lexer.advance place taken) :=
  ⟨by rw [List.append_assoc, whole, cut.whole], by rw [Lexer.advance_append, cut.place]⟩

theorem ends_inside (whole : taken ++ rest = back) (more : back ≠ []) (inside : taken.getLast? ≠ some '\n')
    (none : rest = []) : (front ++ taken).getLast? ≠ some '\n' := by
  have nonempty : taken ≠ [] := by
    rintro rfl
    exact more (by rw [← whole, none, List.append_nil])
  rw [List.getLast?_append_of_ne_nil _ nonempty]
  exact inside

theorem hasPlace_moved (cut : text.CutAt start front back place) (whole : taken ++ rest = back) (more : back ≠ [])
    (inside : taken.getLast? ≠ some '\n') : text.HasPlace start (Lexer.advance place taken) :=
  ⟨_, rest, cut.moved whole, ends_inside whole more inside⟩

end Text.CutAt

/-- A text that ends with a line feed, if it begins at the front of a line, or with a closing bracket. -/
def Text.Closed (start : Nat × Nat) (text : Text) : Prop :=
  (start.2 = 0 ∧ ∃ front, text = front ++ ['\n']) ∨ ∃ front, text = front ++ [')']

theorem Text.HasPlace.lineStart {start place : Nat × Nat} {text : Text} (atFront : start.2 = 0)
    (hasPlace : text.HasPlace start place) : text.HasPlace start (place.1, 0) := by
  obtain ⟨front, back, ⟨rfl, rfl⟩, inside⟩ := hasPlace
  induction front using List.reverseRecOn generalizing back with
  | nil => exact ⟨[], back, ⟨rfl, Prod.ext rfl atFront⟩, inside⟩
  | append_singleton front c ih =>
    by_cases feed : c = '\n'
    · refine ⟨front ++ [c], back, ⟨rfl, ?_⟩, inside⟩
      rw [Lexer.advance_append, Lexer.advance, if_pos feed, Lexer.advance]
    · rw [Lexer.advance_append, Lexer.advance, if_neg feed, Lexer.advance, List.append_assoc]
      exact ih ([c] ++ back) (by simp)

/-- A token begins and ends at places of a text, but for the end of a line. -/
structure Token.PlacedIn (start : Nat × Nat) (text : Text) (t : Token) : Prop where
  begins : text.HasPlace start (t.line, t.column)
  ends : t.kind ≠ .newline → text.HasPlace start (t.endLine, t.endColumn)

@[simp] def TokenKind.isSolid : TokenKind → Bool
  | .newline | .indent | .dedent | .finish | .typeComment => false
  | _ => true

@[simp] def TokenKind.isCut : TokenKind → Bool
  | .indent | .dedent | .finish => false
  | _ => true

@[simp] def TokenKind.isInked : TokenKind → Bool
  | .newline | .indent | .dedent | .finish => false
  | _ => true

theorem TokenKind.isCut_of_isInked {kind : TokenKind} (inked : kind.isInked = true) : kind.isCut = true := by
  cases kind <;> simp_all

theorem TokenKind.isInked_of_isSolid {kind : TokenKind} (solid : kind.isSolid = true) : kind.isInked = true := by
  cases kind <;> simp_all

/-- Words are made of word characters, and the letters in front of a string are plain. -/
def TokenKind.Letters (text : Text) : TokenKind → Prop
  | .string => ∀ c ∈ text.takeWhile fun c => !(c == '\'' || c == '"'), IsPlainChar c
  | .name | .freeName => ∀ c ∈ text, Number.isWordChar c = true
  | _ => True

def Token.start (t : Token) : Nat ×ₗ Nat := toLex (t.line, t.column)

def Token.stop (t : Token) : Nat ×ₗ Nat := toLex (t.endLine, t.endColumn)

def Text.Inked (text : Text) : Prop := ∃ front d back, text = front ++ d :: back ∧ isBlank d = false ∧ '\n' ∉ back

def Text.OpensComment (text : Text) : Prop := (text.dropWhile isBlank).head? = some '#'

def Text.Solid (text : Text) : Prop := ∃ c rest, text = c :: rest ∧ isBlank c = false

def Text.SolidAt (start : Nat × Nat) (text : Text) (place : Nat × Nat) : Prop :=
  ∃ front back, text.CutAt start front back place ∧ back.Solid

def Text.InkedAt (start : Nat × Nat) (text : Text) (place : Nat × Nat) : Prop :=
  ∃ front back, text.CutAt start front back place ∧ front.Inked

/-- A string token stands in a text as it is, and the letters in front of its quotes are plain. -/
structure Token.LiteralIn (start : Nat × Nat) (text : Text) (t : Token) : Prop where
  stands : ∃ front back, text.CutAt start front (t.text ++ back) (t.line, t.column)
  letters : ∀ c ∈ t.text.takeWhile fun c => !(c == '\'' || c == '"'), IsPlainChar c

def Text.PartAt (start : Nat × Nat) (text : Text) (place : Nat × Nat) (part rest : Text) : Prop :=
  ∃ front, text.CutAt start front (part ++ rest) place

/-- A token stands behind a place; if it begins with a character, no comment stands between them on its line. -/
def Token.Follows (start : Nat × Nat) (source : Text) (place : Nat × Nat) (t : Token) : Prop :=
  ∃ part rest, source.PartAt start place part rest ∧ Lexer.advance place part = (t.line, t.column) ∧
    (t.kind.isSolid = true → rest.Solid ∧ rest.head? ≠ some '#' ∧ ('\n' ∉ part → ¬part.OpensComment))

theorem Token.Follows.le {start place : Nat × Nat} {source : Text} {t : Token}
    (follows : t.Follows start source place) : toLex place ≤ t.start := by
  obtain ⟨part, -, -, moved, -⟩ := follows
  rw [Token.start, ← moved]
  exact Lexer.le_advance place part

/-- What is cut off behind a place: a line ends in it or behind it, or it opens with no comment. -/
def Text.CutOff (start : Nat × Nat) (source : Text) (place : Nat × Nat) (rest : Text) : Prop :=
  ∃ part, source.PartAt start place part rest ∧ ('\n' ∈ part ∨ rest.head? = some '\n' ∨ ¬part.OpensComment)

/-- A character that opens no comment stands at a place or in front of it, behind another place; if it is on the line of
that place, no comment opens in between. -/
def Text.ClearAt (start : Nat × Nat) (source : Text) (place place' : Nat × Nat) : Prop :=
  ∃ part rest, source.PartAt start place part rest ∧ toLex (Lexer.advance place part) ≤ toLex place' ∧
    rest.Solid ∧ rest.head? ≠ some '#' ∧ ('\n' ∉ part → ¬part.OpensComment)

theorem Text.Inked.append_left {text : Text} (inked : text.Inked) (before : Text) : (before ++ text).Inked := by
  obtain ⟨front, d, back, rfl, noBlank, flat⟩ := inked
  exact ⟨before ++ front, d, back, by simp, noBlank, flat⟩

theorem Text.Inked.ne_nil {text : Text} (inked : text.Inked) : text ≠ [] := by
  obtain ⟨front, d, back, rfl, -⟩ := inked
  simp

theorem Text.Solid.inked {text rest : Text} (solid : Text.Solid (text ++ rest)) (some : text ≠ [])
    (flat : '\n' ∉ text) : text.Inked := by
  obtain ⟨c, more, whole, noBlank⟩ := solid
  cases text with
  | nil => exact absurd rfl some
  | cons d text =>
    obtain ⟨rfl, -⟩ := List.cons.inj whole
    exact ⟨[], d, text, rfl, noBlank, fun member => flat (.tail _ member)⟩

theorem Text.OpensComment.of_append {part more : Text} (opens : (part ++ more).OpensComment) :
    part.OpensComment ∨ more.OpensComment := by
  unfold OpensComment at *
  rw [List.dropWhile_append] at opens
  split at opens
  · exact .inr opens
  case isFalse some =>
    rw [List.head?_append_of_ne_nil _ (by simpa using some)] at opens
    exact .inl opens

theorem Text.CutOff.moved {start place : Nat × Nat} {source text rest whole : Text}
    (passed : source.CutOff start place whole) (taken : text ++ rest = whole)
    (quiet : '\n' ∈ text ∨ rest.head? = some '\n' ∨ ¬text.OpensComment) : source.CutOff start place rest := by
  obtain ⟨part, ⟨front, cut⟩, apart⟩ := passed
  refine ⟨part ++ text, ⟨front, by rwa [List.append_assoc, taken]⟩, ?_⟩
  rcases apart with feed | ends | noComment
  · exact .inl (List.mem_append_left _ feed)
  · cases text with
    | nil =>
      rw [← taken] at ends
      exact .inr (.inl ends)
    | cons c text =>
      rw [← taken] at ends
      cases ends
      exact .inl (by simp)
  · rcases quiet with feed | ends | noOther
    · exact .inl (List.mem_append_right _ feed)
    · exact .inr (.inl ends)
    · exact .inr (.inr fun opens => opens.of_append.elim noComment noOther)

/-! ## Tokens -/

namespace Lexer

open Number (isWordChar)

theorem stringBody_append {quote : Char} {triple : Bool} {done text body rest : Text}
    (h : stringBody quote triple done text = some (body, rest)) :
    body ++ rest = done.reverse ++ text := by
  fun_induction stringBody quote triple done text with
  | case1 => cases h
  | case2 done c text ih => simpa using ih h
  | case3 done c text _ _ hc =>
    obtain ⟨rfl, rfl⟩ := Prod.mk.inj (Option.some.inj h)
    obtain ⟨rfl, hprefix⟩ := hc
    obtain ⟨tail, rfl⟩ := List.isPrefixOf_iff_prefix.1 hprefix
    simp
  | case4 done c text _ _ _ ih => simpa using ih h
  | case5 done text =>
    obtain ⟨rfl, rfl⟩ := Prod.mk.inj (Option.some.inj h)
    simp
  | case6 => cases h
  | case7 done c text _ _ _ _ ih => simpa using ih h

theorem stringBody_ends {quote : Char} {triple : Bool} {done text body rest : Text}
    (h : stringBody quote triple done text = some (body, rest)) : body.getLast? = some quote := by
  fun_induction stringBody quote triple done text with
  | case1 | case6 => cases h
  | case2 _ _ _ ih => exact ih h
  | case4 _ _ _ _ _ _ ih => exact ih h
  | case7 _ _ _ _ _ _ _ ih => exact ih h
  | case3 | case5 =>
    obtain ⟨rfl, rfl⟩ := Prod.mk.inj (Option.some.inj h)
    simp

/-- Measuring goes over characters of the text; where nothing is left, the last of them is a blank. -/
theorem measure_append (fuel col alt held : Nat) (place : Nat × Nat) (text : Text) :
    ∃ taken, taken ++ (measure fuel col alt held place text).2.2 = text ∧
      advance place taken = (measure fuel col alt held place text).2.1 ∧
      ('\n' ∈ taken ∨ ¬taken.OpensComment) ∧
      ∀ c, taken.getLast? = some c → (measure fuel col alt held place text).2.2 = [] →
        c ≠ '\n' ∧ c ≠ ')' := by
  fun_induction measure fuel col alt held place text with
  | case1 | case6 => exact ⟨[], rfl, rfl, .inr (by simp [Text.OpensComment]), by simp⟩
  | case2 _ _ _ _ _ _ rest ih | case3 _ _ _ _ _ _ rest ih | case4 _ _ _ _ _ _ rest ih =>
    obtain ⟨taken, whole, moved, quiet, last⟩ := ih
    refine ⟨_ :: taken, congrArg _ whole, moved, quiet.imp (.tail _) fun noComment opens => ?_, ?_⟩
    · rw [← List.singleton_append] at opens
      exact noComment (opens.of_append.resolve_left (by simp [Text.OpensComment, isBlank]))
    cases taken with
    | nil =>
      intro c isLast _
      cases isLast
      decide
    | cons d more => simpa using last
  | case5 _ _ _ _ _ _ c rest ih =>
    obtain ⟨taken, whole, moved, -, last⟩ := ih
    refine ⟨'\\' :: '\n' :: taken, congrArg (['\\', '\n'] ++ ·) whole, moved, .inl (by simp), ?_⟩
    cases taken with
    | nil =>
      intro _ _ empty
      rw [empty] at whole
      cases whole
    | cons d more => simpa using last

def Step.state : Step → State
  | .more s | .done s | .fault s _ _ => s

structure State.Cut (start : Nat × Nat) (source : Text) (t : Token) : Prop where
  literal : t.kind = .string → t.LiteralIn start source
  solid : t.kind.isSolid = true → source.SolidAt start (t.line, t.column)
  placed : source.Closed start → t.PlacedIn start source
  extent : advance (t.line, t.column) t.text = (t.endLine, t.endColumn)
  feed : t.kind = .newline → t.text = ['\n']
  some : t.kind.isSolid = true → t.text ≠ []
  letters : t.kind.Letters t.text
  inked : t.kind.isInked = true → source.InkedAt start (t.endLine, t.endColumn)

def ends (start : Nat × Nat) (tokens : List Token) : List (Nat × Nat) :=
  (tokens.filter fun t => t.kind.isCut).map (fun t => (t.endLine, t.endColumn)) ++ [start]

def InOrder (start : Nat × Nat) (source : Text) (tokens : List Token) : Prop :=
  ∀ later t earlier, tokens = later ++ t :: earlier → t.kind.isCut = true →
    ∀ place ∈ ends start earlier, t.Follows start source place

/-- What is known of the tokens that were cut from a text in front of what is left. -/
structure State.Known (start : Nat × Nat) (source : Text) (tokens : List Token) (rest : Text) : Prop where
  cut : ∀ t ∈ tokens, State.Cut start source t
  order : InOrder start source tokens
  passed : rest ≠ [] → ∀ place ∈ ends start tokens, source.CutOff start place rest

/-- The tokens come from the text, and the text is cut at the place of the state: in front of it a line ends, if a
line begins there; and if nothing is left and no bracket is open, none does.  At the end of the text the state may
have gone back to the last line. -/
structure State.CutFrom (start : Nat × Nat) (source : Text) (s : State) : Prop where
  known : State.Known start source s.tokens s.rest
  behind : (∃ front, source.CutAt start front s.rest (s.line, s.column) ∧
      (s.fresh = true → front = [] ∨ front.getLast? = some '\n') ∧
      (s.fresh = false → s.brackets = [] → s.rest = [] → front.getLast? ≠ some '\n')) ∨
    s.rest = [] ∧ s.fresh = false ∧ (source.Closed start → source.HasPlace start (s.line, s.column))

variable {start : Nat × Nat} {source front text rest : Text} {s : State} {kind : TokenKind}

theorem typeComment?_suffix {comment body : Text} (found : typeComment? comment = some body) :
    body <:+ comment := by
  unfold typeComment? at found
  dsimp only at found
  split at found
  · cases found
    exact (List.dropWhile_suffix _).trans ((List.drop_suffix _ _).trans
      ((List.dropWhile_suffix _).trans (List.drop_suffix _ _)))
  · cases found

/-! ### Characters that tokens begin with -/

def blankPoints : List Nat :=
  List.range' 9 5 ++ List.range' 28 5 ++ [0x85, 0xA0, 0x1680] ++ List.range' 0x2000 11 ++
    [0x2028, 0x2029, 0x202F, 0x205F, 0x3000]

/-- Blanks begin no words, and those of ASCII but the space are not printed. -/
theorem blank_cases {c : Char} (blank : isBlank c = true) :
    c.isAlphanum = false ∧ isNameStart c = false ∧ (c = ' ' ∨ 128 ≤ c.toNat ∨ isPrintable c = false) := by
  have all : ∀ n ∈ blankPoints, (Char.ofNat n).isAlphanum = false ∧ isNameStart (Char.ofNat n) = false ∧
      (Char.ofNat n = ' ' ∨ 128 ≤ (Char.ofNat n).toNat ∨ isPrintable (Char.ofNat n) = false) := by
    decide +kernel
  have point : c.toNat ∈ blankPoints := by
    simp only [isBlank, Bool.or_eq_true, Bool.and_eq_true, decide_eq_true_eq, beq_iff_eq] at blank
    simp only [blankPoints, List.mem_append, List.mem_range'_1, List.mem_cons, List.not_mem_nil, or_false]
    omega
  have result := all c.toNat point
  rwa [Char.ofNat_toNat] at result

theorem solid_of_alphanum {c : Char} (alphanum : c.isAlphanum = true) (rest : Text) : Text.Solid (c :: rest) := by
  refine ⟨c, rest, rfl, ?_⟩
  by_contra blank
  have noLetter := (blank_cases (by simpa using blank)).1
  rw [alphanum] at noLetter
  cases noLetter

theorem solid_of_isName {text rest : Text} (isName : text.isName = true) : Text.Solid (text ++ rest) := by
  cases text with
  | nil => cases isName
  | cons c more =>
    refine ⟨c, more ++ rest, rfl, ?_⟩
    by_contra blank
    have noStart := (blank_cases (by simpa using blank)).2.1
    rw [Text.isName, noStart] at isName
    cases isName

theorem solid_of_quote {text : Text} (quoted : text.head?.any (fun c => c == '\'' || c == '"') = true) :
    text.Solid := by
  cases text with
  | nil => cases quoted
  | cons c rest =>
    refine ⟨c, rest, rfl, ?_⟩
    rw [List.head?_cons, Option.any_some, Bool.or_eq_true, beq_iff_eq, beq_iff_eq] at quoted
    rcases quoted with rfl | rfl <;> rfl

theorem plain_of_stringLetters {letters : Text} (allowed : stringLetters.contains (letters.map Char.toLower) = true) :
    ∀ c ∈ letters, IsPlainChar c := by
  intro c member
  have lower : c.toLower.utf8Size = 1 ∧ c.toLower.isAlpha = true := by
    have plain : (stringLetters.all fun word => word.all fun d => d.utf8Size == 1 && d.isAlpha) = true := rfl
    have both := List.all_eq_true.mp (List.all_eq_true.mp plain _ (List.contains_iff_mem.mp allowed)) _
      (List.mem_map.mpr ⟨c, member, rfl⟩)
    simpa using both
  have letter : c.utf8Size = 1 ∧ c.isAlpha = true := by
    unfold Char.toLower at lower
    split at lower
    case isFalse => exact lower
    case isTrue isUpper =>
      have small : c.val ≤ 0x7F := UInt32.le_trans isUpper.2 (by decide)
      refine ⟨Char.utf8Size_eq_one_iff.mpr small, ?_⟩
      have upper : c.isUpper = true := decide_eq_true isUpper
      exact Bool.or_eq_true_iff.mpr (.inl upper)
  obtain ⟨d, rest, same, noBlank⟩ := solid_of_alphanum (c := c) (by rw [Char.isAlphanum, letter.2]; rfl) []
  cases same
  exact ⟨letter.1, noBlank⟩

theorem solid_of_stringLetters {letters rest : Text}
    (allowed : stringLetters.contains (letters.map Char.toLower) = true) : Text.Solid (letters ++ rest) := by
  cases letters with
  | nil => exact absurd allowed (by decide)
  | cons c more => exact ⟨c, more ++ rest, rfl, (plain_of_stringLetters allowed c List.mem_cons_self).2⟩

theorem solid_of_printed {c : Char} (noSpace : c ≠ ' ') (noWord : isWordChar c = false)
    (printed : isPrintable c = true) (rest : Text) : Text.Solid (c :: rest) := by
  refine ⟨c, rest, rfl, ?_⟩
  by_contra blank
  rcases (blank_cases (by simpa using blank)).2.2 with space | large | unprinted
  · exact noSpace space
  · simp [isWordChar, large] at noWord
  · rw [printed] at unprinted
    cases unprinted

theorem mem_of_mem_takeWhile {fits : Char → Bool} {front rest : Text} {q c : Char} (stops : fits q = false)
    (member : c ∈ (front ++ q :: rest).takeWhile fits) : c ∈ front := by
  induction front with
  | nil => simp [stops] at member
  | cons d front ih =>
    rw [List.cons_append, List.takeWhile_cons] at member
    split at member
    · rcases List.mem_cons.mp member with rfl | later
      · exact List.mem_cons_self
      · exact List.mem_cons_of_mem _ (ih later)
    · cases member

theorem InOrder.cons {tokens : List Token} {t : Token} (order : InOrder start source tokens)
    (new : t.kind.isCut = true → ∀ place ∈ ends start tokens, t.Follows start source place) :
    InOrder start source (t :: tokens) := by
  intro later u earlier split
  cases later with
  | nil =>
    obtain ⟨rfl, rfl⟩ := List.cons.inj split
    exact new
  | cons _ later => exact order later u earlier (List.cons.inj split).2

theorem PartAt.place_eq {place here : Nat × Nat} {part : Text} (cut : source.CutAt start front rest here)
    (between : source.PartAt start place part rest) : advance place part = here := by
  obtain ⟨before, inner⟩ := between
  have whole : before ++ part = front := by
    have same : before ++ part ++ rest = front ++ rest := by rw [List.append_assoc, inner.whole, cut.whole]
    exact List.append_cancel_right same
  rw [← cut.place, ← whole, advance_append, inner.place]

namespace State.Known

variable {tokens : List Token} {here : Nat × Nat} {whole lead : Text}

theorem skip (known : Known start source tokens whole) (taken : text ++ rest = whole)
    (quiet : '\n' ∈ text ∨ rest.head? = some '\n' ∨ rest = [] ∨ ¬text.OpensComment) :
    Known start source tokens rest := by
  refine ⟨known.cut, known.order, fun more place member => ?_⟩
  have before : whole ≠ [] := taken ▸ List.append_ne_nil_of_right_ne_nil text more
  exact (known.passed before place member).moved taken (by simpa [more] using quiet)

theorem push (known : Known start source tokens whole) (more : whole ≠ [])
    (cut : source.CutAt start front whole here) (taken : lead ++ (text ++ rest) = whole) {t : Token}
    (isCut : State.Cut start source t) (begins : advance here lead = (t.line, t.column)) (isText : t.text = text)
    (solid : t.kind.isSolid = true → lead = [] ∧ whole.Solid ∧ whole.head? ≠ some '#')
    (quiet : '\n' ∈ lead ++ text ∨ rest.head? = some '\n' ∨ rest = [] ∨ ¬(lead ++ text).OpensComment) :
    Known start source (t :: tokens) rest := by
  have passed := known.passed more
  refine ⟨List.forall_mem_cons.mpr ⟨isCut, known.cut⟩, known.order.cons fun _ place member => ?_,
    fun some place member => ?_⟩
  · obtain ⟨part, between, apart⟩ := passed place member
    have moved := PartAt.place_eq cut between
    obtain ⟨before, inner⟩ := between
    refine ⟨part ++ lead, text ++ rest, ⟨before, by rwa [List.append_assoc, taken]⟩, ?_, fun isSolid => ?_⟩
    · rw [advance_append, moved, begins]
    · obtain ⟨rfl, begun, noComment⟩ := solid isSolid
      rw [List.nil_append] at taken
      rw [List.append_nil, taken]
      refine ⟨begun, noComment, fun flat => ?_⟩
      rcases apart with feed | ends | noOther
      · exact absurd feed flat
      · obtain ⟨c, others, isWhole, noBlank⟩ := begun
        rw [isWhole] at ends
        cases ends
        cases noBlank
      · exact noOther
  · unfold ends at member
    rw [List.filter_cons] at member
    have old : place ∈ ends start tokens → source.CutOff start place rest := fun member =>
      (passed place member).moved (by rw [List.append_assoc, taken]) (by simpa [some] using quiet)
    split at member
    · rcases List.mem_cons.mp member with rfl | earlier
      · have after := (cut.moved taken).moved (show text ++ rest = text ++ rest from rfl)
        rw [begins, ← isText, isCut.extent] at after
        exact ⟨[], ⟨_, after⟩, .inr (.inr (by simp [Text.OpensComment]))⟩
      · exact old earlier
    · exact old member

theorem mark (known : Known start source tokens rest) {t : Token} (isCut : State.Cut start source t)
    (empty : t.kind.isCut = false) : Known start source (t :: tokens) rest := by
  refine ⟨List.forall_mem_cons.mpr ⟨isCut, known.cut⟩, known.order.cons fun cut => ?_, ?_⟩
  · rw [empty] at cut
    cases cut
  · unfold ends
    rw [List.filter_cons_of_neg (empty ▸ Bool.false_ne_true)]
    exact known.passed

end State.Known

namespace State.CutFrom

theorem of_cut (known : State.Known start source s.tokens s.rest)
    (cut : source.CutAt start front s.rest (s.line, s.column)) (notFresh : s.fresh = false)
    (inside : s.brackets = [] → s.rest = [] → front.getLast? ≠ some '\n') : s.CutFrom start source :=
  ⟨known, .inl ⟨front, cut, fun fresh => absurd fresh (by simp [notFresh]), fun _ => inside⟩⟩

/-- Where a line begins, a cut behind a line feed is enough. -/
theorem of_feed (known : State.Known start source s.tokens s.rest)
    (cut : source.CutAt start front s.rest (s.line, s.column)) (fresh : s.fresh = true)
    (feed : front.getLast? = some '\n') : s.CutFrom start source :=
  ⟨known, .inl ⟨front, cut, fun _ => .inr feed, fun notFresh => absurd notFresh (by simp [fresh])⟩⟩

theorem hasPlace (h : s.CutFrom start source) (notFresh : s.fresh = false) (outside : s.brackets = [] ∨ s.rest ≠ [])
    (closed : source.Closed start) : source.HasPlace start (s.line, s.column) := by
  rcases h.behind with ⟨front, cut, -, inside⟩ | ⟨-, -, hasPlace⟩
  · refine ⟨front, s.rest, cut, fun none => inside notFresh ?_ none⟩
    exact outside.resolve_right fun some => some none
  · exact hasPlace closed

theorem skip (h : s.CutFrom start source) (cut : source.CutAt start front s.rest (s.line, s.column))
    (notFresh : s.fresh = false) (taken : text ++ rest = s.rest) (more : s.rest ≠ [])
    (inside : text.getLast? ≠ some '\n')
    (quiet : rest.head? = some '\n' ∨ rest = [] ∨ ¬text.OpensComment) : (s.skip text rest).CutFrom start source :=
  of_cut (h.known.skip taken (.inr quiet)) (cut.moved taken) notFresh fun _ => Text.CutAt.ends_inside taken more inside

theorem push_known (h : s.CutFrom start source) (cut : source.CutAt start front s.rest (s.line, s.column))
    (taken : text ++ rest = s.rest) (more : s.rest ≠ []) (inside : kind ≠ .newline → text.getLast? ≠ some '\n')
    (letters : kind.Letters text)
    (sort : (kind.isSolid = true ∧ s.rest.Solid ∧ s.rest.head? ≠ some '#' ∧ text.Inked) ∨
      kind = .newline ∧ text = ['\n']) :
    State.Known start source (s.push kind text rest).tokens rest := by
  have solid : kind.isSolid = true → s.rest.Solid ∧ s.rest.head? ≠ some '#' ∧ text.Inked := by
    intro isSolid
    rcases sort with ⟨-, known⟩ | ⟨rfl, -⟩
    · exact known
    · cases isSolid
  have inked : kind.isInked = true → text.Inked := by
    intro isInked
    rcases sort with ⟨-, -, -, inked⟩ | ⟨rfl, -⟩
    · exact inked
    · cases isInked
  refine h.known.push more cut (show [] ++ (text ++ rest) = s.rest from taken) ⟨fun isString => ⟨⟨front, rest, taken ▸ cut⟩,
    show TokenKind.Letters text .string from isString ▸ letters⟩,
    fun isSolid => ⟨front, s.rest, cut, (solid isSolid).1⟩,
    fun _ => ⟨cut.hasPlace more, fun noFeed => cut.hasPlace_moved taken more (inside noFeed)⟩, rfl, fun isFeed => ?_,
    fun isSolid => (solid isSolid).2.2.ne_nil, letters, fun isInked => ⟨_, rest, cut.moved taken, (inked isInked).append_left _⟩⟩
    rfl rfl (fun isSolid => ⟨rfl, (solid isSolid).1, (solid isSolid).2.1⟩) ?_
  · rcases sort with ⟨isSolid, -⟩ | ⟨-, feed⟩
    · rw [show kind = .newline from isFeed] at isSolid
      cases isSolid
    · exact feed
  · rcases sort with ⟨-, ⟨c, others, isRest, noBlank⟩, noComment, inked⟩ | ⟨-, feed⟩
    · refine .inr (.inr (.inr fun opens => noComment ?_))
      obtain ⟨d, more, isText⟩ := List.exists_cons_of_ne_nil inked.ne_nil
      rw [isText, isRest] at taken
      obtain ⟨rfl, -⟩ := List.cons.inj taken
      rw [isText, Text.OpensComment, List.nil_append, List.dropWhile_cons_of_neg (by simp [noBlank])] at opens
      rw [isRest]
      exact opens
    · exact .inl (by simp [feed])

theorem push (h : s.CutFrom start source) (cut : source.CutAt start front s.rest (s.line, s.column))
    (notFresh : s.fresh = false) (taken : text ++ rest = s.rest) (more : s.rest ≠ [])
    (inside : text.getLast? ≠ some '\n')
    (letters : kind.Letters text)
    (isSolid : kind.isSolid = true) (solid : s.rest.Solid) (noComment : s.rest.head? ≠ some '#')
    (inked : text.Inked) : (s.push kind text rest).CutFrom start source :=
  of_cut (h.push_known cut taken more (fun _ => inside) letters (.inl ⟨isSolid, solid, noComment, inked⟩))
    (cut.moved taken) notFresh fun _ => Text.CutAt.ends_inside taken more inside

theorem mark (h : s.CutFrom start source) (noString : kind ≠ .string) (empty : kind.isCut = false)
    (hasPlace : source.Closed start → source.HasPlace start (s.line, s.column)) :
    (s.mark kind).CutFrom start source := by
  have noSolid : kind.isSolid = true → False := by cases kind <;> simp_all
  have noInk : kind.isInked = true → False := by cases kind <;> simp_all
  have noFeed : kind ≠ .newline := by rintro rfl; cases empty
  refine ⟨h.known.mark ⟨fun isString => absurd isString noString, fun isSolid => (noSolid isSolid).elim,
    fun closed => ⟨hasPlace closed, fun _ => hasPlace closed⟩, rfl, fun isFeed => absurd isFeed noFeed,
    fun isSolid => (noSolid isSolid).elim, (by cases kind <;> trivial),
    fun isInked => (noInk isInked).elim⟩ empty, h.behind⟩

theorem closeIndents (h : s.CutFrom start source)
    (hasPlace : source.Closed start → source.HasPlace start (s.line, s.column)) (col : Nat)
    (indents : List (Nat × Nat)) : (Lexer.closeIndents col s indents).CutFrom start source := by
  induction indents generalizing s with
  | nil => exact ⟨h.known, h.behind⟩
  | cons i rest ih =>
    unfold Lexer.closeIndents
    split
    · exact ih (h.mark (by decide) rfl hasPlace) hasPlace
    · exact ⟨h.known, h.behind⟩

theorem indentation (h : s.CutFrom start source)
    (hasPlace : source.Closed start → source.HasPlace start (s.line, s.column)) (col alt : Nat) :
    (Lexer.indentation s col alt).state.CutFrom start source := by
  have hclosed := h.closeIndents hasPlace col s.indents
  have hmark : (s.mark .indent).CutFrom start source := h.mark (by decide) rfl hasPlace
  have hopened : ({ s.mark .indent with indents := (col, alt) :: s.indents } : State).CutFrom start source :=
    ⟨hmark.known, hmark.behind⟩
  unfold Lexer.indentation
  grind [Step.state, failQuietly]

theorem hasPlace_last (cut : source.CutAt start front s.rest (s.line, s.column)) (empty : s.rest = [])
    (fresh : front = [] ∨ front.getLast? = some '\n') (closed : source.Closed start) :
    source.HasPlace start (s.line - 1, 0) := by
  have whole : front = source := by simpa [empty] using cut.whole
  rcases closed with ⟨atFront, body, rfl⟩ | ⟨body, rfl⟩
  · have place := cut.place
    rw [whole, advance_append, advance, if_pos rfl, advance] at place
    have line : (advance start body).1 = s.line - 1 := by
      rw [← (Prod.mk.inj place).1]
      rfl
    rw [← line]
    have before : (body ++ ['\n']).CutAt start body ['\n'] (advance start body) := ⟨rfl, rfl⟩
    exact (before.hasPlace (by simp)).lineStart atFront
  · rcases fresh with none | isLast
    · simp [none] at whole
    · simp [whole] at isLast

theorem lineStart (h : s.CutFrom start source) (fresh : s.fresh = true) :
    (Lexer.lineStart s).state.CutFrom start source := by
  obtain ⟨front, cut, lines⟩ : ∃ front, source.CutAt start front s.rest (s.line, s.column) ∧
      (front = [] ∨ front.getLast? = some '\n') := by
    rcases h.behind with ⟨front, cut, lines, -⟩ | ⟨-, notFresh, -⟩
    · exact ⟨front, cut, lines fresh⟩
    · simp [fresh] at notFresh
  obtain ⟨taken, whole, moved, quiet, last⟩ :=
    measure_append (s.rest.length + 1) 0 0 0 (s.line, s.column) s.rest
  have after := cut.moved whole
  rw [moved] at after
  unfold Lexer.lineStart
  split
  rename_i col alt line column rest heq
  rw [heq] at whole last after
  dsimp only at whole last after
  have hmoved : s.brackets ≠ [] ∨ rest ≠ [] →
      ({ s with rest, line, column, fresh := false, blank := false } : State).CutFrom start source := by
    intro unfinished
    refine of_cut (h.known.skip whole (quiet.imp_right fun noComment => .inr (.inr noComment))) after rfl
      fun noBrackets none => ?_
    rcases unfinished with open_ | more
    · exact absurd noBrackets open_
    · exact absurd none more
  dsimp only
  split
  · exact ⟨(hmoved (.inr (by simp))).known, (hmoved (.inr (by simp))).behind⟩
  · exact ⟨(hmoved (.inr (by simp))).known, (hmoved (.inr (by simp))).behind⟩
  · exact hmoved (.inr (by simp))
  · split
    · have ended : source.Closed start → source.HasPlace start (line - 1, 0) := by
        intro closed
        -- Nothing was taken, for a closed text does not end with a blank.
        have nothing : taken = [] := by
          by_contra nonempty
          have isLast := List.getLast?_eq_some_getLast nonempty
          generalize taken.getLast nonempty = c at isLast
          obtain ⟨noFeed, noBracket⟩ := last c isLast rfl
          have ends : source.getLast? = some c := by
            rw [← after.whole, List.append_nil, List.getLast?_append, isLast]
            rfl
          rcases closed with ⟨-, body, rfl⟩ | ⟨body, rfl⟩
          · exact noFeed (by simpa [eq_comm] using ends)
          · exact noBracket (by simpa [eq_comm] using ends)
        rw [nothing] at moved whole
        obtain ⟨rfl, rfl⟩ := Prod.mk.inj (moved.trans (congrArg (fun m => m.2.1) heq))
        exact hasPlace_last cut whole.symm lines closed
      have back : ({ s with rest := [], line := line - 1, column := 0, fresh := false, blank := false } :
          State).CutFrom start source :=
        ⟨h.known.skip whole (.inr (.inr (.inl rfl))), .inr ⟨rfl, rfl, ended⟩⟩
      exact back.closeIndents ended 0 _
    case isFalse open_ => exact hmoved (.inl (by simpa using open_))
  case h_5 more =>
    have nonempty : rest ≠ [] := more
    split
    · exact (hmoved (.inr nonempty)).indentation (fun _ => after.hasPlace nonempty) col alt
    · exact hmoved (.inr nonempty)

theorem comment_inside {text : Text} : (text.takeWhile (· != '\n')).getLast? ≠ some '\n' := by
  intro isLast
  have member := List.mem_takeWhile_imp (List.mem_of_getLast? isLast)
  simp at member

theorem comment_ends (text : Text) :
    (text.dropWhile (· != '\n')).head? = some '\n' ∨ text.dropWhile (· != '\n') = [] := by
  have first := List.head?_dropWhile_not (· != '\n') text
  cases h : text.dropWhile (· != '\n') with
  | nil => exact .inr rfl
  | cons c rest => exact .inl (by simpa [h] using first)

theorem comment (h : s.CutFrom start source) (cut : source.CutAt start front s.rest (s.line, s.column))
    (notFresh : s.fresh = false) (sign : s.rest.head? = some '#') (options : LexOptions) :
    (Lexer.comment options s).state.CutFrom start source := by
  have more : s.rest ≠ [] := by
    intro none
    rw [none] at sign
    cases sign
  have whole : s.rest.takeWhile (· != '\n') ++ s.rest.dropWhile (· != '\n') = s.rest :=
    List.takeWhile_append_dropWhile
  have after := cut.moved whole
  have ended := comment_ends s.rest
  have hskip := h.skip cut notFresh whole more comment_inside (ended.imp_right .inl)
  unfold Lexer.comment
  dsimp only
  split
  · exact hskip
  · rename_i body isComment
    split
    · split
      case h_1 rest heq =>
        rw [heq] at after
        have line : ['\n'] ++ rest = '\n' :: rest := rfl
        have known : State.Known start source s.tokens ('\n' :: rest) := heq ▸ hskip.known
        split
        · exact of_feed (known.skip line (.inl (by simp))) (after.moved line) rfl (by simp)
        · exact ⟨hskip.known, hskip.behind⟩
      case h_2 => exact ⟨hskip.known, hskip.behind⟩
    · obtain ⟨mark, split⟩ : ∃ mark, mark ++ body = s.rest.takeWhile (· != '\n') := by
        have found : typeComment? (s.rest.takeWhile (· != '\n')) = some body := by
          split at isComment
          · exact isComment
          · cases isComment
        exact typeComment?_suffix found
      have front_eq : (s.rest.takeWhile (· != '\n')).take
          ((s.rest.takeWhile (· != '\n')).length - body.length) = mark := by
        rw [← split]
        simp
      have marked : mark ++ (body ++ s.rest.dropWhile (· != '\n')) = s.rest := by
        rw [← List.append_assoc, split, whole]
      have inside : mark.getLast? ≠ some '\n' := by
        intro isLast
        have member : '\n' ∈ s.rest.takeWhile (· != '\n') := split ▸ List.mem_append_left _ (List.mem_of_getLast? isLast)
        simpa using List.mem_takeWhile_imp member
      have place : source.HasPlace start (advance (s.line, s.column) (mark ++ body)) :=
        split ▸ cut.hasPlace_moved whole more comment_inside
      rw [advance_append] at place
      rw [front_eq]
      have flat : '\n' ∉ mark ++ body := by
        intro member
        rw [split] at member
        simpa using List.mem_takeWhile_imp member
      have inked : (mark ++ body).Inked := by
        obtain ⟨others, isRest⟩ := List.head?_eq_some_iff.mp sign
        have solid : Text.Solid ((mark ++ body) ++ s.rest.dropWhile (· != '\n')) := by
          refine ⟨'#', others, ?_, rfl⟩
          rw [split, whole, isRest]
        refine solid.inked ?_ flat
        rw [split, isRest]
        simp
      have stop : source.CutAt start (front ++ (mark ++ body)) (s.rest.dropWhile (· != '\n'))
          (advance (advance (s.line, s.column) mark) body) := by
        rw [← advance_append]
        exact cut.moved (by rw [split, whole])
      refine ⟨h.known.push more cut marked ⟨nofun, nofun, fun _ => ⟨cut.hasPlace_moved marked more inside, fun _ => place⟩,
        rfl, nofun, nofun, trivial, fun _ => ⟨_, _, stop, inked.append_left front⟩⟩ rfl rfl nofun
        (.inr (ended.imp_right .inl)), ?_⟩
      have same : advance (advance (s.line, s.column) mark) body = ((s.skip (mark ++ body)
          (s.rest.dropWhile (· != '\n'))).line, (s.skip (mark ++ body) (s.rest.dropWhile (· != '\n'))).column) := by
        rw [← advance_append]
        rfl
      have behind := hskip.behind
      rw [← split, ← same] at behind
      exact behind

theorem string (h : s.CutFrom start source) (cut : source.CutAt start front s.rest (s.line, s.column))
    (notFresh : s.fresh = false) (more : s.rest ≠ []) {letters text : Text} (hrest : letters ++ text = s.rest)
    (quoted : text.head?.any (fun c => c == '\'' || c == '"') = true) (plain : ∀ c ∈ letters, IsPlainChar c)
    (solid : s.rest.Solid) (noComment : s.rest.head? ≠ some '#') :
    (Lexer.string s letters text).state.CutFrom start source := by
  unfold Lexer.string
  split
  case h_1 quote rest =>
    dsimp only
    split
    case h_1 body after hbody =>
      generalize hopening : (if [quote, quote].isPrefixOf rest = true then [quote, quote, quote]
        else [quote]) = opening at hbody ⊢
      obtain ⟨others, hothers⟩ : ∃ others, opening = quote :: others := by
        subst hopening
        split <;> exact ⟨_, rfl⟩
      have hfront : opening <+: quote :: rest := by
        subst hopening
        split
        case isTrue hprefix =>
          exact List.cons_prefix_cons.2 ⟨rfl, List.isPrefixOf_iff_prefix.1 hprefix⟩
        case isFalse => exact List.prefix_append [quote] rest
      rw [List.head?_cons, Option.any_some] at quoted
      have ends := stringBody_ends hbody
      have isQuote : isBlank quote = false := by
        rw [Bool.or_eq_true, beq_iff_eq, beq_iff_eq] at quoted
        rcases quoted with rfl | rfl <;> rfl
      obtain ⟨inner, isBody⟩ := List.getLast?_eq_some_iff.mp ends
      refine h.push cut notFresh ?_ more ?_ (fun c member => plain c ?_) rfl solid noComment ?_
      · calc letters ++ opening ++ body ++ after
            = letters ++ (opening ++ (body ++ after)) := by simp
          _ = letters ++ (opening ++ (quote :: rest).drop opening.length) := by
              rw [stringBody_append hbody]; simp
          _ = letters ++ (quote :: rest) := by
              rw [List.prefix_iff_eq_append.1 hfront]
          _ = s.rest := hrest
      · rw [List.getLast?_append, ends]
        rintro ⟨⟩
        cases quoted
      · rw [hothers, List.append_assoc, List.cons_append] at member
        refine mem_of_mem_takeWhile ?_ member
        rw [quoted]
        rfl
      · exact ⟨letters ++ opening ++ inner, quote, [], by rw [isBody]; simp, isQuote, List.not_mem_nil⟩
    case h_2 => exact h
  case h_2 => exact h

theorem word (h : s.CutFrom start source) (cut : source.CutAt start front s.rest (s.line, s.column))
    (notFresh : s.fresh = false) (more : s.rest ≠ []) (noComment : s.rest.head? ≠ some '#') (options : LexOptions) :
    (Lexer.word options s).state.CutFrom start source := by
  have whole : s.rest.takeWhile isWordChar ++ s.rest.dropWhile isWordChar = s.rest :=
    List.takeWhile_append_dropWhile
  have flat : '\n' ∉ s.rest.takeWhile isWordChar := by
    intro member
    have isWord := List.mem_takeWhile_imp member
    revert isWord
    decide
  have inside : (s.rest.takeWhile isWordChar).getLast? ≠ some '\n' := fun isLast => flat (List.mem_of_getLast? isLast)
  have hname : Text.isName (s.rest.takeWhile isWordChar) = true →
      (pushName options s (s.rest.takeWhile isWordChar) (s.rest.dropWhile isWordChar)).CutFrom
      start source := by
    intro isName
    have solid : s.rest.Solid := whole ▸ solid_of_isName isName
    have inked : Text.Inked (s.rest.takeWhile isWordChar) := by
      refine Text.Solid.inked (whole.symm ▸ solid) (fun none => ?_) flat
      rw [none] at isName
      cases isName
    have pushed : ∀ kind : TokenKind, kind.Letters (s.rest.takeWhile isWordChar) → kind.isSolid = true →
        (s.push kind (s.rest.takeWhile isWordChar) (s.rest.dropWhile isWordChar)).CutFrom start source :=
      fun kind letters isSolid => h.push cut notFresh whole more inside letters isSolid solid noComment inked
    have words : ∀ c ∈ s.rest.takeWhile isWordChar, isWordChar c = true := fun _ => List.mem_takeWhile_imp
    unfold pushName
    split
    · exact pushed .name words rfl
    · split
      · exact ⟨(pushed .name words rfl).known, (pushed .name words rfl).behind⟩
      · exact pushed .freeName words rfl
  unfold Lexer.word
  dsimp only
  split
  case isTrue literal =>
    rw [Bool.and_eq_true] at literal
    have solid : Text.Solid (_ ++ s.rest.dropWhile isWordChar) := solid_of_stringLetters literal.2
    exact h.string cut notFresh more whole literal.1 (plain_of_stringLetters literal.2) (whole ▸ solid) noComment
  · split
    case isTrue isName => exact hname isName
    · split
      · split <;> exact h
      · exact h

theorem operator (h : s.CutFrom start source) (cut : source.CutAt start front s.rest (s.line, s.column))
    (notFresh : s.fresh = false) {c : Char} {rest : Text} (hrest : s.rest = c :: rest) (noFeed : c ≠ '\n')
    (noSpace : c ≠ ' ') (noComment : s.rest.head? ≠ some '#') (noWord : isWordChar c = false) :
    (Lexer.operator s c rest).state.CutFrom start source := by
  have taken : [c] ++ rest = s.rest := hrest.symm
  have more : s.rest ≠ [] := by simp [hrest]
  have solid : isPrintable c = true → s.rest.Solid := fun printed =>
    hrest ▸ solid_of_printed noSpace noWord printed rest
  have hpush : isPrintable c = true → ∀ {text rest : Text}, text ++ rest = s.rest → text ≠ [] → '\n' ∉ text →
      (s.push .op text rest).CutFrom start source := fun printed _ _ taken some flat =>
    h.push cut notFresh taken more (fun isLast => flat (List.mem_of_getLast? isLast)) trivial rfl
      (solid printed) noComment (Text.Solid.inked (taken.symm ▸ solid printed) some flat)
  have hone : isPrintable c = true → (s.push .op [c] rest).CutFrom start source := fun printed =>
    hpush printed taken (by simp) (by simpa using noFeed.symm)
  -- A change of brackets matters only where nothing is left, and there the cut is inside a line.
  have hbrackets : isPrintable c = true → ∀ brackets,
      ({ s.push .op [c] rest with brackets } : State).CutFrom start source := fun printed _ =>
    of_cut (hone printed).known (cut.moved taken) notFresh fun _ =>
      Text.CutAt.ends_inside taken more (by simpa using noFeed)
  unfold Lexer.operator
  split
  case isTrue opens =>
    split
    · exact h
    · refine hbrackets ?_ _
      simp only [Bool.or_eq_true, beq_iff_eq] at opens
      rcases opens with (rfl | rfl) | rfl <;> rfl
  · split
    case isTrue closes =>
      split
      · exact h
      · split
        · refine hbrackets ?_ _
          simp only [Bool.or_eq_true, beq_iff_eq] at closes
          rcases closes with (rfl | rfl) | rfl <;> rfl
        · exact h
    · split
      case h_1 o found =>
        have isOperator := List.mem_of_find?_eq_some found
        have isPrefix : o <+: c :: rest := by
          have fits := List.find?_some found
          exact List.isPrefixOf_iff_prefix.mp fits
        have flat : ∀ o ∈ operators, (o ≠ [] ∧ '\n' ∉ o) ∧ o.head?.any isPrintable = true := by decide
        have printed : isPrintable c = true := by
          have first := (flat o isOperator).2
          cases o with
          | nil => cases first
          | cons d more => exact (List.cons_prefix_cons.mp isPrefix).1 ▸ first
        refine hpush printed ?_ (flat o isOperator).1.1 (flat o isOperator).1.2
        rw [hrest, List.prefix_iff_eq_append.mp isPrefix]
      · split
        case isTrue printed => exact hone printed
        · exact h

end State.CutFrom

theorem leaveAsynchronous_eq (s : State) : ∃ asynchronous, leaveAsynchronous s = { s with asynchronous } := by
  unfold leaveAsynchronous
  split
  · split
    · exact ⟨none, rfl⟩
    · exact ⟨_, rfl⟩
  · exact ⟨_, rfl⟩

theorem step_cutFrom (options : LexOptions) (h : s.CutFrom start source) :
    (step options s).state.CutFrom start source := by
  unfold step
  split
  case isTrue fresh => exact h.lineStart fresh
  case isFalse stale =>
    have notFresh : s.fresh = false := by simpa using stale
    obtain ⟨asynchronous, same⟩ := leaveAsynchronous_eq s
    have hs : (leaveAsynchronous s).CutFrom start source := same ▸ ⟨h.known, h.behind⟩
    have notFresh : (leaveAsynchronous s).fresh = false := same ▸ notFresh
    generalize leaveAsynchronous s = s at hs notFresh
    clear h same stale
    dsimp only
    have cut : s.rest ≠ [] → ∃ front, source.CutAt start front s.rest (s.line, s.column) := by
      intro nonempty
      rcases hs.behind with ⟨front, cut, -⟩ | ⟨none, -⟩
      · exact ⟨front, cut⟩
      · exact absurd none nonempty
    split
    case h_1 none =>
      split
      · exact hs
      case h_2 noBrackets => exact hs.mark (by decide) rfl (hs.hasPlace notFresh (.inl noBrackets))
    case h_2 rest heq =>
      obtain ⟨front, cut⟩ := cut (by simp [heq])
      have taken : ['\n'] ++ rest = s.rest := heq.symm
      have after := cut.moved taken
      have pushed : State.Known start source (s.push .newline ['\n'] rest).tokens rest :=
        hs.push_known cut taken (by simp [heq]) (fun other => absurd rfl other) trivial (.inr ⟨rfl, rfl⟩)
      split
      · exact State.CutFrom.of_feed (hs.known.skip taken (.inl (by simp))) after rfl (by simp)
      · exact State.CutFrom.of_feed pushed after rfl (by simp)
    case h_3 rest heq =>
      obtain ⟨front, cut⟩ := cut (by simp [heq])
      split
      case h_1 => exact hs
      case h_2 after more =>
        have taken : ['\\', '\n'] ++ after = s.rest := heq.symm
        refine State.CutFrom.of_cut (hs.known.skip taken (.inl (by simp))) (cut.moved taken) notFresh fun _ none => ?_
        exact absurd none more
      case h_3 => exact hs
    case h_4 c rest noFeed _ heq =>
      obtain ⟨front, cut⟩ := cut (by simp [heq])
      have taken : [c] ++ rest = s.rest := heq.symm
      have more : s.rest ≠ [] := by simp [heq]
      have noFeed : c ≠ '\n' := by
        rintro rfl
        exact noFeed rfl
      split
      case isTrue isSpace =>
        refine hs.skip cut notFresh taken more (by simpa using noFeed) (.inr (.inr fun opens => ?_))
        have noSign : c ≠ '#' := by
          rintro rfl
          cases isSpace
        unfold Text.OpensComment at opens
        rw [List.dropWhile_cons] at opens
        split at opens
        · cases opens
        · exact noSign (Option.some.inj opens)
      case isFalse noBlank =>
        have noSpace : c ≠ ' ' := by
          rintro rfl
          exact noBlank rfl
        split
        case isTrue sign => exact hs.comment cut notFresh (by simpa [heq] using sign) options
        case isFalse noSign =>
          have noComment : s.rest.head? ≠ some '#' := by simpa [heq] using noSign
          split
          case isTrue isNumber =>
            split
            case h_1 text after htake =>
              have reads := Number.take_reads htake
              have flat : '\n' ∉ text := reads.oneLine (by simp)
              have inside : text.getLast? ≠ some '\n' := fun isLast => flat (List.mem_of_getLast? isLast)
              have some : text ≠ [] := by
                rw [heq] at htake
                refine Number.take_ne_nil ?_ htake
                simp only [Bool.or_eq_true, Bool.and_eq_true, beq_iff_eq] at isNumber
                exact isNumber.imp_right And.left
              have solid : s.rest.Solid := by
                rw [heq]
                simp only [Bool.or_eq_true, Bool.and_eq_true, beq_iff_eq] at isNumber
                rcases isNumber with isDigit | ⟨rfl, -⟩
                · exact solid_of_alphanum (by simp [Char.isAlphanum, isDigit]) rest
                · exact ⟨'.', rest, rfl, rfl⟩
              exact hs.push cut notFresh reads.whole more inside trivial rfl solid noComment
                (Text.Solid.inked (show Text.Solid (text ++ after) by rwa [reads.whole]) some flat)
            case h_2 => exact hs
          · split
            case isTrue quoted =>
              have quoted : s.rest.head?.any (fun c => c == '\'' || c == '"') = true := by rw [heq]; exact quoted
              exact hs.string cut notFresh more rfl quoted (List.forall_mem_nil _) (solid_of_quote quoted) noComment
            · split
              · exact hs.word cut notFresh more noComment options
              case isFalse noWord =>
                exact hs.operator cut notFresh heq noFeed noSpace noComment (by simpa using noWord)

theorem loop_cutFrom (options : LexOptions) (fuel : Nat) (h : s.CutFrom start source) :
    (loop options fuel s).1.CutFrom start source := by
  induction fuel generalizing s with
  | zero => exact h
  | succ fuel ih =>
    have hstep := step_cutFrom options h
    unfold loop
    cases hnext : step options s with
    | more next => exact ih (hnext ▸ hstep : (Step.more next).state.CutFrom start source)
    | done next => exact (hnext ▸ hstep : (Step.done next).state.CutFrom start source)
    | fault next fault isLoud =>
      exact (hnext ▸ hstep : (Step.fault next fault isLoud).state.CutFrom start source)

theorem run_known (options : LexOptions) (text : Text) : ∃ rest,
    State.Known (options.startLine, options.startColumn) text (run options text).tokens.reverse rest := by
  have begun : ({ rest := text, line := options.startLine, column := options.startColumn } :
      State).CutFrom (options.startLine, options.startColumn) text := by
    refine ⟨⟨by simp, fun later t earlier split => ?_, fun _ place member => ?_⟩,
      .inl ⟨[], ⟨rfl, rfl⟩, fun _ => .inl rfl, by simp⟩⟩
    · simp at split
    · obtain rfl := List.mem_singleton.mp member
      exact ⟨[], ⟨[], rfl, rfl⟩, .inr (.inr (by simp [Text.OpensComment]))⟩
  have known := (loop_cutFrom options (2 * text.length + 4) begun).known
  rw [← List.reverse_reverse (loop options (2 * text.length + 4) _).1.tokens] at known
  exact ⟨_, known⟩

/-- Each string token of a text stands in the text as it is, and the tokens of a closed text begin and end at places
of it. -/
theorem run_cut {options : LexOptions} {text : Text} {t : Token} (member : t ∈ (run options text).tokens) :
    State.Cut (options.startLine, options.startColumn) text t := by
  obtain ⟨rest, known⟩ := run_known options text
  exact known.cut t (List.mem_reverse.mpr member)

theorem run_order {options : LexOptions} {text : Text} {front back : List Token} {t : Token}
    (split : (run options text).tokens = front ++ t :: back) (isCut : t.kind.isCut = true) :
    t.Follows (options.startLine, options.startColumn) text (options.startLine, options.startColumn) ∧
      ∀ v ∈ front, v.kind.isCut = true →
        t.Follows (options.startLine, options.startColumn) text (v.endLine, v.endColumn) := by
  obtain ⟨rest, known⟩ := run_known options text
  have follows := known.order back.reverse t front.reverse (by simp [split]) isCut
  refine ⟨follows _ (List.mem_append_right _ (List.mem_singleton_self _)), fun v member isCut => follows _ ?_⟩
  refine List.mem_append_left _ (List.mem_map.mpr ⟨v, List.mem_filter.mpr ⟨List.mem_reverse.mpr member, ?_⟩, rfl⟩)
  exact isCut

theorem run_follows {options : LexOptions} {text : Text} {v t : Token} (inTokens : v ∈ (run options text).tokens)
    (member : t ∈ (run options text).tokens) (isCut : v.kind.isCut = true) (isCut' : t.kind.isCut = true)
    (before : v.stop < t.stop) :
    t.Follows (options.startLine, options.startColumn) text (v.endLine, v.endColumn) := by
  have extent : v.start ≤ v.stop := by
    rw [Token.stop, ← (run_cut inTokens).extent]
    exact le_advance _ v.text
  obtain ⟨front, back, split⟩ := List.append_of_mem member
  rw [split, List.mem_append, List.mem_cons] at inTokens
  rcases inTokens with inFront | rfl | inBack
  · exact (run_order split isCut').2 v inFront isCut
  · exact absurd before (lt_irrefl _)
  · -- then it would end in front of the other one
    obtain ⟨between, behind, rfl⟩ := List.append_of_mem inBack
    have split' : (run options text).tokens = (front ++ t :: between) ++ v :: behind := by simp [split]
    have reversed : t.stop ≤ v.start := ((run_order split' isCut).2 t (by simp) isCut').le
    exact absurd before (reversed.trans extent).not_gt

theorem run_strings {options : LexOptions} {text : Text} {t : Token} (member : t ∈ (run options text).tokens)
    (isString : t.kind = .string) : t.text <:+: text := by
  obtain ⟨front, back, cut⟩ := ((run_cut member).literal isString).stands
  exact ⟨front, back, by rw [List.append_assoc, cut.whole]⟩

end Lexer

end MacroExpand
