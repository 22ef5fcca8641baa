import MacroExpand.Proofs.Tokens

/-!
# Bodies and fields of literals

The body of a literal stands between its quotes in the text of its token (`StringLiteral.body_within`), and in the body
of a formatted literal stand the expressions of its fields, each at the place that the field names
(`StringLiteral.split_fields`).
-/

set_option autoImplicit false

namespace MacroExpand

namespace StringLiteral

/-! ## Bodies of literals -/

/-- What is left of a text without two ends of one length stands between them. -/
theorem exists_ends {l : Text} {count : Nat} (positive : 0 < count)
    (hbody : (l.drop count).take (l.length - 2 * count) ≠ []) :
    ∃ b, (l.take count).length = count ∧ b ≠ [] ∧
      l = l.take count ++ (l.drop count).take (l.length - 2 * count) ++ b := by
  have hlong : 2 * count < l.length := by
    by_contra hshort
    exact hbody (by simp [Nat.sub_eq_zero_of_le (Nat.le_of_not_lt hshort)])
  refine ⟨(l.drop count).drop (l.length - 2 * count), by simp; omega, ?_, ?_⟩
  · exact List.ne_nil_of_length_pos (by simp; omega)
  · rw [List.append_assoc, List.take_append_drop, List.take_append_drop]

theorem exists_quotes (t : Token) : ∃ count, 0 < count ∧
    (ofToken t).body = ((t.text.dropWhile fun c => !(c == '\'' || c == '"')).drop count).take
      ((t.text.dropWhile fun c => !(c == '\'' || c == '"')).length - 2 * count) ∧
    (ofToken t).column = t.column + (t.text.takeWhile fun c => !(c == '\'' || c == '"')).length + count ∧
    ∀ c ∈ (t.text.dropWhile fun c => !(c == '\'' || c == '"')).take count, IsPlainChar c := by
  refine ⟨_, ?_, rfl, rfl, ?_⟩
  · split
    · split <;> decide
    · decide
  · have head := List.head?_dropWhile_not (fun c => !(c == '\'' || c == '"')) t.text
    generalize t.text.dropWhile (fun c => !(c == '\'' || c == '"')) = rest at head
    have plain : ∀ c, rest.head? = some c → IsPlainChar c := by
      intro c isHead
      rw [isHead] at head
      have quote : c = '\'' ∨ c = '"' := by simpa [or_iff_not_imp_left] using head
      rcases quote with rfl | rfl <;> decide
    split
    · split
      case isTrue same =>
        obtain ⟨rfl, rfl, -⟩ := same
        simpa using plain
      case isFalse => simpa using plain
    · cases rest with
      | nil => simp
      | cons c more => simpa using plain

/-- A body that is not empty has something on either side, and begins behind what is in front of it. -/
theorem body_within {t : Token} (hbody : (ofToken t).body ≠ []) :
    ∃ a b, a ≠ [] ∧ b ≠ [] ∧ t.text = a ++ (ofToken t).body ++ b ∧
      ((∀ c ∈ t.text.takeWhile fun c => !(c == '\'' || c == '"'), IsPlainChar c) →
        Lexer.advance (t.line, t.column) a = ((ofToken t).line, (ofToken t).column)) := by
  obtain ⟨count, positive, hcount, column, plain⟩ := exists_quotes t
  rw [hcount] at hbody ⊢
  obtain ⟨b, hquotes, hb, heq⟩ := exists_ends positive hbody
  refine ⟨(t.text.takeWhile fun c => !(c == '\'' || c == '"')) ++
    (t.text.dropWhile fun c => !(c == '\'' || c == '"')).take count, b, ?_, hb, ?_, fun letters => ?_⟩
  · exact List.append_ne_nil_of_right_ne_nil _ (List.ne_nil_of_length_pos (by omega))
  · rw [List.append_assoc, List.append_assoc, ← List.append_assoc (List.take _ _), ← heq,
      List.takeWhile_append_dropWhile]
  · rw [Lexer.advance_plain _ fun c member => (List.mem_append.mp member).elim (letters c) (plain c), column,
      List.length_append, hquotes, Nat.add_assoc]
    rfl

theorem body_infix {t : Token} {first last : Char} {text : Text}
    (htext : t.text <:+: first :: (text ++ [last])) : (ofToken t).body <:+: text := by
  by_cases hbody : (ofToken t).body = []
  · rw [hbody]; exact List.nil_infix
  · obtain ⟨a, b, ha, hb, heq, -⟩ := body_within hbody
    obtain ⟨front, back, hwhole⟩ := htext
    rw [heq] at hwhole
    obtain ⟨x, front', hfront⟩ := List.exists_cons_of_ne_nil (List.append_ne_nil_of_right_ne_nil front ha)
    obtain ⟨back', y, hback⟩ := List.eq_nil_or_concat' (b ++ back) |>.resolve_left (by simp [hb])
    refine ⟨front', back', ?_⟩
    have hends : x :: (front' ++ (ofToken t).body ++ back' ++ [y]) = first :: (text ++ [last]) := by
      rw [← hwhole]
      calc x :: (front' ++ (ofToken t).body ++ back' ++ [y])
          = (x :: front') ++ (ofToken t).body ++ (back' ++ [y]) := by simp
        _ = (front ++ a) ++ (ofToken t).body ++ (b ++ back) := by rw [← hfront, ← hback]
        _ = front ++ (a ++ (ofToken t).body ++ b) ++ back := by simp
    exact (List.append_inj' (List.cons.inj hends).2 rfl).1

theorem unescape_of_not_mem {text : Text} (hplain : '\\' ∉ text) (fuel place : Nat) :
    unescape fuel place text = .ok (text.map .char) := by
  induction text generalizing fuel place with
  | nil => cases fuel <;> rfl
  | cons c rest ih =>
    obtain ⟨hc, hrest⟩ := not_or.1 (mt List.mem_cons.2 hplain)
    cases fuel with
    | zero => rfl
    | succ fuel => rw [unescape_plain _ _ _ _ (Ne.symm hc), ih hrest]; rfl

/-! ## Fields of formatted literals -/

theorem eq_of_doubled {q : Char} {text : Text} (h : [q, q].isPrefixOf text = true) :
    text = q :: q :: text.drop 2 := by
  obtain ⟨tail, rfl⟩ := List.isPrefixOf_iff_prefix.1 h
  rfl

theorem eq_of_head {c : Char} {text : Text} (h : (text.head? == some c) = true) :
    text = c :: text.drop 1 := by
  cases text with
  | nil => cases h
  | cons d rest => rw [Option.some.inj (eq_of_beq h)]; rfl

theorem reverse_cons_append (c : Char) (done text : Text) :
    (c :: done).reverse ++ text = done.reverse ++ c :: text := by simp

theorem expressionText_append {fuel : Nat} {s : FieldScan} {text expression rest : Text}
    (h : expressionText fuel s text = .ok (expression, rest)) :
    expression ++ rest = s.done.reverse ++ text := by
  fun_induction expressionText fuel s text with
  | case6 fuel s c after _ q hq hdoubled _ ih =>
    rw [eq_of_beq hq, eq_of_doubled hdoubled]
    simpa using ih h
  | case10 fuel s c after _ _ _ hdoubled ih =>
    rw [eq_of_doubled hdoubled]
    simpa using ih h
  | case15 fuel s c after _ _ _ _ _ _ hsign ih =>
    simp only [Bool.and_eq_true] at hsign
    rw [eq_of_head hsign.1.1]
    simpa using ih h
  | case17 => cases h; rfl
  | case7 | case8 | case9 | case11 | case13 | case16 | case19 | case21 =>
    rename_i ih
    exact (ih h).trans (reverse_cons_append _ _ _)
  | _ => cases h

theorem expressionText_stops {fuel : Nat} {s : FieldScan} {text expression rest : Text}
    (h : expressionText fuel s text = .ok (expression, rest)) :
    ∃ d back, rest = d :: back ∧ IsPlainChar d := by
  fun_induction expressionText fuel s text with
  | case17 =>
    rename_i isStop _ _
    cases h
    refine ⟨_, _, rfl, ?_⟩
    simp only [Bool.and_eq_true, Bool.or_eq_true, beq_iff_eq] at isStop
    rcases isStop.2 with ((((rfl | rfl) | rfl) | rfl) | rfl) | rfl <;> decide
  | case6 | case7 | case8 | case9 | case10 | case11 | case13 | case15 | case16 | case19 | case21 =>
    rename_i ih
    exact ih h
  | _ => cases h

theorem plainText_suffix {raw nested doubled : Bool} {fuel : Nat} {done text plain rest : Text}
    (h : plainText raw nested fuel done text = .ok (plain, doubled, rest)) : rest <:+ text := by
  fun_induction plainText raw nested fuel done text with
  | case1 => cases h; exact List.suffix_rfl
  | case2 => cases h; exact List.suffix_rfl
  | case3 fuel done c text _ ih => exact (ih h).trans (List.suffix_cons _ _)
  | case4 fuel done inner name after _ ih =>
    exact (ih h).trans ((List.drop_suffix 1 after).trans
      ((List.dropWhile_suffix _).trans ⟨chars "\\N\x7b", rfl⟩))
  | case5 fuel done c text _ _ ih => exact (ih h).trans ⟨['\\', c], rfl⟩
  | case6 => cases h; exact List.suffix_rfl
  | case7 fuel done c text =>
    cases h
    exact (List.drop_suffix 1 text).trans (List.suffix_cons c text)
  | case8 => cases h
  | case9 => cases h; exact List.suffix_rfl
  | case10 fuel done c text _ _ ih => exact (ih h).trans (List.suffix_cons c text)
/-- A field of a list of pieces, at any depth: the text of its expression and its place. -/
inductive Field : List Piece → Text → Nat → Nat → Prop where
  | here {expression : Text} {line column : Nat} {shown : Option Text} {conversion : Option Char}
      {format : Option (List Piece)} {rest : List Piece} :
      Field (.field expression line column shown conversion format :: rest) expression line column
  | inFormat {outer expression : Text} {l c line column : Nat} {shown : Option Text}
      {conversion : Option Char} {format rest : List Piece} :
      Field format expression line column →
      Field (.field outer l c shown conversion (some format) :: rest) expression line column
  | later {piece : Piece} {rest : List Piece} {expression : Text} {line column : Nat} :
      Field rest expression line column → Field (piece :: rest) expression line column

/-- An expression stands in a text that begins at a place, between a brace at another place and a plain character. -/
def FieldIn (place : Nat × Nat) (text expression : Text) (line column : Nat) : Prop :=
  ∃ front d back, text.CutAt place front ('\x7b' :: (expression ++ d :: back)) (line, column) ∧ IsPlainChar d

theorem FieldIn.within {place : Nat × Nat} {text expression : Text} {line column : Nat}
    (field : FieldIn place text expression line column) : expression <:+: text := by
  obtain ⟨front, d, back, cut, -⟩ := field
  exact ⟨front ++ ['\x7b'], d :: back, by rw [← cut.whole]; simp⟩

theorem FieldIn.mono {place place' : Nat × Nat} {part text front back expression : Text} {line column : Nat}
    (field : FieldIn place' part expression line column) (cut : text.CutAt place front (part ++ back) place') :
    FieldIn place text expression line column := by
  obtain ⟨before, d, behind, inner, plain⟩ := field
  have whole : before ++ ('\x7b' :: (expression ++ d :: (behind ++ back))) = part ++ back := by
    rw [← inner.whole]
    simp
  exact ⟨_, d, _, inner.place ▸ cut.moved whole, plain⟩

def FieldsWithin (found : List Piece) (place : Nat × Nat) (text : Text) : Prop :=
  ∀ expression line column, Field found expression line column → FieldIn place text expression line column

theorem FieldsWithin.mono {found : List Piece} {place place' : Nat × Nat} {part text front back : Text}
    (h : FieldsWithin found place' part) (cut : text.CutAt place front (part ++ back) place') :
    FieldsWithin found place text :=
  fun e l c hfield => (h e l c hfield).mono cut

theorem FieldsWithin.append {front found : List Piece} {place : Nat × Nat} {text : Text}
    (hfront : FieldsWithin front place text) (hfound : FieldsWithin found place text) :
    FieldsWithin (front ++ found) place text := by
  induction front with
  | nil => exact hfound
  | cons piece front ih =>
    intro e l c hfield
    cases hfield with
    | here => exact hfront _ _ _ .here
    | inFormat hformat => exact hfront _ _ _ (.inFormat hformat)
    | later hlater => exact ih (fun e l c h => hfront e l c (.later h)) e l c hlater

theorem FieldsWithin.nil (place : Nat × Nat) (text : Text) : FieldsWithin [] place text := by
  intro e l c hfield
  cases hfield

theorem plainPiece_fields {raw : Bool} {plain : Text} {found : List Piece}
    (h : plainPiece raw plain = .ok found) (place : Nat × Nat) (text : Text) :
    FieldsWithin found place text := by
  unfold plainPiece at h
  split at h
  · cases h; exact .nil place text
  · generalize (if raw = true then Except.ok (plain.map CodePoint.char)
      else unescape (plain.length + 1) 0 plain) = shown at h
    cases shown with
    | error => cases h
    | ok t =>
      cases h
      intro e l c hfield
      cases hfield with
      | later hlater => cases hlater

theorem FieldsWithin.field {outer : Text} {l c : Nat} {shown : Option Text} {conversion : Option Char}
    {format : Option (List Piece)} {place : Nat × Nat} {text : Text} (houter : FieldIn place text outer l c)
    (hformat : ∀ spec, format = some spec → FieldsWithin spec place text) :
    FieldsWithin [.field outer l c shown conversion format] place text := by
  intro e l' c' hfield
  cases hfield with
  | here => exact houter
  | inFormat hinner => exact hformat _ rfl _ _ _ hinner
  | later hlater => cases hlater

theorem cutting_ok {α : Type} {front : List Piece} {step : Except String α} {a : α}
    (h : cutting front step = .ok a) : step = .ok a := by
  cases step with
  | error => cases h
  | ok => cases h; rfl

theorem before_ok {front found : List Piece} {place : Nat × Nat} {rest : Text}
    {more : Cutting (List Piece × (Nat × Nat) × Text)} (h : before front more = .ok (found, place, rest)) :
    ∃ later, more = .ok (later, place, rest) ∧ found = front ++ later := by
  unfold before at h
  split at h
  case h_1 later _ _ => cases h; exact ⟨later, rfl, rfl⟩
  case h_2 => cases h

theorem shownMark_suffix (expression text : Text) : (shownMark expression text).2 <:+ text := by
  unfold shownMark
  split
  case h_1 more => exact (List.dropWhile_suffix _).trans (List.suffix_cons '=' more)
  case h_2 => exact List.suffix_rfl

theorem conversionMark_suffix {seen : List Piece} {text rest : Text} {conversion : Option Char}
    (h : conversionMark seen text = .ok (conversion, rest)) : rest <:+ text := by
  unfold conversionMark at h
  split at h
  case h_1 c more =>
    split at h
    · cases h; exact ⟨['!', c], rfl⟩
    · cases h
  case h_2 => cases h
  case h_3 => cases h; exact List.suffix_rfl

theorem take_of_append {front rest text : Text} (whole : front ++ rest = text) :
    text.take (text.length - rest.length) = front := by
  rw [← whole]
  simp

theorem pieces_within {raw : Bool} {fuel level : Nat} {place place' : Nat × Nat} {text rest : Text}
    {found : List Piece} (h : pieces raw fuel level place text = .ok (found, place', rest)) :
    (∃ front, text.CutAt place front rest place') ∧ FieldsWithin found place text := by
  induction fuel generalizing level place place' text rest found with
  | zero => cases h; exact ⟨⟨[], rfl, rfl⟩, .nil place text⟩
  | succ fuel ih =>
    unfold pieces at h
    obtain ⟨⟨plain, doubled, afterPlain⟩, hplain, rest₁⟩ := Sandbox.bind_ok h
    obtain ⟨head, hhead, rest₂⟩ := Sandbox.bind_ok rest₁
    clear h rest₁
    obtain ⟨front, whole⟩ := plainText_suffix (cutting_ok hplain)
    have hheadFields := plainPiece_fields (cutting_ok hhead) place text
    simp only [take_of_append whole, ← Lexer.advance_eq_foldl] at rest₂
    have cut : text.CutAt place front afterPlain (Lexer.advance place front) := ⟨whole, rfl⟩
    have runs : ∀ {found : List Piece} {place₁ place' : Nat × Nat} {front₁ back rest : Text} {level : Nat},
        text.CutAt place front₁ back place₁ → pieces raw fuel level place₁ back = .ok (found, place', rest) →
        (∃ front, text.CutAt place front rest place') ∧ FieldsWithin found place text := by
      intro found place₁ place' front₁ back rest level cut₁ run
      obtain ⟨⟨taken, inner⟩, hfields⟩ := ih run
      have all : text.CutAt place front₁ (back ++ []) place₁ := by rwa [List.append_nil]
      exact ⟨⟨_, inner.place ▸ cut₁.moved inner.whole⟩, hfields.mono all⟩
    have goOn : ∀ {head found : List Piece} {place₁ place' : Nat × Nat} {front₁ back rest : Text} {level : Nat},
        text.CutAt place front₁ back place₁ → FieldsWithin head place text →
        before head (pieces raw fuel level place₁ back) = .ok (found, place', rest) →
        (∃ front, text.CutAt place front rest place') ∧ FieldsWithin found place text := by
      intro head found place₁ place' front₁ back rest level cut₁ hhead more
      obtain ⟨later, hlater, rfl⟩ := before_ok more
      obtain ⟨left, hfields⟩ := runs cut₁ hlater
      exact ⟨left, hhead.append hfields⟩
    split at rest₂
    · exact goOn cut hheadFields rest₂
    · split at rest₂
      case h_1 => cases rest₂; exact ⟨⟨front, cut⟩, hheadFields⟩
      case h_3 => cases rest₂; exact ⟨⟨front, cut⟩, hheadFields⟩
      case h_2 inner =>
        split at rest₂
        · cases rest₂
        · obtain ⟨⟨expression, afterExpression⟩, hexpression, rest₃⟩ := Sandbox.bind_ok rest₂
          have hcut : expression ++ afterExpression = inner :=
            expressionText_append (cutting_ok hexpression)
          obtain ⟨d, back, hstop, plainStop⟩ := expressionText_stops (cutting_ok hexpression)
          simp only at rest₃
          clear rest₂
          split at rest₃
          · cases rest₃
          · generalize hmark : shownMark expression afterExpression = mark at rest₃
            have hshown : mark.2 <:+ afterExpression := hmark ▸ shownMark_suffix expression afterExpression
            obtain ⟨⟨conversion, afterConversion⟩, hconversion, rest₄⟩ := Sandbox.bind_ok rest₃
            have hconversionSuffix : afterConversion <:+ inner := by
              rw [← hcut]
              exact (conversionMark_suffix hconversion).trans (hshown.trans (List.suffix_append _ _))
            simp only at rest₄
            obtain ⟨⟨format, place'', afterFormat⟩, hformat, rest₅⟩ := Sandbox.bind_ok rest₄
            clear rest₃ rest₄
            simp only at rest₅ hformat
            have houter : FieldIn place text expression (Lexer.advance place front).1
                (Lexer.advance place front).2 := by
              refine ⟨front, d, back, ?_, plainStop⟩
              rw [← hstop, hcut]
              exact cut
            -- What is between the brace and what is left.
            have inside : ∀ {more}, more <:+ inner → ∃ front', text.CutAt place front' more
                (Lexer.advance (Lexer.advance place front)
                  ((text.take (text.length - more.length)).drop (text.length - inner.length - 1))) := by
              rintro more ⟨mid, rfl⟩
              have taken : ('\x7b' :: mid) ++ more = '\x7b' :: (mid ++ more) := rfl
              have moved := cut.moved taken
              have size : text.length - (mid ++ more).length - 1 = front.length := by
                rw [← whole]
                simp
                omega
              rw [take_of_append moved.whole, size, List.drop_left]
              exact ⟨_, moved⟩
            have hspec : (∃ front', text.CutAt place front' afterFormat place'') ∧
                ∀ spec, format = some spec → FieldsWithin spec place text := by
              split at hformat
              case h_1 => cases hformat
              case h_2 more _ =>
                split at hformat
                case h_1 spec _ _ hrun =>
                  cases hformat
                  obtain ⟨front', cut'⟩ := inside ((List.suffix_cons ':' more).trans hconversionSuffix)
                  obtain ⟨left, hfields⟩ := runs cut' hrun
                  refine ⟨left, ?_⟩
                  rintro spec' ⟨⟩
                  exact hfields
                case h_2 => cases hformat
              case h_3 =>
                cases hformat
                exact ⟨inside hconversionSuffix, nofun⟩
            split at rest₅
            case h_1 after =>
              obtain ⟨⟨front', cut'⟩, hformatFields⟩ := hspec
              have brace : ['\x7d'] ++ after = '\x7d' :: after := rfl
              have closed := cut'.moved brace
              exact goOn closed (hheadFields.append (.field houter hformatFields)) rest₅
            case h_2 => cases rest₅

/-- The expressions of the fields of a formatted literal stand at their places in its body. -/
theorem split_fields {s : StringLiteral} {found : List Piece} (h : s.split = .ok found) :
    FieldsWithin found (s.line, s.column) s.body := by
  obtain ⟨⟨all, place, rest⟩, hpieces, hrest⟩ := Sandbox.bind_ok h
  simp only at hrest
  split at hrest
  · cases hrest; exact (pieces_within hpieces).2
  · cases hrest

/-! ## Fields in their tokens -/

def fieldEnd (expression : Text) (line column : Nat) : Nat ×ₗ Nat :=
  toLex (Lexer.advance (line, column) ('(' :: (expression ++ [')'])))

theorem fieldEnd_eq {expression : Text} {d : Char} (plain : IsPlainChar d) (line column : Nat) :
    fieldEnd expression line column = toLex (Lexer.advance (line, column) ('\x7b' :: (expression ++ [d]))) := by
  have brace : Lexer.advance (line, column) ['('] = Lexer.advance (line, column) ['\x7b'] := rfl
  have paren : ∀ c ∈ [')'], IsPlainChar c := List.forall_mem_singleton.mpr ⟨rfl, rfl⟩
  have close : ∀ p, Lexer.advance p [')'] = Lexer.advance p [d] := fun p => by
    rw [Lexer.advance_plain p (show ∀ c ∈ [d], IsPlainChar c by simpa using plain), Lexer.advance_plain p paren]
    rfl
  unfold fieldEnd
  rw [← List.singleton_append, ← List.singleton_append (l := expression ++ [d]), Lexer.advance_append,
    Lexer.advance_append, Lexer.advance_append, Lexer.advance_append, brace, close]

section Token

variable {t : Token} {pieces : List Piece} {expression : Text} {line column : Nat}

theorem field_cut (letters : ∀ c ∈ t.text.takeWhile fun c => !(c == '\'' || c == '"'), IsPlainChar c)
    (split : (ofToken t).split = .ok pieces) (field : Field pieces expression line column) :
    ∃ front d back, t.text.CutAt (t.line, t.column) front (('\x7b' :: (expression ++ [d])) ++ back) (line, column) ∧
      IsPlainChar d := by
  obtain ⟨front, d, back, inner, plain⟩ := split_fields split _ _ _ field
  have nonempty : (ofToken t).body ≠ [] := by
    rw [← inner.whole]
    simp
  obtain ⟨opening, close, -, -, literal, moves⟩ := body_within nonempty
  refine ⟨opening ++ front, d, back ++ close, ⟨?_, ?_⟩, plain⟩
  · rw [literal, ← inner.whole]
    simp
  · rw [Lexer.advance_append, moves letters, inner.place]

theorem field_inside {options : LexOptions} {text : Text} (member : t ∈ (Lexer.run options text).tokens)
    (isString : t.kind = .string) (split : (ofToken t).split = .ok pieces)
    (field : Field pieces expression line column) :
    t.start ≤ toLex (line, column) ∧ fieldEnd expression line column ≤ t.stop := by
  have known := Lexer.run_cut member
  obtain ⟨front, d, back, cut, plain⟩ := field_cut (known.literal isString).letters split field
  refine ⟨cut.start_le, ?_⟩
  rw [fieldEnd_eq plain, Token.stop, ← known.extent]
  exact (cut.moved rfl).le_end

end Token

end StringLiteral

end MacroExpand
