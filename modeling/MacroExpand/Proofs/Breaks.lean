import MacroExpand.Edit
import MacroExpand.Syntax.Lexer
import MacroExpand.Proofs.Tokens

/-!
# Places of a text, whatever ends its lines

Cutting tokens counts line feeds after all ends of lines were made such, and bytes; edits count lines that end in three
ways, and characters.  Here the two are brought together: a place of the text with line feeds is a place on a line of
the text itself, and the text between two such places has as many ends of lines as the lines of the places are apart.
-/

set_option autoImplicit false

namespace MacroExpand

namespace Text

/-! ## Lines and what ends them -/

/-- How many lines end in a text, by whatever ends them. -/
def countBreaks (text : Text) : Nat := text.unifyLineEnds.countFeeds

def hasLoneReturn : Text → Bool
  | [] => false
  | '\r' :: '\n' :: rest => hasLoneReturn rest
  | c :: rest => c == '\r' || hasLoneReturn rest

/-- No line ends in the text. -/
def Flat (text : Text) : Prop := '\n' ∉ text ∧ '\r' ∉ text

/-- A text that ends a line in front of another. -/
inductive EndsLine : Text → Text → Prop where
  | feed (rest : Text) : EndsLine ['\n'] rest
  | both (rest : Text) : EndsLine ['\r', '\n'] rest
  | lone {rest : Text} (noFeed : rest.head? ≠ some '\n') : EndsLine ['\r'] rest

def Apart (front back : Text) : Prop := front.getLast? = some '\r' → back.head? ≠ some '\n'

theorem flat_nil : Flat [] := by simp [Flat]

theorem flat_cons {c : Char} {text : Text} : Flat (c :: text) ↔ (c ≠ '\n' ∧ c ≠ '\r') ∧ Flat text := by
  simp only [Flat, List.mem_cons, not_or, ne_eq, eq_comm]
  tauto

theorem flat_append {a b : Text} : Flat (a ++ b) ↔ Flat a ∧ Flat b := by
  simp only [Flat, List.mem_append, not_or]
  tauto

theorem Flat.apart {front : Text} (flat : Flat front) (back : Text) : Apart front back :=
  fun isLast => absurd (List.mem_of_getLast? isLast) flat.2

/-- A text is one line without an end, or its first line ends in front of the others. -/
theorem cases_lines (text : Text) :
    Flat text ∨ ∃ body ending rest, text = body ++ (ending ++ rest) ∧ Flat body ∧ EndsLine ending rest := by
  induction text with
  | nil => exact .inl flat_nil
  | cons c text ih =>
    by_cases plain : c ≠ '\n' ∧ c ≠ '\r'
    · rcases ih with flat | ⟨body, ending, rest, rfl, flat, ends⟩
      · exact .inl (flat_cons.mpr ⟨plain, flat⟩)
      · exact .inr ⟨c :: body, ending, rest, rfl, flat_cons.mpr ⟨plain, flat⟩, ends⟩
    · right
      rw [not_and_or, not_not, not_not] at plain
      rcases plain with rfl | rfl
      · exact ⟨[], ['\n'], text, rfl, flat_nil, .feed text⟩
      · by_cases next : text.head? = some '\n'
        · obtain ⟨rest, rfl⟩ := List.head?_eq_some_iff.mp next
          exact ⟨[], ['\r', '\n'], rest, rfl, flat_nil, .both rest⟩
        · exact ⟨[], ['\r'], text, rfl, flat_nil, .lone next⟩

/-- What holds of one line, and of a text whenever it holds of the text behind its first line, holds of every text. -/
theorem lineInduction {motive : Text → Prop} (last : ∀ text, Flat text → motive text)
    (line : ∀ body ending rest, Flat body → EndsLine ending rest → motive rest → motive (body ++ (ending ++ rest)))
    (text : Text) : motive text := by
  induction h : text.length using Nat.strongRecOn generalizing text with
  | ind n ih =>
    rcases cases_lines text with flat | ⟨body, ending, rest, rfl, flat, ends⟩
    · exact last text flat
    · have shorter : rest.length < n := by
        rw [← h]
        cases ends <;> simp <;> omega
      exact line body ending rest flat ends (ih rest.length shorter rest rfl)

variable {text body ending rest front back : Text}

/-! ### What cutting and counting make of a line -/

theorem splitFrom_flat (flat : Flat text) (done : Text) :
    splitFrom done text = if done.isEmpty && text.isEmpty then [] else [done.reverse ++ text] := by
  induction text generalizing done with
  | nil => cases done <;> simp [splitFrom]
  | cons c text ih =>
    obtain ⟨plain, flat⟩ := flat_cons.mp flat
    rw [splitFrom, if_neg (by tauto), ih flat]
    · simp
    · rintro _ rfl
      exact absurd rfl plain.2

theorem splitFrom_line (flat : Flat body) (ends : EndsLine ending rest) (done : Text) :
    splitFrom done (body ++ (ending ++ rest)) = (done.reverse ++ (body ++ ending)) :: lines rest := by
  induction body generalizing done with
  | nil =>
    cases ends with
    | feed => simp [splitFrom, lines]
    | both => simp [splitFrom, lines]
    | lone noFeed =>
      rw [List.nil_append, List.cons_append, List.nil_append, splitFrom]
      · simp [lines]
      · rintro more - rfl
        exact noFeed rfl
  | cons c body ih =>
    obtain ⟨plain, flat⟩ := flat_cons.mp flat
    rw [List.cons_append, splitFrom, if_neg (by tauto), ih flat]
    · simp
    · rintro _ rfl
      exact absurd rfl plain.2

theorem lines_flat (flat : Flat text) : text.lines = if text.isEmpty then [] else [text] := by
  simpa [lines] using splitFrom_flat flat []

theorem lines_line (flat : Flat body) (ends : EndsLine ending rest) :
    lines (body ++ (ending ++ rest)) = (body ++ ending) :: lines rest := by
  simpa [lines] using splitFrom_line flat ends []

theorem unify_flat (flat : Flat text) : text.unifyLineEnds = text := by
  induction text with
  | nil => rfl
  | cons c text ih =>
    obtain ⟨plain, flat⟩ := flat_cons.mp flat
    rw [unifyLineEnds, if_neg plain.2, ih flat]
    rintro _ rfl
    exact absurd rfl plain.2

theorem unify_line (flat : Flat body) (ends : EndsLine ending rest) :
    unifyLineEnds (body ++ (ending ++ rest)) = body ++ '\n' :: rest.unifyLineEnds := by
  induction body with
  | nil =>
    cases ends with
    | feed => rfl
    | both => rfl
    | lone noFeed =>
      rw [List.nil_append, List.cons_append, List.nil_append, unifyLineEnds, if_pos rfl]
      · rfl
      · rintro more - rfl
        exact noFeed rfl
  | cons c body ih =>
    obtain ⟨plain, flat⟩ := flat_cons.mp flat
    rw [List.cons_append, unifyLineEnds, if_neg plain.2, ih flat]
    · rfl
    · rintro _ rfl
      exact absurd rfl plain.2

theorem countBreaks_flat (flat : Flat text) : text.countBreaks = 0 := by
  rw [countBreaks, unify_flat flat]
  exact List.count_eq_zero.mpr flat.1

theorem countBreaks_line (flat : Flat body) (ends : EndsLine ending rest) :
    countBreaks (body ++ (ending ++ rest)) = rest.countBreaks + 1 := by
  have none : body.count '\n' = 0 := List.count_eq_zero.mpr flat.1
  simp [countBreaks, unify_line flat ends, countFeeds, List.count_append, none]

theorem dropTerminator_flat (flat : Flat text) : text.dropTerminator = text := by
  have stays : text.reverse.dropWhile (fun c => c == '\r' || c == '\n') = text.reverse := by
    cases h : text.reverse with
    | nil => rfl
    | cons c more =>
      have member : c ∈ text := List.mem_reverse.mp (h ▸ List.mem_cons_self)
      refine List.dropWhile_cons_of_neg ?_
      rw [Bool.or_eq_true, beq_iff_eq, beq_iff_eq, not_or]
      exact ⟨fun same => flat.2 (same ▸ member), fun same => flat.1 (same ▸ member)⟩
  rw [dropTerminator, stays, List.reverse_reverse]

theorem dropTerminator_line (flat : Flat body) (ends : EndsLine ending rest) :
    (body ++ ending).dropTerminator = body := by
  have dropped : (body ++ ending).dropTerminator = body.dropTerminator := by
    cases ends <;> simp [dropTerminator]
  rw [dropped, dropTerminator_flat flat]

theorem exists_terminator (line : Text) :
    ∃ ending, line = line.dropTerminator ++ ending ∧ ∀ c ∈ ending, c = '\r' ∨ c = '\n' := by
  refine ⟨(line.reverse.takeWhile fun c => c == '\r' || c == '\n').reverse, ?_, fun c member => ?_⟩
  · rw [dropTerminator, ← List.reverse_append, List.takeWhile_append_dropWhile, List.reverse_reverse]
  · simpa using List.mem_takeWhile_imp (List.mem_reverse.mp member)

theorem flat_dropTerminator (k : Nat) : Flat (text.lines.getD k []).dropTerminator := by
  induction text using lineInduction generalizing k with
  | last text flat =>
    rw [lines_flat flat]
    have each : (text.lines.getD k []) = [] ∨ text.lines.getD k [] = text := by
      rw [lines_flat flat]
      cases text.isEmpty <;> cases k <;> simp
    rw [lines_flat flat] at each
    rcases each with none | same
    · rw [none, dropTerminator_flat flat_nil]
      exact flat_nil
    · rwa [same, dropTerminator_flat flat]
  | line body ending rest flat ends ih =>
    rw [lines_line flat ends]
    cases k with
    | zero => rwa [List.getD_cons_zero, dropTerminator_line flat ends]
    | succ k => exact ih k

/-! ## Cuts and ends of lines -/

/-- Between two parts that are apart each end of a line lies in one of them. -/
theorem unify_append (apart : Apart front back) :
    unifyLineEnds (front ++ back) = front.unifyLineEnds ++ back.unifyLineEnds := by
  induction front using unifyLineEnds.induct with
  | case1 => rfl
  | case2 rest ih =>
    have apart : Apart rest back := by
      intro isLast
      refine apart ?_
      cases rest with
      | nil => cases isLast
      | cons c more => exact isLast
    rw [List.cons_append, List.cons_append, unifyLineEnds, unifyLineEnds, ih apart, List.cons_append]
  | case3 c rest noPair ih =>
    have later : Apart rest back := by
      intro isLast
      refine apart ?_
      cases rest with
      | nil => cases isLast
      | cons d more => exact isLast
    rw [List.cons_append, unifyLineEnds, unifyLineEnds, ih later, List.cons_append]
    · exact noPair
    · rintro more rfl whole
      cases rest with
      | nil => exact apart rfl (by rw [← List.nil_append back, whole]; rfl)
      | cons d rest' =>
        obtain ⟨rfl, -⟩ := List.cons.inj whole
        exact noPair rest' rfl rfl

theorem countBreaks_append (apart : Apart front back) :
    countBreaks (front ++ back) = front.countBreaks + back.countBreaks := by
  rw [countBreaks, unify_append apart]
  exact List.count_append

theorem countBreaks_of_noReturn (noReturn : '\r' ∉ text) : text.countBreaks = text.countFeeds := by
  have stays : text.unifyLineEnds = text := by
    induction text with
    | nil => rfl
    | cons c rest ih =>
      rw [List.mem_cons, not_or] at noReturn
      rw [unifyLineEnds, if_neg (Ne.symm noReturn.1), ih noReturn.2]
      rintro _ rfl
      exact absurd rfl noReturn.1
  rw [countBreaks, stays]

theorem countBreaks_of_hasLoneReturn (noLone : text.hasLoneReturn = false) : text.countBreaks = text.countFeeds := by
  unfold countBreaks countFeeds
  induction text using unifyLineEnds.induct with
  | case1 => rfl
  | case2 rest ih => simpa [unifyLineEnds] using ih noLone
  | case3 c rest noPair ih =>
    rw [hasLoneReturn, Bool.or_eq_false_iff, beq_eq_false_iff_ne] at noLone
    · rw [unifyLineEnds, if_neg noLone.1, List.count_cons, List.count_cons, ih noLone.2]
      exact noPair
    · exact noPair

/-! ## Places on lines -/

/-- The characters of a line without its end.  Lines count from one. -/
def lineBody (text : Text) (line : Nat) : Text := (text.lines.getD (line - 1) []).dropTerminator

/-- A place on a line of a text, not behind the end of the line. -/
structure HasPosition (text : Text) (p : Position) : Prop where
  positive : 0 < p.line
  line : p.line ≤ text.countBreaks + 1
  column : p.column ≤ (text.lineBody p.line).length

theorem countBreaks_le (text : Text) : text.countBreaks ≤ text.lines.length := by
  induction text using lineInduction with
  | last text flat => simp [countBreaks_flat flat]
  | line body ending rest flat ends ih =>
    rw [countBreaks_line flat ends, lines_line flat ends, List.length_cons]
    omega

theorem exists_cut {k column : Nat} (line : k ≤ text.countBreaks)
    (inside : column ≤ (text.lines.getD k []).dropTerminator.length) :
    ∃ front back, text = front ++ back ∧ Apart front back ∧ front.countBreaks = k ∧
      front.length = (text.lines.take k).flatten.length + column := by
  induction text using lineInduction generalizing k with
  | last text flat =>
    rw [countBreaks_flat flat] at line
    obtain rfl : k = 0 := by omega
    have parts : Flat (text.take column ++ text.drop column) := by rwa [List.take_append_drop]
    have left := (flat_append.mp parts).1
    refine ⟨text.take column, text.drop column, (List.take_append_drop _ _).symm, left.apart _,
      countBreaks_flat left, ?_⟩
    have short : column ≤ text.length := by
      rw [lines_flat flat] at inside
      cases text with
      | nil => simpa [dropTerminator] using inside
      | cons c more => simpa [dropTerminator_flat flat] using inside
    simp [short]
  | line body ending rest flat ends ih =>
    rw [countBreaks_line flat ends] at line
    rw [lines_line flat ends] at inside ⊢
    cases k with
    | zero =>
      have short : column ≤ body.length := by simpa [dropTerminator_line flat ends] using inside
      have parts : Flat (body.take column ++ body.drop column) := by rwa [List.take_append_drop]
      have left := (flat_append.mp parts).1
      refine ⟨body.take column, body.drop column ++ (ending ++ rest), ?_, left.apart _, countBreaks_flat left, ?_⟩
      · rw [← List.append_assoc, ← List.append_assoc, ← List.append_assoc, List.take_append_drop]
      · simp [short]
    | succ k =>
      obtain ⟨front, back, rfl, apart, breaks, length⟩ := ih (by omega) inside
      have ends' : EndsLine ending front := by
        cases ends with
        | feed => exact .feed front
        | both => exact .both front
        | lone noFeed =>
          refine .lone fun feed => noFeed ?_
          rw [List.head?_append, feed]
          rfl
      refine ⟨body ++ (ending ++ front), back, by simp, ?_, by rw [countBreaks_line flat ends', breaks], ?_⟩
      · -- The last character is that of the end of the line only if nothing follows it.
        intro isLast
        cases front with
        | nil =>
          cases ends with
          | feed => simp at isLast
          | both => simp at isLast
          | lone noFeed => exact noFeed
        | cons c more =>
          refine apart ?_
          rwa [← List.append_assoc, List.getLast?_append_of_ne_nil _ (by simp)] at isLast
      · simp [length]
        omega

/-! ## Offsets -/

theorem startsFrom_getElem? {lines : List Text} {k : Nat} (short : k ≤ lines.length) (offset : Nat) :
    (startsFrom offset lines)[k]? = some (offset + (lines.take k).flatten.length) := by
  induction lines generalizing k offset with
  | nil =>
    obtain rfl : k = 0 := by simpa using short
    rfl
  | cons line rest ih =>
    cases k with
    | zero => rfl
    | succ k =>
      rw [startsFrom, List.getElem?_cons_succ, ih (by simpa using short)]
      simp [Nat.add_assoc]

theorem startsFrom_length (offset : Nat) (lines : List Text) :
    (startsFrom offset lines).length = lines.length + 1 := by
  induction lines generalizing offset with
  | nil => rfl
  | cons line rest ih => simp [startsFrom, ih]

theorem offsetIn_lineStarts {p : Position} (positive : 0 < p.line) (short : p.line ≤ text.lines.length + 1) :
    offsetIn text.lineStarts p =
      some (((text.lines.take (p.line - 1)).flatten.length + p.column : Nat) : Int) := by
  have index : indexIn text.lineStarts.length ((p.line : Int) - 1) = some (p.line - 1) := by
    have noWrap : ¬ (p.line : Int) - 1 < 0 := by omega
    rw [indexIn, lineStarts, startsFrom_length, if_neg noWrap, if_pos (by omega)]
    congr
    omega
  simp only [offsetIn, index]
  rw [lineStarts, startsFrom_getElem? (by omega)]
  simp

theorem HasPosition.exists_cut {p : Position} (has : text.HasPosition p) :
    ∃ front back, text = front ++ back ∧ Apart front back ∧ front.countBreaks + 1 = p.line ∧
      offsetIn text.lineStarts p = some (front.length : Int) := by
  have line : p.line - 1 ≤ text.countBreaks := Nat.sub_le_of_le_add has.line
  obtain ⟨front, back, whole, apart, breaks, length⟩ := Text.exists_cut line has.column
  have positive := has.positive
  refine ⟨front, back, whole, apart, by omega, ?_⟩
  rw [offsetIn_lineStarts positive (by have short := text.countBreaks_le; omega), length]

theorem HasPosition.exists_offset {p : Position} (has : text.HasPosition p) :
    ∃ offset, offsetIn text.lineStarts p = some offset := by
  obtain ⟨front, _, _, _, _, offset⟩ := has.exists_cut
  exact ⟨_, offset⟩

/-- Between two cuts of a text lies a part of it, with the ends of lines that the first cut does not have in front. -/
theorem exists_between {front back front' back' : Text} (first : text = front ++ back) (last : text = front' ++ back')
    (apart : Apart front back) (ordered : front.length ≤ front'.length) :
    ∃ between, front' = front ++ between ∧ front'.countBreaks = front.countBreaks + between.countBreaks := by
  obtain ⟨between, rfl⟩ : front <+: front' :=
    List.prefix_of_prefix_length_le ⟨back, first.symm⟩ ⟨back', last.symm⟩ ordered
  have rest : back = between ++ back' := by
    rw [first, List.append_assoc] at last
    exact List.append_cancel_left last
  refine ⟨between, rfl, countBreaks_append fun isLast feed => apart isLast ?_⟩
  rw [rest, List.head?_append, feed]
  rfl

theorem slice_nat (text : Text) (start stop : Nat) : text.slice start stop = (text.drop start).take (stop - start) := by
  have clipped : ∀ n : Nat, clip text.length n = n := by
    intro n
    rw [clip, if_neg (by omega)]
    rfl
  rw [slice, clipped, clipped]

/-- Between two places of a text as many lines end as the lines of the places are apart. -/
theorem slice_breaks {p q : Position} {start stop : Int} (first : text.HasPosition p) (last : text.HasPosition q)
    (isStart : offsetIn text.lineStarts p = some start) (isStop : offsetIn text.lineStarts q = some stop) :
    (text.slice start stop).countBreaks = q.line - p.line := by
  obtain ⟨front, back, whole, apart, line, offset⟩ := first.exists_cut
  obtain ⟨front', back', whole', apart', line', offset'⟩ := last.exists_cut
  obtain rfl := Option.some.inj (isStart.symm.trans offset)
  obtain rfl := Option.some.inj (isStop.symm.trans offset')
  rw [slice_nat]
  rcases Nat.le_total front.length front'.length with ordered | reversed
  · obtain ⟨between, isFront, breaks⟩ := exists_between whole whole' apart ordered
    have slice : (text.drop front.length).take (front'.length - front.length) = between := by
      rw [whole', isFront]
      simp
    rw [slice]
    omega
  · obtain ⟨between, -, breaks⟩ := exists_between whole' whole apart' reversed
    rw [Nat.sub_eq_zero_of_le reversed, List.take_zero, countBreaks_flat flat_nil]
    omega

/-! ## Places among line feeds -/

theorem byteLength_append (a b : Text) : byteLength (a ++ b) = byteLength a + byteLength b := by
  have sum : ∀ (text : Text) (n : Nat), text.foldl (fun n c => n + c.utf8Size) n = n + byteLength text := by
    intro text
    induction text with
    | nil => exact fun n => rfl
    | cons c rest ih =>
      intro n
      rw [byteLength, List.foldl_cons, List.foldl_cons, ih, ih (0 + c.utf8Size)]
      omega
  rw [byteLength, List.foldl_append, sum]
  rfl

theorem byteLength_cons (c : Char) (text : Text) : byteLength (c :: text) = c.utf8Size + byteLength text := by
  have split := byteLength_append [c] text
  simpa [byteLength] using split

theorem advance_flat (place : Nat × Nat) (noFeed : '\n' ∉ text) :
    Lexer.advance place text = (place.1, place.2 + byteLength text) := by
  induction text generalizing place with
  | nil => rfl
  | cons c rest ih =>
    rw [List.mem_cons, not_or] at noFeed
    rw [Lexer.advance, if_neg (Ne.symm noFeed.1), ih _ noFeed.2, byteLength_cons]
    simp [Nat.add_assoc]

theorem charsBefore_append (front back : Text) : charsBefore (front ++ back) (byteLength front) = front.length := by
  induction front with
  | nil => cases back <;> rfl
  | cons c front ih =>
    have positive := c.utf8Size_pos
    obtain ⟨more, size⟩ : ∃ more, byteLength (c :: front) = more + 1 := ⟨byteLength (c :: front) - 1, by
      rw [byteLength_cons]
      omega⟩
    have rest : more + 1 - c.utf8Size = byteLength front := by
      rw [← size, byteLength_cons]
      omega
    rw [List.cons_append, size, charsBefore, rest, ih, List.length_cons, Nat.add_comm]

structure LineCut (line front back before behind : Text) : Prop where
  whole : line = before ++ behind
  front : ∃ earlier, front = earlier ++ before ∧ (earlier = [] ∨ earlier.getLast? = some '\n')
  back : ∃ later, back = behind ++ later ∧ (later = [] ∨ later.head? = some '\n')

theorem LineCut.prefix_behind {line before behind part more : Text} (cut : LineCut line front back before behind)
    (whole : part ++ more = back) (noFeed : '\n' ∉ part) : part <+: behind := by
  obtain ⟨later, isBack, ends⟩ := cut.back
  rcases List.append_eq_append_iff.mp (whole.trans isBack) with ⟨rest, rfl, -⟩ | ⟨rest, rfl, rfl⟩
  · exact List.prefix_append part rest
  · cases rest with
    | nil => rw [List.append_nil]
    | cons c rest =>
      rcases ends with none | feed
      · cases none
      · cases feed
        exact absurd (by simp) noFeed

theorem LineCut.mem_before {line before behind : Text} (cut : LineCut line front back before behind)
    (inked : front.Inked) : ∃ d ∈ before, isBlank d = false := by
  obtain ⟨earlier, isFront, ends⟩ := cut.front
  obtain ⟨others, d, rest, rfl, noBlank, flat⟩ := inked
  refine ⟨d, ?_, noBlank⟩
  rcases List.append_eq_append_iff.mp isFront with ⟨more, rfl, isRest⟩ | ⟨more, rfl, isRest⟩
  · cases more with
    | nil =>
      obtain rfl : d :: rest = before := isRest
      exact List.mem_cons_self
    | cons c more =>
      -- a line would end behind the character
      obtain ⟨rfl, rfl⟩ := List.cons.inj isRest
      have feed := ends.resolve_left (by simp)
      rw [List.getLast?_append_of_ne_nil _ (by simp)] at feed
      rcases List.mem_cons.mp (List.mem_of_getLast? feed) with rfl | inRest
      · cases noBlank
      · exact absurd (List.mem_append_left _ inRest) flat
  · exact isRest ▸ List.mem_append_right _ List.mem_cons_self

/-- Where the text is cut whose lines end with line feeds, a line of the text itself is parted. -/
theorem place_of_cut {front back : Text} {first line column : Nat} (cut : front ++ back = text.unifyLineEnds)
    (place : Lexer.advance (first, 0) front = (line, column)) :
    first ≤ line ∧ line - first ≤ text.countBreaks ∧ ∃ before behind,
      LineCut (text.lines.getD (line - first) []).dropTerminator front back before behind ∧
        byteLength before = column := by
  induction text using lineInduction generalizing front first with
  | last text flat =>
    rw [unify_flat flat] at cut
    subst cut
    obtain ⟨left, -⟩ := flat_append.mp flat
    rw [advance_flat _ left.1] at place
    obtain ⟨rfl, rfl⟩ := Prod.mk.inj place
    have onlyLine : ((front ++ back).lines.getD 0 []).dropTerminator = front ++ back := by
      rw [lines_flat flat]
      cases whole : (front ++ back).isEmpty with
      | true => rw [List.isEmpty_iff.mp whole]; rfl
      | false => exact dropTerminator_flat flat
    rw [Nat.sub_self, onlyLine]
    exact ⟨Nat.le_refl _, Nat.zero_le _, front, back, ⟨rfl, ⟨[], rfl, .inl rfl⟩, [], by simp, .inl rfl⟩, by simp⟩
  | line body ending rest flat ends ih =>
    rw [unify_line flat ends] at cut
    rw [countBreaks_line flat ends, lines_line flat ends]
    -- The cut is on the first line, or behind it.
    have onFirst : ∀ more, body = front ++ more → back = more ++ '\n' :: rest.unifyLineEnds →
        first ≤ line ∧ line - first ≤ rest.countBreaks + 1 ∧ ∃ before behind,
          LineCut (((body ++ ending) :: rest.lines).getD (line - first) []).dropTerminator front back before behind ∧
            byteLength before = column := by
      rintro more rfl rfl
      obtain ⟨left, -⟩ := flat_append.mp flat
      rw [advance_flat _ left.1] at place
      obtain ⟨rfl, rfl⟩ := Prod.mk.inj place
      rw [Nat.sub_self, List.getD_cons_zero, dropTerminator_line flat ends]
      exact ⟨Nat.le_refl _, Nat.zero_le _, front, more, ⟨rfl, ⟨[], rfl, .inl rfl⟩, _, rfl, .inr rfl⟩, by simp⟩
    rcases List.append_eq_append_iff.mp cut with ⟨more, isBody, isBack⟩ | ⟨taken, rfl, whole⟩
    · exact onFirst more isBody isBack
    · cases taken with
      | nil => exact onFirst [] (by simp) whole.symm
      | cons c later =>
        obtain ⟨rfl, cut'⟩ := List.cons.inj whole
        have place' : Lexer.advance (first + 1, 0) later = (line, column) := by
          rw [Lexer.advance_append, advance_flat _ flat.1, Lexer.advance, if_pos rfl] at place
          exact place
        obtain ⟨reached, within, before, behind, ⟨parts, ⟨earlier, isLater, begins⟩, isBack⟩, columns⟩ :=
          ih cut'.symm place'
        have next : line - first = line - (first + 1) + 1 := by omega
        rw [next, List.getD_cons_succ]
        refine ⟨by omega, by omega, before, behind, ⟨parts, ⟨body ++ '\n' :: earlier, by simp [isLater], ?_⟩, isBack⟩,
          columns⟩
        right
        rcases begins with rfl | feed
        · simp
        · rw [List.getLast?_append_of_ne_nil _ (by simp), List.getLast?_cons, feed]
          rfl

/-- A place of a file, its line ends made alike and its last line ended, is cut in front of the last line feed. -/
theorem cut_of_endLine {front back : Text} (cut : front ++ back = text.endLine)
    (inside : back = [] → front.getLast? ≠ some '\n') :
    ∃ back', front ++ back' = text ∧ (back = back' ∨ back = back' ++ ['\n']) := by
  have ends : text.endLine.getLast? = some '\n' := by
    unfold endLine
    split
    · assumption
    · simp
  have more : back ≠ [] := by
    rintro rfl
    rw [List.append_nil] at cut
    exact inside rfl (cut ▸ ends)
  unfold endLine at cut
  split at cut
  · exact ⟨back, cut, .inl rfl⟩
  · obtain ⟨others, last, rfl⟩ := (List.eq_nil_or_concat' back).resolve_left more
    rw [← List.append_assoc] at cut
    obtain ⟨whole, feed⟩ := List.append_inj' cut rfl
    exact ⟨others, whole, .inr (by rw [feed])⟩

theorem CutAt.line {front back : Text} {line column : Nat}
    (cut : text.unifyLineEnds.endLine.CutAt (1, 0) front back (line, column))
    (inside : back = [] → front.getLast? ≠ some '\n') :
    0 < line ∧ line ≤ text.countBreaks + 1 ∧ ∃ before behind,
      LineCut (text.lineBody line) front back before behind ∧ byteLength before = column := by
  obtain ⟨back', whole, isBack⟩ := cut_of_endLine cut.whole inside
  obtain ⟨reached, within, before, behind, ⟨parts, isFront, later, rfl, ends⟩, columns⟩ := place_of_cut whole cut.place
  refine ⟨reached, by omega, before, behind, ⟨parts, isFront, ?_⟩, columns⟩
  rcases isBack with rfl | rfl
  · exact ⟨later, rfl, ends⟩
  · refine ⟨later ++ ['\n'], by simp, .inr ?_⟩
    rcases ends with rfl | feed
    · rfl
    · rw [List.head?_append, feed]
      rfl

theorem LineCut.charsBefore {line : Nat} {before behind : Text}
    (cut : LineCut (text.lineBody line) front back before behind) :
    charsBefore (text.lines.getD (line - 1) []) (byteLength before) = before.length := by
  obtain ⟨ending, isLine, -⟩ := exists_terminator (text.lines.getD (line - 1) [])
  have whole : (text.lines.getD (line - 1) []).dropTerminator = before ++ behind := cut.whole
  rw [isLine, whole, List.append_assoc, charsBefore_append]

theorem HasPlace.position {line column : Nat} (hasPlace : text.unifyLineEnds.endLine.HasPlace (1, 0) (line, column)) :
    text.HasPosition ⟨line, charsBefore (text.lines.getD (line - 1) []) column⟩ := by
  obtain ⟨front, back, cut, inside⟩ := hasPlace
  obtain ⟨reached, within, before, behind, parts, rfl⟩ := cut.line inside
  refine ⟨reached, within, ?_⟩
  rw [parts.charsBefore, parts.whole]
  simp

/-- On the line of a character that is no blank, the first such character is not behind the end of the line. -/
theorem SolidAt.position {line column : Nat} (solid : text.unifyLineEnds.endLine.SolidAt (1, 0) (line, column)) :
    text.HasPosition ⟨line, (text.lines.getD (line - 1) []).length - (text.lines.getD (line - 1) []).trimLeft.length⟩ := by
  obtain ⟨front, back, cut, c, rest, rfl, plain⟩ := solid
  obtain ⟨reached, within, before, behind, parts, -⟩ := cut.line nofun
  have noFeed : '\n' ∉ [c] := by
    rw [List.mem_singleton]
    rintro rfl
    cases plain
  have inBody : c ∈ text.lineBody line := by
    rw [parts.whole]
    exact List.mem_append_right _ ((parts.prefix_behind (show [c] ++ rest = c :: rest from rfl) noFeed).subset (List.mem_singleton_self c))
  refine ⟨reached, within, ?_⟩
  unfold lineBody at inBody ⊢
  dsimp only
  obtain ⟨ending, isLine, ends⟩ := exists_terminator (text.lines.getD (line - 1) [])
  generalize text.lines.getD (line - 1) [] = l at inBody isLine
  have stops : (l.takeWhile isBlank).length ≤ l.dropTerminator.length := by
    conv => lhs; rw [isLine]
    rw [List.takeWhile_append, if_neg]
    · exact (List.takeWhile_prefix isBlank).length_le
    · intro all
      have blank := List.takeWhile_eq_self_iff.mp ((List.takeWhile_prefix isBlank).eq_of_length all) c inBody
      rw [plain] at blank
      cases blank
  have parts := congrArg List.length (List.takeWhile_append_dropWhile (p := isBlank) (l := l))
  rw [List.length_append] at parts
  change l.length - (l.dropWhile isBlank).length ≤ _
  omega

end Text

end MacroExpand
