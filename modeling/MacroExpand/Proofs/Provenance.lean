import Mathlib.Data.List.DropRight
import MacroExpand.Proofs.Passes
import MacroExpand.Proofs.LineGuard
import MacroExpand.Proofs.Passing

/-!
# Comments that name macros

A pass with comments does what it does without them, and its code is the other code with a comment at the end of some
lines.  Cutting passes over such a comment, so both codes are cut into the same tokens at the same places, as long as
no line with a comment ends inside a string or with a backslash (`noted_code_cut_alike`).  A removed statement that
shares its lines with others leaves lines that end with backslashes, and a comment behind one breaks the code.
-/

set_option autoImplicit false

namespace MacroExpand

/-! ## Notes on lines -/

namespace Text

variable {a b front ending line text : Text}

theorem Passed.append (first : Passed a) (rest : Passed b) : Passed (a ++ b) := by
  induction first with
  | nil => exact rest
  | blank _ ih => exact .blank ih
  | comment oneLine =>
    refine .comment fun member => ?_
    exact (List.mem_append.mp member).elim oneLine rest.oneLine

theorem IsNote.append (first : IsNote a) (rest : IsNote b) : IsNote (a ++ b) := by
  obtain rfl | ⟨more, rfl, passed⟩ := first
  · exact rest
  · exact .inr ⟨more ++ b, rfl, passed.append rest.passed⟩

def withNote (note line : Text) : Text := line.dropTerminator ++ note ++ line.drop line.dropTerminator.length

/-- The lines of a text with notes. -/
def notedLines (note : Nat → Text) (lines : List Text) : List Text :=
  lines.mapIdx fun k line => withNote (note (k + 1)) line

theorem dropTerminator_append (stays : front.dropTerminator = front) (ends : ∀ c ∈ ending, c = '\r' ∨ c = '\n') :
    (front ++ ending).dropTerminator = front := by
  have all : ∀ c ∈ ending.reverse, (c == '\r' || c == '\n') = true := by
    intro c member
    simpa using ends c (List.mem_reverse.mp member)
  unfold dropTerminator at stays ⊢
  rw [List.reverse_append, List.dropWhile_append_of_pos all, stays]

theorem dropTerminator_dropTerminator (line : Text) : line.dropTerminator.dropTerminator = line.dropTerminator := by
  unfold dropTerminator
  rw [List.reverse_reverse, List.dropWhile_idempotent _ _]

theorem dropTerminator_note (line : Text) (flat : Flat a) :
    (line.dropTerminator ++ a).dropTerminator = line.dropTerminator ++ a := by
  rcases List.eq_nil_or_concat a with rfl | ⟨a, c, rfl⟩
  · rw [List.append_nil, dropTerminator_dropTerminator]
  · have plain : ¬ (c == '\r' || c == '\n') = true := by
      simp only [List.concat_eq_append, flat_append, flat_cons] at flat
      simpa [and_comm] using flat.2.1
    rw [List.concat_eq_append, ← List.append_assoc]
    generalize line.dropTerminator ++ a = front
    unfold dropTerminator
    rw [List.reverse_concat, List.dropWhile_cons_of_neg (by simpa using plain), List.reverse_cons, List.reverse_reverse]

theorem withNote_withNote (flat : Flat a) (b line : Text) : withNote b (withNote a line) = withNote (a ++ b) line := by
  obtain ⟨ending, whole, ends⟩ := exists_terminator line
  have rest : line.drop line.dropTerminator.length = ending := by
    conv_lhs => rw [whole, dropTerminator_append (dropTerminator_dropTerminator line) ends, List.drop_left]
  have front : (withNote a line).dropTerminator = line.dropTerminator ++ a := by
    rw [withNote, rest]
    exact dropTerminator_append (dropTerminator_note line flat) ends
  rw [withNote, front, withNote, withNote, rest, List.drop_left]
  simp

end Text

namespace Emit

open Text (withNote notedLines Flat IsNote)

variable {tag : Text} {lines lines' : List Text}

structure Notes (lines lines' : List Text) (note : Nat → Text) : Prop where
  isNote : ∀ n, (note n).IsNote
  flat : ∀ n, Flat (note n)
  inside : ∀ n, lines.length < n → note n = []
  written : lines' = notedLines note lines

def comment (tag : Text) (names : List String) : Text :=
  chars "  # " ++ Text.joinWith (chars ", ") (names.map fun n => tag ++ ' ' :: n.toList)

theorem noteOn_eq (tag : Text) (names : List String) (line : Text) :
    noteOn tag names line = withNote (comment tag names) line := by
  unfold noteOn withNote comment
  simp

theorem flat_joinWith {separator : Text} (flat : Flat separator) {parts : List Text} (each : ∀ part ∈ parts, Flat part) :
    Flat (Text.joinWith separator parts) := by
  unfold Text.joinWith
  induction parts with
  | nil => exact Text.flat_nil
  | cons first rest ih =>
    have later := ih fun part member => each part (.tail _ member)
    cases rest with
    | nil => simpa [List.intercalate] using each first (.head _)
    | cons second rest =>
      rw [List.intercalate_cons_cons]
      exact Text.flat_append.mpr ⟨Text.flat_append.mpr ⟨each first (.head _), flat⟩, later⟩

theorem flat_comment (oneLine : Flat tag) {names : List String} (named : ∀ name ∈ names, Flat name.toList) :
    Flat (comment tag names) := by
  have mark : Flat (chars "  # ") := ⟨by decide, by decide⟩
  have comma : Flat (chars ", ") := ⟨by decide, by decide⟩
  refine Text.flat_append.mpr ⟨mark, flat_joinWith comma fun part member => ?_⟩
  obtain ⟨name, isName, rfl⟩ := List.mem_map.mp member
  exact Text.flat_append.mpr ⟨oneLine, Text.flat_cons.mpr ⟨by decide, named name isName⟩⟩

theorem isNote_comment (oneLine : Flat tag) {names : List String} (named : ∀ name ∈ names, Flat name.toList) :
    (comment tag names).IsNote := by
  have flat := (flat_comment oneLine named).1
  refine .inr ⟨_, rfl, .blank (.comment fun member => flat ?_)⟩
  exact .tail _ (.tail _ (.tail _ member))

theorem Notes.modify {note : Nat → Text} (notes : Notes lines lines' note) {k : Nat} (exists_ : k < lines.length)
    {more : Text} (isNote : more.IsNote) (flat : Flat more) :
    Notes lines (lines'.modify k (withNote more))
      (Function.update note (k + 1) (note (k + 1) ++ more)) where
  isNote n := by
    rcases eq_or_ne n (k + 1) with rfl | other
    · rw [Function.update_self]
      exact (notes.isNote _).append isNote
    · rw [Function.update_of_ne other]
      exact notes.isNote n
  flat n := by
    rcases eq_or_ne n (k + 1) with rfl | other
    · rw [Function.update_self]
      exact Text.flat_append.mpr ⟨notes.flat _, flat⟩
    · rw [Function.update_of_ne other]
      exact notes.flat n
  inside n behind := by
    rw [Function.update_of_ne (by omega)]
    exact notes.inside n behind
  written := by
    rw [notes.written, notedLines, notedLines]
    refine List.ext_getElem (by simp) fun i left right => ?_
    rw [List.getElem_modify, List.getElem_mapIdx, List.getElem_mapIdx]
    split
    case isTrue same =>
      subst same
      rw [Function.update_self, Text.withNote_withNote (notes.flat _)]
    case isFalse other => rw [Function.update_of_ne (by omega)]

theorem Notes.write {note : Nat → Text} (notes : Notes lines lines' note) {entry : Nat × List String}
    {lines'' : List Text} (oneLine : Flat tag) (named : ∀ name ∈ entry.2, Flat name.toList)
    (written : writeNote tag lines' entry = .ok lines'') :
    ∃ note', Notes lines lines'' note' ∧ ∀ n, note' n = note n ∨ note' n = note n ++ comment tag entry.2 := by
  have isNote := isNote_comment oneLine named
  have flat := flat_comment oneLine named
  have length : lines'.length = lines.length := by simp [notes.written, notedLines]
  have same : noteOn tag entry.2 = withNote (comment tag entry.2) := funext (noteOn_eq tag entry.2)
  have updated : ∀ k n, Function.update note (k + 1) (note (k + 1) ++ comment tag entry.2) n = note n ∨
      Function.update note (k + 1) (note (k + 1) ++ comment tag entry.2) n = note n ++ comment tag entry.2 := by
    intro k n
    rcases eq_or_ne n (k + 1) with rfl | other
    · exact .inr (Function.update_self ..)
    · exact .inl (Function.update_of_ne other ..)
  unfold writeNote at written
  split at written
  · cases written
    exact ⟨note, notes, fun _ => .inl rfl⟩
  · split at written
    · split at written
      · cases written
      · rename_i some
        cases written
        have positive : 0 < lines'.length := List.length_pos_iff.mpr (by simpa using some)
        rw [same]
        exact ⟨_, notes.modify (by omega) isNote flat, updated _⟩
    · cases written
      rw [same]
      exact ⟨_, notes.modify (by omega) isNote flat, updated _⟩

theorem mem_addNote {line : Nat} {name : String} {notes : List (Nat × List String)} {entry : Nat × List String}
    (member : entry ∈ addNote line name notes) {other : String} (isName : other ∈ entry.2) :
    other = name ∨ ∃ entry' ∈ notes, other ∈ entry'.2 := by
  induction notes with
  | nil =>
    rw [addNote, List.mem_singleton] at member
    subst member
    exact .inl (List.mem_singleton.mp isName)
  | cons first rest ih =>
    rw [addNote] at member
    split at member
    · rcases List.mem_cons.mp member with rfl | later
      · dsimp only at isName
        split at isName
        · exact .inr ⟨first, .head _, isName⟩
        · rcases List.mem_append.mp isName with before | new
          · exact .inr ⟨first, .head _, before⟩
          · exact .inl (List.mem_singleton.mp new)
      · exact .inr ⟨entry, .tail _ later, isName⟩
    · rcases List.mem_cons.mp member with rfl | later
      · exact .inr ⟨_, .head _, isName⟩
      · exact (ih later).imp_right fun ⟨entry', isEntry, isName⟩ => ⟨entry', .tail _ isEntry, isName⟩

theorem mem_notes {safe : List Nat} {edits : List Edit} {entry : Nat × List String} (member : entry ∈ notes safe edits)
    {name : String} (isName : name ∈ entry.2) : ∃ e ∈ edits, e.source = some name := by
  refine List.foldlRecOn (motive := fun notes => ∀ entry ∈ notes, name ∈ entry.2 → ∃ e ∈ edits, e.source = some name)
    edits _ ?_ ?_ entry member isName
  · rintro entry ⟨⟩
  · intro before ih e isEdit entry member isName
    split at member
    case h_1 source isSource =>
      rcases mem_addNote member isName with rfl | ⟨entry', before, isName⟩
      · exact ⟨e, isEdit, isSource⟩
      · exact ih entry' before isName
    case h_2 => exact ih entry member isName

theorem notes_ne_nil {safe : List Nat} {edits : List Edit} {entry : Nat × List String}
    (member : entry ∈ notes safe edits) : entry.2 ≠ [] := by
  have added : ∀ {line : Nat} {name : String} {notes : List (Nat × List String)}, (∀ entry ∈ notes, entry.2 ≠ []) →
      ∀ entry ∈ addNote line name notes, entry.2 ≠ [] := by
    intro line name notes some
    induction notes with
    | nil => simp [addNote]
    | cons first rest ih =>
      have here := some first (.head _)
      have later := ih fun entry member => some entry (.tail _ member)
      intro entry member
      rw [addNote] at member
      split at member
      · rcases List.mem_cons.mp member with rfl | behind
        · dsimp only
          split
          · exact here
          · simp
        · exact some entry (.tail _ behind)
      · rcases List.mem_cons.mp member with rfl | behind
        · exact here
        · exact later entry behind
  refine List.foldlRecOn (motive := fun notes => ∀ entry ∈ notes, entry.2 ≠ []) edits _ ?_ ?_ entry member
  · rintro entry ⟨⟩
  · intro before ih e isEdit
    split
    case h_1 => exact added ih
    case h_2 => exact ih

theorem notes_refl (lines : List Text) : Notes lines lines fun _ => [] where
  isNote _ := .inl rfl
  flat _ := Text.flat_nil
  inside _ _ := rfl
  written := by
    unfold notedLines
    refine List.ext_getElem (by simp) fun i left right => ?_
    rw [List.getElem_mapIdx]
    obtain ⟨ending, whole, ends⟩ := Text.exists_terminator lines[i]
    have dropped := congrArg (List.drop lines[i].dropTerminator.length) whole
    rw [List.drop_left] at dropped
    rw [withNote, List.append_nil, dropped]
    exact whole

inductive Comments (tag : Text) (isMacro : String → Prop) : Text → Prop where
  | none : Comments tag isMacro []
  | more {text : Text} {names : List String} (before : Comments tag isMacro text) (some : names ≠ [])
      (named : ∀ name ∈ names, isMacro name) : Comments tag isMacro (text ++ comment tag names)

theorem Comments.flat {isMacro : String → Prop} {text : Text} (oneLine : Flat tag)
    (named : ∀ name, isMacro name → Flat name.toList) (comments : Comments tag isMacro text) : Flat text := by
  induction comments with
  | none => exact Text.flat_nil
  | more _ _ isNamed ih =>
    exact Text.flat_append.mpr ⟨ih, flat_comment oneLine fun name member => named name (isNamed name member)⟩

/-- Naming macros leaves the code as it is but for notes, which name the macros of the edits. -/
theorem annotate_notes {code source noted : Text} {edits : List Edit} (oneLine : Flat tag)
    (named : ∀ e ∈ edits, ∀ name, e.source = some name → Flat name.toList)
    (annotated : annotate code source edits tag = .ok noted) :
    ∃ note, Notes code.lines (notedLines note code.lines) note ∧ noted = (notedLines note code.lines).flatten ∧
      ∀ n, Comments tag (fun name => ∃ e ∈ edits, e.source = some name) (note n) := by
  have all : ∀ (entries : List (Nat × List String)) (lines lines' : List Text) (note : Nat → Text),
      (∀ entry ∈ entries, entry.2 ≠ [] ∧ ∀ name ∈ entry.2, ∃ e ∈ edits, e.source = some name) → Notes code.lines lines note →
      (∀ n, Comments tag (fun name => ∃ e ∈ edits, e.source = some name) (note n)) →
      entries.foldlM (writeNote tag) lines = .ok lines' → ∃ note', Notes code.lines lines' note' ∧
        ∀ n, Comments tag (fun name => ∃ e ∈ edits, e.source = some name) (note' n) := by
    intro entries
    induction entries with
    | nil =>
      intro lines lines' note _ notes comments written
      cases written
      exact ⟨note, notes, comments⟩
    | cons entry rest ih =>
      intro lines lines' note isNamed notes comments written
      rw [List.foldlM_cons] at written
      obtain ⟨next, first, written⟩ := Sandbox.bind_ok written
      obtain ⟨some, ofEdit⟩ := isNamed entry (.head _)
      obtain ⟨note', notes, updated⟩ := notes.write oneLine (fun name isName => by
        obtain ⟨e, isEdit, isSource⟩ := ofEdit name isName
        exact named e isEdit name isSource) first
      refine ih next lines' note' (fun entry member => isNamed entry (.tail _ member)) notes (fun n => ?_) written
      rcases updated n with same | more
      · exact same ▸ comments n
      · exact more ▸ (comments n).more some ofEdit
  unfold annotate at annotated
  split at annotated
  case h_2 => cases annotated
  rename_i safe _
  rw [pure_bind] at annotated
  dsimp only at annotated
  split at annotated
  · rename_i lines written
    cases annotated
    obtain ⟨note, notes, comments⟩ := all _ _ _ _
      (fun entry member => ⟨notes_ne_nil member, fun name isName => mem_notes member isName⟩) (notes_refl code.lines) (fun _ => .none) written
    obtain rfl := notes.written
    exact ⟨note, notes, rfl, comments⟩
  · cases annotated

end Emit

/-! ## Lines of code with notes -/

namespace Text

variable {text body ending rest : Text} {note : Nat → Text}

theorem notedLines_cons (note : Nat → Text) (line : Text) (lines : List Text) :
    notedLines note (line :: lines) = withNote (note 1) line :: notedLines (fun n => note (n + 1)) lines := by
  rw [notedLines, List.mapIdx_cons]
  rfl

theorem withNote_flat (flat : Flat text) (note : Text) : withNote note text = text ++ note := by
  rw [withNote, dropTerminator_flat flat, List.drop_length, List.append_nil]

theorem withNote_line (flat : Flat body) (ends : EndsLine ending rest) (note : Text) :
    withNote note (body ++ ending) = body ++ note ++ ending := by
  rw [withNote, dropTerminator_line flat ends, List.drop_left]

theorem endLine_append (front : Text) (some : rest ≠ []) : endLine (front ++ rest) = front ++ endLine rest := by
  have last : (front ++ rest).getLast? = rest.getLast? := by
    rw [List.getLast?_append]
    cases isLast : rest.getLast? with
    | none => exact absurd (List.getLast?_eq_none_iff.mp isLast) some
    | some c => rfl
  unfold endLine
  rw [last]
  split
  · rfl
  · rw [List.append_assoc]

theorem unify_eq_nil : text.unifyLineEnds = [] ↔ text = [] := by
  constructor
  · intro none
    unfold unifyLineEnds at none
    split at none
    · rfl
    · cases none
    · cases none
  · rintro rfl
    rfl

theorem endLine_flat (flat : Flat text) : text.endLine = text ++ ['\n'] := by
  rw [endLine, if_neg]
  exact fun isLast => flat.1 (List.mem_of_getLast? isLast)

theorem withNotes_none (line : Nat) (text : Text) : withNotes (fun _ => []) line text = text := by
  have bare := @withNotes_bare (fun _ => []) line text (fun _ _ _ => rfl) []
  simpa [withNotes] using bare

/-- What notes make of the lines of a text, where its lines begin behind the `k`th one. -/
structure Noted (note : Nat → Text) (k : Nat) (text noted : Text) : Prop where
  lines : noted.lines = notedLines (fun n => note (n + k)) text.lines
  cut : noted.unifyLineEnds.endLine = withNotes note (k + 1) text.unifyLineEnds.endLine
  head : text.head? ≠ some '\n' → noted.head? ≠ some '\n'
  some : text ≠ [] → noted ≠ []

theorem noted_flatten (flat : ∀ n, Flat (note n)) (text : Text) (k : Nat)
    (inside : ∀ n, text.lines.length + k < n → note n = []) :
    Noted note k text (notedLines (fun n => note (n + k)) text.lines).flatten := by
  induction text using lineInduction generalizing k with
  | last text isFlat =>
    cases text with
    | nil =>
      have none : note (k + 1) = [] := inside (k + 1) (by simp [lines_flat flat_nil])
      refine ⟨rfl, ?_, fun _ => nofun, fun some => absurd rfl some⟩
      change ['\n'] = withNotes note (k + 1) ['\n']
      rw [withNotes_feed, none]
      rfl
    | cons c text =>
      have isNoted : Flat (c :: text ++ note (1 + k)) := flat_append.mpr ⟨isFlat, flat _⟩
      have single : (notedLines (fun n => note (n + k)) [c :: text]).flatten = c :: text ++ note (1 + k) := by
        rw [notedLines_cons, withNote_flat isFlat]
        simp [notedLines]
      rw [lines_flat isFlat, if_neg (by simp), single]
      refine ⟨?_, ?_, ?_, fun _ => List.cons_ne_nil _ _⟩
      · rw [lines_flat isNoted, lines_flat isFlat, if_neg (by simp), if_neg (by simp), notedLines_cons,
          withNote_flat isFlat]
        rfl
      · rw [unify_flat isNoted, unify_flat isFlat, endLine_flat isNoted, endLine_flat isFlat,
          withNotes_append isFlat.1, Nat.add_comm k, withNotes_feed]
        simp [withNotes]
      · intro noFeed
        simpa using noFeed
  | line body ending rest isFlat ends ih =>
    have lines := lines_line isFlat ends
    have shift : (fun n => note (n + 1 + k)) = fun n => note (n + (k + 1)) := by
      funext n
      congr 1
      omega
    have behind := ih (k + 1) fun n before => inside n (by
      rw [lines, List.length_cons]
      omega)
    rw [lines, notedLines_cons, withNote_line isFlat ends, shift, List.flatten_cons]
    have last : rest = [] → (notedLines (fun n => note (n + (k + 1))) rest.lines).flatten = [] := by
      rintro rfl
      rfl
    generalize (notedLines (fun n => note (n + (k + 1))) rest.lines).flatten = tail at behind last
    have isNoted : Flat (body ++ note (1 + k)) := flat_append.mpr ⟨isFlat, flat _⟩
    have ends' : EndsLine ending tail := by
      cases ends with
      | feed => exact .feed tail
      | both => exact .both tail
      | lone noFeed => exact .lone (behind.head noFeed)
    rw [List.append_assoc (body ++ note (1 + k))]
    refine ⟨?_, ?_, ?_, ?_⟩
    · rw [lines_line isNoted ends', lines, notedLines_cons, withNote_line isFlat ends, shift, behind.lines]
    · rw [unify_line isNoted ends', unify_line isFlat ends]
      rw [endLine_append _ (List.cons_ne_nil _ _), endLine_append _ (List.cons_ne_nil _ _), List.append_assoc,
        withNotes_append isFlat.1, Nat.add_comm 1]
      by_cases none : rest = []
      · obtain rfl := last none
        subst none
        exact congrArg (body ++ ·) (withNotes_feed note (k + 1) []).symm
      · have some : unifyLineEnds tail ≠ [] := fun same => behind.some none (unify_eq_nil.mp same)
        have some' : rest.unifyLineEnds ≠ [] := fun same => none (unify_eq_nil.mp same)
        have next : ∀ {more : Text}, more ≠ [] → endLine ('\n' :: more) = '\n' :: endLine more :=
          fun some => endLine_append ['\n'] some
        rw [next some, next some', withNotes_feed, behind.cut]
    · cases body with
      | nil =>
        intro noFeed
        cases isNote : note (1 + k) with
        | nil => cases ends <;> simp at noFeed ⊢
        | cons c more =>
          have plain := (flat_cons.mp (isNote ▸ flat (1 + k))).1.1
          simpa using plain
      | cons c body => exact fun noFeed => noFeed
    · intro _
      cases ends <;> simp

theorem backslash_line (text : Text) {front back : Text}
    (whole : text.unifyLineEnds.endLine = front ++ '\\' :: '\n' :: back) :
    (text.lineBody (front.count '\n' + 1)).getLast? = some '\\' := by
  unfold lineBody
  rw [Nat.add_sub_cancel]
  -- The first line feed stands behind the first line.
  have first : ∀ {body more front back : Text}, Flat body → body ++ '\n' :: more = front ++ '\\' :: '\n' :: back →
      (body = front ++ ['\\'] ∧ more = back) ∨
        ∃ front', front = body ++ '\n' :: front' ∧ more = front' ++ '\\' :: '\n' :: back := by
    intro body more front back flat whole
    have whole : body ++ '\n' :: more = (front ++ ['\\']) ++ '\n' :: back := by rw [whole, List.append_assoc]; rfl
    obtain ⟨between, isFront, rest⟩ | ⟨between, rfl, rest⟩ := List.append_eq_append_iff.mp whole
    · cases between with
      | nil => exact .inl ⟨by rw [isFront, List.append_nil], (List.cons.inj rest).2⟩
      | cons c between =>
        obtain ⟨rfl, isMore⟩ := List.cons.inj rest
        rcases List.eq_nil_or_concat between with rfl | ⟨between, d, rfl⟩
        · have last := congrArg List.getLast? isFront
          simp at last
        · have same : front ++ ['\\'] = (body ++ '\n' :: between) ++ [d] := by rw [isFront]; simp
          obtain ⟨fronts, isLast⟩ := List.append_inj' same rfl
          obtain rfl := (List.cons.inj isLast).1
          exact .inr ⟨between, fronts, by rw [isMore]; simp⟩
    · cases between with
      | nil => exact .inl ⟨List.append_nil _, (List.cons.inj rest).2.symm⟩
      | cons c between =>
        obtain ⟨rfl, -⟩ := List.cons.inj rest
        exact absurd (List.mem_append_right _ (.head _)) flat.1
  induction text using lineInduction generalizing front back with
  | last text flat =>
    rw [unify_flat flat, endLine_flat flat] at whole
    obtain ⟨rfl, -⟩ | ⟨front', -, none⟩ := first flat whole
    · rw [List.count_eq_zero.mpr (flat_append.mp flat).1.1, lines_flat flat, if_neg (by simp), List.getD_cons_zero,
        dropTerminator_flat flat]
      simp
    · simp at none
  | line body ending rest flat ends ih =>
    rw [unify_line flat ends, endLine_append _ (List.cons_ne_nil _ _)] at whole
    rw [lines_line flat ends]
    obtain ⟨more, isMore, behind⟩ : ∃ more, endLine ('\n' :: rest.unifyLineEnds) = '\n' :: more ∧
        (more = [] ∨ more = rest.unifyLineEnds.endLine) := by
      by_cases none : rest = []
      · subst none
        exact ⟨[], rfl, .inl rfl⟩
      · refine ⟨_, ?_, .inr rfl⟩
        rw [← List.singleton_append, endLine_append _ fun same => none (unify_eq_nil.mp same)]
        rfl
    rw [isMore] at whole
    obtain ⟨rfl, -⟩ | ⟨front', rfl, rfl⟩ := first flat whole
    · rw [List.count_eq_zero.mpr (flat_append.mp flat).1.1, List.getD_cons_zero, dropTerminator_line flat ends]
      simp
    · rw [List.count_append, List.count_cons_self, List.count_eq_zero.mpr flat.1, Nat.zero_add, List.getD_cons_succ]
      exact ih (behind.resolve_left (by simp)).symm

end Text

/-! ## Passes with and without comments -/

namespace Pass

variable {σ : Type}

/-- Settings say how results are shared, and nothing else about how calls are replaced. -/
theorem expandSites_settings (c : Context σ) (settings : Settings)
    (result : Definition → CallSite → Text → PassM σ Text) (r : Rewriting) (sites : List CallSite) :
    expandSites { c with settings } result r sites = expandSites c result r sites := by
  induction sites generalizing r with
  | nil => rfl
  | cons site rest ih =>
    rw [expandSites, expandSites]
    cases c.scan.definition? site.name with
    | none => exact ih r
    | some callee =>
      simp only [ih]
      rfl

theorem expandMacro_settings (c : Context σ) {settings : Settings}
    (same : settings.cachePolicy = c.settings.cachePolicy) (free : Nat) (chain : List String) :
    expandMacro { c with settings } free chain = expandMacro c free chain := by
  induction free generalizing chain with
  | zero =>
    funext d site arguments
    rfl
  | succ free ih =>
    funext d site arguments
    rw [expandMacro, expandMacro]
    simp only [ih, same]
    have body : ∀ result, expandBody { c with settings } result d = expandBody c result d := by
      intro result
      unfold expandBody
      simp only [expandSites_settings]
    simp only [body]
    rfl

end Pass

theorem emit_noted {tree : Tree} {source : Text} {edits : List Edit} {options : EmitOptions} {noted : Emitted}
    (retained : options.retainLines = true) (oneLine : options.provenanceTag.Flat)
    (named : ∀ e ∈ edits, ∀ name, e.source = some name → Text.Flat name.toList)
    (emitted : emit tree source edits { options with provenance := true } = .ok noted) :
    ∃ plain note, emit tree source edits { options with provenance := false } = .ok plain ∧
      plain.sourceMap = noted.sourceMap ∧ Emit.Notes plain.code.lines noted.code.lines note ∧
      noted.code.unifyLineEnds.endLine = Text.withNotes note 1 plain.code.unifyLineEnds.endLine := by
  unfold emit at emitted ⊢
  rw [if_pos retained] at emitted ⊢
  obtain ⟨kept, isKept, emitted⟩ := Sandbox.bind_ok emitted
  obtain ⟨⟨⟩, checked, emitted⟩ := Sandbox.bind_ok emitted
  obtain ⟨code, spliced, emitted⟩ := Sandbox.bind_ok emitted
  rw [if_pos rfl] at emitted
  obtain ⟨code', annotated, emitted⟩ := Sandbox.bind_ok emitted
  cases emitted
  have subset : ∀ e ∈ kept.map PlacedEdit.edit, e ∈ edits := by
    intro e member
    obtain ⟨k, isKept', rfl⟩ := List.mem_map.mp member
    exact (Edit.mem_outermost (EmitError.ok_of_orEdit isKept) isKept').1
  obtain ⟨note, notes, rfl, -⟩ := Emit.annotate_notes oneLine (fun e member => named e (subset e member)) annotated
  have whole := Text.noted_flatten notes.flat code 0 notes.inside
  have lines : Text.lines (Text.notedLines note code.lines).flatten = Text.notedLines note code.lines := whole.lines
  have length : (Text.lines (Text.notedLines note code.lines).flatten).length = code.lines.length := by
    rw [lines, Text.notedLines, List.length_mapIdx]
  refine ⟨⟨code, { SourceMap.ofFile options.fileName with mappings := SourceMap.lineMappings code.lines.length }⟩, note,
    ?_, ?_, ?_, whole.cut⟩
  · simp only [isKept, checked, spliced, bind, Except.bind]
    rfl
  · dsimp only
    rw [length]
  · dsimp only
    rw [lines]
    exact notes

/-- No line ends in the name of a macro that is called. -/
theorem Scan.Found.flat_name {ctx : Scan.Context} {tree : Tree} {scan : Scan} (found : Scan.Found ctx tree scan)
    {text : Text} {typeComments : Bool} {version : Nat} (parsed : parseModule text typeComments version = .ok tree)
    {site : CallSite} (member : site ∈ scan.sites) : Text.Flat site.name.toList := by
  rw [found.sites] at member
  obtain ⟨call, inside, name, free, isCallee, rfl⟩ :=
    Scan.CallContext.exists_call (Scan.CallContext.mem_callsOf.mp member)
  obtain ⟨-, callee, calls⟩ :=
    (Scan.CallContext.callee?_eq_some ((shaped_of_parseModule parsed).of_mem inside)).mp isCallee
  have oneLine := oneLine_of_parseModule parsed callee
    (Tree.mem_nodes_trans inside (Tree.mem_nodes_of_child calls.child (Tree.mem_nodes_self callee)))
  obtain ⟨-, -, usage, isName⟩ := calls
  rw [isName] at oneLine
  exact (of_decide_eq_true oneLine : '\n' ∉ name.toList ∧ '\r' ∉ name.toList)

namespace Pass

variable {σ : Type}

def expandedEntry (c : Context σ) (path : Text) : LogEntry :=
  ⟨.info, .pass, chars "Expanded " ++ path ++ chars ": " ++ Nat.toDigits 10 c.scan.definitions.length ++
    chars " macro(s), " ++ Nat.toDigits 10 c.scan.sites.length ++ chars " call site(s)"⟩

/-- Settings that share results alike replace calls alike, and then say how the code is emitted. -/
theorem outcome_expandFile {c : Context σ} {settings : Settings} (same : settings.cachePolicy = c.settings.cachePolicy)
    (path : Text) (tree : Tree) (s : PassState σ) :
    (expandFile { c with settings } path tree).outcome s =
      match (expandSites c (expandMacro c c.scan.definitions.length []) {} c.scan.sites).outcome s with
      | (.error e, t) => (.error e, t)
      | (.ok r, t) =>
        let removal := (Removal.Context.of c.scan.definitions c.lines).strip (Rewriting.apply r.expansions tree)
        match emit removal.kept c.source (r.edits ++ removal.edits) (emitOptions settings path) with
        | .error e => (.error (.emit e), { t with log := t.log ++ removal.log })
        | .ok emitted => (.ok ⟨emitted, c.scan.names⟩,
            { t with log := t.log ++ removal.log ++ [expandedEntry c path] }) := by
  unfold expandFile
  dsimp only
  rw [expandMacro_settings c same, expandSites_settings, PassM.outcome_bind]
  rcases (expandSites c (expandMacro c c.scan.definitions.length []) {} c.scan.sites).outcome s with ⟨e | r, t⟩
  · rfl
  · dsimp only
    rw [PassM.outcome_bind_ok (outcome_report _ _), PassM.outcome_bind, outcome_emitOrFail]
    cases emit _ _ _ _ <;> rfl

/-- Finishing a file with comments changes nothing but its code. -/
theorem expandFile_noted {c : Context σ} {path : Text} {tree : Tree} {s t : PassState σ} {noted : Expanded}
    (found : Scan.Found ⟨path, c.settings.directive, c.lines⟩ tree c.scan)
    (retained : c.settings.retainLines = true) (oneLine : c.settings.provenanceTag.Flat)
    (named : ∀ site ∈ c.scan.sites, Text.Flat site.name.toList)
    (ended : (expandFile { c with settings := { c.settings with provenanceComments := true } } path tree).outcome s =
      (.ok noted, t)) :
    ∃ plain,
      (expandFile { c with settings := { c.settings with provenanceComments := false } } path tree).outcome s =
          (.ok plain, t) ∧
        plain.names = noted.names ∧ plain.emitted.sourceMap = noted.emitted.sourceMap ∧
        ∃ note, Emit.Notes plain.emitted.code.lines noted.emitted.code.lines note ∧
          noted.emitted.code.unifyLineEnds.endLine = Text.withNotes note 1 plain.emitted.code.unifyLineEnds.endLine := by
  have all : ExpandsAll c [] {} c.scan.sites s.trail _ _ := expandSites_expands (fun d site arguments s =>
    expandMacro_expands c c.scan.definitions.length [] d site arguments s rfl) c.scan.sites {} s
  have outcomes := fun b => @outcome_expandFile σ c { c.settings with provenanceComments := b } rfl path tree s
  rw [outcomes true] at ended
  rw [outcomes false]
  rcases replaced : (expandSites c (expandMacro c c.scan.definitions.length []) {} c.scan.sites).outcome s with ⟨e | r, u⟩
  · rw [replaced] at ended
    cases ended
  · rw [replaced] at ended all
    dsimp only at ended ⊢
    generalize isRemoval : (Removal.Context.of c.scan.definitions c.lines).strip
      (Rewriting.apply r.expansions tree) = removal at ended ⊢
    split at ended
    case h_1 => cases ended
    case h_2 emitted isEmitted =>
      cases ended
      have flat : ∀ e ∈ r.edits ++ removal.edits, ∀ name, e.source = some name → Text.Flat name.toList := by
        obtain ⟨_, _, done⟩ := all.adds
        have writes := (done r rfl).1.writes_all fun site member => found.known (.inl member)
        intro e member name isSource
        rcases List.mem_append.mp member with ofCall | ofStatement
        · rw [writes.edits] at ofCall
          obtain ⟨expansion, isExpansion, rfl⟩ := List.mem_map.mp ofCall
          cases isSource
          exact named _ (expansion_of_site writes.results isExpansion).1
        · subst isRemoval
          obtain ⟨marked, edits, -⟩ := Removal.editsOf_strip (c := Removal.Context.of c.scan.definitions c.lines)
            (Rewriting.apply r.expansions tree)
          rw [edits] at ofStatement
          obtain ⟨⟨stmt, withPass⟩, -, rfl⟩ := List.mem_map.mp ofStatement
          unfold Removal.Context.edit at isSource
          dsimp only at isSource
          split at isSource <;> cases isSource
      obtain ⟨plain, note, isPlain, sourceMap, notes, cut⟩ := @emit_noted removal.kept c.source (r.edits ++ removal.edits)
        (emitOptions c.settings path) emitted retained oneLine flat isEmitted
      refine ⟨⟨plain, c.scan.names⟩, ?_, rfl, sourceMap, note, notes, cut⟩
      rw [show emitOptions { c.settings with provenanceComments := false } path =
        { emitOptions c.settings path with provenance := false } from rfl, isPlain]

end Pass

open Pass in
/-- A pass with comments does what it does without them, and its code is the other code with notes at the end of some
lines: a blank and a comment.  If cutting the other code comes to its end, and no line with a note ends inside a string
or with a backslash, then cutting the code with notes comes to its end, and gives the same tokens at the same places but
for the columns in which lines end. -/
theorem noted_code_cut_alike {σ : Type} {settings : Settings} {execute : Executor σ} {source path : Text}
    {s t : PassState σ} {noted : Expanded} (retained : settings.retainLines = true)
    (oneLine : settings.provenanceTag.Flat)
    (ended : (expandMacros { settings with provenanceComments := true } execute source path).run.run s = (.ok noted, t)) :
    ∃ plain, (expandMacros { settings with provenanceComments := false } execute source path).run.run s = (.ok plain, t) ∧
      plain.names = noted.names ∧ plain.emitted.sourceMap = noted.emitted.sourceMap ∧
      ∃ note : Nat → Text, (∀ n, (note n).IsNote) ∧
        noted.emitted.code.lines = Text.notedLines note plain.emitted.code.lines ∧
        let lexed := Lexer.run {} plain.emitted.code.unifyLineEnds.endLine
        let lexed' := Lexer.run {} noted.emitted.code.unifyLineEnds.endLine
        lexed.stopped = none →
          (∀ n, note n ≠ [] → (plain.emitted.code.lineBody n).getLast? ≠ some '\\' ∧
            ∀ u ∈ lexed.tokens, u.kind = .string → ¬ (u.line ≤ n ∧ n < u.endLine)) →
          lexed'.stopped = none ∧ List.Forall₂ Token.Same lexed.tokens lexed'.tokens := by
  change (expandMacros { settings with provenanceComments := true } execute source path).outcome s = _ at ended
  suffices passes : ∃ plain,
      (expandMacros { settings with provenanceComments := false } execute source path).outcome s = (.ok plain, t) ∧
        plain.names = noted.names ∧ plain.emitted.sourceMap = noted.emitted.sourceMap ∧
        ∃ note, Emit.Notes plain.emitted.code.lines noted.emitted.code.lines note ∧
          noted.emitted.code.unifyLineEnds.endLine = Text.withNotes note 1 plain.emitted.code.unifyLineEnds.endLine by
    obtain ⟨plain, pass, names, sourceMap, note, notes, cut⟩ := passes
    refine ⟨plain, pass, names, sourceMap, note, notes.isNote, notes.written, fun unstopped bare => ?_⟩
    rw [cut]
    refine Lexer.run_withNotes notes.isNote unstopped (fun front back whole => ?_) fun u member isString n after before => ?_
    · by_contra some
      rw [Nat.add_comm] at some
      exact (bare _ some).1 (Text.backslash_line _ whole)
    · by_contra some
      exact (bare n some).2 u member isString ⟨after, before⟩
  have scans : ∀ b, scanned { settings with provenanceComments := b } source path = scanned settings source path :=
    fun _ => rfl
  have states : ∀ b, scannedState { settings with provenanceComments := b } source path s =
      scannedState settings source path s := fun _ => rfl
  rw [outcome_expandMacros, scans, states] at ended ⊢
  cases isScanned : scanned settings source path with
  | error e =>
    rw [isScanned] at ended
    cases ended
  | ok file =>
    obtain ⟨tree, scan⟩ := file
    rw [isScanned] at ended
    dsimp only at ended ⊢
    split
    case isTrue noMacros =>
      rw [if_pos noMacros] at ended
      exact ⟨noted, ended, rfl, rfl, _, Emit.notes_refl _, (Text.withNotes_none 1 _).symm⟩
    case isFalse macros =>
      rw [if_neg macros] at ended
      have found := found_of_scanned isScanned
      exact expandFile_noted (c := ⟨settings, execute, source, source.lines, scan⟩) found retained oneLine
        (fun _ => found.flat_name (parsed_of_scanned isScanned)) ended

/-- The code of a file whose macros all give one, with or without comments. -/
def codeWithOnes (comments : Bool) (source : Text) : Option Text :=
  (((expandMacros { provenanceComments := comments } (fun _ world => ⟨.ok ['1'], [], world⟩) source
    (chars "m.py")).outcome { world := () }).1.map fun expanded => expanded.emitted.code).toOption

/-- A file with a call, whose line ends outside of strings. -/
def calledLine : Text := chars "def m():\n    'use macro'\n    return 1\nx = m()\n"

theorem calledLine_cut_alike :
    let plain := chars "\n\n\nx = 1\n"
    let noted := chars "\n\n\nx = 1  # @__MACRO__ m\n"
    codeWithOnes false calledLine = some plain ∧ codeWithOnes true calledLine = some noted ∧
      List.Forall₂ Token.Same (Lexer.run {} plain.unifyLineEnds.endLine).tokens
        (Lexer.run {} noted.unifyLineEnds.endLine).tokens := by
  intro plain noted
  have code : codeWithOnes false calledLine = some plain ∧ codeWithOnes true calledLine = some noted := by
    unfold codeWithOnes
    rw [Pass.expandMacros_code rfl, Pass.expandMacros_code rfl, show calledLine = _ from chars_ofList _]
    constructor <;> decide +kernel
  refine ⟨code.1, code.2, ?_⟩
  let execute : Executor Unit := fun _ world => ⟨.ok ['1'], [], world⟩
  rcases ended : (expandMacros { provenanceComments := true } execute calledLine (chars "m.py")).outcome
    { world := () } with ⟨e | result, t⟩
  · have failed := code.2
    rw [codeWithOnes, ended] at failed
    cases failed
  · obtain ⟨other, pass, -, -, note, -, lines, alike⟩ := @noted_code_cut_alike Unit {} execute calledLine
      (chars "m.py") { world := () } t result rfl ⟨by decide, by decide⟩ ended
    have isPlain : other.emitted.code = plain := by
      have same := code.1
      rw [codeWithOnes, show (expandMacros { provenanceComments := false } execute calledLine (chars "m.py")).outcome
        { world := () } = (.ok other, t) from pass] at same
      exact Option.some.inj same
    have isNoted : result.emitted.code = noted := by
      have same := code.2
      rw [codeWithOnes, ended] at same
      exact Option.some.inj same
    rw [isPlain, isNoted] at alike
    have bodies : ∀ line ∈ plain.lines, line.dropTerminator.getLast? ≠ some '\\' := by decide +kernel
    have strings : ∀ u ∈ (Lexer.run {} plain.unifyLineEnds.endLine).tokens, u.kind = .string → u.endLine ≤ u.line := by
      decide +kernel
    refine (alike (by decide +kernel) fun n _ => ⟨?_, fun u member isString inside => ?_⟩).2
    · unfold Text.lineBody
      rw [List.getD_eq_getElem?_getD]
      cases isLine : plain.lines[n - 1]? with
      | none => exact nofun
      | some line => exact bodies line (List.mem_of_getElem? isLine)
    · have ends := strings u member isString
      omega

/-- The comment of a call stands behind the backslash that a removed statement on the same line leaves, and the code is
no program any more. -/
theorem continued_line_unreadable :
    let source := chars "def n():\n    'use macro'\n    return 1\ny = n(); m = lambda: (\n  'use macro', 1)\nz = 2\n"
    let plain := chars "\n\n\ny = 1; pass \\\n\nz = 2\n"
    let noted := chars "\n\n\ny = 1; pass \\  # @__MACRO__ n\n\nz = 2\n"
    codeWithOnes false source = some plain ∧ codeWithOnes true source = some noted ∧
      (parseModule plain).isOk = true ∧ (parseModule noted).isOk = false := by
  intro source plain noted
  unfold codeWithOnes
  rw [Pass.expandMacros_code rfl, Pass.expandMacros_code rfl, show source = _ from chars_ofList _,
    show plain = _ from chars_ofList _, show noted = _ from chars_ofList _]
  refine ⟨?_, ?_, ?_, ?_⟩ <;> decide +kernel

end MacroExpand
