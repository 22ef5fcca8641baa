import MacroExpand.Proofs.Provenance
import MacroExpand.Proofs.Splicing

/-!
# Lines that no edit touches

Code that is emitted with its lines retained has the lines of its source that no edit touches at their places, but for
comments that name macros (`emit_keeps_lines`).  An edit that would move lines is refused.
-/

set_option autoImplicit false

namespace MacroExpand

namespace Text

/-- A line stands in a text behind as many line feeds, from an offset on. -/
structure LineAt (text : Text) (feeds start : Nat) (line : Text) : Prop where
  oneLine : '\n' ∉ line
  stands : ∃ front back, text = front ++ line ++ back ∧ front.countFeeds = feeds ∧ front.length = start ∧
    (∀ c ∈ front.getLast?, c = '\n') ∧ ∀ c ∈ back.head?, c = '\n'

/-- A text with comments in front of ends of lines. -/
inductive Commented (isComment : Text → Prop) : Text → Text → Prop where
  | none : Commented isComment [] []
  | keep {text out : Text} (c : Char) (rest : Commented isComment text out) : Commented isComment (c :: text) (c :: out)
  | comment {text out note : Text} (written : isComment note) (ends : ∀ c ∈ text.head?, c = '\r' ∨ c = '\n')
      (rest : Commented isComment text out) : Commented isComment text (note ++ out)

end Text

/-- An edit does not touch a line: it ends in front of the line or starts behind it.  It may end where the line starts if
what it writes ends with a line feed. -/
def PlacedEdit.Misses (e : PlacedEdit) (start : Nat) (line : Text) : Prop :=
  e.stop < start ∨ (e.stop = start ∧ e.edit.replacement.getLast? = some '\n') ∨ start + line.length < e.start

/-- An edit has as many line feeds as what it replaces. -/
def PlacedEdit.KeepsFeeds (source : Text) (e : PlacedEdit) : Prop :=
  (source.slice e.start e.stop).countFeeds = e.edit.replacement.countFeeds

/-! ## Line feeds of spliced text -/

namespace PlacedEdit

variable {source : Text} {kept front : List PlacedEdit} {cursor cut : Int}

theorem write_feeds (inside : 0 ≤ cursor) (reaches : cursor ≤ cut) (between : Between cursor cut front)
    (keeps : ∀ e ∈ front, KeepsFeeds source e) :
    (write source cursor cut front).countFeeds = (source.slice cursor cut).countFeeds := by
  induction front generalizing cursor with
  | nil => rfl
  | cons e rest ih =>
    obtain ⟨start, forward, ends, later⟩ := between.head
    have behind := ih (by omega) ends later fun d member => keeps d (.tail _ member)
    have here : (source.slice e.start e.stop).countFeeds = e.edit.replacement.countFeeds := keeps e (.head _)
    rw [write, ← Text.slice_append inside (start.trans forward) (.inl ends),
      ← Text.slice_append inside start (.inl forward)]
    simp only [Text.countFeeds, List.count_append] at *
    omega

/-- Where a line starts, it starts in the text that is written too. -/
theorem write_last (inside : 0 ≤ cursor) (reaches : cursor ≤ cut) (ends : cut ≤ source.length)
    (between : Between cursor cut front) (isStart : ∀ c ∈ (source.slice 0 cut).getLast?, c = '\n')
    (misses : ∀ e ∈ front, e.stop < cut ∨ e.edit.replacement.getLast? = some '\n') :
    (∀ c ∈ (write source cursor cut front).getLast?, c = '\n') ∧
      (cursor < cut → write source cursor cut front ≠ []) := by
  induction front generalizing cursor with
  | nil =>
    have whole := @Text.slice_append source 0 cursor cut le_rfl inside (.inl reaches)
    have length := @Text.length_slice source cursor cut inside reaches ends
    rw [write]
    constructor
    · rw [← whole, List.getLast?_append] at isStart
      intro c isLast
      exact isStart c (by rw [isLast]; rfl)
    · rintro shorter none
      rw [none, List.length_nil] at length
      omega
  | cons e rest ih =>
    obtain ⟨start, forward, stop, later⟩ := between.head
    obtain ⟨isLast, some⟩ := ih (by omega) stop later fun d member => misses d (.tail _ member)
    rw [write]
    by_cases none : write source e.stop cut rest = []
    · have atCut : ¬ e.stop < cut := fun shorter => some shorter none
      have feed := (misses e (.head _)).resolve_left atCut
      rw [none, List.append_nil, List.getLast?_append, feed]
      refine ⟨by simp, fun _ none => ?_⟩
      rw [(List.append_eq_nil_iff.mp none).2] at feed
      cases feed
    · refine ⟨fun c member => isLast c ?_, fun _ same => none (List.append_eq_nil_iff.mp same).2⟩
      rwa [List.getLast?_append, Option.or_of_isSome (List.getLast?_isSome.mpr none)] at member

/-- Where a line ends, it ends in the text that is written too. -/
theorem write_first {back : List PlacedEdit} (inside : 0 ≤ cut) (behind : ∀ e ∈ back, cut < e.start ∧ e.start ≤ source.length)
    (isEnd : ∀ c ∈ (source.slice cut source.length).head?, c = '\n') :
    ∀ c ∈ (write source cut source.length back).head?, c = '\n' := by
  cases back with
  | nil => exact isEnd
  | cons e rest =>
    obtain ⟨start, ends⟩ := behind e (.head _)
    have length := Text.length_slice inside start.le ends
    have some : source.slice cut e.start ≠ [] := by
      intro none
      rw [none, List.length_nil] at length
      omega
    rw [← Text.slice_append inside start.le (.inl ends), List.head?_append_of_ne_nil _ some] at isEnd
    rw [write, List.append_assoc, List.head?_append_of_ne_nil _ some]
    exact isEnd

end PlacedEdit

namespace Text

open PlacedEdit (Between KeepsFeeds Misses)

variable {source line : Text} {kept : List PlacedEdit} {k start : Nat}

theorem slice_middle (front middle back : Text) :
    (front ++ middle ++ back).slice front.length (front.length + middle.length : Nat) = middle := by
  rw [slice_nat, List.append_assoc, List.drop_left, Nat.add_sub_cancel_left, List.take_left]

/-- A line that no edit touches stands in the text that is written, behind as many line feeds. -/
theorem LineAt.write (isLine : source.LineAt k start line) (between : Between 0 source.length kept)
    (keeps : ∀ e ∈ kept, KeepsFeeds source e) (misses : ∀ e ∈ kept, e.Misses start line) :
    ∃ start', (PlacedEdit.write source 0 source.length kept).LineAt k start' line := by
  obtain ⟨front, back, whole, feeds, rfl, isStart, isEnd⟩ := isLine.stands
  have isFront : source.slice 0 front.length = front := by
    have parts := slice_middle [] front (line ++ back)
    simpa [whole] using parts
  have isMiddle : source.slice front.length (front.length + line.length : Nat) = line := whole ▸ slice_middle front line back
  have isBack : source.slice (front.length + line.length : Nat) source.length = back := by
    have parts := slice_middle (front ++ line) back []
    simpa [whole, Nat.add_assoc] using parts
  have length : source.length = front.length + line.length + back.length := by simp [whole, Nat.add_assoc]
  generalize front.length = start at misses isFront isMiddle isBack length ⊢
  -- The edits in front of the line and those behind it.
  have parts := @PlacedEdit.filter_append kept start (fun e member => (between.ends e member).1) between.ordered
  have inFront : Between 0 start (kept.filter fun e => e.stop ≤ start) := by
    refine ⟨fun e member => between.starts e (List.mem_of_mem_filter member), fun e member => ?_,
      between.ordered.sublist List.filter_sublist⟩
    obtain ⟨member, ends⟩ := List.mem_filter.mp member
    exact ⟨(between.ends e member).1, by simpa using ends⟩
  have behind : ∀ e ∈ kept.filter (fun e => (start : Int) < e.stop), (start + line.length : Nat) < e.start := by
    intro e member
    obtain ⟨member, ends⟩ := List.mem_filter.mp member
    have misses := misses e member
    have ends : (start : Int) < e.stop := by simpa using ends
    unfold Misses at misses
    omega
  have written : PlacedEdit.write source 0 source.length kept =
      PlacedEdit.write source 0 start (kept.filter fun e => e.stop ≤ start) ++ line ++
        PlacedEdit.write source (start + line.length : Nat) source.length (kept.filter fun e => (start : Int) < e.stop) := by
    have last := @PlacedEdit.write_append source [] (kept.filter fun e => (start : Int) < e.stop) start
      (start + line.length : Nat) (by omega) (by omega) ⟨by simp, by simp, .nil⟩ fun e member => (behind e member).le
    rw [List.nil_append, PlacedEdit.write, isMiddle] at last
    rw [← parts, PlacedEdit.write_append le_rfl (by omega) inFront fun e member => ?_, parts, last, List.append_assoc]
    have behind := behind e member
    omega
  refine ⟨_, isLine.oneLine, _, _, written, ?_, rfl, ?_, ?_⟩
  · rw [PlacedEdit.write_feeds le_rfl (by omega) inFront fun e member => keeps e (List.mem_of_mem_filter member), isFront,
      feeds]
  · refine (PlacedEdit.write_last le_rfl (by omega) (by omega) inFront (by rwa [isFront]) fun e member => ?_).1
    obtain ⟨member, ends⟩ := List.mem_filter.mp member
    have forward := (between.ends e member).1
    have ends : e.stop ≤ start := by simpa using ends
    rcases misses e member with shorter | ⟨-, feed⟩ | farther
    · exact .inl shorter
    · exact .inr feed
    · omega
  · refine PlacedEdit.write_first (by omega) (fun e member => ⟨behind e member, ?_⟩) (by rwa [isBack])
    have ends := between.ends e (List.mem_of_mem_filter member)
    omega

/-! ## Comments in front of ends of lines -/

variable {isComment : Text → Prop} {text out : Text} {note : Nat → Text}

theorem Commented.refl (text : Text) : Commented isComment text text := by
  induction text with
  | nil => exact .none
  | cons c text ih => exact .keep c ih

theorem Commented.append_left (front : Text) (rest : Commented isComment text out) :
    Commented isComment (front ++ text) (front ++ out) := by
  induction front with
  | nil => exact rest
  | cons c front ih => exact .keep c ih

theorem commented_flatten (comments : ∀ n, isComment (note n)) (text : Text) :
    Commented isComment text (notedLines note text.lines).flatten := by
  induction text using lineInduction generalizing note with
  | last text flat =>
    rw [lines_flat flat]
    split
    case isTrue none =>
      obtain rfl := List.isEmpty_iff.mp none
      exact .none
    case isFalse =>
      rw [notedLines_cons, withNote_flat flat]
      have ended : Commented isComment [] (note 1 ++ []) := .comment (comments 1) (by simp) .none
      simpa [notedLines] using ended.append_left text
  | line body ending rest flat ends ih =>
    rw [lines_line flat ends, notedLines_cons, withNote_line flat ends, List.flatten_cons, List.append_assoc,
      List.append_assoc]
    have behind := (@ih (fun n => note (n + 1)) fun n => comments (n + 1)).append_left ending
    refine (Commented.comment (comments 1) ?_ behind).append_left body
    cases ends <;> simp

theorem Commented.countFeeds (oneLine : ∀ note, isComment note → '\n' ∉ note) (commented : Commented isComment text out) :
    out.countFeeds = text.countFeeds := by
  induction commented with
  | none => rfl
  | keep c _ ih => simpa [Text.countFeeds, List.count_cons] using ih
  | comment written _ _ ih =>
    rw [Text.countFeeds, List.count_append, List.count_eq_zero.mpr (oneLine _ written), Nat.zero_add]
    exact ih

theorem Commented.split {line rest : Text} (oneLine : '\n' ∉ line)
    (commented : Commented isComment (line ++ '\n' :: rest) out) :
    ∃ line' rest', out = line' ++ '\n' :: rest' ∧ Commented isComment line line' ∧ Commented isComment rest rest' := by
  generalize whole : line ++ '\n' :: rest = text at commented
  induction commented generalizing line with
  | none => simp at whole
  | keep c more ih =>
    cases line with
    | nil =>
      obtain ⟨rfl, rfl⟩ := List.cons.inj whole
      exact ⟨[], _, rfl, .none, more⟩
    | cons d line =>
      obtain ⟨rfl, same⟩ := List.cons.inj whole
      obtain ⟨line', rest', rfl, first, second⟩ := ih (fun member => oneLine (.tail _ member)) same
      exact ⟨d :: line', rest', rfl, .keep d first, second⟩
  | @comment _ _ note written ends more ih =>
    obtain ⟨line', rest', rfl, first, second⟩ := ih oneLine whole
    refine ⟨note ++ line', rest', (List.append_assoc ..).symm, .comment written ?_ first, second⟩
    intro c isHead
    refine ends c ?_
    rw [← whole, List.head?_append, isHead]
    rfl

theorem Commented.behind (oneLine : ∀ note, isComment note → '\n' ∉ note) {front rest : Text}
    (isStart : ∀ c ∈ front.getLast?, c = '\n') (commented : Commented isComment (front ++ rest) out) :
    ∃ front' rest', out = front' ++ rest' ∧ front'.countFeeds = front.countFeeds ∧ (∀ c ∈ front'.getLast?, c = '\n') ∧
      Commented isComment rest rest' := by
  induction feeds : front.countFeeds generalizing front out with
  | zero =>
    have none : front = [] := by
      by_contra some
      have last := List.getLast?_eq_getLast_of_ne_nil some
      have member := List.getLast_mem some
      rw [isStart _ last] at member
      exact List.count_eq_zero.mp feeds member
    subst none
    exact ⟨[], out, rfl, feeds, by simp, commented⟩
  | succ k ih =>
    have member : '\n' ∈ front := List.count_pos_iff.mp (by unfold Text.countFeeds at feeds; omega)
    obtain ⟨first, front, rfl, outside⟩ := List.eq_append_cons_of_mem member
    rw [List.append_assoc, List.cons_append] at commented
    obtain ⟨line', out', rfl, isFirst, commented⟩ := commented.split outside
    have behind : ∀ c ∈ front.getLast?, c = '\n' := by
      intro c isLast
      refine isStart c ?_
      rw [List.getLast?_append, List.getLast?_cons, isLast]
      rfl
    have count : Text.countFeeds front = k := by
      rw [Text.countFeeds, List.count_append, List.count_eq_zero.mpr outside, List.count_cons_self] at feeds
      unfold Text.countFeeds
      omega
    obtain ⟨front', rest', rfl, same, isStart', commented⟩ := ih behind commented count
    refine ⟨line' ++ '\n' :: front', rest', by simp, ?_, ?_, commented⟩
    · have flat : line'.countFeeds = 0 := by
        rw [isFirst.countFeeds oneLine]
        exact List.count_eq_zero.mpr outside
      unfold Text.countFeeds at *
      rw [List.count_append, List.count_cons_self]
      omega
    · intro c isLast
      rw [List.getLast?_append, List.getLast?_cons] at isLast
      cases last : front'.getLast? with
      | none =>
        rw [last] at isLast
        exact (Option.some.inj isLast).symm
      | some d =>
        rw [last] at isLast
        exact isStart' c (last.trans isLast)

theorem LineAt.commented (oneLine : ∀ note, isComment note → '\n' ∉ note) (isLine : text.LineAt k start line)
    (commented : Commented isComment text out) :
    ∃ start' line', out.LineAt k start' line' ∧ Commented isComment line line' := by
  obtain ⟨front, back, rfl, feeds, -, isStart, isEnd⟩ := isLine.stands
  rw [List.append_assoc] at commented
  obtain ⟨front', rest', rfl, same, isStart', commented⟩ := commented.behind oneLine isStart
  have stays : ∀ {line'}, Commented isComment line line' → '\n' ∉ line' := fun first => by
    refine List.count_eq_zero.mp ((first.countFeeds oneLine).trans ?_)
    exact List.count_eq_zero.mpr isLine.oneLine
  cases back with
  | nil =>
    rw [List.append_nil] at commented
    exact ⟨_, rest', ⟨stays commented, front', [], by simp, same.trans feeds, rfl, isStart', by simp⟩, commented⟩
  | cons c back =>
    obtain rfl : c = '\n' := isEnd c rfl
    obtain ⟨line', back', rfl, first, -⟩ := commented.split isLine.oneLine
    exact ⟨_, line', ⟨stays first, front', '\n' :: back', by simp, same.trans feeds, rfl, isStart', by simp⟩, first⟩

end Text

/-! ## Code that is emitted -/

namespace Emit

open PlacedEdit (KeepsFeeds)

variable {source : Text} {kept : List PlacedEdit}

/-- Edits that keep line feeds are let through, and the first one that does not is refused. -/
theorem checkLines_cases (source : Text) (kept : List PlacedEdit) :
    (checkLines source kept = .ok () ∧ ∀ e ∈ kept, KeepsFeeds source e) ∨
      ∃ e ∈ kept, ¬ KeepsFeeds source e ∧ checkLines source kept = .error (.changesLines e.edit.start.line) := by
  induction kept with
  | nil => exact .inl ⟨rfl, by simp⟩
  | cons e rest ih =>
    rw [checkLines]
    split
    case isTrue here =>
      rcases ih with ⟨checked, keeps⟩ | ⟨d, member, moves, failed⟩
      · exact .inl ⟨checked, List.forall_mem_cons.mpr ⟨here, keeps⟩⟩
      · exact .inr ⟨d, .tail _ member, moves, failed⟩
    case isFalse here => exact .inr ⟨e, .head _, here, rfl⟩

/-- What may be written behind a line: comments that name macros of edits that are kept. -/
def IsProvenance (options : EmitOptions) (kept : List PlacedEdit) (note : Text) : Prop :=
  options.provenance = true ∧
    Comments options.provenanceTag (fun name => ∃ e ∈ kept.map PlacedEdit.edit, e.source = some name) note

end Emit

/-- Code that is emitted with its lines retained is the spliced source, with comments if they are asked for. -/
theorem emit_ok {tree : Tree} {source : Text} {edits : List Edit} {options : EmitOptions} {emitted : Emitted}
    (retained : options.retainLines = true) (run : emit tree source edits options = .ok emitted) :
    ∃ kept code, Edit.outermost source.lineStarts edits = .ok kept ∧ Emit.checkLines source kept = .ok () ∧
      source.splice (kept.map PlacedEdit.edit) = .ok code ∧
      ((options.provenance = false ∧ emitted.code = code) ∨ (options.provenance = true ∧
        Emit.annotate code source (kept.map PlacedEdit.edit) options.provenanceTag = .ok emitted.code)) := by
  unfold emit at run
  rw [if_pos retained] at run
  obtain ⟨kept, isKept, run⟩ := Sandbox.bind_ok run
  obtain ⟨⟨⟩, checked, run⟩ := Sandbox.bind_ok run
  obtain ⟨code, spliced, run⟩ := Sandbox.bind_ok run
  refine ⟨kept, code, EmitError.ok_of_orEdit isKept, EmitError.ok_of_orEdit checked, EmitError.ok_of_orEdit spliced, ?_⟩
  dsimp only at run
  split at run
  case isTrue asked =>
    obtain ⟨code', annotated, run⟩ := Sandbox.bind_ok run
    cases run
    exact .inr ⟨asked, annotated⟩
  case isFalse silent =>
    cases run
    exact .inl ⟨by simpa using silent, rfl⟩

/-- Code that is emitted with its lines retained has as many line feeds as its source, and each line that no edit touches
stands in it at its place, but for comments.  An edit that is kept and changes the number of line feeds is refused. -/
theorem emit_keeps_lines {tree : Tree} {source : Text} {edits : List Edit} {all : List PlacedEdit}
    {options : EmitOptions} (stand : List.Forall₂ (Edit.StandsAt source) edits all)
    (retained : options.retainLines = true) (oneLine : options.provenanceTag.Flat)
    (named : ∀ e ∈ edits, ∀ name, e.source = some name → Text.Flat name.toList) :
    (∀ emitted, emit tree source edits options = .ok emitted →
      ∃ kept, Edit.outermost source.lineStarts edits = .ok kept ∧
        emitted.code.countFeeds = source.countFeeds ∧
        ∀ k start line, source.LineAt k start line → (∀ e ∈ kept, e.Misses start line) →
          ∃ start' line', emitted.code.LineAt k start' line' ∧
            Text.Commented (Emit.IsProvenance options kept) line line') ∧
    ∀ kept, Edit.outermost source.lineStarts edits = .ok kept → (∃ e ∈ kept, ¬ e.KeepsFeeds source) →
      ∃ e ∈ kept, ¬ e.KeepsFeeds source ∧
        emit tree source edits options = .error (.edit (.changesLines e.edit.start.line)) := by
  constructor
  · intro emitted run
    obtain ⟨kept, code, isKept, checked, spliced, isCode⟩ := emit_ok retained run
    have between := Edit.between_kept stand isKept
    have keeps : ∀ e ∈ kept, e.KeepsFeeds source := by
      rcases Emit.checkLines_cases source kept with ⟨-, keeps⟩ | ⟨_, -, -, failed⟩
      · exact keeps
      · cases failed.symm.trans checked
    obtain rfl := Except.ok.inj (spliced.symm.trans (Text.splice_ok (Edit.outermost_kept stand isKept) between))
    have macros : ∀ name, (∃ e ∈ kept.map PlacedEdit.edit, e.source = some name) → Text.Flat name.toList := by
      rintro name ⟨e, member, isSource⟩
      obtain ⟨k, isKept', rfl⟩ := List.mem_map.mp member
      exact named _ (Edit.mem_outermost isKept isKept').1 name isSource
    have flat : ∀ note, Emit.IsProvenance options kept note → '\n' ∉ note :=
      fun note written => (written.2.flat oneLine macros).1
    have commented : Text.Commented (Emit.IsProvenance options kept)
        (PlacedEdit.write source 0 source.length kept) emitted.code := by
      rcases isCode with ⟨-, same⟩ | ⟨asked, annotated⟩
      · rw [same]
        exact .refl _
      · obtain ⟨note, -, same, comments⟩ := Emit.annotate_notes oneLine
          (fun e member name isSource => macros name ⟨e, member, isSource⟩) annotated
        rw [same]
        exact Text.commented_flatten (fun n => ⟨asked, comments n⟩) _
    refine ⟨kept, isKept, ?_, fun k start line isLine misses => ?_⟩
    · rw [commented.countFeeds flat, PlacedEdit.write_feeds le_rfl (by omega) between keeps, Text.slice_length]
    · obtain ⟨_, isLine⟩ := isLine.write between keeps misses
      exact isLine.commented flat commented
  · intro kept isKept moved
    rcases Emit.checkLines_cases source kept with ⟨-, keeps⟩ | ⟨e, member, moves, failed⟩
    · obtain ⟨e, member, moves⟩ := moved
      exact absurd (keeps e member) moves
    · refine ⟨e, member, moves, ?_⟩
      unfold emit
      rw [if_pos retained, isKept]
      dsimp only [EmitError.orEdit, bind, Except.bind]
      rw [failed]

/-- A call below a line. -/
def callBelow : Text := chars "a\nf(1)\n"

/-- The result of the call in its place. -/
def callEdit : Edit := ⟨⟨2, 0⟩, ⟨2, 4⟩, chars "2", some "f"⟩

theorem line_kept_above_call : ∃ emitted, emit default callBelow [callEdit] = .ok emitted ∧
    emitted.code.countFeeds = 2 ∧ ∃ start line, emitted.code.LineAt 0 start line ∧
      Text.Commented (Emit.IsProvenance {} [⟨callEdit, 2, 6⟩]) ['a'] line := by
  have code : (emit default callBelow [callEdit]).map Emitted.code = .ok (chars "a\n2  # @__MACRO__ f\n") := by
    rw [emit_code rfl]
    rfl
  have isKept : Edit.outermost callBelow.lineStarts [callEdit] = .ok [⟨callEdit, 2, 6⟩] := by
    rw [Edit.outermost_eq_inOrder]
    rfl
  have oneLine : Text.Flat (chars "@__MACRO__") := ⟨by decide, by decide⟩
  have named : ∀ e ∈ [callEdit], ∀ name, e.source = some name → Text.Flat name.toList := by
    intro e member name isSource
    obtain rfl := List.mem_singleton.mp member
    cases isSource
    exact ⟨by decide, by decide⟩
  obtain ⟨emitted, run⟩ : ∃ emitted, emit default callBelow [callEdit] = .ok emitted := by
    cases run : emit default callBelow [callEdit] with
    | ok emitted => exact ⟨emitted, rfl⟩
    | error e =>
      rw [run] at code
      cases code
  obtain ⟨kept, isKept', feeds, lines⟩ := (@emit_keeps_lines default callBelow [callEdit] [⟨callEdit, 2, 6⟩] {}
    (.cons ⟨rfl, by decide, by decide, by decide⟩ .nil) rfl oneLine named).1 emitted run
  obtain rfl := Except.ok.inj (isKept'.symm.trans isKept)
  have isLine : callBelow.LineAt 0 0 ['a'] :=
    ⟨by simp, [], chars "\nf(1)\n", rfl, rfl, rfl, by simp, by simp [chars]⟩
  refine ⟨emitted, run, feeds, lines 0 0 ['a'] isLine ?_⟩
  intro e member
  obtain rfl := List.mem_singleton.mp member
  exact .inr (.inr (by decide))

end MacroExpand
