import MacroExpand.Proofs.LineGuard
import MacroExpand.Proofs.MacroUses
import MacroExpand.Proofs.Outermost
import MacroExpand.Proofs.Roles

/-!
# What edits cover

Calls and statements of a file are taken to stand apart or one inside the other, as their nodes do (`Tree.Laminar`).
The edit for a call covers the call; that for the statement of a macro covers the statement, or all of its lines if
nothing else stands on them.  In front of the statement nothing else stands on a line if it is blank up to there, for a
call or a statement ends behind something that is no blank (`Text.InkedAt`).  Behind it nothing else stands if a comment
opens there or nothing does, for the next token stands on its line behind blanks alone (`Text.ClearAt`).  So these edits
are disjoint or lie one inside the other too.
-/

set_option autoImplicit false

namespace MacroExpand

/-! ## Places in order -/

/-- The order of places in a text. -/
instance : LE Position := ⟨fun p q => p.line < q.line ∨ p.line = q.line ∧ p.column ≤ q.column⟩

theorem Position.le_def {p q : Position} : p ≤ q ↔ p.line < q.line ∨ p.line = q.line ∧ p.column ≤ q.column := Iff.rfl

theorem Position.le_trans {p q r : Position} (first : p ≤ q) (last : q ≤ r) : p ≤ r := by
  rw [le_def] at *
  omega

instance (p q : Position) : Decidable (p ≤ q) :=
  inferInstanceAs (Decidable (p.line < q.line ∨ p.line = q.line ∧ p.column ≤ q.column))

namespace Text

variable {source : Text} {p q : Position} {place place' : Nat × Nat}

/-- A place in bytes as a place in characters. -/
def position (source : Text) (place : Nat × Nat) : Position :=
  ⟨place.1, charsBefore (source.lines.getD (place.1 - 1) []) place.2⟩

/-- Places in a text have their offsets in order. -/
theorem HasPosition.offset_le (first : source.HasPosition p) (last : source.HasPosition q) (inOrder : p ≤ q) {a b : Int}
    (isFirst : offsetIn source.lineStarts p = some a) (isLast : offsetIn source.lineStarts q = some b) : a ≤ b := by
  have few := source.countBreaks_le
  have offset : ∀ {r : Position}, source.HasPosition r → offsetIn source.lineStarts r =
      some (((source.lines.take (r.line - 1)).flatten.length + r.column : Nat) : Int) := fun has =>
    offsetIn_lineStarts has.positive (has.line.trans (by omega))
  obtain rfl := Option.some.inj (isFirst.symm.trans (offset first))
  obtain rfl := Option.some.inj (isLast.symm.trans (offset last))
  rw [Int.ofNat_le]
  rcases inOrder with before | ⟨same, inLine⟩
  · -- a whole line stands in front of the later place
    have inside := first.column
    have taken : (source.lines.take p.line).flatten.length =
        (source.lines.take (p.line - 1)).flatten.length + (source.lines.getD (p.line - 1) []).length := by
      obtain ⟨k, isLine⟩ : ∃ k, p.line = k + 1 := ⟨p.line - 1, by have := first.positive; omega⟩
      rw [isLine, List.take_add_one, List.flatten_append, List.length_append, Nat.add_sub_cancel,
        List.getD_eq_getElem?_getD]
      cases source.lines[k]? <;> simp
    have body : (source.lineBody p.line).length ≤ (source.lines.getD (p.line - 1) []).length := by
      obtain ⟨ending, isLine, -⟩ := exists_terminator (source.lines.getD (p.line - 1) [])
      rw [isLine, List.length_append]
      exact Nat.le_add_right _ _
    have longer : (source.lines.take p.line).flatten.length ≤ (source.lines.take (q.line - 1)).flatten.length :=
      ((List.take_prefix_take_left (by omega)).flatten).length_le
    omega
  · rw [same]
    omega

theorem charsBefore_mono (line : Text) {a b : Nat} (le : a ≤ b) : charsBefore line a ≤ charsBefore line b := by
  induction line generalizing a b with
  | nil => simp [charsBefore]
  | cons c rest ih =>
    cases a with
    | zero => simp [charsBefore]
    | succ a =>
      obtain ⟨b, rfl⟩ : ∃ k, b = k + 1 := ⟨b - 1, by omega⟩
      rw [charsBefore, charsBefore]
      exact Nat.add_le_add_left (ih (by omega)) 1

theorem position_mono (inOrder : toLex place ≤ toLex place') : source.position place ≤ source.position place' := by
  rw [Prod.Lex.toLex_le_toLex] at inOrder
  rcases inOrder with before | ⟨same, le⟩
  · exact .inl before
  · refine .inr ⟨same, ?_⟩
    unfold position
    rw [same]
    exact charsBefore_mono _ le

/-! ## What stands on a line beside a place -/

theorem position_column {front back before behind : Text}
    (parts : LineCut (source.lineBody place.1) front back before behind) (bytes : byteLength before = place.2) :
    (source.position place).column = before.length := by
  unfold position
  rw [← bytes, parts.charsBefore]

theorem InkedAt.lineCut (inked : source.unifyLineEnds.endLine.InkedAt (1, 0) place) :
    ∃ front back before behind, LineCut (source.lineBody place.1) front back before behind ∧
      byteLength before = place.2 ∧ front.Inked := by
  obtain ⟨front, back, cut, here⟩ := inked
  have inside : front.getLast? ≠ some '\n' := by
    obtain ⟨others, d, rest, rfl, noBlank, flat⟩ := here
    rw [List.getLast?_append_of_ne_nil _ (by simp)]
    intro isLast
    rcases List.mem_cons.mp (List.mem_of_getLast? isLast) with rfl | inRest
    · cases noBlank
    · exact flat inRest
  obtain ⟨-, -, before, behind, parts, bytes⟩ := cut.line fun _ => inside
  exact ⟨front, back, before, behind, parts, bytes, here⟩

/-- In front of such a place its line is not blank. -/
theorem InkedAt.front (inked : source.unifyLineEnds.endLine.InkedAt (1, 0) place) :
    ∃ d ∈ (source.lineBody place.1).take (source.position place).column, isBlank d = false := by
  obtain ⟨front, back, before, behind, parts, bytes, here⟩ := inked.lineCut
  rw [position_column parts bytes, parts.whole, List.take_left]
  exact parts.mem_before here

theorem head?_trimRight {d : Char} (rest : Text) (noBlank : isBlank d = false) :
    (trimRight (d :: rest)).head? = some d := by
  unfold trimRight
  rw [List.head?_reverse, List.reverse_cons, List.dropWhile_append]
  split
  · rw [List.dropWhile_cons_of_neg (by simp [noBlank])]
    rfl
  · exact List.getLast?_concat

/-- A text of which trimming leaves nothing is blank. -/
theorem blank_of_trim {text : Text} (empty : trim text = []) : ∀ d ∈ text, isBlank d = true := by
  refine List.dropWhile_eq_nil_iff.mp ?_
  by_contra some
  obtain ⟨d, rest, opens⟩ := List.exists_cons_of_ne_nil some
  have noBlank : isBlank d = false := by
    have head := List.head?_dropWhile_not isBlank text
    rw [opens] at head
    simpa using head
  have kept := head?_trimRight rest noBlank
  rw [← opens] at kept
  change (trim text).head? = _ at kept
  rw [empty] at kept
  cases kept

theorem feed_moves {place : Nat × Nat} {part : Text} (feed : '\n' ∈ part) : place.1 < (Lexer.advance place part).1 := by
  have down : ∀ (p : Nat × Nat) (text : Text), p.1 ≤ (Lexer.advance p text).1 := by
    intro p text
    have le := Lexer.le_advance p text
    rw [Prod.Lex.toLex_le_toLex] at le
    omega
  obtain ⟨a, b, rfl⟩ := List.append_of_mem feed
  rw [Lexer.advance_append, Lexer.advance, if_pos rfl]
  have first := down place a
  have last := down ((Lexer.advance place a).1 + 1, 0) b
  omega

/-- Behind a place whose line goes on with a token, the line goes on with no comment. -/
theorem ClearAt.back (clear : source.unifyLineEnds.endLine.ClearAt (1, 0) place place') (sameLine : place'.1 = place.1) :
    ∃ d, (trim ((source.lineBody place.1).drop (source.position place).column)).head? = some d ∧ d ≠ '#' := by
  obtain ⟨part, rest, ⟨front, cut⟩, le, ⟨c, more, rfl, noBlank⟩, noHash, quiet⟩ := clear
  have noFeed : '\n' ∉ part := by
    intro feed
    have moved : place.1 < (Lexer.advance place part).1 := feed_moves feed
    rw [Prod.Lex.toLex_le_toLex] at le
    omega
  obtain ⟨-, -, before, behind, parts, bytes⟩ := cut.line (by simp)
  have noFeed' : '\n' ∉ part ++ [c] := by
    rw [List.mem_append, List.mem_singleton, not_or]
    refine ⟨noFeed, ?_⟩
    rintro rfl
    cases noBlank
  obtain ⟨others, rfl⟩ := parts.prefix_behind (show (part ++ [c]) ++ more = part ++ c :: more by simp) noFeed'
  rw [position_column parts bytes, parts.whole, List.drop_left]
  -- the first character that is no blank stands in the part or is that of the token
  obtain ⟨d, tail, opens, noBlank', noHash'⟩ : ∃ d tail,
      trimLeft (part ++ [c] ++ others) = d :: tail ∧ isBlank d = false ∧ d ≠ '#' := by
    unfold trimLeft
    rw [List.append_assoc, List.dropWhile_append]
    split
    · exact ⟨c, others, by simp [noBlank], noBlank, by simpa using noHash⟩
    · rename_i some
      cases stays : part.dropWhile isBlank with
      | nil => simp [stays] at some
      | cons d tail =>
        refine ⟨d, tail ++ ([c] ++ others), rfl, ?_, ?_⟩
        · have head := List.head?_dropWhile_not isBlank part
          rw [stays] at head
          simpa using head
        · rintro rfl
          exact quiet noFeed (by rw [OpensComment, stays]; rfl)
  exact ⟨d, by rw [trim, opens, head?_trimRight tail noBlank'], noHash'⟩

/-- Places of the file are in the order of their places in characters. -/
theorem HasPlace.le_of_position_le (first : source.unifyLineEnds.endLine.HasPlace (1, 0) place)
    (last : source.unifyLineEnds.endLine.HasPlace (1, 0) place') (le : source.position place ≤ source.position place') :
    toLex place ≤ toLex place' := by
  obtain ⟨front, back, cut, inside⟩ := first
  obtain ⟨front', back', cut', inside'⟩ := last
  obtain ⟨-, -, before, behind, parts, bytes⟩ := cut.line inside
  obtain ⟨-, -, before', behind', parts', bytes'⟩ := cut'.line inside'
  rw [Prod.Lex.toLex_le_toLex]
  rcases le with lower | ⟨same, inLine⟩
  · exact .inl lower
  · have same : place.1 = place'.1 := same
    rw [position_column parts bytes, position_column parts' bytes'] at inLine
    obtain ⟨between, rfl⟩ : before <+: before' :=
      List.prefix_of_prefix_length_le ⟨behind, parts.whole.symm⟩ ⟨behind', (same ▸ parts'.whole).symm⟩ inLine
    rw [← bytes, ← bytes', byteLength_append]
    exact .inr ⟨same, Nat.le_add_right _ _⟩

/-- A character that is no blank stands behind the blanks at the front of its line. -/
theorem SolidAt.blanks_le (solid : source.unifyLineEnds.endLine.SolidAt (1, 0) place) :
    (source.lines.getD (place.1 - 1) []).length - (source.lines.getD (place.1 - 1) []).trimLeft.length ≤
      (source.position place).column := by
  obtain ⟨front, back, cut, c, rest, rfl, noBlank⟩ := solid
  obtain ⟨-, -, before, behind, parts, bytes⟩ := cut.line nofun
  have noFeed : '\n' ∉ [c] := by
    rw [List.mem_singleton]
    rintro rfl
    cases noBlank
  obtain ⟨others, rfl⟩ := parts.prefix_behind (show [c] ++ rest = c :: rest from rfl) noFeed
  obtain ⟨ending, isLine, -⟩ := exists_terminator (source.lines.getD (place.1 - 1) [])
  have whole : (source.lines.getD (place.1 - 1) []).dropTerminator = before ++ ([c] ++ others) := parts.whole
  rw [position_column parts bytes, isLine, whole]
  have stops : (before ++ ([c] ++ others) ++ ending).takeWhile isBlank = before.takeWhile isBlank := by
    rw [List.append_assoc, List.takeWhile_append]
    split
    · rename_i all
      simp [noBlank, (List.takeWhile_prefix isBlank).eq_of_length all]
    · rfl
  have counted := congrArg List.length
    (List.takeWhile_append_dropWhile (p := isBlank) (l := before ++ ([c] ++ others) ++ ending))
  rw [List.length_append, stops] at counted
  have short := (List.takeWhile_prefix isBlank (l := before)).length_le
  unfold trimLeft
  omega

end Text

/-! ## Calls and statements of a file -/

/-- Whether nodes of a kind are calls or statements. -/
def Kind.isCallOrStatement (kind : Kind) : Bool := kind = .call || kind.role = .statement

/-- Whether nodes of a kind are calls or statements that a pass may remove. -/
def Kind.isEdited (kind : Kind) : Bool := kind = .call || kind.isRemovable

namespace Tree

/-- Where a node begins: at its own place, or if it has decorators, where the first line begins that one of them begins
on, blanks aside. -/
def begin (lines : List Text) (t : Tree) : Position :=
  let decorators := match t.kind with
    | .functionDef .. => t.slot 2
    | .classDef _ => t.slot 3
    | _ => []
  match (decorators.map fun d => d.mark.line).min? with
  | some first =>
    let line := lines.getD (first - 1) []
    ⟨first, line.length - line.trimLeft.length⟩
  | none => (t.span lines).start

/-- Calls and statements, decorators included, stand one inside the other where their nodes do, and apart otherwise. -/
structure Laminar (source : Text) (t : Tree) : Prop where
  within : ∀ n ∈ t.nodes, n.kind.isCallOrStatement = true → ∀ m ∈ n.nodes, m.kind.isCallOrStatement = true →
    n.begin source.lines ≤ m.begin source.lines ∧ (m.span source.lines).stop ≤ (n.span source.lines).stop
  apart : ∀ n ∈ t.nodes, n.kind.isCallOrStatement = true → ∀ m ∈ t.nodes, m.kind.isCallOrStatement = true →
    n.mark.label ∉ m.labels → m.mark.label ∉ n.labels →
      (n.span source.lines).stop ≤ m.begin source.lines ∨ (m.span source.lines).stop ≤ n.begin source.lines

instance (source : Text) (t : Tree) : Decidable (t.Laminar source) :=
  decidable_of_iff ((∀ n ∈ t.nodes, n.kind.isCallOrStatement = true → ∀ m ∈ n.nodes, m.kind.isCallOrStatement = true →
      n.begin source.lines ≤ m.begin source.lines ∧ (m.span source.lines).stop ≤ (n.span source.lines).stop) ∧
    ∀ n ∈ t.nodes, n.kind.isCallOrStatement = true → ∀ m ∈ t.nodes, m.kind.isCallOrStatement = true →
      n.mark.label ∉ m.labels → m.mark.label ∉ n.labels →
        (n.span source.lines).stop ≤ m.begin source.lines ∨ (m.span source.lines).stop ≤ n.begin source.lines)
    ⟨fun ⟨within, apart⟩ => ⟨within, apart⟩, fun ⟨within, apart⟩ => ⟨within, apart⟩⟩

end Tree

theorem Kind.isEdited_cases {kind : Kind} (edited : kind.isEdited = true) :
    kind = .call ∨ kind.isRemovable = true ∧ kind.role = .statement := by
  simp only [isEdited, Bool.or_eq_true, decide_eq_true_eq] at edited
  refine edited.imp id fun removable => ⟨removable, ?_⟩
  cases kind <;> first | rfl | cases removable

theorem Kind.isCallOrStatement_of_isEdited {kind : Kind} (edited : kind.isEdited = true) :
    kind.isCallOrStatement = true := by
  rcases isEdited_cases edited with rfl | ⟨-, statement⟩
  · rfl
  · simp [isCallOrStatement, statement]

theorem Kind.isPlaced_of_isEdited {kind : Kind} (edited : kind.isEdited = true) :
    kind.isPlaced = true ∧ kind.isText = false := by
  rcases isEdited_cases edited with rfl | ⟨-, statement⟩
  · exact ⟨rfl, rfl⟩
  · exact Kind.isPlaced_of_statement statement

/-- Calls and statements that a pass may remove are no classes: they begin where removing them begins. -/
theorem Removal.Context.start_eq {n : Tree} (c : Removal.Context) (edited : n.kind.isEdited = true) :
    c.start n = n.begin c.lines := by
  unfold start Tree.begin
  cases kind : n.kind with
  | classDef => simp [Kind.isEdited, kind] at edited
  | _ => rfl

section File

variable {source : Text} {typeComments : Bool} {version : Nat} {tree n m : Tree}
  (parsed : parseModule source typeComments version = .ok tree) (member : n ∈ tree.nodes)
  (edited : n.kind.isEdited = true)
include parsed member edited

theorem hasPosition_begin : source.HasPosition (n.begin source.lines) := by
  obtain ⟨isPlaced, noText⟩ := Kind.isPlaced_of_isEdited edited
  rw [← Removal.Context.start_eq ⟨[], source.lines⟩ edited]
  exact Removal.hasPosition_start rfl parsed member isPlaced noText

theorem hasPosition_stop : source.HasPosition (n.span source.lines).stop := by
  obtain ⟨isPlaced, noText⟩ := Kind.isPlaced_of_isEdited edited
  exact (hasPosition_span parsed member isPlaced noText).2

/-- On the line that a call or statement begins on, a token begins there or behind it. -/
theorem exists_starts : ∃ place, (Frame.ofFile source typeComments version).Starts (toLex place) ∧
    place.1 = (n.begin source.lines).line ∧ n.begin source.lines ≤ source.position place := by
  have starts : (Frame.ofFile source typeComments version).Starts n.mark.start ∧
      ∀ d ∈ n.decorators, (Frame.ofFile source typeComments version).Starts d.mark.start := by
    rcases Kind.isEdited_cases edited with isCall | ⟨isRemovable, -⟩
    · refine ⟨(call_of_parseModule parsed member isCall).begins, ?_⟩
      simp [Tree.decorators, isCall]
    · have removable := removable_of_parseModule parsed member isRemovable
      exact ⟨removable.begins, removable.decorators⟩
  rw [← Removal.Context.start_eq ⟨[], source.lines⟩ edited]
  rcases Removal.Context.start_cases ⟨[], source.lines⟩ n with ⟨d, decorates, start⟩ | start
  · have begins := starts.2 d decorates
    rw [start]
    exact ⟨_, begins, rfl, .inr ⟨rfl, (begins.solidAt (Source.ended_ofFile source version)).blanks_le⟩⟩
  · rw [start]
    exact ⟨_, starts.1, rfl, .inr ⟨rfl, Nat.le_refl _⟩⟩

/-- A call or statement ends behind something that is no blank, unless the file begins there. -/
theorem inkedAt_stop : (n.mark.endLine, n.mark.endColumn) = (1, 0) ∨
    source.unifyLineEnds.endLine.InkedAt (1, 0) (n.mark.endLine, n.mark.endColumn) := by
  rcases Kind.isEdited_cases edited with isCall | ⟨isRemovable, -⟩
  · exact .inr ((call_of_parseModule parsed member isCall).ends.inkedAt (Source.ended_ofFile source version))
  · exact (removable_of_parseModule parsed member isRemovable).ends.inkedAt

end File

/-! ## What edits cover -/

/-- What an edit covers of a node: the node itself, or all of the lines of a statement if nothing but a comment stands
beside it on them. -/
inductive Tree.Covered (source : Text) (n : Tree) : Position → Position → Prop where
  | self : Covered source n (n.begin source.lines) (n.span source.lines).stop
  | lines (removable : n.kind.isRemovable = true)
      (front : ∀ d ∈ (source.lineBody (n.begin source.lines).line).take (n.begin source.lines).column, isBlank d = true)
      (back : ∀ d, (Text.trim ((source.lineBody (n.span source.lines).stop.line).drop
        (n.span source.lines).stop.column)).head? = some d → d = '#') :
      Covered source n ⟨(n.begin source.lines).line, 0⟩
        ⟨(n.span source.lines).stop.line, (source.lineBody (n.span source.lines).stop.line).length⟩

/-- An edit replaces what it covers of a node. -/
def Edit.Covers (source : Text) (e : Edit) (n : Tree) : Prop :=
  ∃ p q : Position, e.start = p ∧ e.stop = q ∧ n.Covered source p q

section File

variable {source : Text} {typeComments : Bool} {version : Nat} {tree n m : Tree} {p q p' q' : Position}

theorem Tree.begin_call {call : Tree} {lines : List Text} (isCall : call.kind = .call) :
    call.begin lines = (call.span lines).start := by
  unfold begin
  rw [isCall]
  rfl

theorem Edit.Replaces.covers {e : Edit} {call : Tree} (replaces : e.Replaces source.lines call) : e.Covers source call := by
  obtain ⟨isCall, start, stop⟩ := replaces
  exact ⟨_, _, by rw [start, Tree.begin_call isCall], stop, .self⟩

/-- The edit that removes a statement covers it. -/
theorem covers_edit (parsed : parseModule source typeComments version = .ok tree) (member : n ∈ tree.nodes)
    (removable : n.kind.isRemovable = true) {c : Removal.Context} (lines : c.lines = source.lines) (withPass : Bool) :
    (c.edit withPass n).Covers source n := by
  have edited : n.kind.isEdited = true := by rw [Kind.isEdited, removable, Bool.or_true]
  have begins := hasPosition_begin parsed member edited
  have start := c.start_eq edited
  rw [lines] at start
  have front : (c.line (n.begin source.lines).line).take (n.begin source.lines).column =
      (source.lineBody (n.begin source.lines).line).take (n.begin source.lines).column := by
    obtain ⟨ending, isLine, -⟩ := Text.exists_terminator (c.line (n.begin source.lines).line)
    rw [isLine, Removal.Context.line, lines]
    exact List.take_append_of_le_length begins.column
  unfold Removal.Context.edit
  rw [start, lines]
  dsimp only
  split
  · exact ⟨_, _, rfl, rfl, .self⟩
  · rename_i alone
    simp only [Bool.or_eq_true, Bool.and_eq_true, Bool.not_eq_true', bne_iff_ne, ne_eq, not_or, not_and, not_not,
      Bool.not_eq_false, List.isEmpty_iff] at alone
    obtain ⟨blank, comment⟩ := alone
    rw [front] at blank
    have back : ∀ d, (Text.trim ((source.lineBody (n.span source.lines).stop.line).drop
        (n.span source.lines).stop.column)).head? = some d → d = '#' := by
      intro d head
      rw [Removal.Context.line, lines] at comment
      have isComment := comment (by
        rw [List.isEmpty_eq_false_iff]
        rintro empty
        rw [Text.lineBody, empty] at head
        cases head)
      exact Option.some.inj (head.symm.trans isComment)
    refine ⟨_, _, rfl, ?_, .lines removable (Text.blank_of_trim blank) back⟩
    rw [Removal.Context.line, lines]
    rfl

variable (parsed : parseModule source typeComments version = .ok tree) (member : n ∈ tree.nodes)
  (edited : n.kind.isEdited = true)
include parsed member edited

namespace Tree.Covered

theorem hasPosition (covered : n.Covered source p q) : source.HasPosition p ∧ source.HasPosition q := by
  have begins := hasPosition_begin parsed member edited
  have ends := hasPosition_stop parsed member edited
  cases covered with
  | self => exact ⟨begins, ends⟩
  | lines => exact ⟨begins.onLine (Nat.zero_le _), ends.onLine (Nat.le_refl _)⟩

/-- All of a node is covered. -/
theorem around (covered : n.Covered source p q) : p ≤ n.begin source.lines ∧ (n.span source.lines).stop ≤ q := by
  cases covered with
  | self => exact ⟨.inr ⟨rfl, Nat.le_refl _⟩, .inr ⟨rfl, Nat.le_refl _⟩⟩
  | lines => exact ⟨.inr ⟨rfl, Nat.zero_le _⟩, .inr ⟨rfl, (hasPosition_stop parsed member edited).column⟩⟩

/-- Of one node more or less is covered. -/
theorem nests (covered : n.Covered source p q) (covered' : n.Covered source p' q') :
    (p ≤ p' ∧ q' ≤ q) ∨ (p' ≤ p ∧ q ≤ q') := by
  have some := covered.around parsed member edited
  have some' := covered'.around parsed member edited
  cases covered with
  | self => exact .inr some'
  | lines =>
    cases covered' with
    | self => exact .inl some
    | lines => exact .inl ⟨.inr ⟨rfl, Nat.le_refl _⟩, .inr ⟨rfl, Nat.le_refl _⟩⟩

/-- What is covered of a node in front of another one ends in front of that one, and not on its line if its lines are
covered. -/
theorem stop_le (covered : n.Covered source p q) (member' : m ∈ tree.nodes) (edited' : m.kind.isEdited = true)
    (before : (n.span source.lines).stop ≤ m.begin source.lines) :
    q ≤ m.begin source.lines ∧ (q = (n.span source.lines).stop ∨ q.line < (m.begin source.lines).line) := by
  cases covered with
  | self => exact ⟨before, .inl rfl⟩
  | lines removable front back =>
    have behind : (n.span source.lines).stop.line < (m.begin source.lines).line := by
      by_contra sameLine
      obtain ⟨place, starts, line, le⟩ := exists_starts parsed member' edited'
      have sameLine : place.1 = (n.span source.lines).stop.line := by
        have before := Position.le_def.mp before
        omega
      have inOrder : toLex (n.mark.endLine, n.mark.endColumn) ≤ toLex place := by
        obtain ⟨isPlaced, noText⟩ := Kind.isPlaced_of_isEdited edited
        obtain ⟨front, back, cut, solid⟩ := starts.solidAt (Source.ended_ofFile source version)
        refine (placed_of_parseModule parsed member isPlaced noText).1.2.le_of_position_le (cut.hasPlace ?_)
          (Position.le_trans before le)
        obtain ⟨c, rest, rfl, -⟩ := solid
        simp
      have clear := (removable_of_parseModule parsed member removable).ends.clearAt starts inOrder
      obtain ⟨d, head, noHash⟩ := Text.ClearAt.back clear sameLine
      have isStop : (n.span source.lines).stop = source.position (n.mark.endLine, n.mark.endColumn) := rfl
      rw [isStop] at back
      exact noHash (back d head)
    exact ⟨.inl behind, .inr behind⟩

/-- What is covered of two nodes, one in front of the other, is apart. -/
theorem apart (covered : n.Covered source p q) (member' : m ∈ tree.nodes) (edited' : m.kind.isEdited = true)
    (covered' : m.Covered source p' q') (before : (n.span source.lines).stop ≤ m.begin source.lines) : q ≤ p' := by
  obtain ⟨le, ends⟩ := covered.stop_le parsed member edited member' edited' before
  cases covered' with
  | self => exact le
  | lines removable front back =>
    rcases ends with rfl | behind
    · -- on the line of the later node nothing stands in front of it
      rcases inkedAt_stop parsed member edited with first | inked
      · obtain ⟨line, column⟩ := Prod.mk.inj first
        refine Position.le_def.mpr ?_
        have le := Position.le_def.mp le
        have column : (n.span source.lines).stop.column = 0 := by
          change Text.charsBefore _ n.mark.endColumn = 0
          rw [column]
          cases source.lines.getD (n.mark.endLine - 1) [] <;> rfl
        dsimp only
        omega
      · by_contra onLine
        obtain ⟨d, inFront, noBlank⟩ := inked.front
        rw [Position.le_def] at onLine le
        obtain ⟨sameLine, inLine⟩ : (n.span source.lines).stop.line = (m.begin source.lines).line ∧
            (n.span source.lines).stop.column ≤ (m.begin source.lines).column := by
          dsimp only at onLine
          omega
        have blank := front d ((List.take_prefix_take_left inLine).subset (sameLine ▸ inFront))
        rw [noBlank] at blank
        cases blank
    · exact .inl behind

end Tree.Covered

end File

/-- Two edits stand in the text, and they are disjoint or one lies inside the other. -/
def Edit.Nest (source : Text) (e e' : Edit) : Prop :=
  ∃ placed placed', e.place source.lineStarts = .ok placed ∧ e'.place source.lineStarts = .ok placed' ∧
    Nests placed.stretch placed'.stretch

/-- An edit lies inside a span of the text or is disjoint from it. -/
def Edit.KeepsTo (source : Text) (e : Edit) (span : Span) : Prop :=
  ∃ placed lo hi, e.place source.lineStarts = .ok placed ∧ Text.offsetIn source.lineStarts span.start = some lo ∧
    Text.offsetIn source.lineStarts span.stop = some hi ∧
    (placed.Within lo hi ∨ placed.stop ≤ lo ∨ hi ≤ placed.start)

theorem Kind.isRemovable_ne_call {kind : Kind} (removable : kind.isRemovable = true) : kind ≠ .call := by
  rintro rfl
  cases removable

namespace Scan

/-- A node that a pass may edit: a call, or the statement of a macro. -/
def MayEdit (scan : Scan) (n : Tree) : Prop := n.kind = .call ∨ ∃ d ∈ scan.definitions, n = d.statement

/-- An edit for a node that a pass may edit. -/
def MayWrite (scan : Scan) (source : Text) (tree : Tree) (e : Edit) : Prop :=
  ∃ n ∈ tree.nodes, scan.MayEdit n ∧ e.Covers source n

theorem Defines.isRemovable {c : Context} {p t : Tree} {d : Definition} (defines : Defines c p t d) :
    d.statement.kind.isRemovable = true := by
  have bound := defines.boundName
  generalize d.statement = statement at bound ⊢
  unfold Scan.boundName at bound
  split at bound <;> first | rfl | cases bound

end Scan

/-! ## Scanned files -/

section Scanned

variable {settings : Settings} {source path : Text} {tree : Tree} {scan : Scan}
  (isScanned : Pass.scanned settings source path = .ok (tree, scan)) (laminar : tree.Laminar source)

section

include isScanned

theorem noLambda_of_scanned : tree.kind ≠ .lambdaExpr := by
  obtain ⟨ignores, isModule⟩ := module_of_parseModule (Pass.parsed_of_scanned isScanned)
  simp [isModule]

theorem labelled_of_scanned : tree.Labelled := labelled_of_parseModule (Pass.parsed_of_scanned isScanned)

/-- The statement of a macro is a statement of the file that may be removed. -/
theorem statement_of_scanned {d : Definition} (isDefinition : d ∈ scan.definitions) :
    d.statement ∈ tree.nodes ∧ d.statement.kind.isRemovable = true := by
  have found := Pass.found_of_scanned isScanned
  obtain ⟨p, t, -, defines⟩ := found.defined d isDefinition
  exact ⟨found.statement_mem (noLambda_of_scanned isScanned) isDefinition, defines.isRemovable⟩

theorem Scan.MayEdit.isEdited {n : Tree} (mayEdit : scan.MayEdit n) : n.kind.isEdited = true := by
  rcases mayEdit with isCall | ⟨d, isDefinition, rfl⟩
  · rw [isCall]
    rfl
  · rw [Kind.isEdited, (statement_of_scanned isScanned isDefinition).2, Bool.or_true]

/-- No statement of a macro stands in a call or in the statement of another macro. -/
theorem Scan.MayEdit.isCall_of_inside {n m : Tree} (member : n ∈ tree.nodes) (mayEdit : scan.MayEdit n)
    (mayEdit' : scan.MayEdit m) (inside : m ∈ n.nodes) (below : m ≠ n) : m.kind = .call := by
  have parsed := Pass.parsed_of_scanned isScanned
  refine mayEdit'.resolve_right ?_
  rintro ⟨d, isDefinition, rfl⟩
  obtain ⟨isNode, isRemovable⟩ := statement_of_scanned isScanned isDefinition
  rcases mayEdit with isCall | ⟨d', isDefinition', rfl⟩
  · have inert := ((wellFormed_of_parseModule parsed).of_mem member).inert (by rw [isCall]; rfl)
    exact (Pass.found_of_scanned isScanned).statement_ne_part isDefinition (inert _ inside)
  · exact below ((Pass.found_of_scanned isScanned).not_nested (labelled_of_scanned isScanned)
      (wellFormed_of_parseModule parsed).bindsParts (noLambda_of_scanned isScanned) isDefinition' isDefinition inside)

end

include isScanned laminar

/-- What is covered of a node inside another one lies inside what is covered of that one, or around it. -/
theorem covered_inside {n m : Tree} {p q p' q' : Position} (member : n ∈ tree.nodes) (mayEdit : scan.MayEdit n)
    (mayEdit' : scan.MayEdit m) (inside : m ∈ n.nodes) (covered : n.Covered source p q)
    (covered' : m.Covered source p' q') : (p ≤ p' ∧ q' ≤ q) ∨ (p' ≤ p ∧ q ≤ q') := by
  have parsed := Pass.parsed_of_scanned isScanned
  have edited := mayEdit.isEdited isScanned
  by_cases below : m = n
  · subst below
    exact covered.nests parsed member edited covered'
  · have isCall := mayEdit.isCall_of_inside isScanned member mayEdit' inside below
    obtain ⟨begins, ends⟩ := covered.around parsed member edited
    obtain ⟨behind, before⟩ := laminar.within n member (Kind.isCallOrStatement_of_isEdited edited) m inside
      (by rw [isCall]; rfl)
    cases covered' with
    | self => exact .inl ⟨Position.le_trans begins behind, Position.le_trans before ends⟩
    | lines removable => exact absurd isCall (Kind.isRemovable_ne_call removable)

/-- Nodes neither of which stands in the other stand apart. -/
theorem laminar_apart {n m : Tree} (member : n ∈ tree.nodes) (member' : m ∈ tree.nodes)
    (edited : n.kind.isEdited = true) (edited' : m.kind.isEdited = true) (outside : n ∉ m.nodes) (outside' : m ∉ n.nodes) :
    (n.span source.lines).stop ≤ m.begin source.lines ∨ (m.span source.lines).stop ≤ n.begin source.lines := by
  have labelled := labelled_of_scanned isScanned
  have unlisted : ∀ {a b : Tree}, a ∈ tree.nodes → b ∈ tree.nodes → a ∉ b.nodes → a.mark.label ∉ b.labels := by
    intro a b inA inB outside listed
    obtain ⟨u, inside, same⟩ := List.mem_map.mp listed
    exact outside (labelled.eq_of_label inA (Tree.mem_nodes_trans inB inside) same.symm ▸ inside)
  exact laminar.apart n member (Kind.isCallOrStatement_of_isEdited edited) m member'
    (Kind.isCallOrStatement_of_isEdited edited') (unlisted member member' outside) (unlisted member' member outside')

/-- What edits cover is disjoint, or one of it lies inside the other. -/
theorem nest_of_covers {n m : Tree} {e e' : Edit} (member : n ∈ tree.nodes) (member' : m ∈ tree.nodes)
    (mayEdit : scan.MayEdit n) (mayEdit' : scan.MayEdit m) (covers : e.Covers source n) (covers' : e'.Covers source m) :
    e.Nest source e' := by
  have parsed := Pass.parsed_of_scanned isScanned
  have edited := mayEdit.isEdited isScanned
  have edited' := mayEdit'.isEdited isScanned
  obtain ⟨p, q, start, stop, covered⟩ := covers
  obtain ⟨p', q', start', stop', covered'⟩ := covers'
  obtain ⟨first, last⟩ := covered.hasPosition parsed member edited
  obtain ⟨first', last'⟩ := covered'.hasPosition parsed member' edited'
  obtain ⟨lo, isStart⟩ := first.exists_offset
  obtain ⟨hi, isStop⟩ := last.exists_offset
  obtain ⟨lo', isStart'⟩ := first'.exists_offset
  obtain ⟨hi', isStop'⟩ := last'.exists_offset
  refine ⟨⟨e, lo, hi⟩, ⟨e', lo', hi'⟩, by rw [Edit.place, start, stop, isStart, isStop],
    by rw [Edit.place, start', stop', isStart', isStop'], ?_⟩
  have nested : (p ≤ p' ∧ q' ≤ q) ∨ (p' ≤ p ∧ q ≤ q') → Nests (lo, hi) (lo', hi') := by
    rintro (⟨begins, ends⟩ | ⟨begins, ends⟩)
    · exact .inr (.inr (.inl ⟨first.offset_le first' begins isStart isStart', last'.offset_le last ends isStop' isStop⟩))
    · exact .inr (.inr (.inr ⟨first'.offset_le first begins isStart' isStart, last.offset_le last' ends isStop isStop'⟩))
  by_cases inside : m ∈ n.nodes
  · exact nested (covered_inside isScanned laminar member mayEdit mayEdit' inside covered covered')
  · by_cases inside' : n ∈ m.nodes
    · exact nested (covered_inside isScanned laminar member' mayEdit' mayEdit inside' covered' covered).symm
    · rcases laminar_apart isScanned laminar member member' edited edited' inside' inside with before | behind
      · exact .inl (last.offset_le first' (covered.apart parsed member edited member' edited' covered' before)
          isStop isStart')
      · exact .inr (.inl (last'.offset_le first (covered'.apart parsed member' edited' member edited covered behind)
          isStop' isStart))

/-- Edits for calls and for statements of macros are disjoint, or one lies inside the other. -/
theorem Scan.MayWrite.nest {e e' : Edit} (mayWrite : scan.MayWrite source tree e) (mayWrite' : scan.MayWrite source tree e') :
    e.Nest source e' := by
  obtain ⟨n, member, mayEdit, covers⟩ := mayWrite
  obtain ⟨n', member', mayEdit', covers'⟩ := mayWrite'
  exact nest_of_covers isScanned laminar member member' mayEdit mayEdit' covers covers'

/-! ## Calls among arguments -/

omit laminar in
/-- A call inside another one that calls a name stands behind the name. -/
theorem callee_le {call call' callee : Tree} {id : String} (member : call ∈ tree.nodes)
    (calls : call.Calls callee id) (inside : call' ∈ call.nodes) (isCall : call'.kind = .call) (below : call' ≠ call) :
    (callee.span source.lines).stop ≤ (call'.span source.lines).start := by
  have parsed := Pass.parsed_of_scanned isScanned
  have shaped := shaped_of_parseModule parsed
  obtain ⟨kind, only, usage, isName⟩ := calls
  have callOf := call_of_parseModule parsed member kind
  obtain ⟨u, isChild, within⟩ := (Tree.mem_nodes.mp inside).resolve_left below
  obtain ⟨slot, isSlot, inSlot⟩ := List.mem_flatten.mp isChild
  obtain ⟨k, short, rfl⟩ := List.mem_iff_getElem.mp isSlot
  have inSlot : u ∈ call.slot k := by simpa [Tree.slot, List.getD, short] using inSlot
  cases k with
  | zero =>
    -- a name has no parts
    rw [only, List.mem_singleton] at inSlot
    subst inSlot
    have leaf : u.children = [] :=
      (shaped.of_mem (Tree.mem_nodes_trans member (Tree.mem_nodes_of_child isChild (Tree.mem_nodes_self u)))).leaf isName
    rw [Tree.nodes_eq, leaf] at within
    obtain rfl := List.mem_singleton.mp within
    cases isName.symm.trans isCall
  | succ k =>
    have isCallee : callee ∈ call.slot 0 := only ▸ List.mem_singleton_self callee
    exact Text.position_mono ((callOf.callee callee isCallee (by rw [isName]; rfl)).2.2 k u inSlot call' within isCall)

/-- The edit of a call that was replaced before another one lies in the arguments of that one or is disjoint from
them. -/
theorem keepsTo_of_replaced {call call' callee : Tree} {id : String} {site : CallSite} {e : Edit}
    (member : call ∈ tree.nodes) (member' : call' ∈ tree.nodes) (replaces : e.Replaces source.lines call)
    (ofCall : site.Of source.lines call') (outside : call' ∉ call.nodes) (calls : call'.Calls callee id) :
    e.KeepsTo source site.argsSpan := by
  have parsed := Pass.parsed_of_scanned isScanned
  obtain ⟨isCall, start, stop⟩ := replaces
  have isCall' := ofCall.isCall
  have isCallee : callee ∈ call'.slot 0 := calls.2.1 ▸ List.mem_singleton_self callee
  have isName : callee.kind.isName = true := by
    obtain ⟨usage, kind⟩ := calls.2.2
    rw [kind]
    rfl
  have part : call'.part 0 = callee := by
    simp [Tree.part, Tree.part?, calls.2.1]
  have calleePlaced : callee.kind.isPlaced = true ∧ callee.kind.isText = false := by
    obtain ⟨usage, kind⟩ := calls.2.2
    rw [kind]
    exact ⟨rfl, rfl⟩
  obtain ⟨first, last⟩ := hasPosition_span parsed member (by rw [isCall]; rfl) (by rw [isCall]; rfl)
  obtain ⟨first', last'⟩ := hasPosition_span parsed member' (by rw [isCall']; rfl) (by rw [isCall']; rfl)
  have opens := (hasPosition_span parsed (Tree.mem_nodes_trans member'
    (Tree.mem_nodes_of_child calls.child (Tree.mem_nodes_self callee))) calleePlaced.1 calleePlaced.2).2
  obtain ⟨a, isStart⟩ := first.exists_offset
  obtain ⟨b, isStop⟩ := last.exists_offset
  obtain ⟨lo, isLo⟩ := opens.exists_offset
  obtain ⟨hi, isHi⟩ := last'.exists_offset
  refine ⟨⟨e, a, b⟩, lo, hi, by rw [Edit.place, start, stop, isStart, isStop], by rw [ofCall.argsSpan, part, isLo],
    by rw [ofCall.argsSpan, isHi], ?_⟩
  by_cases inside : call ∈ call'.nodes
  · have below : call ≠ call' := by
      rintro rfl
      exact outside (Tree.mem_nodes_self _)
    have behind := callee_le isScanned member' calls inside isCall below
    have before := (laminar.within call' member' (by rw [isCall']; rfl) call inside (by rw [isCall]; rfl)).2
    exact .inl ⟨opens.offset_le first behind isLo isStart, last.offset_le last' before isStop isHi⟩
  · have apart := laminar_apart isScanned laminar member member' (by rw [isCall]; rfl) (by rw [isCall']; rfl) inside outside
    rw [Tree.begin_call isCall, Tree.begin_call isCall'] at apart
    rcases apart with before | behind
    · have inCall : (call'.span source.lines).start ≤ (callee.span source.lines).stop :=
        Text.position_mono ((call_of_parseModule parsed member' isCall').callee callee isCallee isName).1
      exact .inr (.inl (last.offset_le opens (Position.le_trans before inCall) isStop isLo))
    · exact .inr (.inr (last'.offset_le first behind isHi isStart))

end Scanned

end MacroExpand
