import MacroExpand.Proofs.Grammar

/-!
# Where nodes stand

The tokens of a source begin and end at its places (`Source.Edge.hasPlace`), those of the expressions in formatted
literals too: such an expression is read in brackets of its own, which stand where a brace and the end of the
expression stand in the source.  So the nodes of the tree of a file begin and end at places of the file, its line ends
made alike and its last line ended.
-/

set_option autoImplicit false

namespace MacroExpand

/-- How far a character moves a place along its line: not at all if it ends the line. -/
def charWidth (c : Char) : Nat := if c = '\n' then 0 else c.utf8Size

theorem charWidth_eq_zero {c : Char} : charWidth c = 0 ↔ c = '\n' := by
  unfold charWidth
  split
  case isTrue feed => simp [feed]
  case isFalse noFeed =>
    have positive := c.utf8Size_pos
    simp [noFeed]
    omega

namespace Text

def Alike (a b : Text) : Prop := a.map (fun c => (charWidth c, isBlank c)) = b.map fun c => (charWidth c, isBlank c)

variable {a b c d : Text}

theorem Alike.refl (a : Text) : Alike a a := rfl

theorem Alike.trans (first : Alike a b) (second : Alike b c) : Alike a c := Eq.trans first second

theorem Alike.append (left : Alike a b) (right : Alike c d) : Alike (a ++ c) (b ++ d) := by
  rw [Alike, List.map_append, List.map_append, left, right]

/-- Where a text is cut, one that is alike can be cut too. -/
theorem Alike.split (alike : Alike (a ++ b) c) : ∃ a' b', c = a' ++ b' ∧ Alike a a' ∧ Alike b b' := by
  rw [Alike, List.map_append, eq_comm, List.map_eq_append_iff] at alike
  obtain ⟨a', b', rfl, left, right⟩ := alike
  exact ⟨a', b', rfl, left.symm, right.symm⟩

theorem Alike.widths (alike : Alike a b) : a.map charWidth = b.map charWidth := by
  simpa [Function.comp_def] using congrArg (List.map Prod.fst) alike

theorem Alike.advance_eq (alike : Alike a b) (place : Nat × Nat) :
    Lexer.advance place a = Lexer.advance place b := by
  have moves : ∀ text, Lexer.advance place text = (text.map charWidth).foldl
      (fun p width => if width = 0 then (p.1 + 1, 0) else (p.1, p.2 + width)) place := by
    intro text
    rw [Lexer.advance_eq_foldl, List.foldl_map]
    congr
    funext p d
    by_cases feed : d = '\n'
    · rw [StringLiteral.move, if_pos feed, if_pos (charWidth_eq_zero.mpr feed)]
    · rw [StringLiteral.move, if_neg feed, if_neg (mt charWidth_eq_zero.mp feed), charWidth, if_neg feed]
  rw [moves, moves, alike.widths]

theorem Alike.getLast?_feed (alike : Alike a b) : a.getLast? = some '\n' ↔ b.getLast? = some '\n' := by
  have last : ∀ text : Text, text.getLast? = some '\n' ↔ (text.map charWidth).getLast? = some 0 := by
    intro text
    rw [List.getLast?_map, Option.map_eq_some_iff]
    constructor
    · exact fun ends => ⟨'\n', ends, rfl⟩
    · rintro ⟨d, ends, width⟩
      rw [ends, charWidth_eq_zero.mp width]
  rw [last, last, alike.widths]

theorem Alike.solid (alike : Alike a b) (solid : a.Solid) : b.Solid := by
  obtain ⟨c, rest, rfl, noBlank⟩ := solid
  cases b with
  | nil => cases alike
  | cons d more =>
    have same := (Prod.mk.inj (List.cons.inj alike).1).2
    exact ⟨d, more, rfl, same ▸ noBlank⟩

theorem Alike.mem_feed (alike : Alike a b) : '\n' ∈ a ↔ '\n' ∈ b := by
  have ends : ∀ text : Text, '\n' ∈ text ↔ 0 ∈ text.map charWidth := by
    intro text
    simp [charWidth_eq_zero]
  rw [ends, ends, alike.widths]

theorem Alike.inked (alike : Alike a b) (inked : a.Inked) : b.Inked := by
  obtain ⟨front, d, back, rfl, noBlank, flat⟩ := inked
  obtain ⟨front', rest, rfl, -, right⟩ := alike.split
  have right : Alike ([d] ++ back) rest := right
  obtain ⟨first, back', rfl, here, behind⟩ := right.split
  obtain ⟨d', more, rfl, noBlank'⟩ := here.solid ⟨d, [], rfl, noBlank⟩
  obtain rfl : more = [] := by
    have length := congrArg List.length here
    simpa using length
  exact ⟨front', d', back', rfl, noBlank', mt behind.mem_feed.mpr flat⟩

theorem Alike.plain {c d : Char} (left : IsPlainChar c) (right : IsPlainChar d) : Alike [c] [d] := by
  simp [Alike, charWidth, left.1, left.2, left.noFeed, right.1, right.2, right.noFeed]

end Text

def Mark.PlacedIn (m : Mark) (text : Text) : Prop :=
  text.HasPlace (1, 0) (m.line, m.column) ∧ text.HasPlace (1, 0) (m.endLine, m.endColumn)

namespace Source

variable {s : Source} {place place' : Nat × Nat} {text other front back : Text}

def Holds (s : Source) (place : Nat × Nat) (text : Text) : Prop :=
  ∃ front slice back, s.text = front ++ slice ++ back ∧ text.Alike slice ∧ Lexer.advance (1, 0) front = place

theorem Holds.part {part : Text} (holds : s.Holds place text) (cut : text.CutAt place front (part ++ back) place')
    (alike : other.Alike part) : s.Holds place' other := by
  obtain ⟨before, slice, behind, whole, same, begins⟩ := holds
  rw [← cut.whole] at same
  obtain ⟨front', rest, rfl, left, right⟩ := same.split
  obtain ⟨part', back', rfl, middle, -⟩ := right.split
  refine ⟨before ++ front', part', back' ++ behind, by rw [whole]; simp, alike.trans middle, ?_⟩
  rw [Lexer.advance_append, begins, ← left.advance_eq, cut.place]

theorem Holds.hasPlace (holds : s.Holds place text) (nonempty : text ≠ [])
    (hasPlace : text.HasPlace place place') : s.text.HasPlace (1, 0) place' := by
  obtain ⟨before, slice, behind, whole, same, begins⟩ := holds
  obtain ⟨front, back, cut, inside⟩ := hasPlace
  rw [← cut.whole] at same
  obtain ⟨front', back', rfl, left, right⟩ := same.split
  refine ⟨before ++ front', back' ++ behind, ⟨by rw [whole]; simp, ?_⟩, ?_⟩
  · rw [Lexer.advance_append, begins, ← left.advance_eq, cut.place]
  · intro none
    have ended : back = [] := by
      have empty : back' = [] := (List.append_eq_nil_iff.mp none).1
      rw [Text.Alike, empty] at right
      simpa using right
    have some : front ≠ [] := by
      rintro rfl
      exact nonempty (by rw [← cut.whole, ended]; rfl)
    have some' : front' ≠ [] := by
      rintro rfl
      rw [Text.Alike] at left
      simp [some] at left
    rw [List.getLast?_append_of_ne_nil _ some', ne_eq, ← left.getLast?_feed]
    exact inside ended

/-- A character of what stands in the source stands in the source. -/
theorem Holds.solidAt (holds : s.Holds place text) (solid : text.SolidAt place place') :
    s.text.SolidAt (1, 0) place' := by
  obtain ⟨before, slice, behind, whole, same, begins⟩ := holds
  obtain ⟨front, back, cut, noBlank⟩ := solid
  rw [← cut.whole] at same
  obtain ⟨front', back', rfl, left, right⟩ := same.split
  obtain ⟨c, rest, rfl, plain⟩ := right.solid noBlank
  refine ⟨before ++ front', (c :: rest) ++ behind, ⟨by rw [whole]; simp, ?_⟩, c, rest ++ behind, rfl, plain⟩
  rw [Lexer.advance_append, begins, ← left.advance_eq, cut.place]

/-- What stands in front of a place on its line stands there in the source. -/
theorem Holds.inkedAt (holds : s.Holds place text) (inked : text.InkedAt place place') :
    s.text.InkedAt (1, 0) place' := by
  obtain ⟨before, slice, behind, whole, same, begins⟩ := holds
  obtain ⟨front, back, cut, here⟩ := inked
  rw [← cut.whole] at same
  obtain ⟨front', back', rfl, left, -⟩ := same.split
  refine ⟨before ++ front', back' ++ behind, ⟨by rw [whole]; simp, ?_⟩, (left.inked here).append_left before⟩
  rw [Lexer.advance_append, begins, ← left.advance_eq, cut.place]

def Ended (s : Source) : Prop := ∃ front, s.text = front ++ ['\n']

def Reads (s : Source) (tokens : List Token) : Prop :=
  ∃ options text, tokens = (Lexer.run options text).tokens ∧ text ≠ [] ∧
    text.Closed (options.startLine, options.startColumn) ∧ s.Holds (options.startLine, options.startColumn) text

theorem Reads.holds_field {tokens : List Token} {t : Token} {pieces : List Piece} {expression : Text}
    {line column : Nat} (reads : s.Reads tokens) (member : t ∈ tokens) (isString : t.kind = .string)
    (split : (StringLiteral.ofToken t).split = .ok pieces)
    (field : StringLiteral.Field pieces expression line column) :
    s.Holds (line, column) ('(' :: (expression ++ [')'])) := by
  obtain ⟨options, text, rfl, -, -, holds⟩ := reads
  obtain ⟨⟨before, behind, cut⟩, letters⟩ := (Lexer.run_cut member).literal isString
  obtain ⟨front, d, back, inner, plain⟩ := StringLiteral.field_cut letters split field
  have whole : front ++ (('\x7b' :: (expression ++ [d])) ++ (back ++ behind)) = t.text ++ behind := by
    rw [← inner.whole]
    simp
  refine holds.part (inner.place ▸ cut.moved whole) ?_
  exact (Text.Alike.plain (by decide) (by decide)).append
    ((Text.Alike.refl expression).append (.plain (by decide) plain))

theorem Lexed.reads {tokens : List Token} (lexed : s.Lexed tokens) (ended : s.Ended) : s.Reads tokens := by
  induction lexed with
  | whole typeComments =>
    obtain ⟨front, isText⟩ := ended
    exact ⟨_, s.text, rfl, by simp [isText], .inl ⟨rfl, front, isText⟩, [], s.text, [], by simp, rfl, rfl⟩
  | @field tokens t pieces expression line column outer member isString split field ih =>
    exact ⟨_, _, rfl, by simp, .inr ⟨'(' :: expression, by simp⟩, ih.holds_field member isString split field⟩

theorem Edge.hasPlace {line column : Nat} (edge : s.Edge line column) (ended : s.Ended) :
    s.text.HasPlace (1, 0) (line, column) := by
  have begins : ∀ {tokens}, s.Lexed tokens → ∀ t ∈ tokens, s.text.HasPlace (1, 0) (t.line, t.column) ∧
      (t.kind ≠ .newline → s.text.HasPlace (1, 0) (t.endLine, t.endColumn)) := by
    intro tokens lexed t member
    obtain ⟨options, text, rfl, nonempty, closed, holds⟩ := lexed.reads ended
    obtain ⟨begins, ends⟩ := (Lexer.run_cut member).placed closed
    exact ⟨holds.hasPlace nonempty begins, fun noFeed => holds.hasPlace nonempty (ends noFeed)⟩
  cases edge with
  | first =>
    exact ⟨[], s.text, ⟨rfl, rfl⟩, by simp⟩
  | field outer member isString split field =>
    have holds := (outer.reads ended).holds_field member isString split field
    exact holds.hasPlace (by simp) ⟨[], _, ⟨rfl, rfl⟩, by simp⟩
  | begins lexed member => exact (begins lexed _ member).1
  | ends lexed member noFeed => exact (begins lexed _ member).2 noFeed

/-- A token that begins with a character, wherever it is cut from, lies in such a token of the file. -/
theorem Cuts.within_token {typeComments : Bool} {options : LexOptions} {text : Text} {u : Token}
    (cuts : s.Cuts typeComments options text) (member : u ∈ (Lexer.run options text).tokens)
    (isSolid : u.kind.isSolid = true) :
    ∃ w ∈ (Lexer.run { typeComments, version := s.version } s.text).tokens,
      w.kind.isSolid = true ∧ w.start ≤ u.start ∧ u.stop ≤ w.stop := by
  induction cuts generalizing u with
  | file => exact ⟨u, member, isSolid, le_rfl, le_rfl⟩
  | field outer inOuter isString split field ih =>
    obtain ⟨w, inFile, isSolid', begins, ends⟩ := ih inOuter (by rw [isString]; rfl)
    obtain ⟨behind, before⟩ := StringLiteral.field_inside inOuter isString split field
    have known := Lexer.run_cut member
    obtain ⟨_, _, cut, -⟩ := known.solid isSolid
    obtain ⟨_, _, cut', -⟩ := known.inked (TokenKind.isInked_of_isSolid isSolid)
    exact ⟨w, inFile, isSolid', begins.trans (behind.trans cut.start_le), cut'.le_end.trans (before.trans ends)⟩

theorem ended_ofFile (text : Text) (version : Nat) : (ofFile text version).Ended := by
  unfold Ended ofFile Text.endLine
  dsimp only
  split
  case isTrue ends =>
    obtain ⟨front, same⟩ := List.getLast?_eq_some_iff.mp ends
    exact ⟨front, same⟩
  case isFalse => exact ⟨_, rfl⟩

end Source

namespace Frame

variable {s : Frame}

theorem Built.placed {t : Tree} (built : s.Built t) (ended : s.Ended) (isPlaced : t.kind.isPlaced = true) :
    t.mark.PlacedIn s.text := by
  have spans : s.Spans t.mark := by
    cases built with
    | node here => exact here.spans isPlaced
    | joined spans => exact spans
  exact ⟨spans.start.hasPlace ended, spans.stop.hasPlace ended⟩

theorem Built.leads {t d : Tree} (built : s.Built t) (decorates : d ∈ t.decorators) : s.Leads d := by
  cases built with
  | joined => cases decorates
  | node here => exact here.decorators d decorates

theorem Starts.solidAt {line column : Nat} (starts : s.Starts (toLex (line, column))) (ended : s.Ended) :
    s.text.SolidAt (1, 0) (line, column) := by
  obtain ⟨_, _, cuts, u, member, isSolid, place⟩ := starts
  obtain ⟨options, text, same, -, -, holds⟩ := cuts.lexed.reads ended
  rw [same] at member
  rw [← toLex_inj.mp place]
  exact holds.solidAt ((Lexer.run_cut member).solid isSolid)

theorem Stops.inkedAt {place : Nat × Nat} (stops : s.Stops (toLex place)) (ended : s.Ended) :
    s.text.InkedAt (1, 0) place := by
  obtain ⟨_, _, cuts, u, member, isInked, here⟩ := stops
  obtain ⟨options, text, same, -, -, holds⟩ := cuts.lexed.reads ended
  rw [same] at member
  rw [← toLex_inj.mp here]
  exact holds.inkedAt ((Lexer.run_cut member).inked isInked)

theorem Closes.inkedAt {place : Nat × Nat} (closes : s.Closes (toLex place)) :
    place = (1, 0) ∨ s.text.InkedAt (1, 0) place := by
  rcases closes with first | ⟨u, member, isInked, here⟩
  · exact .inl (toLex_inj.mp first)
  · rw [← toLex_inj.mp here]
    exact .inr ((Lexer.run_cut member).inked isInked)

/-- Between the end of a statement and a token behind it no comment stands on their line. -/
theorem Closes.clearAt {place place' : Nat × Nat} (closes : s.Closes (toLex place)) (starts : s.Starts (toLex place'))
    (inOrder : toLex place ≤ toLex place') : s.text.ClearAt (1, 0) place place' := by
  obtain ⟨options, text, cuts, u, member, isSolid, here⟩ := starts
  obtain ⟨w, inFile, isSolid', begins, ends⟩ := cuts.within_token member isSolid
  have isCut := TokenKind.isCut_of_isInked (TokenKind.isInked_of_isSolid isSolid')
  have known := Lexer.run_cut member
  have some : u.start < u.stop := by
    rw [Token.stop, ← known.extent]
    exact Lexer.lt_advance _ (known.some isSolid)
  have follows : w.Follows (1, 0) s.text place := by
    rcases closes with first | ⟨v, inFile', isInked, there⟩
    · obtain ⟨front, back, split⟩ := List.append_of_mem inFile
      rw [toLex_inj.mp first]
      exact (Lexer.run_order split isCut).1
    · have before : v.stop < w.stop := by
        rw [there]
        exact inOrder.trans_lt (here ▸ some.trans_le ends)
      rw [← toLex_inj.mp there]
      exact Lexer.run_follows inFile' inFile (TokenKind.isCut_of_isInked isInked) isCut before
  obtain ⟨part, rest, between, moved, quiet⟩ := follows
  obtain ⟨solid, noComment, quiet⟩ := quiet isSolid'
  refine ⟨part, rest, between, ?_, solid, noComment, quiet⟩
  rw [moved]
  exact here ▸ begins

end Frame

/-! ## Nodes of a file -/

theorem Tree.label_mark (t : Tree) (k : Nat) : (t.label k).1.mark = { t.mark with label := k } := by
  obtain ⟨m, kind, slots⟩ := t
  rfl

@[simp] theorem Tree.label_start (t : Tree) (k : Nat) : (t.label k).1.mark.start = t.mark.start := by
  rw [label_mark]
  rfl

@[simp] theorem Tree.label_stop (t : Tree) (k : Nat) : (t.label k).1.mark.stop = t.mark.stop := by
  rw [label_mark]
  rfl

theorem Tree.CallsFrom.label {t : Tree} {place : Nat ×ₗ Nat} (calls : t.CallsFrom place) (k : Nat) :
    (t.label k).1.CallsFrom place := by
  intro n inside isCall
  obtain ⟨v, within, j, rfl⟩ := exists_of_label_node inside
  rw [label_kind] at isCall
  rw [label_mark]
  exact calls v within isCall

theorem Tree.exists_of_label_decorator {t d : Tree} {next : Nat} (decorates : d ∈ (t.label next).1.decorators) :
    ∃ e ∈ t.decorators, ∃ k, d = (e.label k).1 := by
  unfold Tree.decorators at decorates ⊢
  rw [label_kind] at decorates
  split
  case h_1 isFunction =>
    rw [isFunction] at decorates
    exact exists_of_label_slot decorates
  case h_2 noFunction =>
    split at decorates
    case h_1 isFunction => exact absurd isFunction (noFunction _ _ _)
    case h_2 => cases decorates

/-- In the tree of a file the nodes begin and end at places of the file, and decorators begin with a character. -/
theorem placed_of_parseModule {text : Text} {typeComments : Bool} {version : Nat} {tree n : Tree}
    (parsed : parseModule text typeComments version = .ok tree) (member : n ∈ tree.nodes)
    (isPlaced : n.kind.isPlaced = true) (noText : n.kind.isText = false) :
    n.mark.PlacedIn text.unifyLineEnds.endLine ∧
      ∀ d ∈ n.decorators, text.unifyLineEnds.endLine.SolidAt (1, 0) (d.mark.line, d.mark.column) := by
  obtain ⟨inner, whole, rfl⟩ := built_of_parseModule parsed
  have ended := Source.ended_ofFile text version
  obtain ⟨v, inside, k, rfl⟩ := Tree.exists_of_label_node member
  rw [Tree.label_kind] at isPlaced noText
  have built := whole.of_mem inside noText
  refine ⟨?_, fun d decorates => ?_⟩
  · rw [Tree.label_mark]
    exact built.placed ended isPlaced
  · obtain ⟨e, isDecorator, j, rfl⟩ := Tree.exists_of_label_decorator decorates
    rw [Tree.label_mark]
    exact (built.leads isDecorator).begins.solidAt ended

/-- A call that begins and ends with tokens.  If it calls a name, the name ends inside the call, and the calls in its
arguments begin behind the name. -/
structure Frame.CallOf (s : Frame) (call : Tree) : Prop where
  begins : s.Starts call.mark.start
  ends : s.Stops call.mark.stop
  callee : ∀ t ∈ call.slot 0, t.kind.isName = true → call.mark.start ≤ t.mark.stop ∧ t.mark.stop ≤ call.mark.stop ∧
    ∀ k, ∀ u ∈ call.slot (k + 1), u.CallsFrom t.mark.stop

/-- A statement that a pass may remove, from where a token begins to where one ends outside formatted literals.  Its
decorators begin with tokens. -/
structure Frame.RemovableOf (s : Frame) (t : Tree) : Prop where
  begins : s.Starts t.mark.start
  ends : s.Closes t.mark.stop
  decorators : ∀ d ∈ t.decorators, s.Starts d.mark.start

theorem Frame.CallAt.callOf {s : Frame} {t : Tree} (call : s.CallAt t.mark t.slots) : s.CallOf t := by
  obtain ⟨m, kind, slots⟩ := t
  refine ⟨call.begins, call.ends, fun callee isCallee isName => ?_⟩
  cases slots with
  | nil => cases isCallee
  | cons first rest =>
    obtain ⟨before, inside, arguments⟩ := call.callee callee isCallee isName
    refine ⟨before, inside, fun k u inSlot => ?_⟩
    change u ∈ rest.getD k [] at inSlot
    rw [List.getD_eq_getElem?_getD] at inSlot
    cases found : rest[k]? with
    | none =>
      rw [found] at inSlot
      cases inSlot
    | some slot =>
      rw [found] at inSlot
      exact arguments slot (List.mem_of_getElem? found) u inSlot

theorem Frame.CallOf.label {s : Frame} {t : Tree} (call : s.CallOf t) (k : Nat) : s.CallOf (t.label k).1 := by
  refine ⟨by simpa using call.begins, by simpa using call.ends, fun callee isCallee isName => ?_⟩
  obtain ⟨v, isCallee', j, rfl⟩ := Tree.exists_of_label_slot isCallee
  rw [Tree.label_kind] at isName
  rw [Tree.label_start, Tree.label_stop]
  obtain ⟨before, inside, arguments⟩ := call.callee v isCallee' isName
  refine ⟨before, by simpa using inside, fun k u inSlot => ?_⟩
  obtain ⟨w, inSlot', i, rfl⟩ := Tree.exists_of_label_slot inSlot
  exact (arguments k w inSlot').label i

theorem call_of_parseModule {text : Text} {typeComments : Bool} {version : Nat} {tree n : Tree}
    (parsed : parseModule text typeComments version = .ok tree) (member : n ∈ tree.nodes) (isCall : n.kind = .call) :
    (Frame.ofFile text typeComments version).CallOf n := by
  obtain ⟨inner, whole, rfl⟩ := built_of_parseModule parsed
  obtain ⟨v, inside, k, rfl⟩ := Tree.exists_of_label_node member
  rw [Tree.label_kind] at isCall
  have call := (whole.at_node inside (by rw [isCall]; rfl) (by rw [isCall]; exact nofun)).call isCall
  exact call.callOf.label k

theorem removable_of_parseModule {text : Text} {typeComments : Bool} {version : Nat} {tree n : Tree}
    (parsed : parseModule text typeComments version = .ok tree) (member : n ∈ tree.nodes)
    (isRemovable : n.kind.isRemovable = true) : (Frame.ofFile text typeComments version).RemovableOf n := by
  obtain ⟨inner, whole, rfl⟩ := built_of_parseModule parsed
  obtain ⟨v, inside, k, rfl⟩ := Tree.exists_of_label_node member
  rw [Tree.label_kind] at isRemovable
  have here := whole.at_node inside (by cases kind : v.kind <;> simp_all) (by rintro kind; simp [kind] at isRemovable)
  obtain ⟨begins, ends⟩ := here.removable isRemovable
  refine ⟨by simpa using begins, by simpa using ends, fun d decorates => ?_⟩
  obtain ⟨e, isDecorator, j, rfl⟩ := Tree.exists_of_label_decorator decorates
  rw [Tree.label_start]
  obtain ⟨m, kind, slots⟩ := v
  exact (here.decorators e isDecorator).begins

end MacroExpand
