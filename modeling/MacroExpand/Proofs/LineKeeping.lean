import MacroExpand.Proofs.Breaks
import MacroExpand.Proofs.Elimination
import MacroExpand.Proofs.Extents
import MacroExpand.Proofs.Nesting
import MacroExpand.Proofs.SingleRuns

/-!
# Recorded edits keep the ends of lines

A replaced call gets the expression of its macro in the text, bare or in brackets.  A removed statement leaves blanks or
a `pass`.  Either way an edit writes as many line feeds as the lines of its span are apart.

Calls and the statements of macros stand between places of the source (`placed_of_parseModule`), and between two places
as many lines end as the lines of the places are apart (`Text.slice_breaks`), whatever ends them.  So each recorded edit
keeps the number of ends of lines; that of line feeds, which is what emitting looks at, it keeps if no line of the source
ends with a carriage return alone.
-/

set_option autoImplicit false

namespace MacroExpand

open Pass
open Text (Flat HasPosition)

/-- An edit writes as many line feeds as its span has line breaks. -/
def Edit.KeepsLines (e : Edit) : Prop := (e.replacement.countFeeds : Int) = e.stop.line - e.start.line

theorem Text.countFeeds_eq_zero {text : Text} (flat : '\n' ∉ text) : text.countFeeds = 0 :=
  List.count_eq_zero.mpr flat

/-! ## What edits write -/

/-- How the expression of a macro stands in the place of a call: bare where that is thought to be safe,
else in brackets, with the line feeds before the closing one. -/
inductive Rewriting.Wraps (site : CallSite) (result : Tree) (expression : Text) : Text → Prop where
  | bare (oneLine : site.span.stop.line ≤ site.span.start.line)
      (safe : result.isAtomic = true ∨ site.free = true) : Wraps site result expression expression
  | brackets : Wraps site result expression ('(' :: (expression ++
      List.replicate (site.span.stop.line - site.span.start.line) '\n' ++ [')']))

theorem Rewriting.wraps_replacement (site : CallSite) (result : Tree) (expression : Text) :
    Wraps site result expression (replacement site result expression) := by
  unfold replacement
  dsimp only
  split
  · exact .brackets
  · rename_i noFeeds
    have oneLine : site.span.stop.line ≤ site.span.start.line := by omega
    split
    · rename_i safe
      exact .bare oneLine (by simpa using safe)
    · have none : site.span.stop.line - site.span.start.line = 0 := by omega
      have wrapped : Wraps site result expression _ := .brackets
      simpa [none] using wrapped

theorem Rewriting.Wraps.feeds {site : CallSite} {result : Tree} {expression text : Text}
    (wraps : Wraps site result expression text) (flat : '\n' ∉ expression) :
    text.countFeeds = site.span.stop.line - site.span.start.line := by
  have none := Text.countFeeds_eq_zero flat
  cases wraps with
  | bare oneLine safe => omega
  | brackets =>
    unfold Text.countFeeds at none ⊢
    simp [List.count_append, none]

theorem expansion_of_site {value : String → Text} {sites : List CallSite} {expansions : List Expansion}
    (results : List.Forall₂ (fun site e => e.site = site ∧
      parseExpression (value site.name) = .ok e.result) sites expansions) {e : Expansion}
    (member : e ∈ expansions) : e.site ∈ sites ∧ parseExpression (value e.site.name) = .ok e.result := by
  induction results with
  | nil => cases member
  | cons here _ ih =>
    rcases List.mem_cons.mp member with rfl | later
    · obtain ⟨rfl, parsed⟩ := here
      exact ⟨.head _, parsed⟩
    · exact ⟨.tail _ (ih later).1, (ih later).2⟩

namespace Removal

variable {c : Context}

/-- What an edit leaves of a removed statement: nothing but line feeds, or a `pass` as well, after the
blanks before the statement or with a continuation on every line. -/
inductive Leaves (front : Text) (feeds : Nat) : Text → Prop where
  | blank : Leaves front feeds (List.replicate feeds '\n')
  | pass : Leaves front feeds (front ++ chars "pass" ++ List.replicate feeds '\n')
  | continued : Leaves front feeds
      (chars "pass" ++ (List.replicate feeds [' ', '\\', '\n']).flatten)

theorem Leaves.feeds {front text : Text} {feeds : Nat} (leaves : Leaves front feeds text)
    (flat : '\n' ∉ front) : text.countFeeds = feeds := by
  have none := Text.countFeeds_eq_zero flat
  unfold Text.countFeeds at none ⊢
  cases leaves with
  | blank => simp
  | pass => simp [List.count_append, none, chars]
  | continued => simp [List.count_flatten, chars]

/-- Where a removed statement is in the text before the statement itself. -/
def Context.front (c : Context) (t : Tree) : Text := (c.line (c.start t).line).take (c.start t).column

theorem leaves_edit (c : Context) (withPass : Bool) (t : Tree) :
    Leaves (c.front t) ((t.span c.lines).stop.line - (c.start t).line) (c.edit withPass t).replacement ∧
      (c.edit withPass t).start.line = (c.start t).line ∧
      (c.edit withPass t).stop.line = (t.span c.lines).stop.line := by
  unfold Context.edit
  dsimp only
  split
  · exact ⟨.continued, rfl, rfl⟩
  · refine ⟨?_, rfl, rfl⟩
    split
    · exact .pass
    · exact .blank

end Removal

/-! ## Edits between places -/

/-- An edit takes a part of the source away and writes as many ends of lines as the part has. -/
def Edit.KeepsBreaks (e : Edit) (source : Text) : Prop :=
  ∃ placed, e.place source.lineStarts = .ok placed ∧
    (source.slice placed.start placed.stop).countBreaks = e.replacement.countBreaks

/-- An edit takes a part of the source away in which a carriage return alone ends a line. -/
def Edit.TakesLoneReturn (e : Edit) (source : Text) : Prop :=
  ∃ placed, e.place source.lineStarts = .ok placed ∧
    (source.slice placed.start placed.stop).hasLoneReturn = true

/-- An edit stands between two places of the source, and writes as many line feeds as their lines are apart and no
other ends of lines. -/
structure Edit.Fits (e : Edit) (source : Text) : Prop where
  between : ∃ p q : Position, e.start = p ∧ e.stop = q ∧ source.HasPosition p ∧ source.HasPosition q ∧
    e.replacement.countFeeds = q.line - p.line
  noReturn : '\r' ∉ e.replacement

namespace Edit.Fits

variable {e : Edit} {source : Text} {placed : PlacedEdit}

theorem exists_place (fits : e.Fits source) : ∃ placed, e.place source.lineStarts = .ok placed := by
  obtain ⟨p, q, start, stop, first, last, -⟩ := fits.between
  obtain ⟨lo, isStart⟩ := first.exists_offset
  obtain ⟨hi, isStop⟩ := last.exists_offset
  exact ⟨_, by rw [Edit.place, start, stop, isStart, isStop]⟩

theorem breaks (fits : e.Fits source) (isPlaced : e.place source.lineStarts = .ok placed) :
    (source.slice placed.start placed.stop).countBreaks = e.replacement.countFeeds := by
  obtain ⟨p, q, start, stop, first, last, feeds⟩ := fits.between
  obtain ⟨lo, isStart⟩ := first.exists_offset
  obtain ⟨hi, isStop⟩ := last.exists_offset
  rw [Edit.place, start, stop, isStart, isStop] at isPlaced
  cases isPlaced
  rw [feeds]
  exact Text.slice_breaks first last isStart isStop

theorem keepsBreaks (fits : e.Fits source) : e.KeepsBreaks source := by
  obtain ⟨placed, isPlaced⟩ := fits.exists_place
  refine ⟨placed, isPlaced, ?_⟩
  rw [fits.breaks isPlaced, Text.countBreaks_of_noReturn fits.noReturn]

theorem keepsLines (fits : e.Fits source) (inOrder : e.start.line ≤ e.stop.line) : e.KeepsLines := by
  obtain ⟨p, q, start, stop, -, -, feeds⟩ := fits.between
  rw [start, stop] at inOrder
  have inOrder : p.line ≤ q.line := Int.ofNat_le.mp inOrder
  rw [Edit.KeepsLines, start, stop, feeds]
  exact Int.ofNat_sub inOrder

/-- Unless a carriage return alone ends a line in the part that is taken away, as many line feeds are written as the
part has. -/
theorem feeds (fits : e.Fits source) (isPlaced : e.place source.lineStarts = .ok placed)
    (noLone : ¬ e.TakesLoneReturn source) :
    (source.slice placed.start placed.stop).countFeeds = e.replacement.countFeeds := by
  rw [← fits.breaks isPlaced, Text.countBreaks_of_hasLoneReturn]
  exact Bool.eq_false_iff.mpr fun lone => noLone ⟨placed, isPlaced, lone⟩

end Edit.Fits

/-! ## Nodes in the source -/

variable {source : Text} {typeComments : Bool} {version : Nat} {tree n : Tree}

theorem hasPosition_span (parsed : parseModule source typeComments version = .ok tree) (member : n ∈ tree.nodes)
    (isPlaced : n.kind.isPlaced = true) (noText : n.kind.isText = false) :
    source.HasPosition (n.span source.lines).start ∧ source.HasPosition (n.span source.lines).stop := by
  obtain ⟨⟨begins, ends⟩, -⟩ := placed_of_parseModule parsed member isPlaced noText
  exact ⟨begins.position, ends.position⟩

/-- The begin and the end of the line of a place are places too. -/
theorem Text.HasPosition.onLine {p : Position} (has : source.HasPosition p) {column : Nat}
    (inside : column ≤ (source.lineBody p.line).length) : source.HasPosition ⟨p.line, column⟩ :=
  ⟨has.positive, has.line, inside⟩

theorem Text.HasPosition.flat_front {p : Position} (has : source.HasPosition p) :
    Flat ((source.lines.getD (p.line - 1) []).take p.column) := by
  have body : Flat (source.lines.getD (p.line - 1) []).dropTerminator := Text.flat_dropTerminator (p.line - 1)
  have inside := has.column
  unfold Text.lineBody at inside
  obtain ⟨ending, whole, -⟩ := Text.exists_terminator (source.lines.getD (p.line - 1) [])
  rw [whole, List.take_append_of_le_length inside]
  have parts : Flat ((source.lines.getD (p.line - 1) []).dropTerminator.take p.column ++
      (source.lines.getD (p.line - 1) []).dropTerminator.drop p.column) := by rwa [List.take_append_drop]
  exact (Text.flat_append.mp parts).1

/-! ## Calls -/

theorem Rewriting.Wraps.noReturn {site : CallSite} {result : Tree} {expression text : Text}
    (wraps : Wraps site result expression text) (none : '\r' ∉ expression) : '\r' ∉ text := by
  cases wraps with
  | bare => exact none
  | brackets => simp [none]

theorem CallSite.Of.fits {site : CallSite} {call result : Tree} {expression : Text}
    (ofCall : site.Of source.lines call) (parsed : parseModule source typeComments version = .ok tree)
    (member : call ∈ tree.nodes) (flat : Flat expression) :
    (Pass.editOf ⟨site, result⟩ expression).Fits source := by
  have isPlaced : call.kind.isPlaced = true := by rw [ofCall.isCall]; rfl
  have noText : call.kind.isText = false := by rw [ofCall.isCall]; rfl
  obtain ⟨first, last⟩ := hasPosition_span parsed member isPlaced noText
  have wraps := Rewriting.wraps_replacement site result expression
  refine ⟨⟨site.span.start, site.span.stop, rfl, rfl, ofCall.span ▸ first, ofCall.span ▸ last, wraps.feeds flat.1⟩, ?_⟩
  exact wraps.noReturn flat.2

/-! ## Statements -/

namespace Removal

/-- What an edit leaves of a statement holds no carriage return unless what stands before the statement does. -/
theorem Leaves.noReturn {front text : Text} {feeds : Nat} (leaves : Leaves front feeds text)
    (none : '\r' ∉ front) : '\r' ∉ text := by
  cases leaves with
  | blank => simp
  | pass => simp [none, chars]
  | continued => simp [chars]

/-- A statement begins on the line of a decorator, in front of its first character, or at its own place. -/
theorem Context.start_cases (c : Context) (t : Tree) :
    (∃ d ∈ t.decorators, c.start t =
      ⟨d.mark.line, (c.line d.mark.line).length - (c.line d.mark.line).trimLeft.length⟩) ∨
    c.start t = (t.span c.lines).start := by
  unfold Context.start Tree.decorators
  dsimp only
  cases t.kind with
  | functionDef name isAsync comment =>
    dsimp only
    cases isFirst : ((t.slot 2).map fun d => d.mark.line).min? with
    | some first =>
      obtain ⟨d, decorates, rfl⟩ := List.mem_map.mp (List.min?_mem isFirst)
      exact .inl ⟨d, decorates, rfl⟩
    | none => exact .inr rfl
  | _ => exact .inr rfl

/-- An edit takes the statement alone away, or all that stands on its lines. -/
theorem Context.edit_between (c : Context) (withPass : Bool) (t : Tree) : ∃ p q : Position,
    (c.edit withPass t).start = p ∧ (c.edit withPass t).stop = q ∧
      (p = c.start t ∨ p = ⟨(c.start t).line, 0⟩) ∧
      (q = (t.span c.lines).stop ∨
        q = ⟨(t.span c.lines).stop.line, (c.line (t.span c.lines).stop.line).dropTerminator.length⟩) := by
  unfold Context.edit
  dsimp only
  split
  · exact ⟨_, _, rfl, rfl, .inl rfl, .inl rfl⟩
  · exact ⟨_, _, rfl, rfl, .inr rfl, .inr rfl⟩

variable {c : Context}

theorem hasPosition_start (lines : c.lines = source.lines)
    (parsed : parseModule source typeComments version = .ok tree) (member : n ∈ tree.nodes)
    (isPlaced : n.kind.isPlaced = true) (noText : n.kind.isText = false) : source.HasPosition (c.start n) := by
  rcases c.start_cases n with ⟨d, decorates, start⟩ | start
  · have solid := (placed_of_parseModule parsed member isPlaced noText).2 d decorates
    rw [start, Context.line, lines]
    exact solid.position
  · rw [start, lines]
    exact (hasPosition_span parsed member isPlaced noText).1

theorem fits_edit (lines : c.lines = source.lines) (parsed : parseModule source typeComments version = .ok tree)
    (member : n ∈ tree.nodes) (isPlaced : n.kind.isPlaced = true) (noText : n.kind.isText = false)
    (withPass : Bool) : (c.edit withPass n).Fits source := by
  have first := hasPosition_start lines parsed member isPlaced noText
  have last := (hasPosition_span parsed member isPlaced noText).2
  have front : Flat (c.front n) := by
    rw [Context.front, Context.line, lines]
    exact first.flat_front
  obtain ⟨leaves, -, -⟩ := leaves_edit c withPass n
  obtain ⟨p, q, start, stop, isStart, isStop⟩ := c.edit_between withPass n
  refine ⟨⟨p, q, start, stop, ?_, ?_, ?_⟩, leaves.noReturn front.2⟩
  · rcases isStart with rfl | rfl
    · exact first
    · exact first.onLine (Nat.zero_le _)
  · rw [Context.line, lines] at isStop
    rcases isStop with rfl | rfl
    · exact last
    · exact last.onLine (Nat.le_refl _)
  · have startLine : p.line = (c.start n).line := by rcases isStart with rfl | rfl <;> rfl
    have stopLine : q.line = (n.span c.lines).stop.line := by rcases isStop with rfl | rfl <;> rfl
    rw [startLine, stopLine]
    exact leaves.feeds front.1

end Removal

/-! ## Statements of a tree with calls replaced -/

namespace Rewriting

variable {expansions : List Expansion}

theorem swap_cases (expansions : List Expansion) (t : Tree) :
    swap expansions t = t ∨ ∃ e ∈ expansions, swap expansions t = Expansion.inserted e t.mark := by
  unfold swap
  split
  · split
    · rename_i e found
      exact .inr ⟨e, List.mem_of_find?_eq_some found, rfl⟩
    · exact .inl rfl
  · exact .inl rfl

theorem line_apply (expansions : List Expansion) (t : Tree) : (apply expansions t).mark.line = t.mark.line := by
  have inserted : ∀ (e : Expansion) (place : Mark), (Expansion.inserted e place).mark.line = place.line := by
    rintro ⟨site, ⟨m, kind, slots⟩⟩ place
    rfl
  cases t with
  | node m kind slots =>
    rw [apply]
    rcases swap_cases expansions (.node m kind (applySlots expansions slots)) with same | ⟨e, -, isResult⟩
    · rw [same]
      rfl
    · rw [isResult]
      exact inserted e m

/-- Where results have no labels, a node with a label is a node of the tree with the calls below it replaced. -/
theorem mem_nodes_apply (unlabelled : ∀ e ∈ expansions, e.result.Unlabelled) {t u : Tree}
    (member : u ∈ (apply expansions t).nodes) (isLabelled : u.mark.label ≠ 0) :
    ∃ v ∈ t.nodes, u = .node v.mark v.kind (v.slots.map (List.map (apply expansions))) := by
  induction t using Tree.inductionOn with
  | node m kind slots ih =>
    rw [apply, applySlots_eq] at member
    rcases swap_cases expansions (.node m kind (slots.map (List.map (apply expansions)))) with
      same | ⟨e, isExpansion, isResult⟩
    · rw [same, Tree.nodes_eq] at member
      rcases List.mem_cons.mp member with rfl | below
      · exact ⟨_, Tree.mem_nodes_self _, rfl⟩
      · obtain ⟨child, isChild, inside⟩ := List.mem_flatMap.mp below
        obtain ⟨changed, isChanged, inChanged⟩ := Tree.mem_children.mp isChild
        obtain ⟨slot, isSlot, rfl⟩ := List.mem_map.mp isChanged
        obtain ⟨w, inSlot, rfl⟩ := List.mem_map.mp inChanged
        obtain ⟨v, within, rfl⟩ := ih slot isSlot w inSlot inside
        exact ⟨v, Tree.mem_nodes_of_child (Tree.mem_children.mpr ⟨slot, isSlot, inSlot⟩) within, rfl⟩
    · rw [isResult] at member
      exact absurd (Plan.unlabelled_inserted (unlabelled e isExpansion) _ u member) isLabelled

end Rewriting

namespace Removal

/-- The edit that removes a statement does not depend on the calls that are replaced below it. -/
theorem Context.edit_apply (c : Context) (withPass : Bool) (expansions : List Expansion) (t : Tree) :
    c.edit withPass (.node t.mark t.kind (t.slots.map (List.map (Rewriting.apply expansions)))) =
      c.edit withPass t := by
  have lines : ((Tree.node t.mark t.kind (t.slots.map (List.map (Rewriting.apply expansions)))).slot 2).map
      (fun d => d.mark.line) = (t.slot 2).map fun d => d.mark.line := by
    cases t with
    | node m kind slots =>
      simp only [Tree.slot, Tree.slots, List.getD_eq_getElem?_getD, List.getElem?_map]
      cases slots[2]? with
      | none => rfl
      | some slot => simp [Rewriting.line_apply]
  have start : c.start (.node t.mark t.kind (t.slots.map (List.map (Rewriting.apply expansions)))) = c.start t := by
    unfold Context.start
    rw [lines]
    rfl
  unfold Context.edit
  rw [start]
  rfl

end Removal

theorem Kind.isPlaced_of_statement {kind : Kind} (statement : kind.role = .statement) :
    kind.isPlaced = true ∧ kind.isText = false := by
  cases kind <;> simp_all [Kind.role]

namespace Scan.Found

variable {c : Scan.Context} {scan : Scan}

/-- The edits that remove the statements of the macros are those of statements of the source, whatever results took
the place of calls. -/
theorem mem_strip (found : Found c tree scan) (parsed : parseModule source typeComments version = .ok tree)
    {expansions : List Expansion} (unlabelled : ∀ e ∈ expansions, e.result.Unlabelled) {e : Edit}
    (member : e ∈ ((Removal.Context.of scan.definitions source.lines).strip (Rewriting.apply expansions tree)).edits) :
    ∃ d ∈ scan.definitions, d.statement ∈ tree.nodes ∧
      ∃ withPass, e = (Removal.Context.of scan.definitions source.lines).edit withPass d.statement := by
  have labelled := labelled_of_parseModule parsed
  obtain ⟨ignores, isModule⟩ := module_of_parseModule parsed
  have noLambda : tree.kind ≠ .lambdaExpr := by simp [isModule]
  obtain ⟨marked, edits, statements⟩ := Removal.editsOf_strip
    (c := Removal.Context.of scan.definitions source.lines) (Rewriting.apply expansions tree)
  rw [edits] at member
  obtain ⟨⟨t, withPass⟩, isMarked, rfl⟩ := List.mem_map.mp member
  have dropped := statements ▸ List.mem_map.mpr ⟨(t, withPass), isMarked, rfl⟩
  obtain ⟨inside, removes⟩ := Removal.mem_dropped dropped
  have isLabelled : t.mark.label ≠ 0 := by
    intro zero
    simp [Removal.Context.removes, Removal.Context.name?, zero] at removes
  obtain ⟨v, within, rfl⟩ := Rewriting.mem_nodes_apply unlabelled inside isLabelled
  obtain ⟨d, isDefinition, rfl⟩ := List.mem_map.mp ((found.removes_iff labelled noLambda within).mp removes)
  exact ⟨d, isDefinition, within, withPass, Removal.Context.edit_apply _ withPass expansions d.statement⟩

/-- The edits that remove the statements of the macros fit. -/
theorem fits_strip (found : Found c tree scan) (parsed : parseModule source typeComments version = .ok tree)
    {expansions : List Expansion} (unlabelled : ∀ e ∈ expansions, e.result.Unlabelled) :
    ∀ e ∈ ((Removal.Context.of scan.definitions source.lines).strip (Rewriting.apply expansions tree)).edits,
      e.Fits source := by
  intro e member
  obtain ⟨d, isDefinition, inside, withPass, rfl⟩ := found.mem_strip parsed unlabelled member
  obtain ⟨p, lambda, -, defines⟩ := found.defined d isDefinition
  obtain ⟨isPlaced, noText⟩ := Kind.isPlaced_of_statement defines.statement_role
  exact Removal.fits_edit rfl parsed inside isPlaced noText withPass

theorem fits_expand (found : Found c tree scan) (parsed : parseModule source typeComments version = .ok tree)
    (lines : c.lines = source.lines) {site : CallSite}
    (recorded : site ∈ scan.sites ∨ ∃ d ∈ scan.definitions, site ∈ d.calls) {r r' : Rewriting} {edit : Edit}
    {expression : Text} (flat : Flat expression) (replaced : r.expand site expression = .ok (r', edit)) :
    edit.Fits source := by
  obtain ⟨call, inside, ofCall⟩ := found.site_of recorded
  obtain ⟨result, -, rfl, -, -⟩ := Pass.expand_eq_ok replaced
  rw [lines] at ofCall
  exact ofCall.fits parsed inside flat

end Scan.Found

end MacroExpand
