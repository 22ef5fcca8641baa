import MacroExpand.Proofs.Finding
import MacroExpand.Edit
import Mathlib.Data.List.Flatten
import Mathlib.Data.List.Sort

/-!
# Nested spans

Edits whose spans are disjoint or lie one inside the other can be applied: sorted by where they start,
the longer one first, none of them overlaps the one kept before it.  The spans of the calls in a file
are such spans as a rule.  Then the arguments of every call can be written out, whichever of the calls
are replaced already.
-/

set_option autoImplicit false

namespace MacroExpand

def Nests (p q : Int × Int) : Prop :=
  p.2 ≤ q.1 ∨ q.2 ≤ p.1 ∨ (p.1 ≤ q.1 ∧ q.2 ≤ p.2) ∨ (q.1 ≤ p.1 ∧ p.2 ≤ q.2)

instance (p q : Int × Int) : Decidable (Nests p q) :=
  inferInstanceAs (Decidable (p.2 ≤ q.1 ∨ q.2 ≤ p.1 ∨ (p.1 ≤ q.1 ∧ q.2 ≤ p.2) ∨ (q.1 ≤ p.1 ∧ p.2 ≤ q.2)))

/-! ## Edits -/

namespace PlacedEdit

/-- The offsets between which an edit stands. -/
def stretch (e : PlacedEdit) : Int × Int := (e.start, e.stop)

theorem precedes_iff {a b : PlacedEdit} :
    a.precedes b = true ↔ a.start < b.start ∨ (a.start = b.start ∧ b.stop ≤ a.stop) := by
  simp [precedes]

theorem precedes_trans (a b d : PlacedEdit) (first : a.precedes b = true)
    (second : b.precedes d = true) : a.precedes d = true := by
  rw [precedes_iff] at *
  omega

theorem precedes_total (a b : PlacedEdit) : (a.precedes b || b.precedes a) = true := by
  rw [Bool.or_eq_true, precedes_iff, precedes_iff]
  omega

theorem Nests.within_or_behind {k e : PlacedEdit} (sorted : k.precedes e = true)
    (nests : Nests k.stretch e.stretch) : e.stop ≤ k.stop ∨ k.stop ≤ e.start := by
  rw [precedes_iff] at sorted
  simp only [Nests, stretch] at nests
  omega

theorem sweep_ok (last : Option PlacedEdit) (edits : List PlacedEdit)
    (sorted : edits.Pairwise fun a b => a.precedes b = true)
    (nested : ∀ a ∈ edits, ∀ b ∈ edits, Nests a.stretch b.stretch)
    (behind : ∀ k ∈ last, ∀ e ∈ edits, k.precedes e = true ∧ Nests k.stretch e.stretch) :
    ∃ kept, sweep last edits = .ok kept := by
  induction edits generalizing last with
  | nil => exact ⟨[], rfl⟩
  | cons e rest ih =>
    obtain ⟨first, sorted⟩ := List.pairwise_cons.mp sorted
    have nestedRest : ∀ a ∈ rest, ∀ b ∈ rest, Nests a.stretch b.stretch :=
      fun a inA b inB => nested a (.tail _ inA) b (.tail _ inB)
    obtain ⟨kept, swept⟩ := ih (some e) sorted nestedRest (by
      rintro k ⟨⟩ b member
      exact ⟨first b member, nested e (.head _) b (.tail _ member)⟩)
    cases last with
    | none => exact ⟨e :: kept, by simp [sweep, swept, bind, Except.bind, pure, Except.pure]⟩
    | some k =>
      obtain ⟨sortedHere, nestsHere⟩ := behind k rfl e (.head _)
      rw [sweep]
      split
      · exact ih (some k) sorted nestedRest fun k' same b member => behind k' same b (.tail _ member)
      · rename_i outside
        have apart := (Nests.within_or_behind sortedHere nestsHere).resolve_left outside
        rw [if_neg (by omega)]
        exact ⟨e :: kept, by simp [swept, bind, Except.bind, pure, Except.pure]⟩

end PlacedEdit

namespace Edit

theorem placeAll_ok {starts : List Nat} {edits : List Edit}
    (placed : ∀ e ∈ edits, ∃ p, place starts e = .ok p) :
    ∃ all, edits.mapM (place starts) = .ok all ∧ ∀ p ∈ all, ∃ e ∈ edits, place starts e = .ok p := by
  induction edits with
  | nil => exact ⟨[], rfl, by simp⟩
  | cons e rest ih =>
    obtain ⟨p, isPlace⟩ := placed e (.head _)
    obtain ⟨all, same, each⟩ := ih fun e member => placed e (.tail _ member)
    refine ⟨p :: all, by simp [isPlace, same, bind, Except.bind, pure, Except.pure], ?_⟩
    intro q member
    rcases List.mem_cons.mp member with rfl | later
    · exact ⟨e, .head _, isPlace⟩
    · obtain ⟨e', member', isPlace'⟩ := each q later
      exact ⟨e', .tail _ member', isPlace'⟩

theorem outermost_ok {starts : List Nat} {edits : List Edit}
    (placed : ∀ e ∈ edits, ∃ p, place starts e = .ok p)
    (nested : ∀ e ∈ edits, ∀ e' ∈ edits, ∀ p p', place starts e = .ok p → place starts e' = .ok p' →
      Nests p.stretch p'.stretch) :
    ∃ kept, outermost starts edits = .ok kept := by
  obtain ⟨all, same, each⟩ := placeAll_ok placed
  have sorted := List.pairwise_mergeSort PlacedEdit.precedes_trans PlacedEdit.precedes_total all
  obtain ⟨kept, swept⟩ := PlacedEdit.sweep_ok none (all.mergeSort PlacedEdit.precedes) sorted (by
    intro a inA b inB
    obtain ⟨e, member, isPlace⟩ := each a (List.mem_mergeSort.mp inA)
    obtain ⟨e', member', isPlace'⟩ := each b (List.mem_mergeSort.mp inB)
    exact nested e member e' member' a b isPlace isPlace') (by simp)
  exact ⟨kept, by simp [outermost, same, swept, bind, Except.bind]⟩

end Edit

/-! ## Calls -/

def Tree.offsets? (source : Text) (t : Tree) : Option (Int × Int) :=
  match Text.offsetIn source.lineStarts (t.span source.lines).start,
    Text.offsetIn source.lineStarts (t.span source.lines).stop with
  | some start, some stop => some (start, stop)
  | _, _ => none

theorem Tree.offsets?_eq_some {source : Text} {t : Tree} {p : Int × Int}
    (placed : t.offsets? source = some p) :
    Text.offsetIn source.lineStarts (t.span source.lines).start = some p.1 ∧
      Text.offsetIn source.lineStarts (t.span source.lines).stop = some p.2 := by
  unfold offsets? at placed
  split at placed
  · cases placed
    exact ⟨‹_›, ‹_›⟩
  · cases placed

theorem Tree.stop_offset {source : Text} {t : Tree} (placed : (t.offsets? source).isSome) :
    ∃ stop, Text.offsetIn source.lineStarts (t.span source.lines).stop = some stop := by
  obtain ⟨p, isPlaced⟩ := Option.isSome_iff_exists.mp placed
  exact ⟨p.2, (offsets?_eq_some isPlaced).2⟩

/-- The calls of a tree and what they call stand in the text, and any two calls are disjoint or one
lies inside the other. -/
structure Tree.Nested (source : Text) (t : Tree) : Prop where
  placed : ∀ call ∈ t.nodes, call.kind = .call →
    (call.offsets? source).isSome ∧ ((call.part 0).offsets? source).isSome
  nested : ∀ call ∈ t.nodes, ∀ call' ∈ t.nodes, call.kind = .call → call'.kind = .call →
    ∀ p ∈ call.offsets? source, ∀ q ∈ call'.offsets? source, Nests p q

instance (source : Text) (t : Tree) : Decidable (t.Nested source) :=
  decidable_of_iff ((∀ call ∈ t.nodes, call.kind = .call →
      (call.offsets? source).isSome ∧ ((call.part 0).offsets? source).isSome) ∧
    ∀ call ∈ t.nodes, ∀ call' ∈ t.nodes, call.kind = .call → call'.kind = .call →
      ∀ p ∈ call.offsets? source, ∀ q ∈ call'.offsets? source, Nests p q)
    ⟨fun ⟨placed, nested⟩ => ⟨placed, nested⟩, fun ⟨placed, nested⟩ => ⟨placed, nested⟩⟩

/-- The site of a call in a tree. -/
structure CallSite.Of (lines : List Text) (site : CallSite) (call : Tree) : Prop where
  isCall : call.kind = .call
  label : site.label = call.mark.label
  span : site.span = call.span lines
  argsSpan : site.argsSpan = ⟨((call.part 0).span lines).stop, (call.span lines).stop⟩

def Edit.Replaces (lines : List Text) (e : Edit) (call : Tree) : Prop :=
  call.kind = .call ∧ e.start = (call.span lines).start ∧ e.stop = (call.span lines).stop

theorem Edit.Replaces.place {source : Text} {e : Edit} {call : Tree}
    (replaces : e.Replaces source.lines call) {p : Int × Int}
    (placed : call.offsets? source = some p) :
    e.place source.lineStarts = .ok ⟨e, p.1, p.2⟩ := by
  obtain ⟨-, start, stop⟩ := replaces
  obtain ⟨isStart, isStop⟩ := Tree.offsets?_eq_some placed
  simp only [Edit.place, start, stop, isStart, isStop]

/-- The arguments of a call can be written out when any of the calls are replaced. -/
theorem Tree.Nested.splice {source : Text} {t : Tree} (nested : t.Nested source) {edits : List Edit}
    (fromCalls : ∀ e ∈ edits, ∃ call ∈ t.nodes, e.Replaces source.lines call) {site : CallSite}
    {call : Tree} (inside : call ∈ t.nodes) (ofCall : site.Of source.lines call) :
    ∃ text, source.splice edits (some (site.argsSpan.start, site.argsSpan.stop)) = .ok text := by
  have placed : ∀ e ∈ edits, ∃ call ∈ t.nodes, call.kind = .call ∧ ∃ p,
      call.offsets? source = some p ∧ e.place source.lineStarts = .ok ⟨e, p.1, p.2⟩ := by
    intro e member
    obtain ⟨call, inside, replaces⟩ := fromCalls e member
    obtain ⟨p, isPlaced⟩ := Option.isSome_iff_exists.mp (nested.placed call inside replaces.1).1
    exact ⟨call, inside, replaces.1, p, isPlaced, replaces.place isPlaced⟩
  obtain ⟨kept, isKept⟩ : ∃ kept, Edit.outermost source.lineStarts edits = .ok kept := by
    refine Edit.outermost_ok (fun e member => ?_) fun e member e' member' p p' isPlace isPlace' => ?_
    · obtain ⟨-, -, -, p, -, isPlace⟩ := placed e member
      exact ⟨_, isPlace⟩
    · obtain ⟨call, inside, isCall, q, isPlaced, same⟩ := placed e member
      obtain ⟨call', inside', isCall', q', isPlaced', same'⟩ := placed e' member'
      cases isPlace.symm.trans same
      cases isPlace'.symm.trans same'
      exact nested.nested call inside call' inside' isCall isCall' q isPlaced q' isPlaced'
  obtain ⟨isPlaced, isPlaced'⟩ := nested.placed call inside ofCall.isCall
  obtain ⟨hi, isHi⟩ := Tree.stop_offset isPlaced
  obtain ⟨lo, isLo⟩ := Tree.stop_offset isPlaced'
  rw [Text.splice, ofCall.argsSpan]
  dsimp only
  rw [isLo, isHi, isKept]
  exact ⟨_, rfl⟩

/-! ## The calls of a scan -/

namespace Scan

variable {c : Context} {tree : Tree} {scan : Scan}

theorem CallContext.site_of {c : CallContext} {call : Tree} {name : String} (free : Bool)
    (isCallee : c.callee? call = some name) : (c.site name free call).Of c.lines call := by
  refine ⟨?_, rfl, rfl, rfl⟩
  unfold callee? at isCallee
  split at isCallee
  · assumption
  · cases isCallee

theorem slot_sublist (t : Tree) (k : Nat) : (t.slot k).Sublist t.children := by
  unfold Tree.slot Tree.children
  rw [List.getD_eq_getElem?_getD]
  cases found : t.slots[k]? with
  | none => exact List.nil_sublist _
  | some slot => exact List.sublist_flatten_of_mem (List.mem_of_getElem? found)

theorem nodes_children_sublist {t : Tree} {parts : List Tree} (sub : parts.Sublist t.children) :
    (parts.flatMap Tree.nodes).Sublist t.nodes := by
  rw [Tree.nodes_eq]
  exact (sub.flatMap _).trans (List.sublist_cons_self _ _)

def lambdaParts (t : Tree) : List Tree := t.slot 0 ++ ((t.part 1).slot 0).drop 1

theorem lambdaParts_nodes (t : Tree) : ((lambdaParts t).flatMap Tree.nodes).Sublist t.nodes := by
  have elements : ∀ u : Tree, (((u.slot 0).drop 1).flatMap Tree.nodes).Sublist u.nodes :=
    fun u => nodes_children_sublist ((List.drop_sublist _ _).trans (slot_sublist u 0))
  rw [lambdaParts, List.flatMap_append]
  cases t with
  | node m kind slots =>
    rcases slots with _ | ⟨parameters, _ | ⟨_ | ⟨body, others⟩, rest⟩⟩
    · simp [Tree.slot, Tree.slots, Tree.part, Tree.part?]
    · simpa [Tree.slot, Tree.slots, Tree.part, Tree.part?] using
        nodes_children_sublist (slot_sublist (.node m kind [parameters]) 0)
    · simpa [Tree.slot, Tree.slots, Tree.part, Tree.part?] using
        nodes_children_sublist (slot_sublist (.node m kind (parameters :: [] :: rest)) 0)
    · rw [Tree.nodes_eq]
      refine List.Sublist.cons _ ?_
      simp only [Tree.children, Tree.slots, List.flatten_cons, List.flatMap_append, List.cons_append,
        List.flatMap_cons]
      exact (List.Sublist.refl _).append ((elements body).trans (List.sublist_append_left _ _))

/-- The nodes of the function that runs for a lambda are nodes of the lambda, apart from new ones, which
have no labels and are no calls or names. -/
theorem ofLambda_nodes (name : String) (t : Tree) (keep : Tree → Bool)
    (drops : ∀ m kind slots, m.label = 0 → kind ≠ .call → (∀ id usage, kind ≠ .name id usage) →
      keep (.node m kind slots) = false) :
    ((ofLambda name t).nodes.filter keep).Sublist ((lambdaParts t).flatMap Tree.nodes) := by
  have wrapped : ∀ (kind : Kind) (parts : List Tree), kind ≠ .call → (∀ id usage, kind ≠ .name id usage) →
      ((parts.map fun u => Tree.node { u.mark with label := 0 } kind [[u]]).flatMap Tree.nodes).filter
        keep = (parts.flatMap Tree.nodes).filter keep := by
    intro kind parts noCall noName
    induction parts with
    | nil => rfl
    | cons u rest ih =>
      rw [List.map_cons, List.flatMap_cons, List.flatMap_cons, List.filter_append,
        List.filter_append, ih, Tree.nodes_eq, List.filter_cons_of_neg]
      · simp [Tree.children, Tree.slots]
      · rw [drops _ kind [[u]] rfl noCall noName]
        decide
  have split : ∀ parts : List Tree, parts.dropLast ++ parts.getLast?.toList = parts := by
    intro parts
    cases isLast : parts.getLast? with
    | none => simp [List.getLast?_eq_none_iff.mp isLast]
    | some last => exact List.dropLast_append_getLast? last isLast
  have top : keep (ofLambda name t) = false := drops _ _ _ rfl (by simp) (by simp)
  have same : (ofLambda name t).nodes.filter keep =
      ((lambdaParts t).flatMap Tree.nodes).filter keep := by
    rw [Tree.nodes_eq, List.filter_cons_of_neg (by rw [top]; decide), lambdaParts,
      ← split (((t.part 1).slot 0).drop 1)]
    simp only [ofLambda, Tree.children, Tree.slots, List.flatten_cons, List.flatten_nil,
      List.append_nil, List.flatMap_append, List.filter_append]
    rw [wrapped .exprStmt _ (by simp) (by simp), wrapped .returnStmt _ (by simp) (by simp)]
  rw [same]
  exact List.filter_sublist

theorem runnable_nodes (t : Tree) : (runnable t).nodes.tail.Sublist t.nodes.tail := by
  rw [Tree.nodes_eq, Tree.nodes_eq t, List.tail_cons, List.tail_cons]
  refine List.Sublist.flatMap ?_ _
  unfold runnable
  split
  · simp [Tree.children, Tree.slots]
  · exact .refl _

theorem runnable_mark (t : Tree) : (runnable t).mark = t.mark ∧ (runnable t).kind = t.kind := by
  unfold runnable
  split <;> exact ⟨rfl, rfl⟩

theorem Defines.call_mem {p t call : Tree} {d : Definition} (defines : Defines c p t d)
    (inside : call ∈ d.tree.nodes) (isCall : call.kind = .call) : call ∈ t.nodes := by
  cases defines with
  | function isFunction opens noMethod statement tree =>
    rw [tree, Tree.nodes_eq] at inside
    rcases List.mem_cons.mp inside with rfl | below
    · rw [(runnable_mark t).2, isFunction] at isCall
      cases isCall
    · have within : call ∈ (runnable t).nodes.tail := by
        rw [Tree.nodes_eq]
        exact below
      exact List.mem_of_mem_tail ((runnable_nodes t).subset within)
  | lambda isLambda opens bound statement tree =>
    have kept : call ∈ (ofLambda d.name t).nodes.filter fun n => decide (n.kind = .call) :=
      List.mem_filter.mpr ⟨tree ▸ inside, by simpa using isCall⟩
    have within := (ofLambda_nodes d.name t _
      fun m kind slots _ noCall _ => decide_eq_false noCall).subset kept
    exact (lambdaParts_nodes t).subset within

theorem Defines.labels_sublist {p t : Tree} {d : Definition} (defines : Defines c p t d) :
    (d.tree.labels.filter (· ≠ 0)).Sublist t.labels := by
  cases defines with
  | function isFunction opens noMethod statement tree =>
    rw [tree]
    refine List.filter_sublist.trans ?_
    have same : ∀ u : Tree, u.labels = u.mark.label :: u.nodes.tail.map fun n => n.mark.label := by
      intro u
      rw [Tree.labels, Tree.nodes_eq, List.map_cons, List.tail_cons]
    rw [same, same t, (runnable_mark t).1]
    exact ((runnable_nodes t).map _).cons_cons _
  | lambda isLambda opens bound statement tree =>
    have kept := (ofLambda_nodes d.name t (fun n => n.mark.label ≠ 0)
      fun m kind slots unlabelled _ _ => by simp [Tree.mark, unlabelled]).trans (lambdaParts_nodes t)
    rw [tree, Tree.labels, List.filter_map]
    exact kept.map _

namespace Found

variable (found : Found c tree scan)
include found

theorem site_of {site : CallSite}
    (recorded : site ∈ scan.sites ∨ ∃ d ∈ scan.definitions, site ∈ d.calls) :
    ∃ call ∈ tree.nodes, site.Of c.lines call := by
  rcases recorded with outside | ⟨d, isDefinition, inside⟩
  · rw [found.sites] at outside
    obtain ⟨call, member, name, free, isCallee, rfl⟩ :=
      CallContext.exists_call (CallContext.mem_callsOf.mp outside)
    exact ⟨call, member, CallContext.site_of free isCallee⟩
  · rw [found.calls d isDefinition] at inside
    obtain ⟨call, member, name, free, isCallee, rfl⟩ :=
      CallContext.exists_call (CallContext.mem_callsOf.mp inside)
    obtain ⟨p, t, reached, defines⟩ := found.defined d isDefinition
    have ofCall := CallContext.site_of free isCallee
    exact ⟨call, Tree.mem_nodes_trans reached.mem_nodes (defines.call_mem member ofCall.isCall), ofCall⟩

/-- No call is recorded twice, in a macro or outside the macros. -/
theorem labels_distinct (labelled : tree.Labelled) :
    (scan.sites.map CallSite.label).Nodup ∧
      ∀ d ∈ scan.definitions, (d.calls.map CallSite.label).Nodup := by
  constructor
  · rw [found.sites]
    exact CallContext.callLabels_nodup labelled
  · intro d isDefinition
    obtain ⟨p, t, reached, defines⟩ := found.defined d isDefinition
    have positive : ∀ site ∈ d.calls, site.label ≠ 0 := by
      intro site member
      obtain ⟨call, inside, ofCall⟩ := found.site_of (.inr ⟨d, isDefinition, member⟩)
      rw [ofCall.label]
      exact labelled.ne_zero inside
    have kept : (d.calls.map CallSite.label).filter (· ≠ 0) = d.calls.map CallSite.label := by
      refine List.filter_eq_self.mpr fun l member => ?_
      obtain ⟨site, isCall, rfl⟩ := List.mem_map.mp member
      exact decide_eq_true (positive site isCall)
    have within := (CallContext.callLabels_subperm (c := scan.innerCalls c.lines) false d.tree).filter
      (· ≠ 0)
    rw [CallContext.callLabels, ← found.calls d isDefinition, kept] at within
    obtain ⟨l, perm, sub⟩ := within
    have distinct := (labelled.of_mem reached.mem_nodes).distinct
    exact perm.nodup_iff.mp ((distinct.sublist defines.labels_sublist).sublist sub)

end Found

end Scan

end MacroExpand
