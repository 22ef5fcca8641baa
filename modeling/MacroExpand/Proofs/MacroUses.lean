import MacroExpand.Proofs.Elimination
import MacroExpand.Proofs.Grammar
import MacroExpand.Proofs.Nesting

/-!
# Where macros are used

Outside the statements that define macros, every name of a macro that is read is either what a recorded call calls or
a reference, and nothing else is recorded.  The calls in the function that runs for a macro are recorded in the same
way.  A call comes behind those that stand in it, so what is left after the expansion names no macro except where a
reference was reported or a result has put it.
-/

set_option autoImplicit false

namespace MacroExpand

open Relation

/-! ## The parts of names and calls -/

namespace Tree

/-- A name that is read and is one of some names. -/
def Reads (names : List String) (t : Tree) : Prop := ∃ id ∈ names, t.kind = .name id .load

def Calls (call callee : Tree) (id : String) : Prop :=
  call.kind = .call ∧ call.slot 0 = [callee] ∧ ∃ usage, callee.kind = .name id usage

variable {t n : Tree}

theorem Shaped.of_mem (shaped : t.Shaped) (inside : n ∈ t.nodes) : n.Shaped :=
  fun u member => shaped u (mem_nodes_trans inside member)

theorem Shaped.leaf (shaped : t.Shaped) {id : String} {usage : Usage} (isName : t.kind = .name id usage) :
    t.children = [] := by
  have parts := shaped t (mem_nodes_self t)
  rw [isName] at parts
  rw [children, List.isEmpty_iff.mp parts, List.flatten_nil]

theorem Shaped.callee (shaped : t.Shaped) (isCall : t.kind = .call) : ∃ callee, t.slot 0 = [callee] := by
  have parts := shaped t (mem_nodes_self t)
  rw [isCall] at parts
  have first : t.slots.headD [] = t.slot 0 := by
    obtain ⟨m, kind, slots⟩ := t
    cases slots <;> rfl
  exact List.length_eq_one_iff.mp (first ▸ beq_iff_eq.mp parts)

theorem mem_children_of_slot {k : Nat} (inSlot : n ∈ t.slot k) : n ∈ t.children :=
  (Scan.slot_sublist t k).subset inSlot

theorem Calls.child {call callee : Tree} {id : String} (calls : call.Calls callee id) : callee ∈ call.children :=
  mem_children_of_slot (calls.2.1 ▸ List.mem_singleton_self callee)

/-! ## Labels below new nodes -/

/-- Nodes that have labels have different ones, and calls have labels. -/
structure Tagged (t : Tree) : Prop where
  distinct : (t.labels.filter (· ≠ 0)).Nodup
  calls : ∀ n ∈ t.nodes, n.kind = .call → n.mark.label ≠ 0

theorem Labelled.tagged (labelled : t.Labelled) : t.Tagged :=
  ⟨labelled.distinct.filter _, fun _ inside _ => labelled.ne_zero inside⟩

theorem Tagged.eq_of_label (tagged : t.Tagged) {a b : Tree} (left : a ∈ t.nodes) (right : b ∈ t.nodes)
    (same : a.mark.label = b.mark.label) (labelled : b.mark.label ≠ 0) : a = b := by
  have distinct := tagged.distinct
  rw [labels, List.filter_map] at distinct
  refine List.inj_on_of_nodup_map distinct (List.mem_filter.mpr ⟨left, ?_⟩) (List.mem_filter.mpr ⟨right, ?_⟩) same
  · simpa [same] using labelled
  · simpa using labelled

theorem Tagged.below (tagged : t.Tagged) : (t.children.flatMap fun u => u.labels.filter (· ≠ 0)).Nodup := by
  have distinct := tagged.distinct
  rw [labels_eq, ← List.singleton_append, List.filter_append, List.filter_flatMap] at distinct
  exact distinct.of_append_right

theorem Tagged.child (tagged : t.Tagged) {u : Tree} (isChild : u ∈ t.children) : u.Tagged :=
  ⟨(List.nodup_flatMap.mp tagged.below).1 u isChild,
    fun n inside => tagged.calls n (mem_nodes_of_child isChild inside)⟩

theorem Tagged.not_below (tagged : t.Tagged) (labelled : t.mark.label ≠ 0) {u : Tree} (isChild : u ∈ t.children) :
    t.mark.label ∉ u.labels := by
  intro again
  obtain ⟨n, inside, same⟩ := List.mem_map.mp again
  have distinct := tagged.distinct
  rw [labels_eq, List.filter_cons_of_pos (by simpa using labelled)] at distinct
  refine (List.nodup_cons.mp distinct).1 (List.mem_filter.mpr ⟨?_, by simpa using labelled⟩)
  exact List.mem_flatMap.mpr ⟨u, isChild, again⟩

/-- Trees side by side share no label. -/
theorem Tagged.apart (tagged : t.Tagged) :
    t.children.Pairwise fun a b => ∀ l ≠ 0, l ∈ a.labels → l ∉ b.labels := by
  refine (List.nodup_flatMap.mp tagged.below).2.imp fun disjoint l labelled left right => ?_
  exact disjoint (List.mem_filter.mpr ⟨left, by simpa using labelled⟩)
    (List.mem_filter.mpr ⟨right, by simpa using labelled⟩)

end Tree

/-! ## Ways of the search -/

namespace Scan

variable {c : CallContext} {t n : Tree}

namespace CallContext

/-- In a tree of the usual parts a call of a macro calls one of the names. -/
theorem callee?_eq_some (shaped : t.Shaped) {id : String} :
    c.callee? t = some id ↔ id ∈ c.names ∧ ∃ callee, t.Calls callee id := by
  constructor
  · intro isCallee
    have isCall := kind_of_callee isCallee
    obtain ⟨callee, same⟩ := shaped.callee isCall
    have first : t.part 0 = callee := by rw [Tree.part, Tree.part?, same]; rfl
    rw [callee?, first, isCall] at isCallee
    split at isCallee
    · rename_i isName
      split at isCallee
      · rename_i known
        cases isCallee
        exact ⟨List.contains_iff_mem.mp known, callee, isCall, same, _, isName⟩
      · cases isCallee
    · cases isCallee
  · rintro ⟨known, callee, isCall, same, usage, isName⟩
    have first : t.part 0 = callee := by rw [Tree.part, Tree.part?, same]; rfl
    rw [callee?, first, isCall, isName]
    exact if_pos (List.contains_iff_mem.mpr known)

theorem children_eq (t : Tree) : t.children = t.slot 0 ++ (t.slots.drop 1).flatten := by
  obtain ⟨m, kind, slots⟩ := t
  cases slots <;> rfl

/-- The search goes into every part of a node but a callee that names a macro. -/
theorem enters_of_child (shaped : t.Shaped) (isChild : n ∈ t.children) (unskipped : ¬ c.Skips t)
    (noCallee : (c.callee? t).isSome → n ∉ t.slot 0) : c.Enters t n := by
  rw [Enters, entered, if_neg unskipped]
  cases isCallee : c.callee? t with
  | some name =>
    rw [children_eq] at isChild
    exact (List.mem_append.mp isChild).resolve_left (noCallee (by simp [isCallee]))
  | none =>
    dsimp only
    split
    · rename_i isName
      rw [shaped.leaf isName] at isChild
      cases isChild
    · exact isChild

/-- The search comes to every node that does not stand in a skipped tree and is not what a call of a macro calls. -/
theorem way_of_shaped (shaped : t.Shaped) (inside : n ∈ t.nodes)
    (unskipped : ∀ p ∈ t.nodes, n ∈ p.nodes → ¬ c.Skips p)
    (noCallee : ∀ p ∈ t.nodes, (c.callee? p).isSome → n ∉ p.slot 0) : ReflTransGen c.Enters t n := by
  refine Tree.way_of_mem inside fun p isNode u isChild below => ?_
  have shapedHere := shaped.of_mem isNode
  refine enters_of_child shapedHere isChild (unskipped p isNode (Tree.mem_nodes_of_child isChild below)) ?_
  intro isSome isCallee
  -- a callee that names a macro has nothing below it
  obtain ⟨name, called⟩ := Option.isSome_iff_exists.mp isSome
  obtain ⟨-, callee, -, same, usage, isName⟩ := (callee?_eq_some shapedHere).mp called
  rw [same, List.mem_singleton] at isCallee
  subst isCallee
  have leaf := (shapedHere.of_mem (Tree.mem_nodes_of_child isChild (Tree.mem_nodes_self u))).leaf isName
  rw [Tree.nodes_eq, leaf, List.flatMap_nil, List.mem_singleton] at below
  subst below
  exact noCallee p isNode isSome (same ▸ List.mem_singleton_self _)

theorem not_callee_of_way (labelled : t.Labelled) (shaped : t.Shaped) (way : ReflTransGen c.Enters t n)
    {call : Tree} {id : String} (inside : call ∈ t.nodes) (known : id ∈ c.names) : ¬ call.Calls n id := by
  intro calls
  rcases ReflTransGen.cases_tail way with rfl | ⟨p, before, enters⟩
  · exact labelled.not_below inside calls.child
  · obtain rfl := labelled.parent_unique inside (Tree.mem_nodes_of_way child_of_enters before) calls.child
      (child_of_enters _ _ enters)
    have isCallee := (callee?_eq_some (shaped.of_mem inside)).mpr ⟨known, n, calls⟩
    rw [Enters, entered] at enters
    split at enters
    · cases enters
    · rw [isCallee] at enters
      have distinct := (labelled.of_mem inside).distinct
      rw [Tree.labels_eq, children_eq, List.flatMap_append, calls.2.1, List.flatMap_singleton] at distinct
      have disjoint := List.disjoint_of_nodup_append (List.nodup_cons.mp distinct).2
      have self := Tree.label_mem_labels (Tree.mem_nodes_self n)
      exact disjoint self (List.mem_flatMap.mpr ⟨n, enters, self⟩)

theorem referenceLabels_sublist (uses : List Use) :
    ((referencesOf uses).map fun n => n.mark.label).Sublist (uses.map Use.label) := by
  induction uses with
  | nil => exact .refl _
  | cons use rest ih =>
    cases use with
    | call site => exact ih.cons _
    | reference n => exact ih.cons_cons _

theorem mem_referencesOf {uses : List Use} : n ∈ referencesOf uses ↔ .reference n ∈ uses := by
  simp only [referencesOf, List.mem_filterMap]
  constructor
  · rintro ⟨use, member, isReference⟩
    cases use with
    | call site => cases isReference
    | reference t => cases isReference; exact member
  · exact fun member => ⟨_, member, rfl⟩

/-- What is recorded later does not stand in a call that is recorded earlier. -/
theorem uses_pairwise (tagged : t.Tagged) (free : Bool) :
    (c.uses free t).Pairwise fun earlier later => ∀ site site', earlier = .call site → later = .call site' →
      ∀ outer ∈ t.nodes, outer.mark.label = site.label → site'.label ∉ outer.labels := by
  induction t using Tree.inductionOn generalizing free with
  | node m kind slots ih =>
    obtain ⟨parts, same, uses⟩ := c.uses_eq free (.node m kind slots)
    have entered := c.entered_sublist (.node m kind slots)
    have isChild : ∀ part ∈ parts, part.2 ∈ (Tree.node m kind slots).children :=
      fun part member => entered.subset (same ▸ List.mem_map_of_mem member)
    -- an earlier call stands in one of the parts, as all that stands in it does
    have within : ∀ part ∈ parts, ∀ site, .call site ∈ c.uses part.1 part.2 →
        ∀ outer ∈ (Tree.node m kind slots).nodes, outer.mark.label = site.label → outer ∈ part.2.nodes := by
      intro part member site found outer inside label
      obtain ⟨call, inPart, name, free', isCallee, rfl⟩ := exists_call found
      have inTree := Tree.mem_nodes_of_child (isChild part member) inPart
      have labelled := tagged.calls call inTree (kind_of_callee isCallee)
      exact tagged.eq_of_label inside inTree label labelled ▸ inPart
    have own : ∀ {free t} {site : CallSite}, Tree.Tagged t → .call site ∈ c.uses free t →
        site.label ≠ 0 ∧ site.label ∈ t.labels := by
      intro free t site tagged found
      obtain ⟨call, inside, name, free', isCallee, rfl⟩ := exists_call found
      exact ⟨tagged.calls call inside (kind_of_callee isCallee), Tree.label_mem_labels inside⟩
    have apart : parts.Pairwise fun part part' => ∀ l ≠ 0, l ∈ part.2.labels → l ∉ part'.2.labels :=
      List.pairwise_map.mp (same ▸ tagged.apart.sublist entered)
    rw [uses]
    refine List.pairwise_append.mpr ⟨List.pairwise_flatMap.mpr ⟨fun part member => ?_, ?_⟩, ?_, ?_⟩
    · obtain ⟨slot, isSlot, inSlot⟩ := Tree.mem_children.mp (isChild part member)
      have inner := ih slot isSlot part.2 inSlot (tagged.child (isChild part member)) part.1
      refine inner.imp_of_mem fun {earlier later} here _ hyp site site' isCall isCall' outer inside label => ?_
      exact hyp site site' isCall isCall' outer (within part member site (isCall ▸ here) outer inside label) label
    · refine apart.imp_of_mem fun {part part'} member member' disjoint earlier here later there site site' isCall
        isCall' outer inside label again => ?_
      have inPart := within part member site (isCall ▸ here) outer inside label
      obtain ⟨labelled, inPart'⟩ := own (tagged.child (isChild part' member')) (isCall' ▸ there)
      exact disjoint _ labelled (Tree.labels_subset inPart again) inPart'
    · unfold CallContext.own
      split
      · exact .nil
      · split
        · exact List.pairwise_singleton _ _
        · split
          · split
            · exact List.pairwise_singleton _ _
            · exact .nil
          · exact .nil
    · rintro earlier here later there site site' rfl rfl outer inside label again
      obtain ⟨part, member, here⟩ := List.mem_flatMap.mp here
      have inPart := within part member site here outer inside label
      obtain ⟨-, ⟨name, isCallee, same⟩ | ⟨_, -, -, same⟩⟩ := own_cases there
      · cases same
        have labelled := tagged.calls _ (Tree.mem_nodes_self _) (kind_of_callee isCallee)
        exact tagged.not_below labelled (isChild part member) (Tree.labels_subset inPart again)
      · cases same

end CallContext

/-- The calls of macros that count in a tree are recorded, these and no others, each once and behind those in it. -/
structure Records (names : List String) (lines : List Text) (t : Tree) (counts : Tree → Prop)
    (sites : List CallSite) : Prop where
  sound : ∀ site ∈ sites, ∃ call ∈ t.nodes, counts call ∧ site.name ∈ names ∧
    (∃ callee, call.Calls callee site.name) ∧ site.Of lines call
  complete : ∀ call ∈ t.nodes, counts call → ∀ id ∈ names, ∀ callee, call.Calls callee id →
    ∃ site ∈ sites, site.name = id ∧ site.Of lines call
  once : (sites.map CallSite.label).Nodup
  innerFirst : sites.Pairwise fun earlier later =>
    ∀ outer ∈ t.nodes, outer.mark.label = earlier.label → later.label ∉ outer.labels

theorem records_of_uses {names : List String} {lines : List Text} {skipped : List Nat} {counts : Tree → Prop}
    (shaped : t.Shaped) (tagged : t.Tagged) (free : Bool)
    (counted : ∀ call, ReflTransGen (CallContext.Enters ⟨names, skipped, lines⟩) t call → call.kind = .call →
      ¬ CallContext.Skips ⟨names, skipped, lines⟩ call → counts call)
    (unskipped : ∀ call ∈ t.nodes, counts call → ∀ p ∈ t.nodes, call ∈ p.nodes →
      ¬ CallContext.Skips ⟨names, skipped, lines⟩ p) :
    Records names lines t counts (callsOf (CallContext.uses ⟨names, skipped, lines⟩ free t)) where
  sound := by
    intro site member
    obtain ⟨call, free', way, here⟩ := CallContext.exists_own (CallContext.mem_callsOf.mp member)
    obtain ⟨entered, ⟨name, isCallee, same⟩ | ⟨_, -, -, same⟩⟩ := CallContext.own_cases here
    · cases same
      have inside := Tree.mem_nodes_of_way CallContext.child_of_enters way
      obtain ⟨known, calls⟩ := (CallContext.callee?_eq_some (shaped.of_mem inside)).mp isCallee
      exact ⟨call, inside, counted call way (CallContext.kind_of_callee isCallee) entered, known, calls,
        CallContext.site_of free' isCallee⟩
    · cases same
  complete := by
    intro call inside counting id known callee calls
    have uncovered := unskipped call inside counting
    have way := CallContext.way_of_shaped (c := ⟨names, skipped, lines⟩) shaped inside uncovered (by
      intro p isNode isSome isCallee
      obtain ⟨name, called⟩ := Option.isSome_iff_exists.mp isSome
      obtain ⟨-, callee', -, same, usage, isName⟩ := (CallContext.callee?_eq_some (shaped.of_mem isNode)).mp called
      rw [same, List.mem_singleton] at isCallee
      rw [← isCallee, calls.1] at isName
      cases isName)
    obtain ⟨free', recorded⟩ := CallContext.own_recorded way free
    have isCallee := (CallContext.callee?_eq_some (c := ⟨names, skipped, lines⟩) (shaped.of_mem inside)).mpr
      ⟨known, callee, calls⟩
    refine ⟨_, CallContext.mem_callsOf.mpr (recorded _ ?_), rfl, CallContext.site_of free' isCallee⟩
    rw [CallContext.own, if_neg (uncovered call inside (Tree.mem_nodes_self call)), isCallee]
    exact List.mem_singleton_self _
  once := by
    have positive : ∀ l ∈ CallContext.callLabels (CallContext.uses ⟨names, skipped, lines⟩ free t), l ≠ 0 := by
      intro l member
      obtain ⟨site, found, rfl⟩ := List.mem_map.mp member
      obtain ⟨call, inside, name, free', isCallee, rfl⟩ := CallContext.exists_call (CallContext.mem_callsOf.mp found)
      exact tagged.calls call inside (CallContext.kind_of_callee isCallee)
    have within := (CallContext.callLabels_subperm (c := ⟨names, skipped, lines⟩) free t).filter (· ≠ 0)
    rw [List.filter_eq_self.mpr fun l member => decide_eq_true (positive l member)] at within
    obtain ⟨l, perm, sub⟩ := within
    exact perm.nodup_iff.mp (tagged.distinct.sublist sub)
  innerFirst := by
    refine (CallContext.uses_pairwise tagged free).filterMap _ fun earlier later ordered site isCall site' isCall' => ?_
    cases earlier with
    | reference => cases isCall
    | call =>
      cases later with
      | reference => cases isCall'
      | call =>
        cases isCall
        cases isCall'
        exact ordered site site' rfl rfl

/-! ## The uses in a file -/

/-- The names of the macros, in the order of their definitions. -/
def macros (scan : Scan) : List String := scan.definitions.map Definition.name

def Outside (scan : Scan) (n : Tree) : Prop := ∀ d ∈ scan.definitions, n ∉ d.statement.nodes

def IsCallee (tree n : Tree) (site : CallSite) : Prop :=
  ∃ call ∈ tree.nodes, call.Calls n site.name ∧ site.label = call.mark.label

/-- How a scan records the uses of macros in a file. -/
structure RecordsUses (lines : List Text) (tree : Tree) (scan : Scan) : Prop where
  /-- A name that is read outside the definitions is what one call calls or a reference, but not both. -/
  partition : ∀ n ∈ tree.nodes, n.Reads scan.macros → scan.Outside n →
    ((∃! site, site ∈ scan.sites ∧ IsCallee tree n site) ∧ n ∉ scan.references) ∨
      ((¬ ∃ site ∈ scan.sites, IsCallee tree n site) ∧ n ∈ scan.references)
  /-- Nothing else is a reference. -/
  references : ∀ n ∈ scan.references, n ∈ tree.nodes ∧ n.Reads scan.macros ∧ scan.Outside n
  /-- No reference is listed twice. -/
  once : scan.references.Nodup
  /-- The calls outside the definitions. -/
  sites : Records scan.macros lines tree scan.Outside scan.sites
  /-- The calls in the function that runs for a macro, none of which is a call outside. -/
  calls : ∀ d ∈ scan.definitions, Records scan.macros lines d.tree (fun _ => True) d.calls ∧
    List.Disjoint (d.calls.map CallSite.label) (scan.sites.map CallSite.label)

theorem references_of_scanTree {path directive : Text} {lines : List Text} {tree : Tree} {scan : Scan}
    (scanned : (scanTree path directive lines tree).2 = .ok scan) :
    scan.references = referencesOf ((scan.outerCalls lines).uses false tree) := by
  unfold scanTree at scanned
  dsimp only at scanned
  split at scanned
  · cases scanned
  · split at scanned
    · cases scanned
      -- without macros no name is a reference
      refine (List.eq_nil_iff_forall_not_mem.mpr fun n member => ?_).symm
      obtain ⟨u, free, -, here⟩ := CallContext.exists_own (CallContext.mem_referencesOf.mp member)
      obtain ⟨-, ⟨_, -, same⟩ | ⟨_, known, -⟩⟩ := CallContext.own_cases here
      · cases same
      · cases known
    · cases scanned
      simp only [outerCalls, Context.findCalls, List.map_map, Function.comp_def]

/-! ### Definitions -/

variable {ctx : Context} {tree : Tree} {scan : Scan}

/-- The function that runs for a macro has the usual parts if the file has them. -/
theorem Defines.shaped {p t : Tree} {d : Definition} (defines : Defines ctx p t d) (shaped : t.Shaped) :
    d.tree.Shaped := by
  cases defines with
  | function isFunction opens noMethod statement tree =>
    rw [tree]
    intro n inside
    rw [Tree.nodes_eq] at inside
    rcases List.mem_cons.mp inside with rfl | below
    · rw [(runnable_mark t).2, isFunction]
      rfl
    · have within : n ∈ (runnable t).nodes.tail := by
        rw [Tree.nodes_eq]
        exact below
      exact shaped n (List.mem_of_mem_tail ((runnable_nodes t).subset within))
  | lambda isLambda opens bound statement tree =>
    rw [tree]
    intro n inside
    by_contra unshaped
    have kept : n ∈ (ofLambda d.name t).nodes.filter fun n => !n.kind.isShaped n.slots :=
      List.mem_filter.mpr ⟨inside, by simpa using unshaped⟩
    have before := (lambdaParts_nodes t).subset ((ofLambda_nodes d.name t _ (by
      intro m kind slots _ noCall noName
      cases kind with
      | name id usage => exact absurd rfl (noName id usage)
      | call => exact absurd rfl noCall
      | _ => rfl)).subset kept)
    exact unshaped (shaped n before)

theorem Defines.inside {p t : Tree} {d : Definition} (defines : Defines ctx p t d)
    (reached : Reached ctx Tree.absent tree p t) (noLambda : tree.kind ≠ .lambdaExpr) : t ∈ d.statement.nodes := by
  cases defines with
  | function isFunction opens noMethod statement tree => exact statement ▸ Tree.mem_nodes_self t
  | lambda isLambda opens bound statement tree =>
    rcases reached.cases_parent with ⟨-, rfl⟩ | ⟨-, isChild⟩
    · exact absurd isLambda noLambda
    · exact statement ▸ Tree.mem_nodes_of_child isChild (Tree.mem_nodes_self t)

namespace Found

variable (found : Found ctx tree scan)
include found

theorem tagged (labelled : tree.Labelled) {d : Definition} (isDefinition : d ∈ scan.definitions) :
    d.tree.Tagged := by
  obtain ⟨p, t, reached, defines⟩ := found.defined d isDefinition
  refine ⟨?_, fun call inside isCall => ?_⟩
  · exact (labelled.of_mem reached.mem_nodes).distinct.sublist defines.labels_sublist
  · exact labelled.ne_zero (Tree.mem_nodes_trans reached.mem_nodes (defines.call_mem inside isCall))

/-- The search for calls outside the definitions skips the statements of the macros. -/
theorem skips_iff (labelled : tree.Labelled) (noLambda : tree.kind ≠ .lambdaExpr) {s : Tree} (inside : s ∈ tree.nodes) :
    (scan.outerCalls ctx.lines).Skips s ↔ ∃ d ∈ scan.definitions, s = d.statement := by
  simp only [CallContext.Skips, outerCalls, List.contains_iff_mem, List.mem_map]
  constructor
  · rintro ⟨-, d, member, same⟩
    exact ⟨d, member, labelled.eq_of_label inside (found.statement_mem noLambda member) same.symm⟩
  · rintro ⟨d, member, rfl⟩
    exact ⟨labelled.ne_zero inside, d, member, rfl⟩

/-- What the search comes to, other than statements, stands outside the definitions. -/
theorem outside_of_way (labelled : tree.Labelled) (noLambda : tree.kind ≠ .lambdaExpr) {n : Tree}
    (way : ReflTransGen (scan.outerCalls ctx.lines).Enters tree n) (isPart : n.kind.role ≠ .statement) :
    scan.Outside n := by
  intro d member inside
  have isNode := found.statement_mem noLambda member
  have skips := (found.skips_iff labelled noLambda isNode).mpr ⟨d, member, rfl⟩
  obtain ⟨p, t, -, defines⟩ := found.defined d member
  rw [CallContext.eq_of_way_in_skipped labelled way isNode skips inside] at isPart
  exact isPart defines.statement_role

theorem unskipped_of_outside (labelled : tree.Labelled) (noLambda : tree.kind ≠ .lambdaExpr) {n : Tree}
    (outside : scan.Outside n) : ∀ p ∈ tree.nodes, n ∈ p.nodes → ¬ (scan.outerCalls ctx.lines).Skips p := by
  intro p isNode around skips
  obtain ⟨d, member, rfl⟩ := (found.skips_iff labelled noLambda isNode).mp skips
  exact outside d member around

theorem records_sites (labelled : tree.Labelled) (shaped : tree.Shaped) (noLambda : tree.kind ≠ .lambdaExpr) :
    Records scan.macros ctx.lines tree scan.Outside scan.sites := by
  rw [found.sites]
  refine records_of_uses shaped labelled.tagged false ?_ ?_
  · intro call way isCall _
    exact found.outside_of_way labelled noLambda way (by rw [isCall]; decide)
  · exact fun call _ outside => found.unskipped_of_outside labelled noLambda outside

theorem records_calls (labelled : tree.Labelled) (shaped : tree.Shaped) {d : Definition}
    (member : d ∈ scan.definitions) : Records scan.macros ctx.lines d.tree (fun _ => True) d.calls := by
  obtain ⟨p, t, reached, defines⟩ := found.defined d member
  rw [found.calls d member]
  refine records_of_uses (defines.shaped (shaped.of_mem reached.mem_nodes)) (found.tagged labelled member) false
    (fun _ _ _ _ => trivial) fun call _ _ p _ _ skips => ?_
  exact List.not_mem_nil (List.contains_iff_mem.mp skips.2)

/-- A call in the function that runs for a macro stands in the statement of the macro. -/
theorem call_in_statement (noLambda : tree.kind ≠ .lambdaExpr) {d : Definition} (isDefinition : d ∈ scan.definitions)
    {site : CallSite} (member : site ∈ d.calls) : ∃ call ∈ d.statement.nodes, call.mark.label = site.label := by
  obtain ⟨p, t, reached, defines⟩ := found.defined d isDefinition
  rw [found.calls d isDefinition] at member
  obtain ⟨call, inside, name, free, isCallee, rfl⟩ := CallContext.exists_call (CallContext.mem_callsOf.mp member)
  exact ⟨call, Tree.mem_nodes_trans (defines.inside reached noLambda)
    (defines.call_mem inside (CallContext.kind_of_callee isCallee)), rfl⟩

theorem site_not_in_statement (labelled : tree.Labelled) (noLambda : tree.kind ≠ .lambdaExpr) {d : Definition}
    (isDefinition : d ∈ scan.definitions) {site : CallSite} (member : site ∈ scan.sites) :
    site.label ∉ d.statement.labels := by
  rw [found.sites] at member
  exact CallContext.not_in_skipped labelled (CallContext.mem_callsOf.mp member) (found.statement_mem noLambda isDefinition)
    (List.mem_map.mpr ⟨d, isDefinition, rfl⟩)

/-- A call in the function that runs for a macro is none of the calls outside. -/
theorem calls_disjoint (labelled : tree.Labelled) (noLambda : tree.kind ≠ .lambdaExpr) {d : Definition}
    (member : d ∈ scan.definitions) :
    List.Disjoint (d.calls.map CallSite.label) (scan.sites.map CallSite.label) := by
  intro l inner outer
  obtain ⟨site, isCall, rfl⟩ := List.mem_map.mp inner
  obtain ⟨site', isSite, same⟩ := List.mem_map.mp outer
  obtain ⟨call, inside, label⟩ := found.call_in_statement noLambda member isCall
  refine found.site_not_in_statement labelled noLambda member isSite ?_
  rw [same, ← label]
  exact Tree.label_mem_labels inside

/-- A reference is a name that is read outside the definitions and that no recorded call calls. -/
theorem mem_references_iff (labelled : tree.Labelled) (shaped : tree.Shaped) (noLambda : tree.kind ≠ .lambdaExpr)
    (listed : scan.references = referencesOf ((scan.outerCalls ctx.lines).uses false tree)) {n : Tree} :
    n ∈ scan.references ↔ n ∈ tree.nodes ∧ n.Reads scan.macros ∧ scan.Outside n ∧
      ¬ ∃ site ∈ scan.sites, IsCallee tree n site := by
  have recorded := found.records_sites labelled shaped noLambda
  rw [listed, CallContext.mem_referencesOf]
  constructor
  · intro member
    obtain ⟨u, free, way, here⟩ := CallContext.exists_own member
    obtain ⟨-, ⟨_, -, same⟩ | ⟨id, known, isName, same⟩⟩ := CallContext.own_cases here
    · cases same
    · cases same
      refine ⟨Tree.mem_nodes_of_way CallContext.child_of_enters way, ⟨id, known, isName⟩,
        found.outside_of_way labelled noLambda way (by simp [isName, Kind.role]), ?_⟩
      rintro ⟨site, isSite, call, inside, calls, -⟩
      obtain ⟨usage, isCalled⟩ := calls.2.2
      cases isName.symm.trans isCalled
      exact CallContext.not_callee_of_way labelled shaped way inside known calls
  · rintro ⟨inside, ⟨id, known, isName⟩, outside, noCallee⟩
    have unskipped := found.unskipped_of_outside labelled noLambda outside
    have way := CallContext.way_of_shaped shaped inside unskipped fun p isNode isSome isCallee => by
      obtain ⟨name, called⟩ := Option.isSome_iff_exists.mp isSome
      obtain ⟨known', callee, calls⟩ := (CallContext.callee?_eq_some (shaped.of_mem isNode)).mp called
      obtain rfl := List.mem_singleton.mp (calls.2.1 ▸ isCallee)
      have outside' : scan.Outside p := fun d member around =>
        outside d member (Tree.mem_nodes_trans around (Tree.mem_nodes_of_child calls.child (Tree.mem_nodes_self n)))
      obtain ⟨site, isSite, rfl, ofCall⟩ := recorded.complete p isNode outside' name known' n calls
      exact noCallee ⟨site, isSite, p, isNode, calls, ofCall.label⟩
    obtain ⟨free, recorded⟩ := CallContext.own_recorded way false
    have noCall : (scan.outerCalls ctx.lines).callee? n = none := by
      rw [CallContext.callee?, isName]
    refine recorded _ ?_
    rw [CallContext.own, if_neg (unskipped n inside (Tree.mem_nodes_self n)), noCall, isName]
    have isMacro : (scan.outerCalls ctx.lines).names.contains id = true := List.contains_iff_mem.mpr known
    dsimp only
    rw [if_pos isMacro]
    exact List.mem_singleton_self _

theorem recordsUses (labelled : tree.Labelled) (shaped : tree.Shaped) (noLambda : tree.kind ≠ .lambdaExpr)
    (listed : scan.references = referencesOf ((scan.outerCalls ctx.lines).uses false tree)) :
    RecordsUses ctx.lines tree scan where
  partition := by
    intro n inside reads outside
    have sites := found.records_sites labelled shaped noLambda
    by_cases called : ∃ site ∈ scan.sites, IsCallee tree n site
    · refine .inl ⟨?_, fun reference => ?_⟩
      · obtain ⟨site, isSite, call, isNode, calls, label⟩ := called
        refine ⟨site, ⟨isSite, call, isNode, calls, label⟩, ?_⟩
        rintro site' ⟨isSite', call', isNode', calls', label'⟩
        -- a name has one call around it, which is recorded once
        obtain rfl := labelled.parent_unique isNode isNode' calls.child calls'.child
        exact List.inj_on_of_nodup_map sites.once isSite' isSite (label'.trans label.symm)
      · exact ((found.mem_references_iff labelled shaped noLambda listed).mp reference).2.2.2 called
    · exact .inr ⟨called, (found.mem_references_iff labelled shaped noLambda listed).mpr
        ⟨inside, reads, outside, called⟩⟩
  references := by
    intro n member
    obtain ⟨inside, reads, outside, -⟩ := (found.mem_references_iff labelled shaped noLambda listed).mp member
    exact ⟨inside, reads, outside⟩
  once := by
    obtain ⟨l, perm, sub⟩ := (scan.outerCalls ctx.lines).useLabels_subperm false tree
    have distinct := perm.nodup_iff.mp (labelled.distinct.sublist sub)
    rw [listed]
    exact .of_map _ (distinct.sublist (CallContext.referenceLabels_sublist _))
  sites := found.records_sites labelled shaped noLambda
  calls d member := ⟨found.records_calls labelled shaped member, found.calls_disjoint labelled noLambda member⟩

end Found

end Scan

/-! ## Names that are left -/

/-- A file records the uses of its macros, and after the calls are replaced and the definitions removed, every name of a
macro that is read is a reference or stands in a result. -/
theorem macro_uses_recorded {path directive : Text} {lines : List Text} {tree : Tree} {scan : Scan}
    {ignores : List (Nat × Text)} (isModule : tree.kind = .module ignores) (formed : tree.WellFormed)
    (labelled : tree.Labelled) (shaped : tree.Shaped)
    (scanned : (scanTree path directive lines tree).2 = .ok scan) :
    Scan.RecordsUses lines tree scan ∧
      ∀ result : CallSite → Tree, (∀ site ∈ scan.sites, (result site).Unlabelled) →
        let plan := scan.plan lines result
        ∀ n ∈ (plan.removal.strip (Rewriting.apply plan.expansions tree)).kept.nodes, n.Reads scan.macros →
          n ∈ scan.references ∨
            ∃ site ∈ scan.sites, ∃ place, n ∈ (Rewriting.Expansion.inserted ⟨site, result site⟩ place).nodes := by
  have found := found_of_scanTree scanned
  have noLambda : tree.kind ≠ .lambdaExpr := by simp [isModule]
  have noStatement : tree.kind.role ≠ .statement := by simp [isModule, Kind.role]
  have records := found.recordsUses labelled shaped noLambda (Scan.references_of_scanTree scanned)
  refine ⟨records, ?_⟩
  intro result fresh plan n inside reads
  have fits : plan.Fits tree := found.fits labelled formed noLambda fresh
  rw [fits.strip_apply] at inside
  rcases Plan.mem_outcome inside with ⟨e, isExpansion, place, inserted⟩ | ⟨isPass, -⟩ | ⟨u, way, kept, rfl⟩
  · obtain ⟨site, isSite, rfl⟩ := List.mem_map.mp isExpansion
    exact .inr ⟨site, isSite, place, inserted⟩
  · obtain ⟨id, -, isName⟩ := reads
    rw [isPass] at isName
    cases isName
  · have isNode := Tree.mem_nodes_of_way Plan.child_of_keeps way
    obtain ⟨id, known, isName⟩ := reads
    have sameKind : u.kind = .name id .load := by
      rw [← isName, Plan.outcome_of_none kept]
      rfl
    rw [Plan.outcome_leaf kept ((shaped.of_mem isNode).leaf sameKind)]
    have outside : scan.Outside u := by
      intro d member around
      have isStatement := found.statement_mem noLambda member
      obtain ⟨toStatement, -⟩ := labelled.way_around Plan.child_of_keeps way isStatement around
      obtain ⟨p, t, -, defines⟩ := found.defined d member
      rcases ReflTransGen.cases_tail toStatement with top | ⟨q, -, keeps⟩
      · exact noStatement (top ▸ defines.statement_role)
      · have removes := (found.removes_iff labelled noLambda isStatement).mpr (List.mem_map.mpr ⟨d, member, rfl⟩)
        exact absurd (keeps.2.2.symm.trans removes) (by decide)
    rcases records.partition u isNode ⟨id, known, sameKind⟩ outside with ⟨⟨site, ⟨isSite, callee⟩, -⟩, -⟩ | ⟨-, listed⟩
    · -- the call around it is not replaced, though it was recorded
      obtain ⟨call, inside, calls, label⟩ := callee
      rcases ReflTransGen.cases_tail way with top | ⟨q, before, keeps⟩
      · rw [top, isModule] at sameKind
        cases sameKind
      · obtain rfl := labelled.parent_unique inside (Tree.mem_nodes_of_way Plan.child_of_keeps before) calls.child
          (Plan.child_of_keeps _ _ keeps)
        have unreplaced := List.find?_eq_none.mp keeps.1 ⟨site, result site⟩ (List.mem_map.mpr ⟨site, isSite, rfl⟩)
        exact absurd label (by simpa using unreplaced)
    · exact .inl listed

/-- A file with calls inside calls, a call in a macro, a reference to a macro, and a macro that is a lambda. -/
def mixedUses : Text := chars ("def m(x):\n    'use macro'\n    return n(x)\nn = lambda x: ('use macro', x)\n" ++
  "y = m(n(1), m)\n")

theorem mixedUses_recorded :
    ∃ tree scan, parseModule mixedUses = .ok tree ∧ tree.kind = .module [] ∧ tree.WellFormed ∧ tree.Labelled ∧
      tree.Shaped ∧ (scanTree [] (chars "use macro") mixedUses.lines tree).2 = .ok scan ∧
      scan.sites.map CallSite.name = ["n", "m"] ∧ scan.references.length = 1 ∧
      scan.definitions.map (fun d => d.calls.length) = [1, 0] ∧ seven.Unlabelled ∧
      Scan.RecordsUses mixedUses.lines tree scan ∧
      let plan := scan.plan mixedUses.lines fun _ => seven
      ∀ n ∈ (plan.removal.strip (Rewriting.apply plan.expansions tree)).kept.nodes, n.Reads scan.macros →
        n ∈ scan.references ∨
          ∃ site ∈ scan.sites, ∃ place, n ∈ (Rewriting.Expansion.inserted ⟨site, seven⟩ place).nodes := by
  obtain ⟨tree, parsed, isModule, formed, scan, scanned, sites, references, calls⟩ :
      ∃ tree, parseModule mixedUses = .ok tree ∧ tree.kind = .module [] ∧ tree.WellFormed ∧
        ∃ scan, (scanTree [] (chars "use macro") mixedUses.lines tree).2 = .ok scan ∧
          scan.sites.map CallSite.name = ["n", "m"] ∧ scan.references.length = 1 ∧
          scan.definitions.map (fun d => d.calls.length) = [1, 0] := by
    rw [show mixedUses = _ from chars_append _ _]
    decide +kernel
  have labelled := labelled_of_parseModule parsed
  have shaped := shaped_of_parseModule parsed
  have unlabelled : seven.Unlabelled := by
    simp [Tree.Unlabelled, seven, Tree.nodes, Tree.nodesSlots, Tree.mark]
  have uses := macro_uses_recorded isModule formed labelled shaped scanned
  exact ⟨tree, scan, parsed, isModule, formed, labelled, shaped, scanned, sites, references, calls, unlabelled, uses.1,
    uses.2 (fun _ => seven) fun _ _ => unlabelled⟩

end MacroExpand
