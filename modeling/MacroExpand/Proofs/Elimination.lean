import MacroExpand.Proofs.Finding
import MacroExpand.Proofs.Outcome

/-!
# Definitions leave the tree

The plan of a scanned file is to replace the calls that the scan has recorded and to drop the
statements of the macros.  It fits the tree of the file: no recorded call stands in such a statement,
no statement stands in a call, and no macro is defined inside another one.
-/

set_option autoImplicit false

namespace MacroExpand

/-! ## What a scan makes of it -/

/-- The plan of a scanned file, given the results of its calls. -/
def Scan.plan (scan : Scan) (lines : List Text) (result : CallSite → Tree) : Plan :=
  ⟨scan.sites.map fun site => ⟨site, result site⟩, Removal.Context.of scan.definitions lines⟩

namespace Scan

variable {c : Context} {tree : Tree} {scan : Scan}

theorem CallContext.kind_of_callee {c : CallContext} {call : Tree} {name : String}
    (isCallee : c.callee? call = some name) : call.kind = .call := by
  unfold callee? at isCallee
  split at isCallee
  · assumption
  · cases isCallee

theorem isBinding_of_binding {parent lambda : Tree} {name : String} (bound : binding? parent lambda = some name) :
    parent.kind.isBinding = true := by
  unfold binding? at bound
  split at bound
  · rename_i isAssign _
    rw [isAssign]
    rfl
  · rename_i isAnnotated _
    rw [isAnnotated]
    rfl
  · cases bound

def boundName : Tree → Option String
  | .node _ (.functionDef name _ _) _ => some name
  | .node _ (.assign _) ([.node _ (.name id _) _] :: _) => some id
  | .node _ (.annAssign _) ([.node _ (.name id _) _] :: _) => some id
  | _ => none

theorem Defines.boundName {p t : Tree} {d : Definition} (defines : Defines c p t d) :
    Scan.boundName d.statement = some d.name := by
  cases defines with
  | function isFunction opens noMethod statement tree =>
    rw [statement]
    cases t
    cases isFunction
    rfl
  | lambda isLambda opens bound statement tree =>
    rw [statement]
    unfold binding? at bound
    cases p with
    | node m kind slots =>
      dsimp only [Tree.kind, Tree.slots] at bound
      split at bound
      · split at bound
        · cases bound
          rfl
        · cases bound
      · split at bound
        · cases bound
          rfl
        · cases bound
      · cases bound

theorem Defines.statement_role {p t : Tree} {d : Definition} (defines : Defines c p t d) :
    d.statement.kind.role = .statement := by
  have bound := defines.boundName
  generalize d.statement = statement at bound ⊢
  unfold Scan.boundName at bound
  split at bound <;> first | rfl | cases bound

/-- The search reaches the statement of a macro, and either it stops there, or the statement is an
assignment. -/
theorem Defines.statement_reached {parent p t : Tree} {d : Definition} (defines : Defines c p t d)
    (reached : Reached c parent tree p t) (noLambda : tree.kind ≠ .lambdaExpr) :
    ∃ q, Reached c parent tree q d.statement ∧ ((c.recognise q d.statement).2 = false ∨
      d.statement.kind.isBinding = true) := by
  cases defines with
  | function isFunction opens noMethod statement tree =>
    rw [statement]
    refine ⟨p, reached, .inl ?_⟩
    simp only [Context.recognise, isFunction, opens, Bool.not_true, Bool.false_eq_true, if_false]
  | lambda isLambda opens bound statement tree =>
    rw [statement]
    cases reached with
    | root => exact absurd isLambda noLambda
    | child outer enters below =>
      exact ⟨_, outer, .inr (isBinding_of_binding bound)⟩

theorem Reached.enters_around {parent p s a : Tree} (labelled : tree.Labelled)
    (reached : Reached c parent tree p s) (inside : a ∈ tree.nodes) (around : s ∈ a.nodes)
    (below : a ≠ s) : ∃ q, Reached c parent tree q a ∧ (c.recognise q a).2 = true := by
  induction reached with
  | root =>
    obtain ⟨u, isChild, member⟩ := (Tree.mem_nodes.mp inside).resolve_left below
    exact absurd (Tree.label_mem_labels (Tree.mem_nodes_trans member around))
      (labelled.label_not_below isChild)
  | @child p t s reached enters isChild ih =>
    by_cases top : a = t
    · exact ⟨p, top ▸ reached, top ▸ enters⟩
    · refine ih ?_ top
      obtain ⟨q, inner, ofInner⟩ := Tree.exists_parent around (Ne.symm below)
      obtain rfl := labelled.parent_unique (Tree.mem_nodes_trans inside inner)
        (reached.mem_nodes) ofInner isChild
      exact inner

namespace Found

variable (found : Found c tree scan)
include found

theorem statement_mem (noLambda : tree.kind ≠ .lambdaExpr) {d : Definition}
    (member : d ∈ scan.definitions) : d.statement ∈ tree.nodes := by
  obtain ⟨p, t, reached, defines⟩ := found.defined d member
  obtain ⟨q, outer, -⟩ := defines.statement_reached reached noLambda
  exact outer.mem_nodes

theorem statement_ne_part {d : Definition} (member : d ∈ scan.definitions) :
    d.statement.kind.role ≠ .part := by
  obtain ⟨p, t, -, defines⟩ := found.defined d member
  rw [defines.statement_role]
  decide

theorem statements_nodup : (scan.definitions.map Definition.statement).Nodup := by
  refine (List.Nodup.of_map _ found.distinct).map_on fun d member d' member' same => ?_
  obtain ⟨p, t, -, defines⟩ := found.defined d member
  obtain ⟨p', t', -, defines'⟩ := found.defined d' member'
  have names : d.name = d'.name := by
    have bound := defines.boundName
    rw [same, defines'.boundName] at bound
    exact (Option.some.inj bound).symm
  exact List.inj_on_of_nodup_map found.distinct member member' names

theorem not_nested (labelled : tree.Labelled) (binds : tree.BindsParts)
    (noLambda : tree.kind ≠ .lambdaExpr) {d d' : Definition} (member : d ∈ scan.definitions)
    (member' : d' ∈ scan.definitions) (inside : d'.statement ∈ d.statement.nodes) :
    d'.statement = d.statement := by
  by_contra below
  obtain ⟨p, t, reached, defines⟩ := found.defined d member
  obtain ⟨p', t', reached', defines'⟩ := found.defined d' member'
  obtain ⟨q, outer, stops⟩ := defines.statement_reached reached noLambda
  obtain ⟨q', outer', -⟩ := defines'.statement_reached reached' noLambda
  rcases stops with stops | isBinding
  · obtain ⟨r, again, enters⟩ := outer'.enters_around labelled outer.mem_nodes inside (Ne.symm below)
    obtain rfl := again.parent_unique labelled outer
    rw [stops] at enters
    cases enters
  · obtain ⟨u, isChild, within⟩ := (Tree.mem_nodes.mp inside).resolve_left below
    exact found.statement_ne_part member' (binds _ outer.mem_nodes isBinding u isChild _ within)

theorem removes_iff (labelled : tree.Labelled) (noLambda : tree.kind ≠ .lambdaExpr) {s : Tree}
    (inside : s ∈ tree.nodes) :
    (Removal.Context.of scan.definitions c.lines).removes s = true ↔
      s ∈ scan.definitions.map Definition.statement := by
  have positive := labelled.ne_zero inside
  simp only [Removal.Context.removes, Removal.Context.name?, Removal.Context.of, positive, if_false,
    Option.isSome_map, List.find?_isSome, List.mem_map, decide_eq_true_eq]
  constructor
  · rintro ⟨e, ⟨d, member, rfl⟩, same⟩
    exact ⟨d, member, labelled.eq_of_label (found.statement_mem noLambda member) inside same⟩
  · rintro ⟨d, member, rfl⟩
    exact ⟨_, ⟨d, member, rfl⟩, rfl⟩

theorem site_call {site : CallSite} (member : site ∈ scan.sites) :
    ∃ call ∈ tree.nodes, call.kind = .call ∧ call.mark.label = site.label := by
  rw [found.sites] at member
  obtain ⟨call, inside, name, free, isCallee, rfl⟩ :=
    CallContext.exists_call (CallContext.mem_callsOf.mp member)
  exact ⟨call, inside, CallContext.kind_of_callee isCallee, rfl⟩

omit found in
theorem exists_site {label : Nat} {result : CallSite → Tree}
    (isSome : ((scan.plan c.lines result).expansion? label).isSome) :
    ∃ site ∈ scan.sites, site.label = label := by
  obtain ⟨e, isExpansion⟩ := Option.isSome_iff_exists.mp isSome
  have matched := List.find?_some isExpansion
  obtain ⟨site, member, rfl⟩ := List.mem_map.mp (Plan.mem_of_expansion? isExpansion)
  exact ⟨site, member, by simpa using matched⟩

theorem fits (labelled : tree.Labelled) (formed : tree.WellFormed)
    (noLambda : tree.kind ≠ .lambdaExpr) {result : CallSite → Tree}
    (fresh : ∀ site ∈ scan.sites, (result site).Unlabelled) :
    (scan.plan c.lines result).Fits tree := by
  have isCall : ∀ n ∈ tree.nodes,
      ((scan.plan c.lines result).expansion? n.mark.label).isSome → n.kind = .call := by
    intro n inside isSome
    obtain ⟨site, member, same⟩ := exists_site isSome
    obtain ⟨call, isNode, isCall, label⟩ := found.site_call member
    obtain rfl := labelled.eq_of_label isNode inside (label.trans same)
    exact isCall
  refine ⟨isCall, ?_, ?_, ?_⟩
  · intro e member
    obtain ⟨site, isSite, rfl⟩ := List.mem_map.mp member
    exact fresh site isSite
  · intro n inside isSome s below
    by_contra removes
    rw [Bool.not_eq_false] at removes
    obtain ⟨d, member, rfl⟩ := List.mem_map.mp
      ((found.removes_iff labelled noLambda (Tree.mem_nodes_trans inside below)).mp removes)
    have statement := found.statement_ne_part member
    have kind := isCall n inside isSome
    by_cases top : d.statement = n
    · rw [top, kind] at statement
      exact statement rfl
    · obtain ⟨k, block⟩ := (formed.of_mem inside).holds_block below top statement
      rw [kind] at block
      exact block rfl
  · intro s inside removes n below
    by_contra replaced
    obtain ⟨site, member, same⟩ := exists_site (Option.isSome_iff_ne_none.mpr replaced)
    rw [found.sites] at member
    obtain ⟨d, isDefinition, rfl⟩ := List.mem_map.mp
      ((found.removes_iff labelled noLambda inside).mp removes)
    have skipped : d.statement.mark.label ∈ (scan.outerCalls c.lines).skipped :=
      List.mem_map.mpr ⟨d, isDefinition, rfl⟩
    have apart := CallContext.not_in_skipped labelled (CallContext.mem_callsOf.mp member) inside skipped
    exact apart (same ▸ Tree.label_mem_labels below)

theorem dropped_perm (labelled : tree.Labelled) (formed : tree.WellFormed)
    (noLambda : tree.kind ≠ .lambdaExpr) (noStatement : tree.kind.role ≠ .statement) :
    ((Removal.Context.of scan.definitions c.lines).dropped tree).Perm
      (scan.definitions.map Definition.statement) := by
  have nodup : ((Removal.Context.of scan.definitions c.lines).dropped tree).Nodup := by
    obtain ⟨l, perm, sub⟩ := Removal.dropped_labels_subperm
      (c := Removal.Context.of scan.definitions c.lines) tree
    exact .of_map _ (perm.nodup_iff.mp (labelled.distinct.sublist sub))
  refine (List.perm_ext_iff_of_nodup nodup found.statements_nodup).mpr fun s => ⟨fun dropped => ?_, ?_⟩
  · obtain ⟨inside, removes⟩ := Removal.mem_dropped dropped
    exact (found.removes_iff labelled noLambda inside).mp removes
  · intro member
    obtain ⟨d, isDefinition, rfl⟩ := List.mem_map.mp member
    have inside := found.statement_mem noLambda isDefinition
    obtain ⟨p, t, -, defines⟩ := found.defined d isDefinition
    have below : d.statement ≠ tree := by
      intro top
      rw [← top] at noStatement
      exact noStatement defines.statement_role
    refine Removal.mem_dropped_of_outermost inside below
      ((found.removes_iff labelled noLambda inside).mpr member) fun a isNode around apart => ?_
    by_contra removes
    rw [Bool.not_eq_false] at removes
    obtain ⟨d', isDefinition', rfl⟩ := List.mem_map.mp
      ((found.removes_iff labelled noLambda isNode).mp removes)
    exact apart (found.not_nested labelled formed.bindsParts noLambda isDefinition' isDefinition around).symm

end Found

end Scan

/-- Replacing the calls of a scanned file by any results and then removing its definitions gives the
tree that one walk from the top gives, in which the expression of its result stands where an outermost
call stood.  No recorded call and no statement of a macro is left, no block
inside the file is left empty, and each of these statements is edited once. -/
theorem expanded_file_without_definitions {path directive : Text} {lines : List Text} {tree : Tree}
    {scan : Scan} {ignores : List (Nat × Text)} (isModule : tree.kind = .module ignores)
    (formed : tree.WellFormed) (labelled : tree.Labelled)
    (scanned : (scanTree path directive lines tree).2 = .ok scan) (result : CallSite → Tree)
    (fresh : ∀ site ∈ scan.sites, (result site).Unlabelled) :
    let plan := scan.plan lines result
    let stripped := plan.removal.strip (Rewriting.apply plan.expansions tree)
    stripped.kept = plan.outcome tree ∧
      (∀ site ∈ scan.sites, site.label ∉ stripped.kept.labels) ∧
      (∀ d ∈ scan.definitions, d.statement.mark.label ∉ stripped.kept.labels) ∧
      (∀ before kept, before ≠ [] → Plan.block false before kept ≠ []) ∧
      ∃ statements, statements.Perm (scan.definitions.map Definition.statement) ∧
        plan.removal.EditsOf stripped.edits statements := by
  intro plan stripped
  have found := found_of_scanTree scanned
  have noLambda : tree.kind ≠ .lambdaExpr := by simp [isModule]
  have noStatement : tree.kind.role ≠ .statement := by simp [isModule, Kind.role]
  have fits : plan.Fits tree := found.fits labelled formed noLambda fresh
  have kept : stripped.kept = plan.outcome tree := fits.strip_apply
  refine ⟨kept, ?_, ?_, fun _ _ => Plan.block_ne_nil, ?_⟩
  · intro site member left
    obtain ⟨call, inside, -, label⟩ := found.site_call member
    have labelledSite : site.label ≠ 0 := label ▸ labelled.ne_zero inside
    obtain ⟨n, -, -, unreplaced, -⟩ := fits.label_outcome (kept ▸ left) labelledSite
    have isExpansion := List.find?_eq_none.mp unreplaced ⟨site, result site⟩
      (List.mem_map.mpr ⟨site, member, rfl⟩)
    simp at isExpansion
  · intro d member left
    have inside := found.statement_mem noLambda member
    obtain ⟨n, isNode, same, -, stays⟩ := fits.label_outcome (kept ▸ left) (labelled.ne_zero inside)
    obtain rfl := labelled.eq_of_label isNode inside same
    rcases stays with top | stays
    · obtain ⟨p, t, -, defines⟩ := found.defined d member
      rw [← top] at noStatement
      exact noStatement defines.statement_role
    · have removes := (found.removes_iff labelled noLambda inside).mpr (List.mem_map.mpr ⟨d, member, rfl⟩)
      exact absurd (stays.symm.trans removes) (by decide)
  · refine ⟨_, found.dropped_perm labelled formed noLambda noStatement, ?_⟩
    have edits := Removal.editsOf_strip (c := plan.removal) (Rewriting.apply plan.expansions tree)
    rwa [fits.dropped_apply] at edits

/-- A file with a macro that is all of a block, a macro beside other statements, and a call in the
arguments of a call. -/
def nestedCalls : Text := chars ("class K:\n    def f(self):\n        def m(x):\n" ++
  "            'use macro'\n            return x\n    n = lambda: ('use macro', 2)\ny = [m(n()), K]\n")

/-- The number seven, as an expression. -/
def seven : Tree := .node {} (.constant (.int 7) false) []

theorem nestedCalls_without_definitions :
    ∃ tree scan, parseModule nestedCalls = .ok tree ∧ tree.kind = .module [] ∧ tree.WellFormed ∧
      tree.Labelled ∧ (scanTree [] (chars "use macro") nestedCalls.lines tree).2 = .ok scan ∧
      scan.sites.length = 2 ∧ scan.definitions.length = 2 ∧ seven.Unlabelled ∧
      let plan := scan.plan nestedCalls.lines fun _ => seven
      let stripped := plan.removal.strip (Rewriting.apply plan.expansions tree)
      stripped.kept = plan.outcome tree ∧
        (∀ site ∈ scan.sites, site.label ∉ stripped.kept.labels) ∧
        (∀ d ∈ scan.definitions, d.statement.mark.label ∉ stripped.kept.labels) ∧
        (∀ before kept, before ≠ [] → Plan.block false before kept ≠ []) ∧
        ∃ statements, statements.Perm (scan.definitions.map Definition.statement) ∧
          plan.removal.EditsOf stripped.edits statements := by
  obtain ⟨tree, parsed, isModule, formed, scan, scanned, sites, definitions⟩ :
      ∃ tree, parseModule nestedCalls = .ok tree ∧ tree.kind = .module [] ∧ tree.WellFormed ∧
        ∃ scan, (scanTree [] (chars "use macro") nestedCalls.lines tree).2 = .ok scan ∧
          scan.sites.length = 2 ∧ scan.definitions.length = 2 := by
    rw [show nestedCalls = _ from chars_append _ _]
    decide +kernel
  have labelled := labelled_of_parseModule parsed
  have unlabelled : seven.Unlabelled := by
    simp [Tree.Unlabelled, seven, Tree.nodes, Tree.nodesSlots, Tree.mark]
  exact ⟨tree, scan, parsed, isModule, formed, labelled, scanned, sites, definitions, unlabelled,
    expanded_file_without_definitions isModule formed labelled scanned _ fun _ _ => unlabelled⟩

end MacroExpand
