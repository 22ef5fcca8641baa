import MacroExpand.Proofs.Elimination
import MacroExpand.Proofs.Grammar
import MacroExpand.Proofs.Padding
import MacroExpand.Proofs.Passes

/-!
# Scanning what a pass has made

A pass replaces calls and drops the statements of the macros.  What it makes has no macros, unless
the pass itself puts the directive at the front of a function or a lambda: by dropping what stands
before it, or by a result that takes the place of a call there or that holds such a lambda.
-/

set_option autoImplicit false

namespace MacroExpand

namespace Scan

variable {c : Context}

/-! ## What a scan that succeeds has met -/

/-- What a scan that succeeds has met is a method or a macro, and the statements of macros are
known. -/
theorem candidates_of_scan {tree : Tree} {scan : Scan}
    (scanned : (scanTree c.path c.directive c.lines tree).2 = .ok scan) {candidate : Candidate}
    (found : candidate ∈ c.candidates Tree.absent tree) :
    (∃ name line, candidate = .method name line) ∨
      ∃ d, candidate = .definition d ∧ ∃ e ∈ scan.definitions, e.statement = d.statement := by
  unfold scanTree at scanned
  dsimp only at scanned
  split at scanned
  · cases scanned
  · rename_i r registered
    rcases Context.registerAll_kinds registered candidate found with isMethod | ⟨d, rfl⟩
    · exact .inl isMethod
    · refine .inr ⟨d, rfl, ?_⟩
      have member : d ∈ r.definitions := by
        rw [(Context.registerAll_ok registered List.nodup_nil).1]
        exact List.mem_append_right _ (Candidate.mem_definitions.mpr found)
      split at scanned
      · rename_i none
        rw [List.isEmpty_iff] at none
        rw [none] at member
        cases member
      · cases scanned
        exact ⟨_, List.mem_map.mpr ⟨d, member, rfl⟩, rfl⟩

theorem scanTree_of_methods {tree : Tree}
    (methods : ∀ candidate ∈ c.candidates Tree.absent tree, ∃ name line, candidate = .method name line) :
    (scanTree c.path c.directive c.lines tree).2 = .ok {} := by
  have none : ∀ (candidates : List Candidate) (r : Registered),
      (∀ candidate ∈ candidates, ∃ name line, candidate = .method name line) →
      ∃ log, c.registerAll r candidates = (⟨r.definitions, log⟩, none) := by
    intro candidates
    induction candidates with
    | nil => exact fun r _ => ⟨r.log, rfl⟩
    | cons candidate rest ih =>
      intro r all
      obtain ⟨name, line, rfl⟩ := all _ (.head _)
      rw [Context.registerAll]
      simp only [Context.register]
      exact ih _ fun candidate member => all candidate (.tail _ member)
  obtain ⟨log, registered⟩ := none _ {} methods
  simp only [scanTree]
  rw [show (⟨c.path, c.directive, c.lines⟩ : Context) = c from rfl, registered]
  rfl

end Scan

/-! ## What a pass makes of a tree -/

namespace Plan

/-- What the pass makes of a tree: its calls are replaced, then the statements are removed. -/
def kept (plan : Plan) (t : Tree) : Tree := (plan.removal.strip (Rewriting.apply plan.expansions t)).kept

def staying (plan : Plan) (body : List Tree) : List Tree := body.filter fun t => !plan.removal.removes t

/-- Whether the directive comes to the front of a function because what stands before it is removed. -/
def uncovers (plan : Plan) (c : Scan.Context) (t : Tree) : Bool :=
  match t.kind with
  | .functionDef .. => !c.opens (t.slot 1) && c.opens (plan.staying (t.slot 1))
  | _ => false

/-- Whether the directive comes to the front of a function or a lambda in the place of calls. -/
def fills (plan : Plan) (c : Scan.Context) (t : Tree) : Bool :=
  match t.kind with
  | .functionDef .. =>
    !c.opens (plan.staying (t.slot 1)) && c.opens ((plan.staying (t.slot 1)).map plan.kept)
  | .lambdaExpr => !c.opensLambda t && c.opensLambda (plan.kept t)
  | _ => false

/-- The pass puts the directive at the front of a function or a lambda. -/
def Reveals (plan : Plan) (c : Scan.Context) (tree : Tree) : Prop :=
  (∃ t ∈ tree.nodes, plan.uncovers c t = true ∨ plan.fills c t = true) ∨
    ∃ e ∈ plan.expansions, ∃ t ∈ e.result.nodes, c.opensNode t = true

instance (plan : Plan) (c : Scan.Context) (tree : Tree) : Decidable (plan.Reveals c tree) := by
  unfold Reveals
  infer_instance

/-- Only calls are replaced, none of them is removed, and results are new. -/
structure Suits (plan : Plan) (t : Tree) : Prop where
  replaced : ∀ n ∈ t.nodes, (plan.expansion? n.mark.label).isSome →
    n.kind = .call ∧ plan.removal.removes n = false
  unlabelled : ∀ e ∈ plan.expansions, e.result.Unlabelled

variable {plan : Plan}

theorem kept_of_some {t : Tree} {e : Expansion} (suits : plan.Suits t)
    (found : plan.expansion? t.mark.label = some e) : plan.kept t = Rewriting.Expansion.inserted e t.mark := by
  have isCall := (suits.replaced t (Tree.mem_nodes_self t) (by simp [found])).1
  rw [kept, apply_of_some found isCall]
  have unlabelled := suits.unlabelled e (mem_of_expansion? found)
  exact (Removal.strip_unlabelled (unlabelled_inserted unlabelled _)).1

theorem kept_all {slot : List Tree} (suits : ∀ t ∈ slot, plan.Suits t) :
    (plan.removal.stripAll (slot.map (Rewriting.apply plan.expansions))).kept =
      (plan.staying slot).map plan.kept := by
  have same : slot.filter ((fun t => !plan.removal.removes t) ∘ Rewriting.apply plan.expansions) =
      plan.staying slot := by
    refine List.filter_congr fun t inSlot => ?_
    have self := Tree.mem_nodes_self t
    simp [removes_apply (suits t inSlot).unlabelled ((suits t inSlot).replaced t self)]
  rw [Removal.stripAll_kept, List.filter_map, List.map_map, same]
  rfl

theorem Suits.child {t u : Tree} (suits : plan.Suits t) (isChild : u ∈ t.children) : plan.Suits u where
  replaced n member := suits.replaced n (Tree.mem_nodes_of_child isChild member)
  unlabelled := suits.unlabelled

theorem kept_of_none {t : Tree} (suits : plan.Suits t) (unreplaced : plan.expansion? t.mark.label = none) :
    plan.kept t = .node t.mark t.kind (t.slots.map fun slot =>
      block (Removal.isModule t.kind) (slot.map (Rewriting.apply plan.expansions))
        ((plan.staying slot).map plan.kept)) := by
  rw [kept, apply_of_none unreplaced, Removal.Context.strip]
  simp only [Removal.stripSlots_kept, List.map_map]
  congr 1
  refine List.map_congr_left fun slot isSlot => ?_
  have inner : ∀ u ∈ slot, plan.Suits u := fun u inSlot =>
    suits.child (List.mem_flatten.mpr ⟨slot, isSlot, inSlot⟩)
  rw [Function.comp_apply, Removal.stripBlock_kept, kept_all inner]

theorem kept_slot {t : Tree} (suits : plan.Suits t) (unreplaced : plan.expansion? t.mark.label = none)
    (k : Nat) : (plan.kept t).slot k =
      block (Removal.isModule t.kind) ((t.slot k).map (Rewriting.apply plan.expansions))
        ((plan.staying (t.slot k)).map plan.kept) := by
  rw [kept_of_none suits unreplaced]
  cases t with
  | node m kind slots =>
    simp only [Tree.slot, Tree.slots, Tree.kind, List.getD_eq_getElem?_getD, List.getElem?_map]
    cases slots[k]? <;> rfl

/-- What is below what is left of a tree is an added `pass` or what is left of a tree that stays. -/
theorem child_of_kept {t u : Tree} (suits : plan.Suits t)
    (unreplaced : plan.expansion? t.mark.label = none) (isChild : u ∈ (plan.kept t).children) :
    u.isPass = true ∨ ∃ v ∈ t.children, plan.removal.removes v = false ∧ u = plan.kept v := by
  rw [kept_of_none suits unreplaced] at isChild
  obtain ⟨slot', isSlot', inSlot'⟩ := Tree.mem_children.mp isChild
  obtain ⟨slot, isSlot, rfl⟩ := List.mem_map.mp isSlot'
  have cases : u.isPass = true ∨ u ∈ (plan.staying slot).map plan.kept := by
    unfold block at inSlot'
    split at inSlot'
    · split at inSlot'
      · cases inSlot'
      · rw [List.mem_singleton.mp inSlot']
        exact .inl rfl
    · exact .inr inSlot'
  refine cases.imp_right fun member => ?_
  obtain ⟨v, stays, rfl⟩ := List.mem_map.mp member
  obtain ⟨inSlot, stays⟩ := List.mem_filter.mp stays
  exact ⟨v, List.mem_flatten.mpr ⟨slot, isSlot, inSlot⟩, by simpa using stays, rfl⟩

theorem opens_block {c : Scan.Context} {inModule : Bool} {before after : List Tree}
    (opens : c.opens (block inModule before after) = true) : c.opens after = true := by
  unfold block at opens
  split at opens
  · split at opens <;> cases opens
  · exact opens

/-- A pass that reveals nothing leaves no function or lambda opening with the directive that did not
do so before. -/
theorem opensNode_of_kept {c : Scan.Context} {tree t : Tree} (reveals : ¬ plan.Reveals c tree)
    (member : t ∈ tree.nodes) (suits : plan.Suits t) (unreplaced : plan.expansion? t.mark.label = none)
    (opens : c.opensNode (plan.kept t) = true) : c.opensNode t = true := by
  obtain ⟨noOther, -⟩ := not_or.mp reveals
  have hidden : plan.uncovers c t = false ∧ plan.fills c t = false := by
    simpa using fun found => noOther ⟨t, member, found⟩
  have kind : (plan.kept t).kind = t.kind := by rw [kept_of_none suits unreplaced]; rfl
  unfold Scan.Context.opensNode at opens ⊢
  rw [kind] at opens
  unfold uncovers fills at hidden
  cases isKind : t.kind with
  | functionDef name isAsync comment =>
    simp only [isKind, Bool.and_eq_false_iff, Bool.not_eq_false'] at hidden opens ⊢
    have after : c.opens ((plan.staying (t.slot 1)).map plan.kept) = true := by
      rw [kept_slot suits unreplaced] at opens
      exact opens_block opens
    have staying : c.opens (plan.staying (t.slot 1)) = true := by simpa [after] using hidden.2
    simpa [staying] using hidden.1
  | lambdaExpr =>
    simp only [isKind, Bool.and_eq_false_iff, Bool.not_eq_false'] at hidden opens ⊢
    simpa [opens] using hidden.2
  | _ => simp [isKind] at opens

end Plan

/-! ## Scanning again -/

namespace Scan

def IsClass (t : Tree) : Prop := ∃ name, t.kind = .classDef name

variable {c c' : Context} {tree : Tree} {scan : Scan} {plan : Plan}

/-- A node that the search reaches opens with the directive only in a method, if neither the node nor
its parent is removed. -/
theorem Reached.method_of_opens {p t : Tree} (reached : Reached c Tree.absent tree p t)
    (scanned : (scanTree c.path c.directive c.lines tree).2 = .ok scan)
    (removed : ∀ d ∈ scan.definitions, plan.removal.removes d.statement = true)
    (stays : plan.removal.removes t = false) (parentStays : plan.removal.removes p = false)
    (opens : c.opensNode t = true) :
    IsClass p ∧ ∃ name isAsync comment, t.kind = .functionDef name isAsync comment := by
  have unknown : ∀ candidate ∈ (c.recognise p t).1, (∃ name line, candidate = .method name line) ∨
      ∃ d, candidate = .definition d ∧ plan.removal.removes d.statement = true := by
    intro candidate here
    have found := reached.candidates_subset (recognise_subset here)
    rcases candidates_of_scan scanned found with isMethod | ⟨d, isDefinition, e, known, same⟩
    · exact .inl isMethod
    · exact .inr ⟨d, isDefinition, same ▸ removed e known⟩
  have undefined : ∀ name source statement typed, plan.removal.removes statement = false →
      ¬ ∀ candidate ∈ [c.define name source statement typed], (∃ name line, candidate = .method name line) ∨
        ∃ d, candidate = .definition d ∧ plan.removal.removes d.statement = true := by
    intro name source statement typed statementStays all
    rcases all _ (.head _) with ⟨_, _, isMethod⟩ | ⟨d, isDefinition, gone⟩
    · unfold Context.define at isMethod
      split at isMethod <;> cases isMethod
    · have same := (Context.define_definition (List.mem_singleton.mpr isDefinition.symm)).2.2
      rw [same, statementStays] at gone
      cases gone
  unfold Context.opensNode at opens
  unfold Context.recognise at unknown
  split at opens
  case h_1 name isAsync comment isFunction =>
    simp only [isFunction, opens, Bool.not_true, Bool.false_eq_true, if_false] at unknown
    split at unknown
    case h_1 owner isClass => exact ⟨⟨owner, isClass⟩, name, isAsync, comment, isFunction⟩
    case h_2 => exact absurd unknown (undefined _ _ _ _ stays)
  case h_2 isLambda =>
    simp only [isLambda, opens, Bool.not_true, Bool.false_eq_true, if_false] at unknown
    split at unknown
    case h_1 =>
      rcases unknown _ (.head _) with ⟨_, _, isMethod⟩ | ⟨_, isDefinition, -⟩
      · cases isMethod
      · cases isDefinition
    case h_2 => exact absurd unknown (undefined _ _ _ _ parentStays)
  case h_3 => cases opens

/-- A function that opens with the directive in a class is a method, and the search looks below it. -/
theorem recognise_method {p t : Tree} {name : String} {isAsync : Bool} {comment : Option Text}
    (isFunction : t.kind = .functionDef name isAsync comment) (isClass : IsClass p)
    (opens : c.opensNode t = true) : c.recognise p t = ([.method name t.mark.line], true) := by
  obtain ⟨owner, isClass⟩ := isClass
  unfold Context.opensNode at opens
  simp only [isFunction] at opens
  simp [Context.recognise, isFunction, opens, isClass]

/-- The search goes on below a node that it reaches and that stays with its parent. -/
theorem Reached.enters {p t : Tree} (reached : Reached c Tree.absent tree p t)
    (scanned : (scanTree c.path c.directive c.lines tree).2 = .ok scan)
    (removed : ∀ d ∈ scan.definitions, plan.removal.removes d.statement = true)
    (stays : plan.removal.removes t = false) (parentStays : plan.removal.removes p = false) :
    (c.recognise p t).2 = true := by
  cases opens : c.opensNode t with
  | false => rw [recognise_of_closed opens]
  | true =>
    obtain ⟨isClass, name, isAsync, comment, isFunction⟩ :=
      reached.method_of_opens scanned removed stays parentStays opens
    rw [recognise_method isFunction isClass opens]

theorem padded_inserted (e : Expansion) (place : Mark) (u : Tree) :
    (Rewriting.Expansion.inserted e place).padded u = e.result.padded u := by
  have same := Tree.padded_remark (fun m => { place with label := m.label, origin := m.origin }) e.result u
  rw [← same]
  unfold Rewriting.Expansion.inserted Tree.stamp
  cases e.result.remark fun m => { place with label := m.label, origin := m.origin }
  cases u
  rfl

/-- In what a pass leaves of a tree, up to added `pass` statements, a scan meets nothing but methods,
unless the pass reveals something. -/
theorem methods_of_kept {t : Tree} (scanned : (scanTree c.path c.directive c.lines tree).2 = .ok scan)
    (removed : ∀ d ∈ scan.definitions, plan.removal.removes d.statement = true)
    (same : c'.directive = c.directive) (suits : plan.Suits t) (reveals : ¬ plan.Reveals c tree)
    {p q u : Tree} (reached : Reached c Tree.absent tree p t) (stays : plan.removal.removes t = false)
    (parentStays : plan.removal.removes p = false) (parents : IsClass p → IsClass q)
    (padded : (plan.kept t).padded u = true) :
    ∀ candidate ∈ c'.candidates q u, ∃ name line, candidate = .method name line := by
  induction t using Tree.inductionOn generalizing p q u with
  | node m kind slots ih =>
    generalize isTree : Tree.node m kind slots = t at *
    have none : ∀ r v : Tree, (∀ n ∈ v.nodes, c.opensNode n = false) →
        ∀ candidate ∈ c'.candidates r v, ∃ name line, candidate = .method name line := by
      intro r v closed candidate found
      have closed' : ∀ n ∈ v.nodes, c'.opensNode n = false := fun n member =>
        (opensNode_congr same n).trans (closed n member)
      rw [candidates_of_closed closed'] at found
      cases found
    cases replaced : plan.expansion? t.mark.label with
    | some e =>
      rw [Plan.kept_of_some suits replaced, padded_inserted] at padded
      refine none q u (closed_of_padded (fun n member => ?_) padded)
      by_contra opens
      rw [Bool.not_eq_false] at opens
      exact reveals (.inr ⟨e, Plan.mem_of_expansion? replaced, n, member, opens⟩)
    | none =>
      have kind : u.kind = t.kind ∨ ∃ ignores, t.kind = .module ignores := by
        have agrees := Tree.kind_of_padded padded
        rw [Plan.kept_of_none suits replaced] at agrees
        rcases Kind.eq_or_module_of_agrees agrees with equal | ⟨isModule, -⟩
        · exact .inl equal.symm
        · exact .inr isModule
      have sameKind : (∀ ignores, t.kind ≠ .module ignores) → u.kind = t.kind := fun noModule =>
        kind.resolve_right fun ⟨ignores, isModule⟩ => noModule ignores isModule
      have here : ∀ candidate ∈ (c'.recognise q u).1, ∃ name line, candidate = .method name line := by
        cases opens : c'.opensNode u with
        | false => rw [recognise_of_closed opens]; nofun
        | true =>
          have before := opensNode_of_padded padded ((opensNode_congr same u).symm.trans opens)
          have opensTree := Plan.opensNode_of_kept reveals reached.mem_nodes suits replaced before
          obtain ⟨isClass, name, isAsync, comment, isFunction⟩ :=
            reached.method_of_opens scanned removed stays parentStays opensTree
          have isFunction' := (sameKind (by simp [isFunction])).trans isFunction
          rw [recognise_method isFunction' (parents isClass) opens]
          simp
      intro candidate found
      rw [candidates_eq q u] at found
      rcases List.mem_append.mp found with top | below
      · exact here candidate top
      split at below
      case isFalse => cases below
      case isTrue =>
        obtain ⟨v, isChild, inside⟩ := List.mem_flatMap.mp below
        rcases Tree.child_of_padded padded isChild with added | ⟨w, isChild', found⟩
        · exact none u v (closed_of_isPass_nodes added) candidate inside
        rcases Plan.child_of_kept suits replaced isChild' with added | ⟨x, isBelow, staysX, rfl⟩
        · exact none u v (closed_of_padded (closed_of_isPass_nodes added) found) candidate inside
        subst isTree
        obtain ⟨slot, isSlot, inSlot⟩ := Tree.mem_children.mp isBelow
        have enters := reached.enters scanned removed stays parentStays
        refine ih slot isSlot x inSlot (suits.child isBelow) (reached.child enters isBelow) staysX stays
          (fun ⟨name, isClass⟩ => ?_) found candidate inside
        exact ⟨name, (sameKind (by simp [isClass])).trans isClass⟩

end Scan

/-! ## Passes that finish -/

namespace Pass

variable {σ : Type}

/-- The tree of a file, and what a pass over it does if it gets all the results. -/
def planned (settings : Settings) (execute : Executor σ) (source path : Text) (s : PassState σ) :
    Option (Tree × Plan) :=
  match scanned settings source path with
  | .error _ => none
  | .ok (tree, scan) =>
    let c : Context σ := ⟨settings, execute, source, source.lines, scan⟩
    let s := { s with log := s.log ++ (scanTree path settings.directive source.lines tree).1 }
    match ((expandSites c (expandMacro c scan.definitions.length []) {} scan.sites).outcome s).1 with
    | .error _ => none
    | .ok r => some (tree, ⟨r.expansions, Removal.Context.of scan.definitions source.lines⟩)

theorem expansions_of_expand {r r' : Rewriting} {site : CallSite} {text : Text} {edit : Edit}
    (replaced : r.expand site text = .ok (r', edit)) :
    ∃ result, parseExpression text = .ok result ∧ r'.expansions = r.expansions ++ [⟨site, result⟩] := by
  unfold Rewriting.expand at replaced
  split at replaced
  · cases replaced
  · split at replaced
    · cases replaced
    · rename_i result parsed
      cases replaced
      exact ⟨result, parsed, rfl⟩

theorem expandSites_expansions {c : Context σ} {result : Definition → CallSite → Text → PassM σ Text}
    {sites : List CallSite} {r r' : Rewriting} {s t : PassState σ}
    (ended : (expandSites c result r sites).outcome s = (.ok r', t)) :
    ∀ e ∈ r'.expansions, e ∈ r.expansions ∨
      (e.site ∈ sites ∧ ∃ text, parseExpression text = .ok e.result) := by
  induction sites generalizing r s with
  | nil =>
    cases ended
    exact fun e member => .inl member
  | cons site rest ih =>
    rw [expandSites] at ended
    split at ended
    · intro e member
      rcases ih ended e member with before | ⟨isSite, found⟩
      · exact .inl before
      · exact .inr ⟨.tail _ isSite, found⟩
    · obtain ⟨arguments, s₁, -, ended⟩ := PassM.exists_of_bind_ok ended
      obtain ⟨text, s₂, -, ended⟩ := PassM.exists_of_bind_ok ended
      obtain ⟨r₁, s₃, replaced, ended⟩ := PassM.exists_of_bind_ok ended
      rw [replace] at replaced
      split at replaced
      · cases replaced
      · rename_i r₂ edit expanded
        obtain ⟨-, s₄, -, replaced⟩ := PassM.exists_of_bind_ok replaced
        cases replaced
        obtain ⟨tree, parsed, expansions⟩ := expansions_of_expand expanded
        intro e member
        rcases ih ended e member with before | ⟨isSite, found⟩
        · rw [expansions] at before
          rcases List.mem_append.mp before with before | last
          · exact .inl before
          · cases List.mem_singleton.mp last
            exact .inr ⟨.head _, text, parsed⟩
        · exact .inr ⟨.tail _ isSite, found⟩

end Pass

theorem Scan.Found.suits {c : Scan.Context} {tree : Tree} {scan : Scan} (found : Scan.Found c tree scan)
    (labelled : tree.Labelled) (noLambda : tree.kind ≠ .lambdaExpr) {expansions : List Expansion}
    (known : ∀ e ∈ expansions, e.site ∈ scan.sites ∧ e.result.Unlabelled) :
    Plan.Suits ⟨expansions, Removal.Context.of scan.definitions c.lines⟩ tree where
  replaced n inside isSome := by
    obtain ⟨e, isExpansion⟩ := Option.isSome_iff_exists.mp isSome
    have matched := List.find?_some isExpansion
    obtain ⟨call, isNode, isCall, label⟩ :=
      found.site_call (known e (List.mem_of_find?_eq_some isExpansion)).1
    obtain rfl := labelled.eq_of_label isNode inside (label.trans (by simpa using matched))
    refine ⟨isCall, ?_⟩
    by_contra removes
    rw [Bool.not_eq_false] at removes
    obtain ⟨d, member, statement⟩ := List.mem_map.mp ((found.removes_iff labelled noLambda inside).mp removes)
    have role := found.statement_ne_part member
    rw [statement, isCall] at role
    exact role rfl
  unlabelled e member := (known e member).2

namespace Pass

variable {σ τ : Type}

theorem emit_unchanged (tree : Tree) (source : Text) (options : EmitOptions) :
    ∃ sourceMap, emit tree source [] { options with retainLines := true, provenance := false } =
      .ok ⟨source, sourceMap⟩ := by
  have none : Edit.outermost source.lineStarts [] = .ok [] := by
    simp [Edit.outermost, PlacedEdit.sweep, pure, Except.pure, bind, Except.bind]
  have spliced : source.splice [] = .ok source := by
    have whole : source.slice 0 source.length = source := by
      have noSign : ¬ ((source.length : Int) < 0) := by omega
      simp [Text.slice, Text.clip, noSign]
    simp [Text.splice, none, PlacedEdit.write, whole, pure, Except.pure, bind, Except.bind]
  simp only [emit, if_true, none, EmitError.orEdit, Emit.checkLines, spliced, List.map_nil,
    bind, Except.bind, pure, Except.pure, Bool.false_eq_true, if_false]
  exact ⟨_, rfl⟩

theorem kept_of_nothing (lines : List Text) (tree : Tree) :
    Plan.kept ⟨[], Removal.Context.of [] lines⟩ tree = tree := by
  have same : Rewriting.apply [] tree = tree :=
    @Plan.apply_untouched ⟨[], ⟨[], []⟩⟩ _ fun _ _ => rfl
  rw [Plan.kept, same]
  refine (Removal.strip_of_stays fun n _ => ?_).1
  simp [Removal.Context.removes, Removal.Context.name?, Removal.Context.of]

/-- A pass that finishes has a plan, and it emits what the plan makes of the tree. -/
theorem exists_planned {settings : Settings} {execute : Executor σ} {source path : Text}
    {s : PassState σ} {expanded : Expanded}
    (finished : ((expandMacros settings execute source path).outcome s).1 = .ok expanded) :
    ∃ tree scan expansions, scanned settings source path = .ok (tree, scan) ∧
      (∀ e ∈ expansions, e.site ∈ scan.sites ∧ ∃ text, parseExpression text = .ok e.result) ∧
      let plan : Plan := ⟨expansions, Removal.Context.of scan.definitions source.lines⟩
      planned settings execute source path s = some (tree, plan) ∧
        ∃ edits options, emit (plan.kept tree) source edits options = .ok expanded.emitted := by
  obtain ⟨t, finished⟩ : ∃ t, (expandMacros settings execute source path).outcome s = (.ok expanded, t) :=
    ⟨_, Prod.ext finished rfl⟩
  rw [expandMacros] at finished
  unfold planned scanned
  cases parsed : parseModule source (settings.typeCommentsFor path) with
  | error fault =>
    rw [parsed, PassM.outcome_bind_error (PassM.outcome_throw _ s)] at finished
    cases finished
  | ok tree =>
    rw [parsed, PassM.outcome_bind_ok (PassM.outcome_pure tree s)] at finished
    dsimp only at finished ⊢
    rw [PassM.outcome_bind_ok (outcome_report _ _)] at finished
    cases found : (scanTree path settings.directive source.lines tree).2 with
    | error e =>
      rw [found] at finished
      cases finished
    | ok scan =>
      rw [found] at finished
      dsimp only at finished ⊢
      have isFound := found_of_scanTree found
      split at finished
      · rename_i noMacros
        rw [List.isEmpty_iff] at noMacros
        have noSites : scan.sites = [] := by
          rw [isFound.sites]
          exact Scan.CallContext.callsOf_uses_nil (by simp [Scan.outerCalls, noMacros]) _ _
        obtain ⟨-, s₁, -, finished⟩ := PassM.exists_of_bind_ok finished
        obtain ⟨emitted, s₂, emits, finished⟩ := PassM.exists_of_bind_ok finished
        cases finished
        rw [outcome_emitOrFail] at emits
        refine ⟨tree, scan, [], rfl, by simp, by rw [noSites]; rfl, [],
          { emitOptions settings path with retainLines := true, provenance := false }, ?_⟩
        rw [noMacros, kept_of_nothing]
        obtain ⟨sourceMap, unchanged⟩ := emit_unchanged tree source (emitOptions settings path)
        rw [unchanged] at emits ⊢
        cases emits
        rfl
      · obtain ⟨result, -⟩ := expandFile_outcome ⟨settings, execute, source, source.lines, scan⟩ path
          tree { s with log := s.log ++ (scanTree path settings.directive source.lines tree).1 }
        rw [finished] at result
        dsimp only at result
        rcases replaced : (expandSites (⟨settings, execute, source, source.lines, scan⟩ : Context σ)
          (expandMacro ⟨settings, execute, source, source.lines, scan⟩ scan.definitions.length []) {}
          scan.sites).outcome
          { s with log := s.log ++ (scanTree path settings.directive source.lines tree).1 }
          with ⟨e | r, t'⟩
        · rw [replaced] at result
          cases result
        · rw [replaced] at result
          refine ⟨tree, scan, r.expansions, rfl, fun e member => ?_, rfl, ?_⟩
          · exact (expandSites_expansions replaced e member).resolve_left (by simp)
          · change Except.ok expanded = finish _ path tree r at result
            unfold finish at result
            dsimp only at result
            split at result
            · rename_i emitted emits
              cases result
              exact ⟨_, _, emits⟩
            · cases result

end Pass

/-- What a pass has made has no macros: a scan of the emitted code registers none and does not fail,
and a second pass runs nothing and leaves the code as it is.  The code has to read as the tree of the
pass, up to added `pass` statements, and the pass must not put the directive at the front of a function
or a lambda itself. -/
theorem emitted_code_without_macros {σ τ : Type} {settings : Settings} {execute : Executor σ}
    {source path path' : Text} {s : PassState σ} {expanded : Expanded} {again : Tree}
    (finished : ((expandMacros settings execute source path).outcome s).1 = .ok expanded)
    (parsed : parseModule expanded.emitted.code (settings.typeCommentsFor path') = .ok again) :
    ∃ tree plan, Pass.planned settings execute source path s = some (tree, plan) ∧
      (∃ edits options, emit (plan.kept tree) source edits options = .ok expanded.emitted) ∧
      ((plan.kept tree).padded again = true →
        ¬ plan.Reveals ⟨path, settings.directive, source.lines⟩ tree →
        (∀ lines, (scanTree path' settings.directive lines again).2 = .ok {}) ∧
        ∀ (execute' : Executor τ) (s' : PassState τ), ∃ sourceMap t',
          (expandMacros settings execute' expanded.emitted.code path').outcome s' =
            (.ok ⟨⟨expanded.emitted.code, sourceMap⟩, []⟩, t') ∧ t'.trail = s'.trail) := by
  obtain ⟨tree, scan, expansions, scanned, known, planned, emits⟩ := Pass.exists_planned finished
  refine ⟨tree, _, planned, emits, fun reads reveals => ?_⟩
  unfold Pass.scanned at scanned
  split at scanned
  · cases scanned
  rename_i tree' parsedTree
  split at scanned
  · cases scanned
  rename_i scan' scannedTree
  cases scanned
  obtain ⟨ignores, isModule⟩ := module_of_parseModule parsedTree
  have labelled := labelled_of_parseModule parsedTree
  have noLambda : tree.kind ≠ .lambdaExpr := by simp [isModule]
  have found := found_of_scanTree scannedTree
  have suits := found.suits labelled noLambda fun e member =>
    ⟨(known e member).1, unlabelled_of_parseExpression (known e member).2.choose_spec⟩
  have removed : ∀ d ∈ scan.definitions,
      (Removal.Context.of scan.definitions source.lines).removes d.statement = true := fun d member =>
    (found.removes_iff labelled noLambda (found.statement_mem noLambda member)).mpr
      (List.mem_map.mpr ⟨d, member, rfl⟩)
  have stays : (Removal.Context.of scan.definitions source.lines).removes tree = false := by
    by_contra removes
    rw [Bool.not_eq_false] at removes
    obtain ⟨d, member, same⟩ := List.mem_map.mp
      ((found.removes_iff labelled noLambda (Tree.mem_nodes_self tree)).mp removes)
    obtain ⟨p, n, -, defines⟩ := found.defined d member
    have role := defines.statement_role
    rw [same, isModule] at role
    cases role
  have rescanned : ∀ lines, (scanTree path' settings.directive lines again).2 = .ok {} := fun lines =>
    Scan.scanTree_of_methods (c := ⟨path', settings.directive, lines⟩)
      (Scan.methods_of_kept scannedTree removed (by rfl) suits reveals .root stays rfl id reads)
  refine ⟨rescanned, fun execute' s' => ?_⟩
  have second := Pass.expandMacros_expands settings execute' expanded.emitted.code path' s'
  have scannedAgain : Pass.scanned settings expanded.emitted.code path' = .ok (again, {}) := by
    rw [Pass.scanned, parsed]
    dsimp only
    rw [rescanned]
  rw [scannedAgain] at second
  rcases second with ⟨-, result, trail⟩ | ⟨macros, -⟩
  · obtain ⟨sourceMap, unchanged⟩ := Pass.emit_unchanged again expanded.emitted.code
      (Pass.emitOptions settings path')
    rw [Pass.unchanged, unchanged] at result
    exact ⟨sourceMap, _, Prod.ext result rfl, trail⟩
  · exact absurd rfl macros

/-- A macro in a function, beside a method that opens with the directive. -/
def localMacro : Text := chars ("class K:\n    def m(self):\n        'use macro'\n        return 2\n" ++
  "def f():\n    n = lambda: ('use macro', 1)\n    return n()\n")

theorem localMacro_gone :
    let settings : Settings := { retainLines := false }
    let execute : Executor Unit := fun _ world => ⟨.ok ['1'], [], world⟩
    ∃ expanded again, ((expandMacros settings execute localMacro (chars "m.py")).outcome { world := () }).1 =
        .ok expanded ∧
      parseModule expanded.emitted.code (settings.typeCommentsFor (chars "m.py")) = .ok again ∧
      ∀ lines, (scanTree (chars "m.py") (chars "use macro") lines again).2 = .ok {} := by
  intro settings execute
  obtain ⟨expanded, finished, again, parsed, reads⟩ : ∃ expanded,
      ((expandMacros settings execute localMacro (chars "m.py")).outcome { world := () }).1 = .ok expanded ∧
      ∃ again, parseModule expanded.emitted.code (settings.typeCommentsFor (chars "m.py")) = .ok again ∧
        ∀ p ∈ Pass.planned settings execute localMacro (chars "m.py") { world := () },
          (p.2.kept p.1).padded again = true ∧
            ¬ p.2.Reveals ⟨chars "m.py", chars "use macro", localMacro.lines⟩ p.1 := by
    rw [show localMacro = _ from chars_append _ _]
    decide +kernel
  obtain ⟨tree, plan, planned, -, rescanned⟩ := emitted_code_without_macros (τ := Unit) finished parsed
  obtain ⟨isPadded, hidden⟩ := reads (tree, plan) (Option.mem_def.mpr planned)
  exact ⟨expanded, again, finished, parsed, (rescanned isPadded hidden).1⟩

/-- A function whose second statement is the directive, behind a macro. -/
def coveredDirective : Text :=
  chars "def f():\n    def m():\n        'use macro'\n        return 1\n    'use macro'\n    return 2\n"

/-- With the macro gone the directive comes first, and the function is a macro in the emitted code. -/
theorem coveredDirective_revealed :
    let execute : Executor Unit := fun _ world => ⟨.ok ['1'], [], world⟩
    ∃ expanded, ((expandMacros {} execute coveredDirective (chars "m.py")).outcome { world := () }).1 =
        .ok expanded ∧
      ∃ again, parseModule expanded.emitted.code = .ok again ∧
        ∃ scan, (scanTree (chars "m.py") (chars "use macro") expanded.emitted.code.lines again).2 = .ok scan ∧
          scan.definitions.map Definition.name = ["f"] := by
  intro execute
  rw [show coveredDirective = _ from chars_ofList _]
  decide +kernel

end MacroExpand
