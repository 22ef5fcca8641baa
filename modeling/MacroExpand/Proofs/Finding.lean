import MacroExpand.Macro.Scan
import MacroExpand.Proofs.Nodes
import Mathlib.Data.List.Flatten
import Mathlib.Data.List.Perm.Subperm

/-!
# What a scan finds

The calls that a scan records are call nodes of the tree that name a macro, each is recorded once,
and none stands in a tree that the scan passes over.  Every definition comes from a node that the
scan reaches: a function that opens with the directive, or a lambda that a statement binds to a name.
`Found` says all that later theories need to know of a scan.
-/

set_option autoImplicit false

namespace MacroExpand

open Relation

namespace Scan

/-! ## Calls -/

def Use.label : Use → Nat
  | .call site => site.label
  | .reference t => t.mark.label

namespace CallContext

variable {c : CallContext}

def Skips (c : CallContext) (t : Tree) : Prop := t.mark.label ≠ 0 ∧ c.skipped.contains t.mark.label

instance (c : CallContext) (t : Tree) : Decidable (c.Skips t) :=
  inferInstanceAs (Decidable (t.mark.label ≠ 0 ∧ c.skipped.contains t.mark.label))

def entered (c : CallContext) (t : Tree) : List Tree :=
  if c.Skips t then []
  else match c.callee? t with
    | some _ => (t.slots.drop 1).flatten
    | none =>
      match t.kind with
      | .name _ .load => []
      | _ => t.children

def own (c : CallContext) (free : Bool) (t : Tree) : List Use :=
  if c.Skips t then []
  else match c.callee? t with
    | some name => [.call (c.site name free t)]
    | none =>
      match t.kind with
      | .name id .load => if c.names.contains id then [.reference t] else []
      | _ => []

theorem entered_sublist (c : CallContext) (t : Tree) : (c.entered t).Sublist t.children := by
  unfold entered
  split
  · exact List.nil_sublist _
  · split
    · rw [← List.flatMap_id, Tree.children, ← List.flatMap_id]
      exact (List.drop_sublist 1 t.slots).flatMap id
    · split
      · exact List.nil_sublist _
      · exact .refl _

theorem own_of_callee {free : Bool} {t : Tree} {name : String} (kept : ¬ c.Skips t)
    (callee : c.callee? t = some name) : c.own free t = [.call (c.site name free t)] := by
  rw [own, if_neg kept, callee]

theorem own_of_unread {free : Bool} {t : Tree} (plain : c.callee? t = none)
    (unread : ∀ id, t.kind ≠ .name id .load) : c.own free t = [] := by
  rw [own, plain]
  dsimp only
  split
  · rfl
  · split
    · exact absurd ‹_› (unread _)
    · rfl

theorem usesAll_eq (free : Bool) (ts : List Tree) :
    c.usesAll free ts = ts.flatMap (c.uses free) := by
  induction ts with
  | nil => rfl
  | cons t rest ih => simp [usesAll, ih]

theorem usesSlots_eq (kind : Kind) (k : Nat) (slots : List (List Tree)) :
    ∃ parts : List (List (Bool × Tree)), parts.map (List.map Prod.snd) = slots ∧
      c.usesSlots kind k slots = parts.map fun slot => slot.flatMap fun part => c.uses part.1 part.2 := by
  induction slots generalizing k with
  | nil => exact ⟨[], rfl, rfl⟩
  | cons slot rest ih =>
    obtain ⟨parts, same, uses⟩ := ih (k + 1)
    refine ⟨slot.map (fun t => (isFree kind k, t)) :: parts, ?_, ?_⟩
    · simp [same, Function.comp_def]
    · rw [usesSlots, uses, usesAll_eq, List.map_cons, List.flatMap_map]

theorem uses_eq (free : Bool) (t : Tree) :
    ∃ parts : List (Bool × Tree), parts.map Prod.snd = c.entered t ∧
      c.uses free t = (parts.flatMap fun part => c.uses part.1 part.2) ++ c.own free t := by
  cases t with
  | node m kind slots =>
    obtain ⟨parts, same, inner⟩ := c.usesSlots_eq kind 0 slots
    have joined : ∀ parts : List (List (Bool × Tree)),
        (parts.map fun slot => slot.flatMap fun part => c.uses part.1 part.2).flatten =
          parts.flatten.flatMap fun part => c.uses part.1 part.2 := by
      intro parts
      rw [List.flatMap_def, List.map_flatten, List.flatten_flatten, List.map_map]
      rfl
    rw [uses, entered, inner]
    dsimp only [Tree.slots, Tree.kind, Tree.children]
    by_cases skips : c.Skips (.node m kind slots)
    · exact ⟨[], by rw [if_pos skips]; rfl, by rw [own, if_pos skips]; exact if_pos skips⟩
    · rw [if_neg skips, if_neg (show ¬ (m.label ≠ 0 ∧ c.skipped.contains m.label = true) from skips)]
      cases callee : c.callee? (.node m kind slots) with
      | some name =>
        refine ⟨(parts.drop 1).flatten, ?_, ?_⟩
        · rw [List.map_flatten, List.map_drop, same]
        · rw [own_of_callee skips callee, ← joined, List.map_drop]
      | none =>
        by_cases read : ∃ id, kind = .name id .load
        · obtain ⟨id, rfl⟩ := read
          exact ⟨[], rfl, by rw [own, if_neg skips, callee]; rfl⟩
        · refine ⟨parts.flatten, ?_, ?_⟩
          · rw [List.map_flatten, same]
            dsimp only
            split
            · exact absurd ⟨_, rfl⟩ read
            · rfl
          · rw [own_of_unread callee fun id named => read ⟨id, named⟩, List.append_nil, ← joined]
            dsimp only
            split
            · exact absurd ⟨_, rfl⟩ read
            · rfl

def Enters (c : CallContext) (p u : Tree) : Prop := u ∈ c.entered p

theorem child_of_enters (p u : Tree) (enters : c.Enters p u) : u ∈ p.children :=
  (c.entered_sublist p).subset enters

theorem exists_own {use : Use} {free : Bool} {t : Tree} (found : use ∈ c.uses free t) :
    ∃ n free', ReflTransGen c.Enters t n ∧ use ∈ c.own free' n := by
  induction t using Tree.inductionOn generalizing free with
  | node m kind slots ih =>
    obtain ⟨parts, same, uses⟩ := c.uses_eq free (.node m kind slots)
    rw [uses] at found
    rcases List.mem_append.mp found with inner | self
    · obtain ⟨part, member, inside⟩ := List.mem_flatMap.mp inner
      have enters : c.Enters (.node m kind slots) part.2 := by
        rw [Enters, ← same]
        exact List.mem_map_of_mem member
      obtain ⟨slot, isSlot, inSlot⟩ := Tree.mem_children.mp (child_of_enters _ _ enters)
      obtain ⟨n, free', way, here⟩ := ih slot isSlot part.2 inSlot inside
      exact ⟨n, free', .head enters way, here⟩
    · exact ⟨_, free, .refl, self⟩

theorem own_recorded {t n : Tree} (way : ReflTransGen c.Enters t n) (free : Bool) :
    ∃ free', ∀ use ∈ c.own free' n, use ∈ c.uses free t := by
  induction way using ReflTransGen.head_induction_on generalizing free with
  | refl =>
    obtain ⟨parts, -, uses⟩ := c.uses_eq free n
    exact ⟨free, fun use here => uses ▸ List.mem_append_right _ here⟩
  | @head t u first _ ih =>
    obtain ⟨parts, same, uses⟩ := c.uses_eq free t
    rw [Enters, ← same] at first
    obtain ⟨part, member, rfl⟩ := List.mem_map.mp first
    obtain ⟨free', recorded⟩ := ih part.1
    exact ⟨free', fun use here => uses ▸
      List.mem_append_left _ (List.mem_flatMap.mpr ⟨part, member, recorded use here⟩)⟩

/-- A node is used as a call of a macro or as the name of one. -/
theorem own_cases {use : Use} {free : Bool} {t : Tree} (found : use ∈ c.own free t) :
    ¬ c.Skips t ∧ ((∃ name, c.callee? t = some name ∧ use = .call (c.site name free t)) ∨
      ∃ id ∈ c.names, t.kind = .name id .load ∧ use = .reference t) := by
  unfold own at found
  split at found
  · cases found
  · rename_i entered
    refine ⟨entered, ?_⟩
    split at found
    · rename_i name isCallee
      exact .inl ⟨name, isCallee, List.mem_singleton.mp found⟩
    · split at found
      · rename_i id isName
        split at found
        · rename_i known
          exact .inr ⟨id, List.contains_iff_mem.mp known, isName, List.mem_singleton.mp found⟩
        · cases found
      · cases found

theorem mem_callsOf {site : CallSite} {uses : List Use} :
    site ∈ callsOf uses ↔ .call site ∈ uses := by
  simp only [callsOf, List.mem_filterMap]
  constructor
  · rintro ⟨use, member, isCall⟩
    cases use with
    | call found => cases isCall; exact member
    | reference t => cases isCall
  · exact fun member => ⟨_, member, rfl⟩

theorem exists_call {site : CallSite} {free : Bool} {t : Tree}
    (found : .call site ∈ c.uses free t) :
    ∃ call ∈ t.nodes, ∃ name free', c.callee? call = some name ∧ site = c.site name free' call := by
  obtain ⟨call, free', way, here⟩ := exists_own found
  obtain ⟨-, ⟨name, isCallee, same⟩ | ⟨_, -, -, same⟩⟩ := own_cases here
  · cases same
    exact ⟨call, Tree.mem_nodes_of_way child_of_enters way, name, free', isCallee, rfl⟩
  · cases same

/-- The search comes to no node in a tree that is passed over, except to the tree itself. -/
theorem eq_of_way_in_skipped {t n s : Tree} (labelled : t.Labelled) (way : ReflTransGen c.Enters t n)
    (member : s ∈ t.nodes) (skips : c.Skips s) (inside : n ∈ s.nodes) : n = s := by
  obtain ⟨-, below⟩ := labelled.way_around child_of_enters way member inside
  rcases below.cases_head with same | ⟨u, enters, -⟩
  · exact same.symm
  · rw [Enters, entered, if_pos skips] at enters
    cases enters

theorem not_in_skipped {site : CallSite} {free : Bool} {t s : Tree} (labelled : t.Labelled)
    (found : .call site ∈ c.uses free t) (member : s ∈ t.nodes)
    (skipped : s.mark.label ∈ c.skipped) : site.label ∉ s.labels := by
  intro again
  have skips : c.Skips s := ⟨labelled.ne_zero member, List.contains_iff_mem.mpr skipped⟩
  obtain ⟨call, free', way, here⟩ := exists_own found
  obtain ⟨entered, ⟨name, -, same⟩ | ⟨_, -, -, same⟩⟩ := own_cases here
  · cases same
    obtain ⟨n, inside, label⟩ := List.mem_map.mp again
    obtain rfl := labelled.eq_of_label (Tree.mem_nodes_trans member inside)
      (Tree.mem_nodes_of_way child_of_enters way) label
    exact entered (eq_of_way_in_skipped labelled way member skips inside ▸ skips)
  · cases same

/-! ### Labels of uses -/

def callLabels (uses : List Use) : List Nat := (callsOf uses).map CallSite.label

theorem callLabels_sublist (uses : List Use) : (callLabels uses).Sublist (uses.map Use.label) := by
  induction uses with
  | nil => exact .refl _
  | cons use rest ih =>
    cases use with
    | call site => exact ih.cons_cons _
    | reference t => exact ih.cons _

theorem own_labels_sublist (free : Bool) (t : Tree) : ((c.own free t).map Use.label).Sublist [t.mark.label] := by
  unfold own
  split
  · exact List.nil_sublist _
  · split
    · exact .refl _
    · split
      · split
        · exact .refl _
        · exact List.nil_sublist _
      · exact List.nil_sublist _

theorem useLabels_subperm (free : Bool) (t : Tree) : ((c.uses free t).map Use.label).Subperm t.labels := by
  induction t using Tree.inductionOn generalizing free with
  | node m kind slots ih =>
    obtain ⟨parts, same, uses⟩ := c.uses_eq free (.node m kind slots)
    have inner : ∀ parts : List (Bool × Tree), (∀ part ∈ parts, part.2 ∈ (Tree.node m kind slots).children) →
        ((parts.flatMap fun part => c.uses part.1 part.2).map Use.label).Subperm
          ((parts.map Prod.snd).flatMap Tree.labels) := by
      intro parts each
      induction parts with
      | nil => exact .refl _
      | cons part rest hyp =>
        rw [List.flatMap_cons, List.map_append, List.map_cons, List.flatMap_cons]
        obtain ⟨slot, isSlot, inSlot⟩ := Tree.mem_children.mp (each part (.head _))
        exact (ih slot isSlot part.2 inSlot part.1).append (hyp fun part member => each part (.tail _ member))
    have entered := c.entered_sublist (.node m kind slots)
    have below := inner parts fun part member => entered.subset (same ▸ List.mem_map_of_mem member)
    rw [same] at below
    rw [uses, List.map_append, Tree.labels_eq]
    refine (List.perm_append_comm.subperm.trans ?_)
    exact (own_labels_sublist free _).subperm.append (below.trans (entered.flatMap Tree.labels).subperm)

theorem callLabels_subperm (free : Bool) (t : Tree) :
    (callLabels (c.uses free t)).Subperm t.labels :=
  (callLabels_sublist _).subperm.trans (c.useLabels_subperm free t)

theorem callLabels_nodup {free : Bool} {t : Tree} (labelled : t.Labelled) :
    (callLabels (c.uses free t)).Nodup := by
  obtain ⟨l, perm, sub⟩ := c.callLabels_subperm free t
  exact perm.nodup_iff.mp (labelled.distinct.sublist sub)

end CallContext

/-! ## Definitions -/

theorem mem_children_of_slot {t u : Tree} {k : Nat} (member : u ∈ t.slot k) : u ∈ t.children := by
  rw [Tree.slot, List.getD_eq_getElem?_getD] at member
  cases found : t.slots[k]? with
  | none => simp [found] at member
  | some slot =>
    rw [found] at member
    exact List.mem_flatten.mpr ⟨slot, List.mem_of_getElem? found, member⟩

theorem part_cases (t : Tree) (k : Nat) : t.part k ∈ t.children ∨ t.part k = Tree.absent := by
  unfold Tree.part Tree.part?
  cases first : (t.slot k).head? with
  | none => exact .inr rfl
  | some u => exact .inl (mem_children_of_slot (List.mem_of_mem_head? first))

/-- The nodes that the search for definitions looks at from a node on, each with its parent. -/
inductive Reached (c : Context) (parent root : Tree) : Tree → Tree → Prop where
  | root : Reached c parent root parent root
  | child {p t u : Tree} (reached : Reached c parent root p t) (enters : (c.recognise p t).2 = true)
      (below : u ∈ t.children) : Reached c parent root t u

theorem Reached.trans {c : Context} {parent root p t q u : Tree} (first : Reached c parent root p t)
    (second : Reached c p t q u) : Reached c parent root q u := by
  induction second with
  | root => exact first
  | child _ enters below ih => exact ih.child enters below

/-- A node that is looked at is the first one, or it stands below a node that is looked at. -/
theorem Reached.cases_parent {c : Context} {parent root p t : Tree}
    (reached : Reached c parent root p t) :
    (p = parent ∧ t = root) ∨ (p ∈ root.nodes ∧ t ∈ p.children) := by
  induction reached with
  | root => exact .inl ⟨rfl, rfl⟩
  | @child p t u reached enters below ih =>
    rcases ih with ⟨-, rfl⟩ | ⟨inside, isChild⟩
    · exact .inr ⟨Tree.mem_nodes_self _, below⟩
    · exact .inr ⟨Tree.mem_nodes_trans inside
        (Tree.mem_nodes_of_child isChild (Tree.mem_nodes_self t)), below⟩

theorem Reached.mem_nodes {c : Context} {parent root p t : Tree}
    (reached : Reached c parent root p t) : t ∈ root.nodes := by
  rcases reached.cases_parent with ⟨-, rfl⟩ | ⟨inside, isChild⟩
  · exact Tree.mem_nodes_self _
  · exact Tree.mem_nodes_trans inside (Tree.mem_nodes_of_child isChild (Tree.mem_nodes_self t))

theorem Reached.parent_unique {c : Context} {parent root p q t : Tree} (labelled : root.Labelled)
    (first : Reached c parent root p t) (second : Reached c parent root q t) : p = q := by
  rcases first.cases_parent with ⟨isFirst, top⟩ | ⟨inside, isChild⟩ <;>
    rcases second.cases_parent with ⟨isFirst', top'⟩ | ⟨inside', isChild'⟩
  · rw [isFirst, isFirst']
  · exact absurd (top ▸ isChild') (labelled.not_below inside')
  · exact absurd (top' ▸ isChild) (labelled.not_below inside)
  · exact labelled.parent_unique inside inside' isChild isChild'

theorem Context.candidatesAll_eq (c : Context) (parent : Tree) (ts : List Tree) :
    c.candidatesAll parent ts = ts.flatMap (c.candidates parent) := by
  induction ts with
  | nil => rfl
  | cons t rest ih => simp [candidatesAll, ih]

theorem Context.candidatesSlots_eq (c : Context) (parent : Tree) (slots : List (List Tree)) :
    c.candidatesSlots parent slots = slots.flatten.flatMap (c.candidates parent) := by
  induction slots with
  | nil => rfl
  | cons slot rest ih => simp [candidatesSlots, candidatesAll_eq, ih]

variable {c : Context}

theorem candidates_eq (p t : Tree) : c.candidates p t = (c.recognise p t).1 ++
    if (c.recognise p t).2 then t.children.flatMap (c.candidates t) else [] := by
  cases t with
  | node m kind slots =>
    rw [Context.candidates]
    dsimp only
    split
    · rw [Context.candidatesSlots_eq]
      rfl
    · rw [List.append_nil]

theorem candidates_child {p t u : Tree} (enters : (c.recognise p t).2 = true) (isChild : u ∈ t.children) :
    c.candidates t u ⊆ c.candidates p t := by
  intro candidate found
  rw [candidates_eq p t, if_pos enters]
  exact List.mem_append_right _ (List.mem_flatMap.mpr ⟨u, isChild, found⟩)

theorem recognise_subset {p t : Tree} : (c.recognise p t).1 ⊆ c.candidates p t := by
  rw [candidates_eq p t]
  exact List.subset_append_left _ _

theorem Reached.candidates_subset {parent root p t : Tree} (reached : Reached c parent root p t) :
    c.candidates p t ⊆ c.candidates parent root := by
  induction reached with
  | root => exact fun _ found => found
  | child _ enters isChild ih => exact fun _ found => ih (candidates_child enters isChild found)

theorem Context.exists_recognised {parent t : Tree} {candidate : Candidate}
    (found : candidate ∈ c.candidates parent t) :
    ∃ p u, Reached c parent t p u ∧ candidate ∈ (c.recognise p u).1 := by
  induction t using Tree.inductionOn generalizing parent with
  | node m kind slots ih =>
    rw [candidates] at found
    dsimp only at found
    split at found
    · rename_i enters
      rcases List.mem_append.mp found with here | below
      · exact ⟨parent, _, .root, here⟩
      · rw [candidatesSlots_eq] at below
        obtain ⟨u, isChild, inside⟩ := List.mem_flatMap.mp below
        obtain ⟨slot, isSlot, inSlot⟩ := List.mem_flatten.mp isChild
        obtain ⟨q, v, reached, here⟩ := ih slot isSlot u inSlot inside
        exact ⟨q, v, (Reached.root.child enters isChild).trans reached, here⟩
    · exact ⟨parent, _, .root, found⟩

/-- A node below a parent makes a definition. -/
inductive Defines (c : Context) (parent t : Tree) (d : Definition) : Prop where
  | function {isAsync : Bool} {comment : Option Text}
      (isFunction : t.kind = .functionDef d.name isAsync comment) (opens : c.opens (t.slot 1) = true)
      (noMethod : ∀ name, parent.kind ≠ .classDef name) (statement : d.statement = t)
      (tree : d.tree = runnable t)
  | lambda (isLambda : t.kind = .lambdaExpr) (opens : c.opensLambda t = true)
      (bound : binding? parent t = some d.name) (statement : d.statement = parent)
      (tree : d.tree = ofLambda d.name t)

theorem Context.define_definition {c : Context} {name : String} {tree statement : Tree} {typed : Bool}
    {d : Definition} (made : .definition d ∈ [c.define name tree statement typed]) :
    d.name = name ∧ d.tree = tree ∧ d.statement = statement := by
  have same := List.mem_singleton.mp made
  unfold define at same
  split at same
  · cases same
  · cases same
    exact ⟨rfl, rfl, rfl⟩

/-- A definition is recognised at a node that makes it, and the search does not go on below. -/
theorem Context.defines_of_recognise {parent t : Tree} {d : Definition}
    (found : .definition d ∈ (c.recognise parent t).1) :
    Defines c parent t d ∧ (c.recognise parent t).2 = false := by
  unfold recognise at found ⊢
  split
  · rename_i name isAsync comment isFunction
    simp only [isFunction] at found
    split
    · rename_i closed
      simp [closed] at found
    · rename_i opens
      simp only [opens, Bool.false_eq_true, if_false] at found
      split
      · rename_i owner isClass
        simp [isClass] at found
      · rename_i noClass
        split at found
        · simp at found
        · obtain ⟨rfl, tree, statement⟩ := define_definition found
          exact ⟨.function isFunction (by simpa using opens) noClass statement tree, rfl⟩
  · rename_i isLambda
    simp only [isLambda] at found
    split
    · rename_i closed
      simp [closed] at found
    · rename_i opens
      simp only [opens, Bool.false_eq_true, if_false] at found
      split
      · rename_i unbound
        simp [unbound] at found
      · rename_i name bound
        simp only [bound] at found
        obtain ⟨rfl, tree, statement⟩ := define_definition found
        exact ⟨.lambda isLambda (by simpa using opens) bound statement tree, rfl⟩
  · rename_i noFunction noLambda
    split at found
    · rename_i isFunction
      exact absurd isFunction (noFunction _ _ _)
    · rename_i isLambda
      exact absurd isLambda noLambda
    · cases found

def Candidate.definition? : Candidate → Option Definition
  | .definition d => some d
  | _ => none

theorem Candidate.mem_definitions {candidates : List Candidate} {d : Definition} :
    d ∈ candidates.filterMap Candidate.definition? ↔ .definition d ∈ candidates := by
  simp only [List.mem_filterMap]
  constructor
  · rintro ⟨candidate, member, isDefinition⟩
    cases candidate <;> cases isDefinition
    exact member
  · exact fun member => ⟨_, member, rfl⟩

/-- A registered candidate adds its definition, whose name is new. -/
theorem Context.register_ok {c : Context} {r r' : Registered} {candidate : Candidate}
    (registered : c.register r candidate = (r', none)) :
    r'.definitions = r.definitions ++ candidate.definition?.toList ∧
      ∀ d, candidate.definition? = some d → d.name ∉ r.definitions.map Definition.name := by
  cases candidate with
  | definition d =>
    simp only [register] at registered
    split at registered
    · cases registered
    · rename_i isNew
      cases registered
      refine ⟨rfl, fun d' same => ?_⟩
      cases same
      intro known
      obtain ⟨e, member, sameName⟩ := List.mem_map.mp known
      have differs := List.find?_eq_none.mp isNew e member
      exact differs (by simp [sameName])
  | method name line =>
    cases registered
    exact ⟨(List.append_nil _).symm, fun d same => by cases same⟩
  | unnamed line column => cases registered
  | unprintable e => cases registered

theorem Context.registerAll_ok {c : Context} {candidates : List Candidate} {r r' : Registered}
    (registered : c.registerAll r candidates = (r', none))
    (distinct : (r.definitions.map Definition.name).Nodup) :
    r'.definitions = r.definitions ++ candidates.filterMap Candidate.definition? ∧
      (r'.definitions.map Definition.name).Nodup := by
  induction candidates generalizing r with
  | nil =>
    cases registered
    exact ⟨(List.append_nil _).symm, distinct⟩
  | cons candidate rest ih =>
    rw [registerAll] at registered
    split at registered
    · rename_i r₁ first
      obtain ⟨added, isNew⟩ := register_ok first
      have distinct₁ : (r₁.definitions.map Definition.name).Nodup := by
        rw [added]
        cases isDefinition : candidate.definition? with
        | none => simpa using distinct
        | some d =>
          have fresh := isNew d isDefinition
          rw [Option.toList_some, List.map_append, List.map_singleton]
          exact distinct.append (List.nodup_singleton _) (List.disjoint_singleton.mpr fresh)
      obtain ⟨all, distinct'⟩ := ih registered distinct₁
      refine ⟨?_, distinct'⟩
      rw [all, added, List.append_assoc]
      cases isDefinition : candidate.definition? with
      | none => simp [isDefinition]
      | some d => simp [isDefinition]
    · rename_i failed
      exact absurd registered (failed r')

theorem Context.registerAll_kinds {candidates : List Candidate} {r r' : Registered}
    (registered : c.registerAll r candidates = (r', none)) :
    ∀ candidate ∈ candidates, (∃ name line, candidate = .method name line) ∨
      ∃ d, candidate = .definition d := by
  induction candidates generalizing r with
  | nil => simp
  | cons candidate rest ih =>
    rw [registerAll] at registered
    split at registered
    · rename_i r₁ first
      refine List.forall_mem_cons.mpr ⟨?_, ih registered⟩
      cases candidate with
      | definition d => exact .inr ⟨d, rfl⟩
      | method name line => exact .inl ⟨name, line, rfl⟩
      | unnamed line column => cases first
      | unprintable e => cases first
    · rename_i failed
      exact absurd registered (failed r')

end Scan

/-! ## Whole scans -/

def Scan.outerCalls (scan : Scan) (lines : List Text) : Scan.CallContext :=
  ⟨scan.definitions.map Definition.name, scan.definitions.map fun d => d.statement.mark.label, lines⟩

def Scan.innerCalls (scan : Scan) (lines : List Text) : Scan.CallContext :=
  ⟨scan.definitions.map Definition.name, [], lines⟩

structure Scan.Found (c : Scan.Context) (tree : Tree) (scan : Scan) : Prop where
  /-- Macros have different names. -/
  distinct : (scan.definitions.map Definition.name).Nodup
  /-- Each comes from a node that the scan looks at. -/
  defined : ∀ d ∈ scan.definitions,
    ∃ p t, Scan.Reached c Tree.absent tree p t ∧ Scan.Defines c p t d
  /-- The calls in a macro are those in its tree. -/
  calls : ∀ d ∈ scan.definitions,
    d.calls = Scan.callsOf ((scan.innerCalls c.lines).uses false d.tree)
  /-- The calls outside macros are those that stand in no removed statement. -/
  sites : scan.sites = Scan.callsOf ((scan.outerCalls c.lines).uses false tree)

namespace Scan

theorem Defines.withCalls {c : Context} {p t : Tree} {d : Definition} (defines : Defines c p t d)
    (calls : List CallSite) : Defines c p t { d with calls } := by
  cases defines with
  | function isFunction opens noMethod statement tree =>
    exact .function isFunction opens noMethod statement tree
  | lambda isLambda opens bound statement tree => exact .lambda isLambda opens bound statement tree

theorem CallContext.callsOf_uses_nil {c : CallContext} (none : c.names = []) (free : Bool) (t : Tree) :
    callsOf (c.uses free t) = [] := by
  refine List.eq_nil_iff_forall_not_mem.mpr fun site member => ?_
  obtain ⟨call, -, name, -, isCallee, -⟩ := exists_call (mem_callsOf.mp member)
  unfold callee? at isCallee
  split at isCallee
  · simp [none] at isCallee
  · cases isCallee

end Scan

theorem recognised_of_scanTree {path directive : Text} {lines : List Text} {tree : Tree} {scan : Scan}
    (scanned : (scanTree path directive lines tree).2 = .ok scan) : ∀ d ∈ scan.definitions, ∃ p t e calls,
      Scan.Reached ⟨path, directive, lines⟩ Tree.absent tree p t ∧
      .definition e ∈ (Scan.Context.recognise ⟨path, directive, lines⟩ p t).1 ∧ d = { e with calls } := by
  unfold scanTree at scanned
  dsimp only at scanned
  split at scanned
  · cases scanned
  rename_i r registered
  have all := (Scan.Context.registerAll_ok registered List.nodup_nil).1
  split at scanned
  · cases scanned
    exact List.forall_mem_nil _
  · cases scanned
    intro d member
    obtain ⟨e, isDefinition, rfl⟩ := List.mem_map.mp member
    rw [all, List.nil_append] at isDefinition
    obtain ⟨p, t, reached, here⟩ := Scan.Context.exists_recognised (Scan.Candidate.mem_definitions.mp isDefinition)
    exact ⟨p, t, e, _, reached, here, rfl⟩

theorem found_of_scanTree {path directive : Text} {lines : List Text} {tree : Tree} {scan : Scan}
    (scanned : (scanTree path directive lines tree).2 = .ok scan) :
    Scan.Found ⟨path, directive, lines⟩ tree scan := by
  have defined : ∀ d ∈ scan.definitions, ∃ p t, Scan.Reached ⟨path, directive, lines⟩ Tree.absent tree p t ∧
      Scan.Defines ⟨path, directive, lines⟩ p t d := by
    intro d member
    obtain ⟨p, t, e, calls, reached, here, rfl⟩ := recognised_of_scanTree scanned d member
    exact ⟨p, t, reached, (Scan.Context.defines_of_recognise here).1.withCalls calls⟩
  unfold scanTree at scanned
  dsimp only at scanned
  split at scanned
  · cases scanned
  · rename_i r registered
    have distinct := (Scan.Context.registerAll_ok registered List.nodup_nil).2
    split at scanned
    · cases scanned
      exact ⟨List.nodup_nil, by simp, by simp, (Scan.CallContext.callsOf_uses_nil rfl _ _).symm⟩
    · cases scanned
      have names : ∀ calls : Definition → List CallSite,
          (r.definitions.map fun d => { d with calls := calls d }).map Definition.name =
            r.definitions.map Definition.name := by
        simp [Function.comp_def]
      refine ⟨(names _).symm ▸ distinct, defined, ?_, ?_⟩
      · intro d member
        obtain ⟨e, isDefinition, rfl⟩ := List.mem_map.mp member
        simp only [Scan.innerCalls, Scan.Context.findCalls, names]
      · simp only [Scan.outerCalls, Scan.Context.findCalls, List.map_map, Function.comp_def]

/-! ## Computations that succeed -/

/-- Whether a computation succeeds with a result that has a property can be found by running it. -/
instance decidableExistsOk {ε α : Type} (x : Except ε α) (p : α → Prop) [DecidablePred p] :
    Decidable (∃ a, x = .ok a ∧ p a) :=
  match x with
  | .ok a => decidable_of_iff (p a) (by simp)
  | .error _ => isFalse (by simp)

end MacroExpand
