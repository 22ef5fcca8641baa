import MacroExpand.Macro.Removal
import MacroExpand.Macro.Rewriting
import MacroExpand.Proofs.Nodes
import Mathlib.Data.List.Perm.Subperm

/-!
# Expanding and removing in one walk

Replacing calls from the inside out and then removing statements is the same as one walk from the
top: an outermost call becomes its result, the statements are dropped, a block that loses all its
statements gets a `pass`, and everything else stays where it is.  Each dropped statement is edited in
the text once.
-/

set_option autoImplicit false

namespace MacroExpand

open Relation

/-! ## Statements stand in blocks -/

inductive Role where
  | file
  | statement
  | handler
  | matchCase
  /-- A part of a statement. -/
  | part
  deriving DecidableEq, Repr

def Kind.role : Kind → Role
  | .module _ => .file
  | .functionDef .. | .classDef _ | .returnStmt | .delete | .assign _ | .augAssign _ | .annAssign _
  | .forLoop .. | .whileLoop | .ifStmt | .withStmt .. | .matchStmt | .raiseStmt | .tryStmt _
  | .assertStmt | .importStmt | .importFrom .. | .globalDecl _ | .nonlocalDecl _ | .exprStmt | .pass
  | .breakStmt | .continueStmt => .statement
  | .exceptHandler _ => .handler
  | .matchCase => .matchCase
  | _ => .part

@[simp] def Kind.isBinding : Kind → Bool
  | .assign _ | .annAssign _ => true
  | _ => false

def Kind.holds : Kind → Nat → Role
  | .module _, 0 | .functionDef .., 1 | .classDef _, 2 | .forLoop .., 2 | .forLoop .., 3
  | .whileLoop, 1 | .whileLoop, 2 | .ifStmt, 1 | .ifStmt, 2 | .withStmt .., 1 | .tryStmt _, 0
  | .tryStmt _, 2 | .tryStmt _, 3 | .exceptHandler _, 1 | .matchCase, 2 => .statement
  | .tryStmt _, 1 => .handler
  | .matchStmt, 1 => .matchCase
  | _, _ => .part

theorem Kind.role_ne_part {kind : Kind} {k : Nat} (block : kind.holds k ≠ .part) :
    kind.role ≠ .part := by
  unfold Kind.holds at block
  split at block <;> simp_all [Kind.role]

namespace Tree

/-- Every tree stands in a slot for trees of its kind. -/
def WellFormed (t : Tree) : Prop :=
  ∀ n ∈ t.nodes, ∀ k < n.slots.length, ∀ u ∈ n.slot k, u.kind.role = n.kind.holds k

instance (t : Tree) : Decidable t.WellFormed := by
  unfold WellFormed
  infer_instance

def Inert (t : Tree) : Prop := ∀ n ∈ t.nodes, n.kind.role = .part

theorem inert_node {m : Mark} {kind : Kind} {slots : List (List Tree)} :
    (Tree.node m kind slots).Inert ↔ kind.role = .part ∧ ∀ slot ∈ slots, ∀ t ∈ slot, t.Inert := forall_nodes

theorem WellFormed.child {t u : Tree} (formed : t.WellFormed) (child : u ∈ t.children) :
    ∃ k, u.kind.role = t.kind.holds k := by
  obtain ⟨slot, isSlot, inSlot⟩ := List.mem_flatten.mp child
  obtain ⟨k, below, rfl⟩ := List.mem_iff_getElem.mp isSlot
  refine ⟨k, formed t (mem_nodes_self t) k below u ?_⟩
  simpa [slot, List.getD, below] using inSlot

theorem WellFormed.of_mem {t n : Tree} (formed : t.WellFormed) (member : n ∈ t.nodes) :
    n.WellFormed :=
  fun u inside => formed u (mem_nodes_trans member inside)

theorem WellFormed.holds_block {t s : Tree} (formed : t.WellFormed) (inside : s ∈ t.nodes)
    (below : s ≠ t) (statement : s.kind.role ≠ .part) : ∃ k, t.kind.holds k ≠ .part := by
  induction t using inductionOn with
  | node m kind slots ih =>
    obtain ⟨u, isChild, member⟩ := (mem_nodes.mp inside).resolve_left below
    obtain ⟨k, role⟩ := formed.child isChild
    refine ⟨k, role ▸ ?_⟩
    by_cases top : s = u
    · exact top ▸ statement
    · obtain ⟨slot, isSlot, inSlot⟩ := mem_children.mp isChild
      have childFormed := formed.of_mem (mem_nodes_of_child isChild (mem_nodes_self u))
      obtain ⟨k', block⟩ := ih slot isSlot u inSlot childFormed member top
      exact Kind.role_ne_part block

def BindsParts (t : Tree) : Prop := ∀ s ∈ t.nodes, s.kind.isBinding = true → ∀ u ∈ s.children, u.Inert

theorem WellFormed.bindsParts {t : Tree} (formed : t.WellFormed) : t.BindsParts := by
  intro s inside isBinding u isChild n below
  have noBlock : ∀ k, s.kind.holds k = .part := by
    intro k
    cases kind : s.kind <;> rw [kind] at isBinding <;> first | rfl | cases isBinding
  have formed := formed.of_mem inside
  by_cases top : n = u
  · obtain ⟨k, role⟩ := formed.child isChild
    rw [top, role, noBlock]
  · by_contra statement
    obtain ⟨k, block⟩ := (formed.of_mem (mem_nodes_of_child isChild (mem_nodes_self u))).holds_block below top statement
    obtain ⟨k', role⟩ := formed.child isChild
    exact Kind.role_ne_part block (role.trans (noBlock k'))

/-- No node has a label. -/
def Unlabelled (t : Tree) : Prop := ∀ n ∈ t.nodes, n.mark.label = 0

theorem Unlabelled.child {t u : Tree} (unlabelled : t.Unlabelled) (child : u ∈ t.children) :
    u.Unlabelled :=
  fun _ member => unlabelled _ (mem_nodes_of_child child member)

theorem remarkAll_eq (change : Mark → Mark) (ts : List Tree) :
    remarkAll change ts = ts.map (remark change) := by
  induction ts with
  | nil => rfl
  | cons t rest ih => simp [remarkAll, ih]

theorem remarkSlots_eq (change : Mark → Mark) (slots : List (List Tree)) :
    remarkSlots change slots = slots.map (List.map (remark change)) := by
  induction slots with
  | nil => rfl
  | cons slot rest ih => simp [remarkSlots, remarkAll_eq, ih]

theorem children_remark (change : Mark → Mark) (t : Tree) :
    (t.remark change).children = t.children.map (remark change) := by
  cases t with
  | node m kind slots => simp [remark, children, Tree.slots, remarkSlots_eq, List.map_flatten]

theorem Unlabelled.stamp {t : Tree} (unlabelled : t.Unlabelled) (place : Mark) :
    (t.stamp place).Unlabelled := by
  induction t using inductionOn with
  | node m kind slots ih =>
    intro n member
    rcases mem_nodes.mp member with rfl | ⟨u, isChild, inside⟩
    · exact unlabelled (.node m kind slots) (mem_nodes_self _)
    · rw [Tree.stamp, children_remark] at isChild
      obtain ⟨v, isBefore, rfl⟩ := List.mem_map.mp isChild
      obtain ⟨slot, isSlot, inSlot⟩ := mem_children.mp isBefore
      exact ih slot isSlot v inSlot (unlabelled.child isBefore) n inside

end Tree

def Removal.Context.removes (c : Context) (t : Tree) : Bool := (c.name? t).isSome

/-! ## The transformation from the top -/

/-- What happens to a file: the results of its calls, and the statements that are dropped. -/
structure Plan where
  expansions : List Expansion
  removal : Removal.Context

namespace Plan

def expansion? (plan : Plan) (label : Nat) : Option Expansion :=
  plan.expansions.find? fun e => e.site.label = label

/-- A block, given what is kept of it: one that loses all its statements gets a `pass` in the place
of the first, unless it is a whole file. -/
def block (inModule : Bool) (before kept : List Tree) : List Tree :=
  match before, kept with
  | first :: _, [] => if inModule then [] else [.node { first.mark with label := 0 } .pass []]
  | _, kept => kept

mutual

/-- The same expression, with every node at one place. -/
def placed (place : Mark) : Tree → Tree
  | .node m kind slots =>
    .node { place with label := m.label, origin := m.origin } kind (placedSlots place slots)

def placedSlots (place : Mark) : List (List Tree) → List (List Tree)
  | [] => []
  | slot :: rest => placedAll place slot :: placedSlots place rest

def placedAll (place : Mark) : List Tree → List Tree
  | [] => []
  | t :: rest => placed place t :: placedAll place rest

end

/-- The result of a call where the call stood, with the name of the macro at its top. -/
def resultAt (place : Mark) (e : Expansion) : Tree :=
  match e.result with
  | .node m kind slots =>
    .node { place with label := m.label, origin := some e.site.name } kind (placedSlots place slots)

mutual

/-- A tree with the results in place of its outermost calls and the dropped statements gone. -/
def outcome (plan : Plan) : Tree → Tree
  | .node m kind slots =>
    match plan.expansion? m.label with
    | some e => resultAt m e
    | none => .node m kind (outcomeSlots plan (Removal.isModule kind) slots)

def outcomeSlots (plan : Plan) (inModule : Bool) : List (List Tree) → List (List Tree)
  | [] => []
  | slot :: rest => block inModule slot (outcomeAll plan slot) :: outcomeSlots plan inModule rest

def outcomeAll (plan : Plan) : List Tree → List Tree
  | [] => []
  | t :: rest =>
    if plan.removal.removes t then outcomeAll plan rest
    else outcome plan t :: outcomeAll plan rest

end

/-- A block that has statements keeps some, unless it is a whole file. -/
theorem block_ne_nil {before kept : List Tree} (filled : before ≠ []) : block false before kept ≠ [] := by
  cases before with
  | nil => exact absurd rfl filled
  | cons first rest => cases kept <;> simp [block]

variable {plan : Plan}

theorem outcomeAll_eq (ts : List Tree) :
    plan.outcomeAll ts = (ts.filter fun t => !plan.removal.removes t).map plan.outcome := by
  induction ts with
  | nil => rfl
  | cons t rest ih => by_cases removes : plan.removal.removes t <;> simp [outcomeAll, removes, ih]

theorem outcomeSlots_eq (inModule : Bool) (slots : List (List Tree)) :
    plan.outcomeSlots inModule slots =
      slots.map fun slot => block inModule slot (plan.outcomeAll slot) := by
  induction slots with
  | nil => rfl
  | cons slot rest ih => simp [outcomeSlots, ih]

end Plan

/-! ## Removing and replacing, block by block -/

namespace Rewriting

variable {expansions : List Expansion}

theorem placedAll_eq (place : Mark) (ts : List Tree) :
    Plan.placedAll place ts = ts.map (Plan.placed place) := by
  induction ts with
  | nil => rfl
  | cons t rest ih => simp [Plan.placedAll, ih]

theorem placedSlots_eq (place : Mark) (slots : List (List Tree)) :
    Plan.placedSlots place slots = slots.map (List.map (Plan.placed place)) := by
  induction slots with
  | nil => rfl
  | cons slot rest ih => simp [Plan.placedSlots, placedAll_eq, ih]

theorem stamp_eq (place : Mark) (t : Tree) : t.stamp place = Plan.placed place t := by
  induction t using Tree.inductionOn with
  | node m kind slots ih =>
    rw [Tree.stamp, Tree.remark, Tree.remarkSlots_eq, Plan.placed, placedSlots_eq]
    congr 1
    exact List.map_congr_left fun slot isSlot => List.map_congr_left (ih slot isSlot)

/-- Inserting a result puts its own expression where the call stood. -/
theorem inserted_eq (e : Expansion) (place : Mark) :
    Expansion.inserted e place = Plan.resultAt place e := by
  unfold Expansion.inserted Plan.resultAt
  rw [stamp_eq]
  cases e.result
  rfl

theorem applyAll_eq (ts : List Tree) : applyAll expansions ts = ts.map (apply expansions) := by
  induction ts with
  | nil => rfl
  | cons t rest ih => simp [applyAll, ih]

theorem applySlots_eq (slots : List (List Tree)) :
    applySlots expansions slots = slots.map (List.map (apply expansions)) := by
  induction slots with
  | nil => rfl
  | cons slot rest ih => simp [applySlots, applyAll_eq, ih]

end Rewriting

namespace Removal

variable {c : Context}

def Context.stripBlock (c : Context) (inModule : Bool) (slot : List Tree) : Result (List Tree) :=
  c.close inModule (slot.filter c.removes) (c.stripAll slot)

theorem stripAll_removed {t : Tree} (removes : c.removes t = true) (rest : List Tree) :
    c.stripAll (t :: rest) = c.stripAll rest :=
  if_pos removes

theorem stripAll_stays {t : Tree} (stays : c.removes t = false) (rest : List Tree) :
    c.stripAll (t :: rest) = ⟨(c.strip t).kept :: (c.stripAll rest).kept,
      (c.strip t).edits ++ (c.stripAll rest).edits, (c.strip t).log ++ (c.stripAll rest).log⟩ :=
  if_neg (by simpa [Context.removes] using stays)

theorem stripAll_kept (ts : List Tree) :
    (c.stripAll ts).kept = (ts.filter fun t => !c.removes t).map fun t => (c.strip t).kept := by
  induction ts with
  | nil => rfl
  | cons t rest ih =>
    cases removes : c.removes t with
    | true => simp [stripAll_removed removes, removes, ih]
    | false => simp [stripAll_stays removes, removes, ih]

theorem stripAll_edits (ts : List Tree) :
    (c.stripAll ts).edits = (ts.filter fun t => !c.removes t).flatMap fun t => (c.strip t).edits := by
  induction ts with
  | nil => rfl
  | cons t rest ih =>
    cases removes : c.removes t with
    | true => simp [stripAll_removed removes, removes, ih]
    | false => simp [stripAll_stays removes, removes, ih]

theorem stripSlots_cons (inModule : Bool) (slot : List Tree) (rest : List (List Tree)) :
    c.stripSlots inModule (slot :: rest) =
      ⟨(c.stripBlock inModule slot).kept :: (c.stripSlots inModule rest).kept,
        (c.stripBlock inModule slot).edits ++ (c.stripSlots inModule rest).edits,
        (c.stripBlock inModule slot).log ++ (c.stripSlots inModule rest).log⟩ :=
  rfl

theorem stripSlots_kept (inModule : Bool) (slots : List (List Tree)) :
    (c.stripSlots inModule slots).kept = slots.map fun slot => (c.stripBlock inModule slot).kept := by
  induction slots with
  | nil => rfl
  | cons slot rest ih => simp [stripSlots_cons, ih]

theorem stripSlots_edits (inModule : Bool) (slots : List (List Tree)) :
    (c.stripSlots inModule slots).edits =
      slots.flatMap fun slot => (c.stripBlock inModule slot).edits := by
  induction slots with
  | nil => rfl
  | cons slot rest ih => simp [stripSlots_cons, ih]

theorem stripBlock_kept (inModule : Bool) (slot : List Tree) :
    (c.stripBlock inModule slot).kept = Plan.block inModule slot (c.stripAll slot).kept := by
  have kept := stripAll_kept (c := c) slot
  unfold Context.stripBlock Context.close
  split
  · rename_i noneRemoved
    cases slot with
    | nil => rfl
    | cons first rest =>
      have stays : c.removes first = false := by
        simpa using List.filter_eq_nil_iff.mp noneRemoved first (.head _)
      rw [kept]
      simp [stays, Plan.block]
  · rename_i first others removed
    dsimp only
    cases left : (c.stripAll slot).kept with
    | cons t rest => cases slot <;> simp [Plan.block]
    | nil =>
      rw [left] at kept
      cases slot with
      | nil => cases removed
      | cons t rest =>
        have gone : c.removes t = true := by
          by_contra stays
          simp [stays] at kept
        rw [List.filter_cons_of_pos gone] at removed
        cases removed
        cases inModule <;> simp [Plan.block]

theorem strip_of_stays {t : Tree} (stays : ∀ n ∈ t.nodes, c.removes n = false) :
    (c.strip t).kept = t ∧ (c.strip t).edits = [] := by
  induction t using Tree.inductionOn with
  | node m kind slots ih =>
    have inside : ∀ slot ∈ slots, ∀ t ∈ slot, t ∈ (Tree.node m kind slots).children :=
      fun slot isSlot t inSlot => Tree.mem_children.mpr ⟨slot, isSlot, inSlot⟩
    have staying : ∀ slot ∈ slots, ∀ t ∈ slot, c.removes t = false := fun slot isSlot t inSlot =>
      stays t (Tree.mem_nodes_of_child (inside slot isSlot t inSlot) (Tree.mem_nodes_self t))
    have inner : ∀ slot ∈ slots, ∀ t ∈ slot, (c.strip t).kept = t ∧ (c.strip t).edits = [] :=
      fun slot isSlot t inSlot => ih slot isSlot t inSlot fun n member =>
        stays n (Tree.mem_nodes_of_child (inside slot isSlot t inSlot) member)
    have whole : ∀ slot ∈ slots, (slot.filter fun t => !c.removes t) = slot :=
      fun slot isSlot => List.filter_eq_self.mpr fun t inSlot => by simp [staying slot isSlot t inSlot]
    have blocks : ∀ slot ∈ slots, (c.stripBlock (isModule kind) slot).kept = slot ∧
        (c.stripBlock (isModule kind) slot).edits = [] := by
      intro slot isSlot
      have noneRemoved : slot.filter c.removes = [] :=
        List.filter_eq_nil_iff.mpr fun t inSlot => by simp [staying slot isSlot t inSlot]
      rw [Context.stripBlock, noneRemoved]
      simp only [Context.close, stripAll_kept, stripAll_edits, whole slot isSlot]
      constructor
      · rw [List.map_congr_left fun t inSlot => (inner slot isSlot t inSlot).1, List.map_id']
      · exact List.flatMap_eq_nil_iff.mpr fun t inSlot => (inner slot isSlot t inSlot).2
    simp only [Context.strip, stripSlots_kept, stripSlots_edits]
    constructor
    · rw [List.map_congr_left fun slot isSlot => (blocks slot isSlot).1, List.map_id']
    · exact List.flatMap_eq_nil_iff.mpr fun slot isSlot => (blocks slot isSlot).2

theorem strip_unlabelled {t : Tree} (unlabelled : t.Unlabelled) :
    (c.strip t).kept = t ∧ (c.strip t).edits = [] :=
  strip_of_stays fun n member => by simp [Context.removes, Context.name?, unlabelled n member]

/-! ## The edits of dropped statements -/

mutual

/-- The statements that are dropped from a tree, in the order of their edits. -/
def Context.dropped (c : Context) : Tree → List Tree
  | .node _ _ slots => c.droppedSlots slots

def Context.droppedSlots (c : Context) : List (List Tree) → List Tree
  | [] => []
  | slot :: rest => c.droppedAll slot ++ slot.filter c.removes ++ c.droppedSlots rest

def Context.droppedAll (c : Context) : List Tree → List Tree
  | [] => []
  | t :: rest => if c.removes t then c.droppedAll rest else c.dropped t ++ c.droppedAll rest

end

theorem droppedAll_eq (ts : List Tree) :
    c.droppedAll ts = (ts.filter fun t => !c.removes t).flatMap c.dropped := by
  induction ts with
  | nil => rfl
  | cons t rest ih => by_cases removes : c.removes t <;> simp [Context.droppedAll, removes, ih]

theorem droppedSlots_eq (slots : List (List Tree)) :
    c.droppedSlots slots = slots.flatMap fun slot => c.droppedAll slot ++ slot.filter c.removes := by
  induction slots with
  | nil => rfl
  | cons slot rest ih => simp [Context.droppedSlots, ih]

/-- The edits of some statements, one for each. -/
def Context.EditsOf (c : Context) (edits : List Edit) (statements : List Tree) : Prop :=
  ∃ marked : List (Tree × Bool),
    edits = marked.map (fun e => c.edit e.2 e.1) ∧ marked.map Prod.fst = statements

theorem Context.EditsOf.append {edits edits' : List Edit} {ts ts' : List Tree}
    (first : c.EditsOf edits ts) (second : c.EditsOf edits' ts') :
    c.EditsOf (edits ++ edits') (ts ++ ts') := by
  obtain ⟨marked, rfl, rfl⟩ := first
  obtain ⟨marked', rfl, rfl⟩ := second
  exact ⟨marked ++ marked', by simp, by simp⟩

theorem Context.EditsOf.flatMap {ι : Type} {items : List ι} {edits : ι → List Edit}
    {ts : ι → List Tree} (each : ∀ i ∈ items, c.EditsOf (edits i) (ts i)) :
    c.EditsOf (items.flatMap edits) (items.flatMap ts) := by
  induction items with
  | nil => exact ⟨[], rfl, rfl⟩
  | cons i rest ih =>
    exact (each i (.head _)).append (ih fun j member => each j (.tail _ member))

theorem editsOf_removed (needsPass : Bool) (removed : List Tree) :
    c.EditsOf (c.edits needsPass removed) removed := by
  cases removed with
  | nil => exact ⟨[], rfl, rfl⟩
  | cons first rest =>
    refine ⟨(first, needsPass) :: rest.map fun t => (t, false), ?_, ?_⟩
    · simp [Context.edits]
    · simp [Function.comp_def]

theorem editsOf_strip (t : Tree) : c.EditsOf (c.strip t).edits (c.dropped t) := by
  induction t using Tree.inductionOn with
  | node m kind slots ih =>
    simp only [Context.strip, Context.dropped, stripSlots_edits, droppedSlots_eq]
    refine .flatMap fun slot isSlot => ?_
    have inner : c.EditsOf (c.stripAll slot).edits (c.droppedAll slot) := by
      rw [stripAll_edits, droppedAll_eq]
      exact .flatMap fun t member => ih slot isSlot t (List.mem_of_mem_filter member)
    unfold Context.stripBlock Context.close
    split
    · rename_i noneRemoved
      simpa [noneRemoved] using inner
    · exact inner.append (editsOf_removed _ _)

theorem mem_dropped {t s : Tree} (found : s ∈ c.dropped t) : s ∈ t.nodes ∧ c.removes s = true := by
  induction t using Tree.inductionOn with
  | node m kind slots ih =>
    simp only [Context.dropped, droppedSlots_eq, List.mem_flatMap, List.mem_append, droppedAll_eq]
      at found
    obtain ⟨slot, isSlot, ⟨t, stays, inside⟩ | removed⟩ := found
    · have inSlot := List.mem_of_mem_filter stays
      obtain ⟨member, removes⟩ := ih slot isSlot t inSlot inside
      exact ⟨Tree.mem_nodes_of_child (Tree.mem_children.mpr ⟨slot, isSlot, inSlot⟩) member, removes⟩
    · obtain ⟨inSlot, removes⟩ := List.mem_filter.mp removed
      exact ⟨Tree.mem_nodes_of_child (Tree.mem_children.mpr ⟨slot, isSlot, inSlot⟩)
        (Tree.mem_nodes_self s), removes⟩

theorem dropped_eq_nil {t : Tree} (stays : ∀ s ∈ t.nodes, c.removes s = false) : c.dropped t = [] := by
  refine List.eq_nil_iff_forall_not_mem.mpr fun s found => ?_
  obtain ⟨member, removes⟩ := mem_dropped found
  rw [stays s member] at removes
  cases removes

/-- A removed statement is dropped when nothing around it is removed. -/
theorem mem_dropped_of_outermost {t s : Tree} (inside : s ∈ t.nodes) (below : s ≠ t)
    (removes : c.removes s = true)
    (around : ∀ a ∈ t.nodes, s ∈ a.nodes → a ≠ s → c.removes a = false) : s ∈ c.dropped t := by
  induction t using Tree.inductionOn with
  | node m kind slots ih =>
    obtain ⟨u, isChild, member⟩ := (Tree.mem_nodes.mp inside).resolve_left below
    obtain ⟨slot, isSlot, inSlot⟩ := Tree.mem_children.mp isChild
    simp only [Context.dropped, droppedSlots_eq, List.mem_flatMap, List.mem_append, droppedAll_eq]
    refine ⟨slot, isSlot, ?_⟩
    by_cases top : s = u
    · exact .inr (List.mem_filter.mpr ⟨top ▸ inSlot, removes⟩)
    · have stays := around u (Tree.mem_nodes_of_child isChild (Tree.mem_nodes_self u)) member
        (Ne.symm top)
      refine .inl ⟨u, List.mem_filter.mpr ⟨inSlot, by simp [stays]⟩, ?_⟩
      exact ih slot isSlot u inSlot member top
        fun a isInside => around a (Tree.mem_nodes_of_child isChild isInside)

theorem dropped_labels_subperm (t : Tree) :
    ((c.dropped t).map fun s => s.mark.label).Subperm t.labels := by
  induction t using Tree.inductionOn with
  | node m kind slots ih =>
    have block : ∀ slot : List Tree,
        (∀ t ∈ slot, ((c.dropped t).map fun s => s.mark.label).Subperm t.labels) →
        ((c.droppedAll slot ++ slot.filter c.removes).map fun s => s.mark.label).Subperm
          (slot.flatMap Tree.labels) := by
      intro slot each
      induction slot with
      | nil => simp [Context.droppedAll]
      | cons t rest ih =>
        have tail := ih fun u member => each u (.tail _ member)
        cases removes : c.removes t with
        | true =>
          simp only [Context.droppedAll, removes, if_true, List.filter_cons_of_pos removes]
          refine (List.perm_middle.map _).subperm.trans ?_
          rw [List.map_cons, List.flatMap_cons]
          have self : [t.mark.label].Subperm t.labels :=
            List.singleton_subperm_iff.mpr (Tree.label_mem_labels (Tree.mem_nodes_self t))
          exact self.append tail
        | false =>
          have stays : ¬ c.removes t = true := by simp [removes]
          simp only [Context.droppedAll, removes, Bool.false_eq_true, if_false,
            List.filter_cons_of_neg stays, List.append_assoc]
          rw [List.map_append, List.flatMap_cons]
          exact (each t (.head _)).append tail
    have all : ∀ slots : List (List Tree), (∀ slot ∈ slots, ∀ t ∈ slot,
        ((c.dropped t).map fun s => s.mark.label).Subperm t.labels) →
        ((c.droppedSlots slots).map fun s => s.mark.label).Subperm
          (slots.flatten.flatMap Tree.labels) := by
      intro slots each
      induction slots with
      | nil => simp [Context.droppedSlots]
      | cons slot rest ih =>
        rw [Context.droppedSlots, List.map_append, List.flatten_cons, List.flatMap_append]
        exact (block slot (each slot (.head _))).append
          (ih fun slot member => each slot (.tail _ member))
    rw [Tree.labels_eq]
    exact (all slots ih).trans (List.sublist_cons_self _ _).subperm

end Removal

/-! ## Replacing before removing -/

namespace Plan

variable {plan : Plan}

/-- What the walk from the top needs to know of a tree: only calls are replaced, by new nodes, and no
call that is replaced stands in a statement that is dropped or the other way around. -/
structure Fits (plan : Plan) (t : Tree) : Prop where
  isCall : ∀ n ∈ t.nodes, (plan.expansion? n.mark.label).isSome → n.kind = .call
  unlabelled : ∀ e ∈ plan.expansions, e.result.Unlabelled
  outside : ∀ n ∈ t.nodes, (plan.expansion? n.mark.label).isSome →
    ∀ s ∈ n.nodes, plan.removal.removes s = false
  untouched : ∀ s ∈ t.nodes, plan.removal.removes s = true →
    ∀ n ∈ s.nodes, plan.expansion? n.mark.label = none

theorem Fits.child {t u : Tree} (fits : plan.Fits t) (child : u ∈ t.children) : plan.Fits u where
  isCall n member := fits.isCall n (Tree.mem_nodes_of_child child member)
  unlabelled := fits.unlabelled
  outside n member := fits.outside n (Tree.mem_nodes_of_child child member)
  untouched s member := fits.untouched s (Tree.mem_nodes_of_child child member)

theorem unlabelled_inserted {e : Expansion} (unlabelled : e.result.Unlabelled) (place : Mark) :
    (Rewriting.Expansion.inserted e place).Unlabelled := by
  have stamped := unlabelled.stamp place
  unfold Rewriting.Expansion.inserted
  split
  rename_i m kind slots same
  rw [same] at stamped
  intro n member
  rcases Tree.mem_nodes.mp member with rfl | ⟨u, isChild, inside⟩
  · exact stamped (.node m kind slots) (Tree.mem_nodes_self _)
  · exact stamped n (Tree.mem_nodes_of_child (t := .node m kind slots) isChild inside)

theorem mem_of_expansion? {label : Nat} {e : Expansion} (found : plan.expansion? label = some e) :
    e ∈ plan.expansions :=
  List.mem_of_find?_eq_some found

theorem apply_of_some {t : Tree} {e : Expansion} (found : plan.expansion? t.mark.label = some e)
    (isCall : t.kind = .call) :
    Rewriting.apply plan.expansions t = Rewriting.Expansion.inserted e t.mark := by
  cases t with
  | node m kind slots =>
    cases isCall
    change (match plan.expansion? m.label with
      | some e => Rewriting.Expansion.inserted e m
      | none => _) = _
    have found : plan.expansion? m.label = some e := found
    rw [found]
    rfl

theorem apply_of_none {t : Tree} (kept : plan.expansion? t.mark.label = none) :
    Rewriting.apply plan.expansions t =
      .node t.mark t.kind (t.slots.map (List.map (Rewriting.apply plan.expansions))) := by
  cases t with
  | node m kind slots =>
    rw [Rewriting.apply, Rewriting.applySlots_eq, Rewriting.swap]
    split
    · change (match plan.expansion? m.label with
        | some e => _
        | none => _) = _
      have kept : plan.expansion? m.label = none := kept
      rw [kept]
      rfl
    · rfl

theorem apply_untouched {t : Tree} (kept : ∀ n ∈ t.nodes, plan.expansion? n.mark.label = none) :
    Rewriting.apply plan.expansions t = t := by
  induction t using Tree.inductionOn with
  | node m kind slots ih =>
    rw [apply_of_none (kept _ (Tree.mem_nodes_self _))]
    dsimp only [Tree.mark, Tree.kind, Tree.slots]
    congr 1
    refine (List.map_congr_left fun slot isSlot => ?_).trans (List.map_id' slots)
    refine (List.map_congr_left fun t inSlot => ?_).trans (List.map_id' slot)
    have isChild : t ∈ (Tree.node m kind slots).children :=
      Tree.mem_children.mpr ⟨slot, isSlot, inSlot⟩
    exact ih slot isSlot t inSlot fun n member => kept n (Tree.mem_nodes_of_child isChild member)

theorem removes_unlabelled {c : Removal.Context} {t : Tree} (unlabelled : t.Unlabelled) {n : Tree}
    (member : n ∈ t.nodes) : c.removes n = false := by
  simp [Removal.Context.removes, Removal.Context.name?, unlabelled n member]

theorem removes_apply {t : Tree} (unlabelled : ∀ e ∈ plan.expansions, e.result.Unlabelled)
    (replaced : (plan.expansion? t.mark.label).isSome → t.kind = .call ∧ plan.removal.removes t = false) :
    plan.removal.removes (Rewriting.apply plan.expansions t) = plan.removal.removes t := by
  cases found : plan.expansion? t.mark.label with
  | some e =>
    obtain ⟨isCall, stays⟩ := replaced (by simp [found])
    rw [apply_of_some found isCall, stays]
    exact removes_unlabelled (unlabelled_inserted (unlabelled e (mem_of_expansion? found)) _)
      (Tree.mem_nodes_self _)
  | none =>
    rw [apply_of_none found]
    rfl

theorem Fits.removes_apply {t : Tree} (fits : plan.Fits t) :
    plan.removal.removes (Rewriting.apply plan.expansions t) = plan.removal.removes t := by
  have self := Tree.mem_nodes_self t
  exact Plan.removes_apply fits.unlabelled fun isSome =>
    ⟨fits.isCall t self isSome, fits.outside t self isSome t self⟩

theorem block_congr {inModule : Bool} {before after kept : List Tree}
    (same : kept = [] → before.map Tree.mark = after.map Tree.mark) :
    block inModule before kept = block inModule after kept := by
  cases kept with
  | cons t rest => cases before <;> cases after <;> rfl
  | nil =>
    have marks := same rfl
    cases before <;> cases after <;> simp_all [block]

/-- Replacing the calls and then removing the statements is one walk from the top. -/
theorem Fits.strip_apply {t : Tree} (fits : plan.Fits t) :
    (plan.removal.strip (Rewriting.apply plan.expansions t)).kept = plan.outcome t := by
  induction t using Tree.inductionOn with
  | node m kind slots ih =>
    have self := Tree.mem_nodes_self (Tree.node m kind slots)
    cases found : plan.expansion? m.label with
    | some e =>
      have isSome : (plan.expansion? m.label).isSome := by simp [found]
      rw [apply_of_some found (fits.isCall _ self isSome), outcome, found]
      dsimp only [Tree.mark]
      rw [← Rewriting.inserted_eq]
      exact (Removal.strip_unlabelled
        (unlabelled_inserted (fits.unlabelled e (mem_of_expansion? found)) _)).1
    | none =>
      rw [apply_of_none found, outcome, found, Removal.Context.strip]
      simp only [Tree.mark, Tree.kind, Tree.slots, Removal.stripSlots_kept, outcomeSlots_eq, List.map_map]
      congr 1
      refine List.map_congr_left fun slot isSlot => ?_
      have inner : ∀ t ∈ slot, plan.Fits t := fun t inSlot =>
        fits.child (Tree.mem_children.mpr ⟨slot, isSlot, inSlot⟩)
      have kept : (plan.removal.stripAll (slot.map (Rewriting.apply plan.expansions))).kept =
          plan.outcomeAll slot := by
        rw [Removal.stripAll_kept, outcomeAll_eq, List.filter_map, List.map_map]
        have stays : slot.filter ((fun t => !plan.removal.removes t) ∘
            Rewriting.apply plan.expansions) = slot.filter fun t => !plan.removal.removes t :=
          List.filter_congr fun t inSlot => by simp [(inner t inSlot).removes_apply]
        rw [stays]
        refine List.map_congr_left fun t member => ?_
        have inSlot := List.mem_of_mem_filter member
        exact ih slot isSlot t inSlot (inner t inSlot)
      simp only [Function.comp_apply, Removal.stripBlock_kept, kept]
      refine block_congr fun nothing => ?_
      rw [List.map_map]
      refine List.map_congr_left fun t inSlot => ?_
      have gone : plan.removal.removes t = true := by
        rw [outcomeAll_eq, List.map_eq_nil_iff, List.filter_eq_nil_iff] at nothing
        simpa using nothing t inSlot
      have isChild : t ∈ (Tree.node m kind slots).children :=
        Tree.mem_children.mpr ⟨slot, isSlot, inSlot⟩
      rw [Function.comp_apply, apply_untouched
        (fits.untouched t (Tree.mem_nodes_of_child isChild (Tree.mem_nodes_self t)) gone)]

theorem Fits.dropped_apply {t : Tree} (fits : plan.Fits t) :
    plan.removal.dropped (Rewriting.apply plan.expansions t) = plan.removal.dropped t := by
  induction t using Tree.inductionOn with
  | node m kind slots ih =>
    have self := Tree.mem_nodes_self (Tree.node m kind slots)
    cases found : plan.expansion? m.label with
    | some e =>
      have isSome : (plan.expansion? m.label).isSome := by simp [found]
      rw [apply_of_some found (fits.isCall _ self isSome),
        Removal.dropped_eq_nil (fits.outside _ self isSome)]
      exact Removal.dropped_eq_nil fun s member => removes_unlabelled
        (unlabelled_inserted (fits.unlabelled e (mem_of_expansion? found)) _) member
    | none =>
      rw [apply_of_none found]
      simp only [Tree.slots, Removal.Context.dropped, Removal.droppedSlots_eq, List.flatMap_map]
      refine List.flatMap_congr fun slot isSlot => ?_
      have isChild : ∀ t ∈ slot, t ∈ (Tree.node m kind slots).children :=
        fun t inSlot => Tree.mem_children.mpr ⟨slot, isSlot, inSlot⟩
      have same : ∀ keep : Bool → Bool, slot.filter ((fun t => keep (plan.removal.removes t)) ∘
          Rewriting.apply plan.expansions) = slot.filter fun t => keep (plan.removal.removes t) :=
        fun keep => List.filter_congr fun t inSlot => by
          simp [(fits.child (isChild t inSlot)).removes_apply]
      congr 1
      · rw [Removal.droppedAll_eq, Removal.droppedAll_eq, List.filter_map, same not,
          List.flatMap_map]
        refine List.flatMap_congr fun t member => ?_
        have inSlot := List.mem_of_mem_filter member
        exact ih slot isSlot t inSlot (fits.child (isChild t inSlot))
      · rw [List.filter_map]
        refine (congrArg _ (same id)).trans ?_
        refine (List.map_congr_left fun t member => ?_).trans (List.map_id' _)
        obtain ⟨inSlot, gone⟩ := List.mem_filter.mp member
        exact apply_untouched (fits.untouched t
          (Tree.mem_nodes_of_child (isChild t inSlot) (Tree.mem_nodes_self t)) gone)

/-- The walk from the top goes from nodes that are not replaced to trees below them that are not dropped. -/
def Keeps (plan : Plan) (p u : Tree) : Prop :=
  plan.expansion? p.mark.label = none ∧ u ∈ p.children ∧ plan.removal.removes u = false

theorem child_of_keeps (p u : Tree) (keeps : plan.Keeps p u) : u ∈ p.children := keeps.2.1

theorem outcome_of_none {t : Tree} (kept : plan.expansion? t.mark.label = none) :
    plan.outcome t = .node t.mark t.kind (plan.outcomeSlots (Removal.isModule t.kind) t.slots) := by
  cases t with
  | node m kind slots =>
    have none : plan.expansion? m.label = none := kept
    rw [outcome, none]
    rfl

/-- Where nothing is removed, replacing the calls from the inside out gives what one walk from the top gives. -/
theorem apply_eq_outcome {t : Tree}
    (isCall : ∀ n ∈ t.nodes, (plan.expansion? n.mark.label).isSome → n.kind = .call)
    (stays : ∀ n, plan.removal.removes n = false) : Rewriting.apply plan.expansions t = plan.outcome t := by
  have whole : ∀ (inModule : Bool) (slot : List Tree), block inModule slot (slot.map plan.outcome) = slot.map plan.outcome :=
    fun inModule slot => by cases slot <;> rfl
  induction t using Tree.inductionOn with
  | node m kind slots ih =>
    cases found : plan.expansion? m.label with
    | some e =>
      rw [apply_of_some found (isCall _ (Tree.mem_nodes_self _) (by simp [Tree.mark, found])), Rewriting.inserted_eq,
        outcome, found]
      rfl
    | none =>
      rw [apply_of_none found, outcome_of_none found, outcomeSlots_eq]
      congr 1
      refine List.map_congr_left fun slot isSlot => ?_
      rw [outcomeAll_eq, List.filter_eq_self.mpr fun t _ => by simp [stays t], whole]
      exact List.map_congr_left fun t inSlot => ih slot isSlot t inSlot fun n member =>
        isCall n (Tree.mem_nodes_of_child (Tree.mem_children.mpr ⟨slot, isSlot, inSlot⟩) member)

theorem outcome_leaf {t : Tree} (kept : plan.expansion? t.mark.label = none) (leaf : t.children = []) :
    plan.outcome t = t := by
  rw [outcome_of_none kept, outcomeSlots_eq]
  cases t with
  | node m kind slots =>
    have empty : ∀ slot ∈ slots, slot = [] := List.flatten_eq_nil_iff.mp leaf
    dsimp only [Tree.mark, Tree.kind, Tree.slots]
    rw [List.map_congr_left (g := id) fun slot isSlot => by rw [empty slot isSlot]; rfl, List.map_id]

/-- What is left of a tree stands in a result, or fills a block, or is what a node that the walk comes to has
become. -/
theorem mem_outcome {t n : Tree} (inside : n ∈ (plan.outcome t).nodes) :
    (∃ e ∈ plan.expansions, ∃ place, n ∈ (Rewriting.Expansion.inserted e place).nodes) ∨
      (n.kind = .pass ∧ n.mark.label = 0) ∨
      ∃ u, ReflTransGen plan.Keeps t u ∧ plan.expansion? u.mark.label = none ∧ n = plan.outcome u := by
  induction t using Tree.inductionOn with
  | node m kind slots ih =>
    cases replaced : plan.expansion? m.label with
    | some e =>
      rw [outcome, replaced] at inside
      exact .inl ⟨e, mem_of_expansion? replaced, m, Rewriting.inserted_eq e m ▸ inside⟩
    | none =>
      rw [Tree.nodes_eq] at inside
      rcases List.mem_cons.mp inside with top | below
      · exact .inr (.inr ⟨_, .refl, replaced, top⟩)
      · rw [outcome, replaced] at below
        obtain ⟨u, isChild, inside⟩ := List.mem_flatMap.mp below
        obtain ⟨after, isAfter, inAfter⟩ := Tree.mem_children.mp isChild
        rw [outcomeSlots_eq] at isAfter
        obtain ⟨slot, isSlot, rfl⟩ := List.mem_map.mp isAfter
        -- a block is what is kept of it, or a filler
        have kept : u ∈ plan.outcomeAll slot ∨ (n.kind = .pass ∧ n.mark.label = 0) := by
          unfold block at inAfter
          split at inAfter
          · split at inAfter
            · cases inAfter
            · obtain rfl := List.mem_singleton.mp inAfter
              rw [Tree.nodes_eq, Tree.children, Tree.slots, List.flatten_nil, List.flatMap_nil] at inside
              obtain rfl := List.mem_singleton.mp inside
              exact .inr ⟨rfl, rfl⟩
          · exact .inl inAfter
        rcases kept with kept | filler
        · rw [outcomeAll_eq] at kept
          obtain ⟨v, member, rfl⟩ := List.mem_map.mp kept
          obtain ⟨inSlot, stays⟩ := List.mem_filter.mp member
          have keeps : plan.Keeps (.node m kind slots) v :=
            ⟨replaced, Tree.mem_children.mpr ⟨slot, isSlot, inSlot⟩, by simpa using stays⟩
          rcases ih slot isSlot v inSlot inside with inserted | filler | ⟨w, way, kept⟩
          · exact .inl inserted
          · exact .inr (.inl filler)
          · exact .inr (.inr ⟨w, .head keeps way, kept⟩)
        · exact .inr (.inl filler)

/-- Nothing that is to be replaced or dropped is left below the top. -/
theorem Fits.label_outcome {t : Tree} (fits : plan.Fits t) {l : Nat}
    (found : l ∈ (plan.outcome t).labels) (labelled : l ≠ 0) :
    ∃ n ∈ t.nodes, n.mark.label = l ∧ plan.expansion? l = none ∧
      (n = t ∨ plan.removal.removes n = false) := by
  obtain ⟨n, inside, rfl⟩ := List.mem_map.mp found
  rcases mem_outcome inside with ⟨e, isExpansion, place, inserted⟩ | ⟨-, unlabelled⟩ | ⟨u, way, kept, rfl⟩
  · exact absurd (unlabelled_inserted (fits.unlabelled e isExpansion) place n inserted) labelled
  · exact absurd unlabelled labelled
  · have same : (plan.outcome u).mark = u.mark := by rw [outcome_of_none kept]; rfl
    rw [same]
    refine ⟨u, Tree.mem_nodes_of_way child_of_keeps way, rfl, kept, ?_⟩
    rcases ReflTransGen.cases_tail way with top | ⟨p, -, keeps⟩
    · exact .inl top
    · exact .inr keeps.2.2

end Plan

end MacroExpand
