import MacroExpand.Syntax.Parser
import Mathlib.Data.List.Nodup
import Mathlib.Data.List.Pairwise
import Mathlib.Logic.Relation

/-!
# Nodes and their labels

`nodes` lists the nodes of a tree.  A tree is labelled when every node has a label and no two nodes
have the same: then a label stands for a node and for its place, since a node has one parent only.
The trees of parsed files are labelled.
-/

set_option autoImplicit false

namespace MacroExpand

namespace Tree

/-- What holds of a node whenever it holds of all trees below it holds of every tree. -/
theorem inductionOn {motive : Tree → Prop}
    (node : ∀ mark kind slots, (∀ slot ∈ slots, ∀ t ∈ slot, motive t) →
      motive (.node mark kind slots)) (t : Tree) : motive t := by
  refine @Tree.rec motive (fun slots => ∀ slot ∈ slots, ∀ t ∈ slot, motive t)
    (fun slot => ∀ t ∈ slot, motive t) node ?_ ?_ ?_ ?_ t
  · exact fun slot member => absurd member List.not_mem_nil
  · exact fun slot rest here there => List.forall_mem_cons.mpr ⟨here, there⟩
  · exact fun t member => absurd member List.not_mem_nil
  · exact fun t rest here there => List.forall_mem_cons.mpr ⟨here, there⟩

mutual

/-- The nodes of a tree, each before those below it. -/
def nodes : Tree → List Tree
  | .node m kind slots => .node m kind slots :: nodesSlots slots

def nodesSlots : List (List Tree) → List Tree
  | [] => []
  | slot :: rest => nodesAll slot ++ nodesSlots rest

def nodesAll : List Tree → List Tree
  | [] => []
  | t :: rest => nodes t ++ nodesAll rest

end

theorem nodesAll_eq (ts : List Tree) : nodesAll ts = ts.flatMap nodes := by
  induction ts with
  | nil => rfl
  | cons t rest ih => simp [nodesAll, ih]

theorem nodesSlots_eq (slots : List (List Tree)) : nodesSlots slots = slots.flatten.flatMap nodes := by
  induction slots with
  | nil => rfl
  | cons slot rest ih => simp [nodesSlots, nodesAll_eq, ih]

theorem nodes_eq (t : Tree) : t.nodes = t :: t.children.flatMap nodes := by
  cases t with
  | node m kind slots => simp [nodes, nodesSlots_eq, children, Tree.slots]

theorem mem_nodes {t n : Tree} : n ∈ t.nodes ↔ n = t ∨ ∃ u ∈ t.children, n ∈ u.nodes := by
  rw [nodes_eq, List.mem_cons, List.mem_flatMap]

theorem mem_nodes_self (t : Tree) : t ∈ t.nodes := by simp [nodes_eq t]

theorem mem_nodes_of_child {t u n : Tree} (child : u ∈ t.children) (member : n ∈ u.nodes) :
    n ∈ t.nodes := by
  rw [nodes_eq]
  exact .tail _ (List.mem_flatMap.mpr ⟨u, child, member⟩)

theorem mem_children {m : Mark} {kind : Kind} {slots : List (List Tree)} {t : Tree} :
    t ∈ (Tree.node m kind slots).children ↔ ∃ slot ∈ slots, t ∈ slot := by
  simp [children, Tree.slots]

theorem forall_nodes {motive : Tree → Prop} {m : Mark} {kind : Kind} {slots : List (List Tree)} :
    (∀ n ∈ (Tree.node m kind slots).nodes, motive n) ↔
      motive (.node m kind slots) ∧ ∀ slot ∈ slots, ∀ t ∈ slot, ∀ n ∈ t.nodes, motive n := by
  constructor
  · exact fun all => ⟨all _ (mem_nodes_self _), fun slot isSlot t inSlot n inside =>
      all n (mem_nodes_of_child (mem_children.mpr ⟨slot, isSlot, inSlot⟩) inside)⟩
  · rintro ⟨top, below⟩ n inside
    rcases mem_nodes.mp inside with rfl | ⟨t, isChild, inside⟩
    · exact top
    · obtain ⟨slot, isSlot, inSlot⟩ := mem_children.mp isChild
      exact below slot isSlot t inSlot n inside

theorem mem_nodes_trans {t u n : Tree} (outer : u ∈ t.nodes) (inner : n ∈ u.nodes) :
    n ∈ t.nodes := by
  induction t using inductionOn with
  | node m kind slots ih =>
    rcases mem_nodes.mp outer with rfl | ⟨child, isChild, member⟩
    · exact inner
    · obtain ⟨slot, isSlot, inSlot⟩ := mem_children.mp isChild
      exact mem_nodes_of_child isChild (ih slot isSlot child inSlot member)

theorem exists_parent {t n : Tree} (inside : n ∈ t.nodes) (below : n ≠ t) :
    ∃ p ∈ t.nodes, n ∈ p.children := by
  induction t using inductionOn with
  | node m kind slots ih =>
    obtain ⟨u, isChild, member⟩ := (mem_nodes.mp inside).resolve_left below
    by_cases top : n = u
    · exact ⟨_, mem_nodes_self _, top ▸ isChild⟩
    · obtain ⟨slot, isSlot, inSlot⟩ := mem_children.mp isChild
      obtain ⟨p, isNode, child⟩ := ih slot isSlot u inSlot member top
      exact ⟨p, mem_nodes_of_child isChild isNode, child⟩

/-! ## Labels that tell nodes apart -/

/-- The labels of the nodes of a tree. -/
def labels (t : Tree) : List Nat := t.nodes.map fun n => n.mark.label

theorem labels_eq (t : Tree) : t.labels = t.mark.label :: t.children.flatMap labels := by
  rw [labels, nodes_eq, List.map_cons, List.map_flatMap]
  rfl

/-- Every node has a label, and no two nodes have the same. -/
structure Labelled (t : Tree) : Prop where
  distinct : t.labels.Nodup
  positive : 0 ∉ t.labels

theorem label_mem_labels {t n : Tree} (member : n ∈ t.nodes) : n.mark.label ∈ t.labels :=
  List.mem_map.mpr ⟨n, member, rfl⟩

theorem labels_subset {t n : Tree} (member : n ∈ t.nodes) : n.labels ⊆ t.labels := by
  intro l found
  obtain ⟨u, inside, rfl⟩ := List.mem_map.mp found
  exact label_mem_labels (mem_nodes_trans member inside)

theorem Labelled.child {t u : Tree} (labelled : t.Labelled) (child : u ∈ t.children) :
    u.Labelled := by
  obtain ⟨distinct, positive⟩ := labelled
  rw [labels_eq] at distinct positive
  have below := (List.nodup_flatMap.mp (List.nodup_cons.mp distinct).2).1 u child
  exact ⟨below, fun zero => positive (.tail _ (List.mem_flatMap.mpr ⟨u, child, zero⟩))⟩

theorem Labelled.of_mem {t n : Tree} (labelled : t.Labelled) (member : n ∈ t.nodes) :
    n.Labelled := by
  induction t using inductionOn with
  | node m kind slots ih =>
    rcases mem_nodes.mp member with rfl | ⟨child, isChild, inside⟩
    · exact labelled
    · obtain ⟨slot, isSlot, inSlot⟩ := mem_children.mp isChild
      exact ih slot isSlot child inSlot (labelled.child isChild) inside

theorem Labelled.ne_zero {t n : Tree} (labelled : t.Labelled) (member : n ∈ t.nodes) :
    n.mark.label ≠ 0 :=
  fun zero => labelled.positive (zero ▸ label_mem_labels member)

theorem Labelled.eq_of_label {t a b : Tree} (labelled : t.Labelled) (left : a ∈ t.nodes)
    (right : b ∈ t.nodes) (same : a.mark.label = b.mark.label) : a = b :=
  List.inj_on_of_nodup_map labelled.distinct left right same

theorem Labelled.label_not_below {t u : Tree} (labelled : t.Labelled) (child : u ∈ t.children) :
    t.mark.label ∉ u.labels := by
  have distinct := labelled.distinct
  rw [labels_eq] at distinct
  exact fun found => (List.nodup_cons.mp distinct).1 (List.mem_flatMap.mpr ⟨u, child, found⟩)

theorem Labelled.siblings_disjoint {t a b : Tree} (labelled : t.Labelled) (left : a ∈ t.children)
    (right : b ∈ t.children) (apart : a ≠ b) : List.Disjoint a.labels b.labels := by
  have distinct := labelled.distinct
  rw [labels_eq] at distinct
  have pairwise := (List.nodup_flatMap.mp (List.nodup_cons.mp distinct).2).2
  have symm : Std.Symm (Function.onFun List.Disjoint labels) := ⟨fun _ _ disjoint => List.disjoint_symm disjoint⟩
  exact pairwise.forall left right apart

theorem Labelled.eq_child {t a b : Tree} {l : Nat} (labelled : t.Labelled) (left : a ∈ t.children)
    (right : b ∈ t.children) (inLeft : l ∈ a.labels) (inRight : l ∈ b.labels) : a = b := by
  by_contra apart
  exact labelled.siblings_disjoint left right apart inLeft inRight

theorem Labelled.not_below {t p : Tree} (labelled : t.Labelled) (inside : p ∈ t.nodes) :
    t ∉ p.children := by
  intro child
  rcases mem_nodes.mp inside with rfl | ⟨u, isChild, member⟩
  · exact labelled.label_not_below child (label_mem_labels (mem_nodes_self _))
  · have again : t ∈ u.nodes := mem_nodes_trans member (mem_nodes_of_child child (mem_nodes_self t))
    exact labelled.label_not_below isChild (label_mem_labels again)

theorem Labelled.parent_unique {t p q a : Tree} (labelled : t.Labelled) (left : p ∈ t.nodes)
    (right : q ∈ t.nodes) (ofLeft : a ∈ p.children) (ofRight : a ∈ q.children) : p = q := by
  induction t using inductionOn with
  | node m kind slots ih =>
    have inside : ∀ u r : Tree, r ∈ u.nodes → a ∈ r.children → a.mark.label ∈ u.labels :=
      fun u r member child => label_mem_labels
        (mem_nodes_trans member (mem_nodes_of_child child (mem_nodes_self a)))
    have atTop : ∀ u r : Tree, u ∈ (Tree.node m kind slots).children → r ∈ u.nodes → a ∈ r.children →
        a ∉ (Tree.node m kind slots).children := by
      intro u r isChild member child top
      obtain rfl := labelled.eq_child top isChild (label_mem_labels (mem_nodes_self a))
        (inside u r member child)
      exact (labelled.child top).not_below member child
    rw [nodes_eq] at left right
    rcases List.mem_cons.mp left with rfl | left <;> rcases List.mem_cons.mp right with rfl | right
    · rfl
    · obtain ⟨u, isChild, member⟩ := List.mem_flatMap.mp right
      exact absurd ofLeft (atTop u q isChild member ofRight)
    · obtain ⟨u, isChild, member⟩ := List.mem_flatMap.mp left
      exact absurd ofRight (atTop u p isChild member ofLeft)
    · obtain ⟨u, isChild, member⟩ := List.mem_flatMap.mp left
      obtain ⟨u', isChild', member'⟩ := List.mem_flatMap.mp right
      obtain rfl := labelled.eq_child isChild isChild' (inside u p member ofLeft)
        (inside u' q member' ofRight)
      obtain ⟨slot, isSlot, inSlot⟩ := mem_children.mp isChild
      exact ih slot isSlot u inSlot (labelled.child isChild) member member'

/-! ## Ways down -/

section Ways

open Relation

variable {step : Tree → Tree → Prop} {t n s : Tree}

theorem mem_nodes_of_way (down : ∀ p u, step p u → u ∈ p.children) (way : ReflTransGen step t n) : n ∈ t.nodes := by
  induction way using ReflTransGen.head_induction_on with
  | refl => exact mem_nodes_self n
  | head first _ ih => exact mem_nodes_of_child (down _ _ first) ih

theorem way_of_mem (inside : n ∈ t.nodes)
    (each : ∀ p ∈ t.nodes, ∀ u ∈ p.children, n ∈ u.nodes → step p u) : ReflTransGen step t n := by
  induction t using inductionOn with
  | node m kind slots ih =>
    by_cases top : n = .node m kind slots
    · exact top ▸ .refl
    · have self := mem_nodes_self (.node m kind slots)
      obtain ⟨u, isChild, member⟩ := (mem_nodes.mp inside).resolve_left top
      obtain ⟨slot, isSlot, inSlot⟩ := mem_children.mp isChild
      have below := ih slot isSlot u inSlot member fun p isNode => each p (mem_nodes_of_child isChild isNode)
      exact .head (each _ self u isChild member) below

theorem Labelled.antisymm (labelled : t.Labelled) (inside : s ∈ t.nodes) (around : t ∈ s.nodes) : s = t := by
  by_contra apart
  obtain ⟨u, isChild, member⟩ := (mem_nodes.mp inside).resolve_left apart
  exact labelled.label_not_below isChild (label_mem_labels (mem_nodes_trans member around))

theorem Labelled.nested {a b : Tree} (labelled : t.Labelled) (isNode : a ∈ t.nodes) (isNode' : b ∈ t.nodes)
    (inside : n ∈ a.nodes) (inside' : n ∈ b.nodes) : b ∈ a.nodes ∨ a ∈ b.nodes := by
  induction t using inductionOn with
  | node m kind slots ih =>
    by_cases top : a = .node m kind slots
    · exact .inl (top ▸ isNode')
    by_cases top' : b = .node m kind slots
    · exact .inr (top' ▸ isNode)
    rw [nodes_eq] at isNode isNode'
    obtain ⟨u, isChild, below⟩ := List.mem_flatMap.mp ((List.mem_cons.mp isNode).resolve_left top)
    obtain ⟨v, isChild', below'⟩ := List.mem_flatMap.mp ((List.mem_cons.mp isNode').resolve_left top')
    obtain rfl := labelled.eq_child isChild isChild' (label_mem_labels (mem_nodes_trans below inside))
      (label_mem_labels (mem_nodes_trans below' inside'))
    obtain ⟨slot, isSlot, inSlot⟩ := mem_children.mp isChild
    exact ih slot isSlot u inSlot (labelled.child isChild) below below'

theorem Labelled.way_around (labelled : t.Labelled) (down : ∀ p u, step p u → u ∈ p.children)
    (way : ReflTransGen step t n) (inside : s ∈ t.nodes) (around : n ∈ s.nodes) :
    ReflTransGen step t s ∧ ReflTransGen step s n := by
  induction way with
  | refl =>
    obtain rfl := labelled.antisymm inside around
    exact ⟨.refl, .refl⟩
  | @tail p n before last ih =>
    by_cases top : n = s
    · exact ⟨top ▸ before.tail last, top ▸ .refl⟩
    · obtain ⟨q, isNode, isChild⟩ := exists_parent around top
      obtain rfl := labelled.parent_unique (mem_nodes_trans inside isNode) (mem_nodes_of_way down before) isChild
        (down _ _ last)
      obtain ⟨above, below⟩ := ih isNode
      exact ⟨above, below.tail last⟩

end Ways

/-! ## Labelling -/

theorem labels_node (m : Mark) (kind : Kind) (slots : List (List Tree)) :
    (Tree.node m kind slots).labels = m.label :: (nodesSlots slots).map fun n => n.mark.label := rfl

mutual

theorem label_spec (next : Nat) (t : Tree) :
    (t.label next).1.labels = List.range' next t.size ∧ (t.label next).2 = next + t.size := by
  cases t with
  | node m kind slots =>
    obtain ⟨below, after⟩ := labelSlots_spec (next + 1) slots
    simp only [label, labels_node, size, below, after]
    exact ⟨by rw [Nat.add_comm 1, List.range'_succ], by omega⟩

theorem labelSlots_spec (next : Nat) (slots : List (List Tree)) :
    (nodesSlots (labelSlots next slots).1).map (fun n => n.mark.label) =
        List.range' next (sizeSlots slots) ∧
      (labelSlots next slots).2 = next + sizeSlots slots := by
  cases slots with
  | nil => simp [labelSlots, nodesSlots, sizeSlots]
  | cons slot rest =>
    obtain ⟨here, middle⟩ := labelAll_spec next slot
    obtain ⟨there, after⟩ := labelSlots_spec (next + sizeAll slot) rest
    simp only [labelSlots, nodesSlots, sizeSlots, List.map_append, here, middle, there, after]
    exact ⟨by rw [← List.range'_append_1], by omega⟩

theorem labelAll_spec (next : Nat) (ts : List Tree) :
    (nodesAll (labelAll next ts).1).map (fun n => n.mark.label) = List.range' next (sizeAll ts) ∧
      (labelAll next ts).2 = next + sizeAll ts := by
  cases ts with
  | nil => simp [labelAll, nodesAll, sizeAll]
  | cons t rest =>
    obtain ⟨here, middle⟩ := label_spec next t
    obtain ⟨there, after⟩ := labelAll_spec (next + t.size) rest
    rw [labels] at here
    simp only [labelAll, nodesAll, sizeAll, List.map_append, here, middle, there, after]
    exact ⟨by rw [← List.range'_append_1], by omega⟩

end

@[simp] theorem label_kind (t : Tree) (next : Nat) : (t.label next).1.kind = t.kind := by
  cases t
  rfl

theorem exists_of_labelAll {next : Nat} {ts : List Tree} {u : Tree}
    (member : u ∈ (labelAll next ts).1) : ∃ t ∈ ts, ∃ k, u = (t.label k).1 := by
  induction ts generalizing next with
  | nil => cases member
  | cons t rest ih =>
    rcases List.mem_cons.mp member with rfl | later
    · exact ⟨t, .head _, next, rfl⟩
    · obtain ⟨v, inRest, found⟩ := ih later
      exact ⟨v, .tail _ inRest, found⟩

theorem exists_of_labelSlots {next : Nat} {slots : List (List Tree)} {u : Tree}
    (member : u ∈ (labelSlots next slots).1.flatten) :
    ∃ t ∈ slots.flatten, ∃ k, u = (t.label k).1 := by
  induction slots generalizing next with
  | nil => cases member
  | cons slot rest ih =>
    simp only [labelSlots, List.flatten_cons, List.mem_append] at member ⊢
    rcases member with here | later
    · obtain ⟨t, inSlot, found⟩ := exists_of_labelAll here
      exact ⟨t, .inl inSlot, found⟩
    · obtain ⟨t, inRest, found⟩ := ih later
      exact ⟨t, .inr inRest, found⟩

theorem exists_of_label_slot {t u : Tree} {next k : Nat} (member : u ∈ (t.label next).1.slot k) :
    ∃ v ∈ t.slot k, ∃ j, u = (v.label j).1 := by
  obtain ⟨m, kind, slots⟩ := t
  have inSlots : ∀ (slots : List (List Tree)) (next k : Nat), u ∈ (labelSlots next slots).1.getD k [] →
      ∃ v ∈ slots.getD k [], ∃ j, u = (v.label j).1 := by
    intro slots
    induction slots with
    | nil => exact fun _ _ none => absurd none List.not_mem_nil
    | cons slot rest ih =>
      intro next k member
      cases k with
      | zero => exact exists_of_labelAll member
      | succ k => exact ih _ k member
  exact inSlots slots (next + 1) k member

theorem exists_of_label_child {t u : Tree} {next : Nat} (isChild : u ∈ (t.label next).1.children) :
    ∃ v ∈ t.children, ∃ k, u = (v.label k).1 := by
  cases t
  exact exists_of_labelSlots isChild

theorem exists_of_label_node {t n : Tree} {next : Nat} (member : n ∈ (t.label next).1.nodes) :
    ∃ v ∈ t.nodes, ∃ k, n = (v.label k).1 := by
  induction t using inductionOn generalizing next with
  | node m kind slots ih =>
    rcases mem_nodes.mp member with rfl | ⟨u, isChild, inside⟩
    · exact ⟨_, mem_nodes_self _, next, rfl⟩
    · obtain ⟨v, isBefore, k, rfl⟩ := exists_of_label_child isChild
      obtain ⟨slot, isSlot, inSlot⟩ := mem_children.mp isBefore
      obtain ⟨w, inV, found⟩ := ih slot isSlot v inSlot inside
      exact ⟨w, mem_nodes_of_child isBefore inV, found⟩

theorem labelled_label {next : Nat} (positive : 0 < next) (t : Tree) : (t.label next).1.Labelled := by
  have range := (label_spec next t).1
  refine ⟨range ▸ List.nodup_range', fun zero => ?_⟩
  rw [range, List.mem_range'_1] at zero
  omega

end Tree

/-- A parsed file is what the grammar makes of the tokens of its text, labelled. -/
theorem exists_of_parseModule {text : Text} {typeComments : Bool} {version : Nat} {tree : Tree}
    (parsed : parseModule text typeComments version = .ok tree) :
    let lexed := Lexer.run { typeComments, version } text.unifyLineEnds.endLine
    ∃ inner last, Parser.file (Parser.rules (8 * text.length + 40)) lexed.ignores { version }
      { rest := lexed.tokens } = some (inner, last) ∧ tree = (inner.label 1).1 := by
  unfold parseModule at parsed
  split at parsed
  · cases parsed
  · dsimp only at parsed
    unfold parseTokens at parsed
    split at parsed
    case h_1 inner last run =>
      cases parsed
      exact ⟨inner, last, run, rfl⟩
    case h_2 => cases parsed

theorem labelled_of_parseModule {text : Text} {typeComments : Bool} {version : Nat} {tree : Tree}
    (parsed : parseModule text typeComments version = .ok tree) : tree.Labelled := by
  obtain ⟨inner, -, -, rfl⟩ := exists_of_parseModule parsed
  exact Tree.labelled_label (by decide) inner

end MacroExpand
