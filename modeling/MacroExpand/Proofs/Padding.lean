import MacroExpand.Proofs.Finding
import MacroExpand.Proofs.Outcome

/-!
# Added `pass` statements

Emitted code reads as the tree of a pass with other places and, where a removed statement has shared a
line, with a `pass` in its place.  `Tree.padded` compares two trees up to that.  A node that opens with
the directive did so before `pass` was added.
-/

set_option autoImplicit false

namespace MacroExpand

/-! ## Trees that differ in places and in `pass` -/

/-- Whether two kinds are the same.  Which lines of a file a type checker ignores is left out. -/
def Kind.agrees : Kind → Kind → Bool
  | .module _, .module _ => true
  | k, k' => k = k'

theorem Kind.eq_or_module_of_agrees {k k' : Kind} (same : k.agrees k' = true) :
    k = k' ∨ (∃ ignores, k = .module ignores) ∧ ∃ ignores, k' = .module ignores := by
  unfold agrees at same
  split at same
  · exact .inr ⟨⟨_, rfl⟩, _, rfl⟩
  · exact .inl (of_decide_eq_true same)

theorem Kind.eq_of_agrees {k k' : Kind} (same : k.agrees k' = true)
    (noModule : ∀ ignores, k' ≠ .module ignores) : k = k' := by
  rcases eq_or_module_of_agrees same with equal | ⟨-, ignores, isModule⟩
  · exact equal
  · exact absurd isModule (noModule ignores)

namespace Tree

def isPass (t : Tree) : Bool := t.kind = .pass && t.slots.isEmpty

theorem children_of_isPass {t : Tree} (added : t.isPass = true) : t.children = [] := by
  rw [isPass, Bool.and_eq_true, List.isEmpty_iff] at added
  rw [children, added.2, List.flatten_nil]

mutual

/-- Whether a tree is another one with `pass` statements added to its blocks, up to where its nodes
stand. -/
def padded : Tree → Tree → Bool
  | .node _ k slots, .node _ k' slots' => k.agrees k' && paddedSlots k 0 slots slots'

def paddedSlots (kind : Kind) : Nat → List (List Tree) → List (List Tree) → Bool
  | _, [], [] => true
  | k, slot :: rest, slot' :: rest' =>
    paddedAll (kind.holds k = .statement) slot slot' && paddedSlots kind (k + 1) rest rest'
  | _, _, _ => false

def paddedAll (inBlock : Bool) : List Tree → List Tree → Bool
  | [], [] => true
  | t :: ts, u :: us =>
    (padded t u && paddedAll inBlock ts us) || (inBlock && isPass u && paddedAll inBlock (t :: ts) us)
  | [], u :: us => inBlock && isPass u && paddedAll inBlock [] us
  | _ :: _, [] => false

end

theorem paddedAll_cons {inBlock : Bool} {ts us : List Tree} {u : Tree}
    (padded : paddedAll inBlock ts (u :: us) = true) :
    (∃ t rest, ts = t :: rest ∧ t.padded u = true ∧ paddedAll inBlock rest us = true) ∨
      (inBlock = true ∧ u.isPass = true ∧ paddedAll inBlock ts us = true) := by
  cases ts with
  | nil =>
    simp only [paddedAll, Bool.and_eq_true] at padded
    exact .inr ⟨padded.1.1, padded.1.2, padded.2⟩
  | cons t rest =>
    simp only [paddedAll, Bool.or_eq_true, Bool.and_eq_true] at padded
    rcases padded with ⟨here, there⟩ | ⟨⟨isBlock, isPass⟩, there⟩
    · exact .inl ⟨t, rest, rfl, here, there⟩
    · exact .inr ⟨isBlock, isPass, there⟩

theorem exists_of_paddedAll {inBlock : Bool} {ts us : List Tree} {u : Tree}
    (padded : paddedAll inBlock ts us = true) (member : u ∈ us) :
    u.isPass = true ∨ ∃ t ∈ ts, t.padded u = true := by
  induction us generalizing ts with
  | nil => cases member
  | cons v us ih =>
    rcases paddedAll_cons padded with ⟨t, rest, rfl, here, there⟩ | ⟨-, isPass, there⟩
    · rcases List.mem_cons.mp member with rfl | later
      · exact .inr ⟨t, .head _, here⟩
      · rcases ih there later with isPass | ⟨w, inRest, found⟩
        · exact .inl isPass
        · exact .inr ⟨w, .tail _ inRest, found⟩
    · rcases List.mem_cons.mp member with rfl | later
      · exact .inl isPass
      · exact ih there later

theorem padded_head {ts us : List Tree} (padded : paddedAll false ts us = true) :
    ts.length = us.length ∧ ∀ u ∈ us.head?, ∃ t ∈ ts.head?, t.padded u = true := by
  induction us generalizing ts with
  | nil =>
    cases ts with
    | nil => exact ⟨rfl, fun u none => nomatch none⟩
    | cons t ts => simp [paddedAll] at padded
  | cons u us ih =>
    rcases paddedAll_cons padded with ⟨t, rest, rfl, here, there⟩ | ⟨isBlock, -⟩
    · refine ⟨by simp [(ih there).1], fun v isHead => ⟨t, rfl, ?_⟩⟩
      cases isHead
      exact here
    · cases isBlock

theorem paddedSlots_slot {kind : Kind} {k : Nat} {slots slots' : List (List Tree)}
    (padded : paddedSlots kind k slots slots' = true) (i : Nat) :
    paddedAll (kind.holds (k + i) = .statement) (slots.getD i []) (slots'.getD i []) = true := by
  induction slots generalizing k slots' i with
  | nil =>
    cases slots' with
    | nil => simp [paddedAll]
    | cons slot' rest' => simp [paddedSlots] at padded
  | cons slot rest ih =>
    cases slots' with
    | nil => simp [paddedSlots] at padded
    | cons slot' rest' =>
      rw [paddedSlots, Bool.and_eq_true] at padded
      cases i with
      | zero => simpa using padded.1
      | succ i =>
        have later := ih padded.2 i
        simpa [Nat.add_assoc, Nat.add_comm 1 i] using later

theorem kind_of_padded {t u : Tree} (padded : t.padded u = true) : t.kind.agrees u.kind = true := by
  cases t
  cases u
  rw [Tree.padded, Bool.and_eq_true] at padded
  exact padded.1

theorem slot_of_padded {t u : Tree} (padded : t.padded u = true) (k : Nat) :
    paddedAll (t.kind.holds k = .statement) (t.slot k) (u.slot k) = true := by
  cases t
  cases u
  rw [Tree.padded, Bool.and_eq_true] at padded
  have found := paddedSlots_slot padded.2 k
  rwa [Nat.zero_add] at found

theorem child_of_padded {t u v : Tree} (padded : t.padded u = true) (isChild : v ∈ u.children) :
    v.isPass = true ∨ ∃ w ∈ t.children, w.padded v = true := by
  obtain ⟨slot, isSlot, inSlot⟩ := List.mem_flatten.mp isChild
  obtain ⟨k, below, rfl⟩ := List.mem_iff_getElem.mp isSlot
  have inSlot' : v ∈ u.slot k := by simpa [Tree.slot, List.getD, below] using inSlot
  rcases exists_of_paddedAll (slot_of_padded padded k) inSlot' with isPass | ⟨w, inW, found⟩
  · exact .inl isPass
  · refine .inr ⟨w, ?_, found⟩
    rw [Tree.slot, List.getD_eq_getElem?_getD] at inW
    cases there : t.slots[k]? with
    | none => simp [there] at inW
    | some slot' =>
      rw [there] at inW
      exact List.mem_flatten.mpr ⟨slot', List.mem_of_getElem? there, inW⟩

theorem node_of_padded {t u n : Tree} (padded : t.padded u = true) (member : n ∈ u.nodes) :
    n.isPass = true ∨ ∃ v ∈ t.nodes, v.padded n = true := by
  induction u using inductionOn generalizing t with
  | node m kind slots ih =>
    rcases mem_nodes.mp member with rfl | ⟨u, isChild, inside⟩
    · exact .inr ⟨t, mem_nodes_self t, padded⟩
    · rcases child_of_padded padded isChild with added | ⟨w, isBefore, found⟩
      · rw [nodes_eq, children_of_isPass added] at inside
        exact .inl (List.mem_singleton.mp inside ▸ added)
      · obtain ⟨slot, isSlot, inSlot⟩ := mem_children.mp isChild
        rcases ih slot isSlot u inSlot found inside with added | ⟨v, inW, found⟩
        · exact .inl added
        · exact .inr ⟨v, mem_nodes_of_child isBefore inW, found⟩

mutual

theorem padded_remark (change : Mark → Mark) (t u : Tree) : (t.remark change).padded u = t.padded u := by
  cases t with
  | node m kind slots =>
    cases u with
    | node m' kind' slots' => rw [remark, padded, padded, paddedSlots_remark]

theorem paddedSlots_remark (change : Mark → Mark) (kind : Kind) (k : Nat)
    (slots slots' : List (List Tree)) :
    paddedSlots kind k (remarkSlots change slots) slots' = paddedSlots kind k slots slots' := by
  cases slots with
  | nil => rfl
  | cons slot rest =>
    cases slots' with
    | nil => rfl
    | cons slot' rest' =>
      rw [remarkSlots, paddedSlots, paddedSlots, paddedAll_remark, paddedSlots_remark]

theorem paddedAll_remark (change : Mark → Mark) (inBlock : Bool) (ts us : List Tree) :
    paddedAll inBlock (remarkAll change ts) us = paddedAll inBlock ts us := by
  cases us with
  | nil => cases ts <;> rfl
  | cons u us =>
    cases ts with
    | nil => rfl
    | cons t rest =>
      have same := paddedAll_remark change inBlock (t :: rest) us
      rw [remarkAll] at same
      rw [remarkAll, paddedAll, paddedAll, padded_remark, paddedAll_remark, same]

end

end Tree

/-! ## Nodes that open with the directive -/

namespace Scan

def Context.opensNode (c : Context) (t : Tree) : Bool :=
  match t.kind with
  | .functionDef .. => c.opens (t.slot 1)
  | .lambdaExpr => c.opensLambda t
  | _ => false

variable {c c' : Context}

theorem opensNode_congr (same : c'.directive = c.directive) (t : Tree) :
    c'.opensNode t = c.opensNode t := by
  cases c
  cases c'
  cases same
  rfl

theorem recognise_of_closed {p t : Tree} (closed : c.opensNode t = false) :
    c.recognise p t = ([], true) := by
  unfold Context.recognise
  split
  · rename_i isFunction
    simp only [Context.opensNode, isFunction] at closed
    simp [closed]
  · rename_i isLambda
    simp only [Context.opensNode, isLambda] at closed
    simp [closed]
  · rfl

theorem isDirective_of_padded {t u : Tree} (padded : t.padded u = true)
    (isDirective : c.isDirective u = true) : c.isDirective t = true := by
  unfold Context.isDirective at isDirective ⊢
  split at isDirective
  · rename_i isText
    have same := Kind.eq_of_agrees (Tree.kind_of_padded padded) (by simp [isText])
    rwa [same, isText]
  · cases isDirective

theorem part_of_padded {t u : Tree} {k : Nat} (padded : t.padded u = true)
    (noBlock : t.kind.holds k ≠ .statement) : (t.part k).padded (u.part k) = true := by
  have slots := Tree.slot_of_padded padded k
  rw [decide_eq_false noBlock] at slots
  obtain ⟨sameLength, heads⟩ := Tree.padded_head slots
  unfold Tree.part Tree.part?
  cases first : (u.slot k).head? with
  | none =>
    have empty : t.slot k = [] := by
      rw [← List.length_eq_zero_iff, sameLength, List.head?_eq_none_iff.mp first]
      rfl
    rw [empty]
    rfl
  | some v =>
    obtain ⟨w, isFirst, found⟩ := heads v first
    rw [Option.mem_def.mp isFirst]
    exact found

theorem opens_of_padded {ts us : List Tree} (padded : Tree.paddedAll true ts us = true)
    (opens : c.opens us = true) : c.opens ts = true := by
  cases us with
  | nil => cases opens
  | cons u us =>
    rw [Context.opens, Bool.and_eq_true, decide_eq_true_eq] at opens
    obtain ⟨isStatement, isDirective⟩ := opens
    rcases Tree.paddedAll_cons padded with ⟨t, rest, rfl, here, -⟩ | ⟨-, added, -⟩
    · have same : t.kind = .exprStmt :=
        (Kind.eq_of_agrees (Tree.kind_of_padded here) (by simp [isStatement])).trans isStatement
      have part := part_of_padded (k := 0) here (by rw [same]; decide)
      rw [Context.opens, Bool.and_eq_true, decide_eq_true_eq]
      exact ⟨same, isDirective_of_padded part isDirective⟩
    · rw [Tree.isPass, isStatement] at added
      cases added

theorem opensLambda_of_padded {t u : Tree} (isLambda : t.kind = .lambdaExpr)
    (padded : t.padded u = true) (opens : c.opensLambda u = true) : c.opensLambda t = true := by
  have body := part_of_padded (k := 1) padded (by rw [isLambda]; decide)
  unfold Context.opensLambda at opens ⊢
  dsimp only at opens ⊢
  split at opens
  case h_2 => cases opens
  case h_1 usage isTuple =>
    have same : (t.part 1).kind = .tuple usage :=
      (Kind.eq_of_agrees (Tree.kind_of_padded body) (by simp [isTuple])).trans isTuple
    have elements := Tree.slot_of_padded body 0
    rw [same] at elements
    obtain ⟨sameLength, heads⟩ := Tree.padded_head elements
    rw [same]
    rw [Bool.and_eq_true] at opens ⊢
    refine ⟨by rw [sameLength]; exact opens.1, ?_⟩
    cases first : ((u.part 1).slot 0).head? with
    | none => simp [first] at opens
    | some v =>
      obtain ⟨w, isFirst, found⟩ := heads v first
      rw [Option.mem_def.mp isFirst]
      rw [first] at opens
      exact isDirective_of_padded found opens.2

/-- A function or a lambda opens with the directive only if it did so before `pass` was added. -/
theorem opensNode_of_padded {t u : Tree} (padded : t.padded u = true) (opens : c.opensNode u = true) :
    c.opensNode t = true := by
  unfold Context.opensNode at opens
  split at opens
  · rename_i isFunction
    have same := (Kind.eq_of_agrees (Tree.kind_of_padded padded) (by simp [isFunction])).trans isFunction
    have body := Tree.slot_of_padded padded 1
    rw [same] at body
    rw [Context.opensNode, same]
    exact opens_of_padded body opens
  · rename_i isLambda
    have same := (Kind.eq_of_agrees (Tree.kind_of_padded padded) (by simp [isLambda])).trans isLambda
    rw [Context.opensNode, same]
    exact opensLambda_of_padded same padded opens
  · cases opens

theorem closed_of_isPass {t : Tree} (added : t.isPass = true) : c.opensNode t = false := by
  rw [Tree.isPass, Bool.and_eq_true, decide_eq_true_eq] at added
  rw [Context.opensNode, added.1]

/-- If nothing in a tree opens with the directive, nothing does after `pass` is added. -/
theorem closed_of_padded {t u : Tree} (closed : ∀ n ∈ t.nodes, c.opensNode n = false)
    (padded : t.padded u = true) : ∀ n ∈ u.nodes, c.opensNode n = false := by
  intro n member
  rcases Tree.node_of_padded padded member with added | ⟨v, inside, found⟩
  · exact closed_of_isPass added
  · by_contra opens
    rw [Bool.not_eq_false] at opens
    have opensBefore := opensNode_of_padded found opens
    rw [closed v inside] at opensBefore
    cases opensBefore

theorem candidates_of_closed {p t : Tree} (closed : ∀ n ∈ t.nodes, c.opensNode n = false) :
    c.candidates p t = [] := by
  refine List.eq_nil_iff_forall_not_mem.mpr fun candidate found => ?_
  obtain ⟨q, n, reached, here⟩ := Context.exists_recognised found
  rw [recognise_of_closed (closed n reached.mem_nodes)] at here
  cases here

theorem closed_of_isPass_nodes {t : Tree} (added : t.isPass = true) :
    ∀ n ∈ t.nodes, c.opensNode n = false := by
  intro n member
  rw [Tree.nodes_eq, Tree.children_of_isPass added] at member
  exact List.mem_singleton.mp member ▸ closed_of_isPass added

end Scan

end MacroExpand
