import Mathlib.Logic.Relation
import Mathlib.Data.List.Basic

/-!
# Walks that cut cycles

A walk goes down from node to node.  Nodes that can be cut are entered once and cut when they are met
again; all others are entered as often as they are met.  A node that is met below itself has some node of
the way between cut.  So in the end every node that can be reached was entered, and every cycle has a node
that is cut: of the nodes of a cycle, the first that is entered leads to all others.
-/

set_option autoImplicit false

namespace MacroExpand

variable {α : Type}

structure Marks (α : Type) where
  entered : List α := []
  /-- The nodes that can be cut, entered so far. -/
  order : List α := []
  cut : List α := []

def Marks.enter (canCut : α → Bool) (m : Marks α) (n : α) : Marks α :=
  { m with entered := n :: m.entered, order := if canCut n then n :: m.order else m.order }

/-- From what is noted before, a walk over some nodes leads to what is noted after.  `path` holds the nodes
above, innermost first. -/
inductive Walk (kids : α → List α) (canCut : α → Bool) : List α → Marks α → List α → Marks α → Prop where
  | done {path : List α} {m : Marks α} : Walk kids canCut path m [] m
  /-- A node below itself. -/
  | again {path front outer rest : List α} {m m' : Marks α} {n k : α} (split : path = front ++ n :: outer)
      (chosen : k ∈ front ++ [n]) (can : canCut k = true)
      (next : Walk kids canCut path { m with cut := k :: m.cut } rest m') :
      Walk kids canCut path m (n :: rest) m'
  | meets {path rest : List α} {m m' : Marks α} {n : α} (can : canCut n = true) (met : n ∈ m.order)
      (next : Walk kids canCut path { m with cut := n :: m.cut } rest m') :
      Walk kids canCut path m (n :: rest) m'
  | enters {path rest : List α} {m middle m' : Marks α} {n : α} (isNew : n ∉ path)
      (inside : Walk kids canCut (n :: path) (m.enter canCut n) (kids n) middle)
      (next : Walk kids canCut path middle rest m') : Walk kids canCut path m (n :: rest) m'

namespace Walk

variable {kids : α → List α} {canCut : α → Bool} {path ns : List α} {m m' : Marks α}

theorem append {ms : List α} {middle : Marks α} (first : Walk kids canCut path m ns middle)
    (second : Walk kids canCut path middle ms m') : Walk kids canCut path m (ns ++ ms) m' := by
  induction first with
  | done => exact second
  | again split chosen can _ ih => exact .again split chosen can (ih second)
  | meets can met _ ih => exact .meets can met (ih second)
  | enters isNew inside _ _ ih => exact .enters isNew inside (ih second)

theorem mem_enter (canCut : α → Bool) (m : Marks α) (n : α) : n ∈ (m.enter canCut n).entered :=
  List.mem_cons_self

theorem order_enter {n k : α} (member : k ∈ (m.enter canCut n).order) :
    k ∈ m.order ∨ k = n ∧ canCut n = true := by
  unfold Marks.enter at member
  by_cases can : canCut n = true
  · simp only [if_pos can, List.mem_cons] at member
    exact member.symm.imp_right fun same => ⟨same, can⟩
  · simp only [if_neg can] at member
    exact .inl member

theorem order_subset_enter (canCut : α → Bool) (m : Marks α) (n : α) : m.order ⊆ (m.enter canCut n).order := by
  intro k member
  unfold Marks.enter
  by_cases can : canCut n = true
  · simp only [if_pos can]
    exact List.mem_cons_of_mem n member
  · simp only [if_neg can]
    exact member

theorem grows (walk : Walk kids canCut path m ns m') :
    m.entered ⊆ m'.entered ∧ m.order ⊆ m'.order ∧ m.cut ⊆ m'.cut := by
  induction walk with
  | done => exact ⟨fun _ h => h, fun _ h => h, fun _ h => h⟩
  | again _ _ _ _ ih | meets _ _ _ ih =>
    exact ⟨ih.1, ih.2.1, fun k member => ih.2.2 (List.mem_cons_of_mem _ member)⟩
  | @enters _ _ m _ _ n _ _ _ inner ih =>
    refine ⟨fun k member => ?_, fun k member => ?_, fun k member => ih.2.2 (inner.2.2 member)⟩
    · exact ih.1 (inner.1 (List.mem_cons_of_mem n member))
    · exact ih.2.1 (inner.2.1 (order_subset_enter canCut m n member))

theorem can_of_order (walk : Walk kids canCut path m ns m') (before : ∀ k ∈ m.order, canCut k = true) :
    ∀ k ∈ m'.order, canCut k = true := by
  induction walk with
  | done => exact before
  | again _ _ _ _ ih | meets _ _ _ ih => exact ih before
  | enters _ _ _ inner ih =>
    refine ih (inner fun k member => ?_)
    rcases order_enter member with old | ⟨rfl, can⟩
    · exact before k old
    · exact can

theorem order_of_cut (walk : Walk kids canCut path m ns m')
    (above : ∀ k ∈ path, canCut k = true → k ∈ m.order) (before : ∀ k ∈ m.cut, k ∈ m.order) :
    ∀ k ∈ m'.cut, k ∈ m'.order := by
  induction walk with
  | done => exact before
  | @again path front outer rest m m' n k split chosen can _ ih =>
    refine ih above fun j member => ?_
    rcases List.mem_cons.mp member with rfl | old
    · refine above j ?_ can
      rw [split, List.append_cons]
      exact List.mem_append_left outer chosen
    · exact before j old
  | meets _ met _ ih =>
    refine ih above fun j member => ?_
    rcases List.mem_cons.mp member with rfl | old
    · exact met
    · exact before j old
  | @enters path rest m middle m' n isNew inside next inner ih =>
    have kept := order_subset_enter canCut m n
    refine ih (fun k member can => inside.grows.2.1 (kept (above k member can))) (inner ?_ ?_)
    · intro k member can
      rcases List.mem_cons.mp member with rfl | outer
      · simp [Marks.enter, can]
      · exact kept (above k outer can)
    · exact fun k member => kept (before k member)

theorem closed (walk : Walk kids canCut path m ns m') (above : path ⊆ m.entered)
    (noted : m.order ⊆ m.entered) : ns ⊆ m'.entered ∧ m'.order ⊆ m'.entered ∧
      ∀ k ∈ m'.entered, k ∈ m.entered ∨ kids k ⊆ m'.entered := by
  induction walk with
  | done => exact ⟨List.nil_subset _, noted, fun k member => .inl member⟩
  | @again path front outer rest m m' n k split chosen can next ih =>
    obtain ⟨rest, order, all⟩ := ih above noted
    refine ⟨List.cons_subset.mpr ⟨next.grows.1 (above ?_), rest⟩, order, all⟩
    rw [split]
    exact List.mem_append_right front List.mem_cons_self
  | meets can met next ih =>
    obtain ⟨rest, order, all⟩ := ih above noted
    exact ⟨List.cons_subset.mpr ⟨next.grows.1 (noted met), rest⟩, order, all⟩
  | @enters path rest m middle m' n isNew inside next inner ih =>
    have entered := mem_enter canCut m n
    have kept : m.entered ⊆ (m.enter canCut n).entered := List.subset_cons_self n m.entered
    obtain ⟨children, order, all⟩ := inner
      (List.cons_subset.mpr ⟨entered, List.Subset.trans above kept⟩)
      (fun k member => (order_enter member).elim (fun old => kept (noted old)) fun new => new.1 ▸ entered)
    obtain ⟨rest, order', all'⟩ := ih
      (fun k member => inside.grows.1 (kept (above member))) order
    refine ⟨List.cons_subset.mpr ⟨next.grows.1 (inside.grows.1 entered), rest⟩, order', fun k member => ?_⟩
    rcases all' k member with earlier | leads
    · rcases all k earlier with before | leads
      · rcases List.mem_cons.mp before with rfl | old
        · exact .inr fun c child => next.grows.1 (children child)
        · exact .inl old
      · exact .inr fun c child => next.grows.1 (leads child)
    · exact .inr leads

section Cycles

variable {cycle : α → Prop} (leads : ∀ c, cycle c → ∃ c' ∈ kids c, cycle c')

include leads in
/-- A walk that has only nodes of a cycle above it, up to some node, meets no other node of the cycle, if
none of them is cut. -/
theorem not_on_cycle (walk : Walk kids canCut path m ns m') (uncut : ∀ c ∈ m'.cut, ¬ cycle c) :
    ∀ inner outer : List α, path = inner ++ outer → (∀ c ∈ inner, cycle c) → (∀ c ∈ outer, ¬ cycle c) →
      ∀ n ∈ ns, ¬ cycle n := by
  induction walk with
  | done =>
    intro inner outer _ _ _ n member
    cases member
  | @again path front behind rest m m' n k split chosen can next ih =>
    intro inner outer shape inside outside n' member
    rcases List.mem_cons.mp member with rfl | later
    · intro here
      -- the way from the node back to itself lies in the inner part
      obtain ⟨more, long⟩ : ∃ more, inner = front ++ [n'] ++ more := by
        rw [split] at shape
        rcases List.append_eq_append_iff.mp shape with ⟨between, rfl, tail⟩ | ⟨between, rfl, tail⟩
        · cases between with
          | nil =>
            rw [List.nil_append] at tail
            exact absurd here (outside n' (tail ▸ List.mem_cons_self))
          | cons first more =>
            rw [List.cons_append, List.cons.injEq] at tail
            exact ⟨more, by rw [← tail.1]; simp⟩
        · exact absurd here (outside n' (tail ▸ List.mem_append_right between List.mem_cons_self))
      have cut := next.grows.2.2 List.mem_cons_self
      exact uncut k cut (inside k (long ▸ List.mem_append_left more chosen))
    · exact ih uncut inner outer shape inside outside n' later
  | @meets path rest m m' n can met next ih =>
    intro inner outer shape inside outside n' member
    rcases List.mem_cons.mp member with rfl | later
    · exact uncut n' (next.grows.2.2 List.mem_cons_self)
    · exact ih uncut inner outer shape inside outside n' later
  | @enters path rest m middle m' n isNew walk next below ih =>
    intro inner outer shape inside outside n' member
    rcases List.mem_cons.mp member with rfl | later
    · intro here
      obtain ⟨c, child, there⟩ := leads n' here
      refine below (fun k cut => uncut k (next.grows.2.2 cut)) (n' :: inner) outer ?_ ?_ outside c child there
      · rw [shape, List.cons_append]
      · exact List.forall_mem_cons.mpr ⟨here, inside⟩
    · exact ih uncut inner outer shape inside outside n' later

include leads in
theorem not_entered (walk : Walk kids canCut path m ns m') (uncut : ∀ c ∈ m'.cut, ¬ cycle c)
    (above : ∀ c ∈ path, ¬ cycle c) (before : ∀ c ∈ m.entered, ¬ cycle c) :
    ∀ c ∈ m'.entered, ¬ cycle c := by
  induction walk with
  | done => exact before
  | again _ _ _ _ ih | meets _ _ _ ih => exact ih uncut above before
  | @enters path rest m middle m' n isNew inside next inner ih =>
    have apart : ¬ cycle n := not_on_cycle leads (.enters isNew inside next) uncut [] path
      (List.nil_append path).symm (fun _ none => by cases none) above n List.mem_cons_self
    refine ih uncut above (inner (fun k cut => uncut k (next.grows.2.2 cut)) ?_ ?_)
    · exact List.forall_mem_cons.mpr ⟨apart, above⟩
    · exact List.forall_mem_cons.mpr ⟨apart, before⟩

end Cycles

def Leads (kids : α → List α) : α → α → Prop := Relation.ReflTransGen fun a b => b ∈ kids a

theorem leads_of_entered (walk : Walk kids canCut path m ns m') :
    ∀ k ∈ m'.entered, k ∈ m.entered ∨ ∃ n ∈ ns, Leads kids n k := by
  induction walk with
  | done => exact fun k member => .inl member
  | again _ _ _ _ ih | meets _ _ _ ih =>
    intro k member
    rcases ih k member with before | ⟨n, later, leads⟩
    · exact .inl before
    · exact .inr ⟨n, List.mem_cons_of_mem _ later, leads⟩
  | @enters _ _ _ _ _ n _ _ _ inner ih =>
    intro k member
    rcases ih k member with inside | ⟨n', later, leads⟩
    · rcases inner k inside with before | ⟨c, child, leads⟩
      · rcases List.mem_cons.mp before with rfl | old
        · exact .inr ⟨k, List.mem_cons_self, .refl⟩
        · exact .inl old
      · exact .inr ⟨n, List.mem_cons_self, leads.head child⟩
    · exact .inr ⟨n', List.mem_cons_of_mem n later, leads⟩

theorem entered_of_leads {root n : α} (walk : Walk kids canCut [] {} [root] m) (reached : Leads kids root n) :
    n ∈ m.entered := by
  obtain ⟨start, -, all⟩ := walk.closed (List.nil_subset _) (List.nil_subset _)
  induction reached with
  | refl => exact start List.mem_cons_self
  | tail _ child ih =>
    rcases all _ ih with none | leads
    · cases none
    · exact leads child

theorem cuts_cycles {root n : α} (walk : Walk kids canCut [] {} [root] m) (reached : Leads kids root n) :
    ¬ Relation.TransGen (fun a b => b ∈ kids a ∧ b ∉ m.cut) n n := by
  intro around
  let step := fun a b => b ∈ kids a ∧ b ∉ m.cut
  let cycle := fun c => Relation.ReflTransGen step n c ∧ Relation.TransGen step c n
  have leads : ∀ c, cycle c → ∃ c' ∈ kids c, cycle c' := by
    rintro c ⟨there, back⟩
    obtain ⟨c', edge, rest⟩ := Relation.TransGen.head'_iff.mp back
    refine ⟨c', edge.1, there.tail edge, ?_⟩
    rcases Relation.reflTransGen_iff_eq_or_transGen.mp rest with rfl | rest
    · exact around
    · exact rest
  have uncut : ∀ c ∈ m.cut, ¬ cycle c := by
    rintro c cut ⟨there, -⟩
    rcases Relation.reflTransGen_iff_eq_or_transGen.mp there with rfl | there
    · obtain ⟨_, _, edge⟩ := Relation.TransGen.tail'_iff.mp around
      exact edge.2 cut
    · obtain ⟨_, _, edge⟩ := Relation.TransGen.tail'_iff.mp there
      exact edge.2 cut
  have none : ∀ c : α, c ∈ ([] : List α) → ¬ cycle c := nofun
  exact not_entered leads walk uncut none none n (walk.entered_of_leads reached) ⟨.refl, around⟩

end Walk

end MacroExpand
