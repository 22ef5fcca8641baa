import MacroExpand.Value.Serialize
import MacroExpand.Proofs.Walks
import Mathlib.Data.List.Forall2
import Mathlib.Data.Set.Finite.Basic

/-!
# The objects of a value

A value is made of the objects of its graph and of new ones: reducing an instance makes objects for its
arguments, and those can be instances again.  A `Node` names each of them once and for all, an object of
the graph by its number and a new one by the instance whose reduction made it.  Wherever the same reduction
puts its objects into a larger graph, they are the same up to the numbers of new objects.
-/

set_option autoImplicit false

namespace MacroExpand

/-! ## New objects -/

mutual

def Fresh.given : Fresh → List Value
  | .value v => [v]
  | .inst _ _ => []
  | .list items | .tuple items => Fresh.givenAll items
  | .dict entries => Fresh.givenEntries entries

def Fresh.givenAll : List Fresh → List Value
  | [] => []
  | item :: rest => item.given ++ Fresh.givenAll rest

def Fresh.givenEntries : List (Scalar × Fresh) → List Value
  | [] => []
  | entry :: rest => entry.2.given ++ Fresh.givenEntries rest

end

def FreshRecipe.given (fresh : FreshRecipe) : List Value :=
  Fresh.givenAll (fresh.args.getD []) ++ Fresh.givenAll (fresh.kwargs.map Prod.snd)

def Value.Below (size : Nat) (v : Value) : Prop := ∀ i, v = .ref i → i < size

/-- Objects of one kind whose parts correspond. -/
inductive Object.Parallel (same : Value → Value → Prop) : Object → Object → Prop where
  | list {xs ys : List Value} (each : List.Forall₂ same xs ys) : Parallel same (.list xs) (.list ys)
  | tuple {xs ys : List Value} (each : List.Forall₂ same xs ys) : Parallel same (.tuple xs) (.tuple ys)
  | dict {xs ys : List (Value × Value)}
      (each : List.Forall₂ (fun x y => same x.1 y.1 ∧ same x.2 y.2) xs ys) : Parallel same (.dict xs) (.dict ys)
  | set {xs ys : List Value} (each : List.Forall₂ same xs ys) : Parallel same (.set xs) (.set ys)
  | frozenset {xs ys : List Value} (each : List.Forall₂ same xs ys) :
      Parallel same (.frozenset xs) (.frozenset ys)
  | inst {cls : Class} {state : State} : Parallel same (.inst cls state) (.inst cls state)

namespace Object.Parallel

variable {same same' : Value → Value → Prop} {x y : Object}

theorem mono (parallel : Parallel same x y) (implies : ∀ v w, same v w → same' v w) : Parallel same' x y := by
  cases parallel with
  | list each => exact .list (each.imp implies)
  | tuple each => exact .tuple (each.imp implies)
  | dict each => exact .dict (each.imp fun _ _ both => ⟨implies _ _ both.1, implies _ _ both.2⟩)
  | set each => exact .set (each.imp implies)
  | frozenset each => exact .frozenset (each.imp implies)
  | inst => exact .inst

theorem flip (parallel : Parallel same x y) : Parallel (fun v w => same w v) y x := by
  cases parallel with
  | list each => exact .list each.flip
  | tuple each => exact .tuple each.flip
  | dict each => exact .dict each.flip
  | set each => exact .set each.flip
  | frozenset each => exact .frozenset each.flip
  | inst => exact .inst

theorem fillable (parallel : Parallel same x y) : x.fillable = y.fillable := by
  cases parallel <;> rfl

theorem typeName (parallel : Parallel same x y) : x.typeName = y.typeName := by
  cases parallel <;> rfl

theorem elements (parallel : Parallel same x y) : List.Forall₂ same x.elements y.elements := by
  cases parallel with
  | list each | tuple each | set each | frozenset each => exact each
  | dict each =>
    induction each with
    | nil => exact .nil
    | cons both _ ih => exact .cons both.1 (.cons both.2 ih)
  | inst => exact .nil

theorem refl (each : ∀ v ∈ x.elements, same v v) : Parallel same x x := by
  cases x with
  | list xs => exact .list (List.forall₂_same.mpr each)
  | tuple xs => exact .tuple (List.forall₂_same.mpr each)
  | set xs => exact .set (List.forall₂_same.mpr each)
  | frozenset xs => exact .frozenset (List.forall₂_same.mpr each)
  | inst cls state => exact .inst
  | dict entries =>
    refine .dict (List.forall₂_same.mpr fun e member => ⟨each e.1 ?_, each e.2 ?_⟩)
    · exact List.mem_flatMap.mpr ⟨e, member, by simp⟩
    · exact List.mem_flatMap.mpr ⟨e, member, by simp⟩

end Object.Parallel

/-- A value in a graph of `a` objects and the value in one of `b` objects: they are the same as far as they
are older than both graphs, and else new objects in the same order, of which there are `count`. -/
inductive Shifted (a b count : Nat) : Value → Value → Prop where
  | scalar (s : Scalar) : Shifted a b count (.scalar s) (.scalar s)
  | kept {i : Nat} (old : i < b) : Shifted a b count (.ref i) (.ref i)
  | moved {k : Nat} (new : k < count) : Shifted a b count (.ref (a + k)) (.ref (b + k))

theorem Shifted.mono {a b count more : Nat} {v w : Value} (shifted : Shifted a b count v w)
    (le : count ≤ more) : Shifted a b more v w := by
  cases shifted with
  | scalar s => exact .scalar s
  | kept old => exact .kept old
  | moved new => exact .moved (Nat.lt_of_lt_of_le new le)

/-- Two graphs hold, behind `a` and `b` objects, the same new ones. -/
structure Beside (a b count : Nat) (g h : Graph) : Prop where
  size : g.size = a + count
  size' : h.size = b + count
  alike : ∀ k < count, ∃ x y, g[a + k]? = some x ∧ h[b + k]? = some y ∧ Object.Parallel (Shifted a b count) x y

namespace Beside

variable {a b count : Nat} {g h : Graph}

theorem start (g h : Graph) : Beside g.size h.size 0 g h :=
  ⟨rfl, rfl, fun k none => absurd none (Nat.not_lt_zero k)⟩

theorem push (beside : Beside a b count g h) {x y : Object} (alike : Object.Parallel (Shifted a b count) x y) :
    Beside a b (count + 1) (g.push x) (h.push y) where
  size := by rw [Array.size_push, beside.size]; omega
  size' := by rw [Array.size_push, beside.size']; omega
  alike := by
    intro k small
    by_cases last : k = count
    · subst last
      refine ⟨x, y, ?_, ?_, alike.mono fun _ _ shifted => shifted.mono (Nat.le_succ k)⟩
      · rw [← beside.size, Array.getElem?_push_size]
      · rw [← beside.size', Array.getElem?_push_size]
    · have small : k < count := by omega
      obtain ⟨x, y, here, there, same⟩ := beside.alike k small
      refine ⟨x, y, ?_, ?_, same.mono fun _ _ shifted => shifted.mono (Nat.le_succ count)⟩
      · rw [Array.getElem?_push_lt (by rw [beside.size]; omega), ← here, Array.getElem?_eq_getElem]
      · rw [Array.getElem?_push_lt (by rw [beside.size']; omega), ← there, Array.getElem?_eq_getElem]

theorem alloc (beside : Beside a b count g h) {x y : Object} (alike : Object.Parallel (Shifted a b count) x y) :
    Beside a b (count + 1) (g.alloc x).1 (h.alloc y).1 ∧
      Shifted a b (count + 1) (g.alloc x).2 (h.alloc y).2 := by
  refine ⟨beside.push alike, ?_⟩
  have made : Shifted a b (count + 1) (.ref (a + count)) (.ref (b + count)) := .moved (Nat.lt_succ_self count)
  rw [← beside.size, ← beside.size'] at made
  exact made

end Beside

def Graph.Extends (g g' : Graph) : Prop := ∀ (i : Nat) (x : Object), g[i]? = some x → g'[i]? = some x

namespace Graph.Extends

variable {g g' g'' : Graph}

theorem refl (g : Graph) : Extends g g := fun _ _ found => found

theorem trans (first : Extends g g') (second : Extends g' g'') : Extends g g'' :=
  fun i x found => second i x (first i x found)

theorem push (g : Graph) (x : Object) : Extends g (g.push x) := by
  intro i y found
  have inside := (Array.getElem?_eq_some_iff.mp found).1
  rw [Array.getElem?_push_lt inside, ← found, Array.getElem?_eq_getElem inside]

end Graph.Extends

mutual

theorem Fresh.extends_alloc (g : Graph) : ∀ fresh : Fresh, g.Extends (fresh.alloc g).1
  | .value _ => .refl g
  | .inst _ _ => .push g _
  | .list items => (Fresh.extends_allocAll g items).trans (.push _ _)
  | .tuple items => (Fresh.extends_allocAll g items).trans (.push _ _)
  | .dict entries => (Fresh.extends_allocEntries g entries).trans (.push _ _)

theorem Fresh.extends_allocAll (g : Graph) : ∀ items : List Fresh, g.Extends (Fresh.allocAll g items).1
  | [] => .refl g
  | item :: rest => (Fresh.extends_alloc g item).trans (Fresh.extends_allocAll _ rest)

theorem Fresh.extends_allocEntries (g : Graph) :
    ∀ entries : List (Scalar × Fresh), g.Extends (Fresh.allocEntries g entries).1
  | [] => .refl g
  | (_, item) :: rest => (Fresh.extends_alloc g item).trans (Fresh.extends_allocEntries _ rest)

end

section Allocating

variable {a b : Nat}

mutual

/-- New objects are the same in both graphs, up to their numbers. -/
theorem Fresh.alloc_beside {count : Nat} {g h : Graph} (beside : Beside a b count g h) :
    ∀ fresh : Fresh, (∀ v ∈ fresh.given, v.Below b) → ∃ more ≥ count,
      Beside a b more (fresh.alloc g).1 (fresh.alloc h).1 ∧
        Shifted a b more (fresh.alloc g).2 (fresh.alloc h).2
  | .value v, given => by
    refine ⟨count, Nat.le_refl count, beside, ?_⟩
    cases v with
    | scalar s => exact .scalar s
    | ref i => exact .kept (given _ List.mem_cons_self i rfl)
  | .inst _ _, _ => ⟨count + 1, Nat.le_succ count, beside.alloc .inst⟩
  | .list items, given => by
    obtain ⟨more, le, both, each⟩ := Fresh.allocAll_beside beside items given
    exact ⟨more + 1, Nat.le_succ_of_le le, both.alloc (.list each)⟩
  | .tuple items, given => by
    obtain ⟨more, le, both, each⟩ := Fresh.allocAll_beside beside items given
    exact ⟨more + 1, Nat.le_succ_of_le le, both.alloc (.tuple each)⟩
  | .dict entries, given => by
    obtain ⟨more, le, both, each⟩ := Fresh.allocEntries_beside beside entries given
    exact ⟨more + 1, Nat.le_succ_of_le le, both.alloc (.dict each)⟩

theorem Fresh.allocAll_beside {count : Nat} {g h : Graph} (beside : Beside a b count g h) :
    ∀ items : List Fresh, (∀ v ∈ Fresh.givenAll items, v.Below b) → ∃ more ≥ count,
      Beside a b more (Fresh.allocAll g items).1 (Fresh.allocAll h items).1 ∧
        List.Forall₂ (Shifted a b more) (Fresh.allocAll g items).2 (Fresh.allocAll h items).2
  | [], _ => ⟨count, Nat.le_refl count, beside, .nil⟩
  | item :: rest, given => by
    obtain ⟨middle, le, both, first⟩ :=
      Fresh.alloc_beside beside item fun v member => given v (List.mem_append_left _ member)
    obtain ⟨more, le', all, others⟩ :=
      Fresh.allocAll_beside both rest fun v member => given v (List.mem_append_right _ member)
    exact ⟨more, Nat.le_trans le le', all, .cons (first.mono le') others⟩

theorem Fresh.allocEntries_beside {count : Nat} {g h : Graph} (beside : Beside a b count g h) :
    ∀ entries : List (Scalar × Fresh), (∀ v ∈ Fresh.givenEntries entries, v.Below b) → ∃ more ≥ count,
      Beside a b more (Fresh.allocEntries g entries).1 (Fresh.allocEntries h entries).1 ∧
        List.Forall₂ (fun x y => Shifted a b more x.1 y.1 ∧ Shifted a b more x.2 y.2)
          (Fresh.allocEntries g entries).2 (Fresh.allocEntries h entries).2
  | [], _ => ⟨count, Nat.le_refl count, beside, .nil⟩
  | (key, item) :: rest, given => by
    obtain ⟨middle, le, both, first⟩ :=
      Fresh.alloc_beside beside item fun v member => given v (List.mem_append_left _ member)
    obtain ⟨more, le', all, others⟩ :=
      Fresh.allocEntries_beside both rest fun v member => given v (List.mem_append_right _ member)
    exact ⟨more, Nat.le_trans le le', all, .cons ⟨.scalar key, first.mono le'⟩ others⟩

end

end Allocating

namespace FreshRecipe

theorem extends_alloc (g : Graph) (fresh : FreshRecipe) : g.Extends (fresh.alloc g).1 := by
  rw [FreshRecipe.alloc]
  cases fresh.args with
  | none => exact Fresh.extends_allocAll g _
  | some items => exact (Fresh.extends_allocAll g items).trans (Fresh.extends_allocAll _ _)

theorem values_of_zip (names : List String) (values : List Value) (same : names.length = values.length) :
    (names.zip values).map Prod.snd = values := by
  rw [List.map_snd_zip (Nat.le_of_eq same.symm)]

theorem allocAll_length (g : Graph) (items : List Fresh) :
    (Fresh.allocAll g items).2.length = items.length := by
  induction items generalizing g with
  | nil => rfl
  | cons item rest ih => exact congrArg (· + 1) (ih _)

/-- A reduction puts the same objects and arguments into both graphs, up to their numbers. -/
theorem alloc_beside {g h : Graph} (fresh : FreshRecipe) (given : ∀ v ∈ fresh.given, v.Below h.size) :
    ∃ count, Beside g.size h.size count (fresh.alloc g).1 (fresh.alloc h).1 ∧
      List.Forall₂ (Shifted g.size h.size count) (fresh.alloc g).2.values (fresh.alloc h).2.values := by
  have named : ∀ k : Graph, ((fresh.kwargs.map Prod.fst).zip (Fresh.allocAll k (fresh.kwargs.map Prod.snd)).2).map
      Prod.snd = (Fresh.allocAll k (fresh.kwargs.map Prod.snd)).2 := by
    intro k
    refine values_of_zip _ _ ?_
    rw [allocAll_length, List.length_map, List.length_map]
  have given' := fun v member => given v (List.mem_append_right _ member)
  cases args : fresh.args with
  | none =>
    obtain ⟨count, -, all, each⟩ := Fresh.allocAll_beside (.start g h) (fresh.kwargs.map Prod.snd) given'
    refine ⟨count, ?_, ?_⟩
    · rw [FreshRecipe.alloc, FreshRecipe.alloc, args]
      exact all
    · rw [FreshRecipe.alloc, FreshRecipe.alloc, args, Recipe.values, Recipe.values]
      dsimp only
      rw [named, named]
      exact each
  | some items =>
    obtain ⟨middle, -, both, first⟩ := Fresh.allocAll_beside (.start g h) items
      fun v member => given v (List.mem_append_left _ (by rw [args]; exact member))
    obtain ⟨count, le, all, each⟩ := Fresh.allocAll_beside both (fresh.kwargs.map Prod.snd) given'
    refine ⟨count, ?_, ?_⟩
    · rw [FreshRecipe.alloc, FreshRecipe.alloc, args]
      exact all
    · rw [FreshRecipe.alloc, FreshRecipe.alloc, args, Recipe.values, Recipe.values]
      dsimp only
      rw [named, named]
      exact List.rel_append (first.imp fun _ _ shifted => shifted.mono le) each

end FreshRecipe

/-! ## Nodes -/

/-- An object that a value is made of: one of its graph, or a new one of the reduction of another. -/
inductive Node where
  | given (i : Nat)
  | part (owner : Node) (k : Nat)
  deriving DecidableEq, Repr, Inhabited

def Object.reduction? (registry : Registry) (graph : Graph) : Object → Option (Graph × Recipe)
  | .inst cls state =>
    match registry.reduce cls state with
    | .ok (some fresh) => some (fresh.alloc graph)
    | _ => none
  | _ => none

namespace Node

def owner : Node → Node
  | .given i => .given i
  | .part owner _ => owner

/-- The node that a reference stands for, in a graph where the objects behind the first `size` ones are
those that the reduction of `owner` made. -/
def child (size : Nat) (owner : Node) (i : Nat) : Node :=
  if i < size then .given i else .part owner (i - size)

def nodesOf (size : Nat) (owner : Node) (values : List Value) : List Node :=
  values.filterMap fun v => match v with
    | .scalar _ => none
    | .ref i => some (child size owner i)

variable (registry : Registry) (graph : Graph)

def object? : Node → Option Object
  | .given i => graph[i]?
  | .part owner k => do
      let object ← object? owner
      let reduction ← object.reduction? registry graph
      reduction.1[graph.size + k]?

def arguments (n : Node) : List Value :=
  (((n.object? registry graph).bind (Object.reduction? registry graph)).map fun r => r.2.values).getD []

/-- The nodes that the text of a node is made of: the elements of a container, the arguments of an
instance. -/
def kids (n : Node) : List Node :=
  match n.object? registry graph with
  | some (.inst _ _) => nodesOf graph.size n (n.arguments registry graph)
  | some object => nodesOf graph.size n.owner object.elements
  | none => []

variable {registry graph} in
theorem kids_inst {n : Node} {cls : Class} {state : State}
    (found : n.object? registry graph = some (.inst cls state)) :
    n.kids registry graph = nodesOf graph.size n (n.arguments registry graph) := by
  rw [kids, found]

variable {registry graph} in
theorem kids_plain {n : Node} {object : Object} (found : n.object? registry graph = some object)
    (plain : ∀ cls state, object ≠ .inst cls state) :
    n.kids registry graph = nodesOf graph.size n.owner object.elements := by
  rw [kids, found]
  cases object with
  | inst cls state => exact absurd rfl (plain cls state)
  | _ => rfl

def isArgument : Node → Bool
  | .given _ => false
  | .part owner k => (owner.arguments registry graph).contains (.ref (graph.size + k))

def isHoistable (n : Node) : Bool :=
  (n.object? registry graph).any Object.fillable && !n.isArgument registry graph

/-- An instance that cannot be reduced. -/
def Stuck (n : Node) (cls : Class) (state : State) : Prop :=
  n.object? registry graph = some (.inst cls state) ∧ registry.reduce cls state = .ok none

/-- A node that a value is made of. -/
def Reached (root : Value) (n : Node) : Prop :=
  ∃ i, root = .ref i ∧ Walk.Leads (kids registry graph) (.given i) n

/-- One node is part of another and cannot be made empty and filled later. -/
def HoldsBare (a b : Node) : Prop := b ∈ a.kids registry graph ∧ ¬ b.isHoistable registry graph = true

end Node

/-- What a value that cannot be written is refused for: one of its instances cannot be reduced, or it has a
cycle of objects that cannot be made empty and filled later. -/
inductive Refused (registry : Registry) (graph : Graph) (root : Value) : SerializeError → Prop where
  | stuck {n : Node} {cls : Class} {state : State} (reached : n.Reached registry graph root)
      (stuck : n.Stuck registry graph cls state) : Refused registry graph root (refusal cls state)
  | cyclic {n : Node} {object : Object} (reached : n.Reached registry graph root)
      (around : Relation.TransGen (Node.HoldsBare registry graph) n n)
      (found : n.object? registry graph = some object) :
      Refused registry graph root (.cyclic object.typeName)

/-- A value whose references lead somewhere, and a registry that raises nothing for it and hands on lists,
dictionaries and sets only inside new objects.  The value and its reductions are made of finitely many
objects. -/
structure Reducible (registry : Registry) (graph : Graph) (root : Value) : Prop where
  start : root.Below graph.size
  elements : ∀ (i : Nat) (object : Object), graph[i]? = some object → ∀ v ∈ object.elements, v.Below graph.size
  answers : ∀ n cls state, Node.Reached registry graph root n →
    n.object? registry graph = some (.inst cls state) → ∃ answer, registry.reduce cls state = .ok answer
  given : ∀ n cls state fresh, Node.Reached registry graph root n →
    n.object? registry graph = some (.inst cls state) → registry.reduce cls state = .ok (some fresh) →
    ∀ v ∈ fresh.given, v.Below graph.size
  separate : ∀ n (i : Nat) object, Node.Reached registry graph root n → .ref i ∈ n.arguments registry graph →
    graph[i]? = some object → object.fillable = false
  finite : {n | Node.Reached registry graph root n}.Finite

def Value.isIn (graph : Graph) : Value → Bool
  | .scalar _ => true
  | .ref i => i < graph.size

theorem Value.below_of_isIn {graph : Graph} {v : Value} (inside : v.isIn graph = true) :
    v.Below graph.size := by
  rintro i rfl
  exact of_decide_eq_true inside

def Value.isBare (graph : Graph) : Value → Bool
  | .scalar _ => true
  | .ref i => !graph[i]?.any Object.fillable

/-- Whether a registry raises nothing for a node, and hands on only objects that are there and of those no
list, dictionary or set. -/
def Node.isOrderly (registry : Registry) (graph : Graph) (n : Node) : Bool :=
  (n.arguments registry graph).all (Value.isBare graph) &&
    match n.object? registry graph with
    | some (.inst cls state) =>
      match registry.reduce cls state with
      | .error _ => false
      | .ok none => true
      | .ok (some fresh) => fresh.given.all (Value.isIn graph)
    | _ => true

namespace Reducible

variable {registry : Registry} {graph : Graph} {root : Value}

theorem length_le (reducible : Reducible registry graph root) {nodes : List Node} (distinct : nodes.Nodup)
    (reached : ∀ n ∈ nodes, n.Reached registry graph root) : nodes.length ≤ reducible.finite.toFinset.card := by
  rw [← List.toFinset_card_of_nodup distinct]
  refine Finset.card_le_card fun n member => ?_
  exact reducible.finite.mem_toFinset.mpr (reached n (List.mem_toFinset.mp member))

variable {nodes : List Node} (start : ∀ i, root = .ref i → .given i ∈ nodes)
    (closed : ∀ n ∈ nodes, n.kids registry graph ⊆ nodes)

include start closed

theorem reached_mem {n : Node} (reached : n.Reached registry graph root) : n ∈ nodes := by
  obtain ⟨i, isRoot, leads⟩ := reached
  induction leads with
  | refl => exact start i isRoot
  | tail _ child ih => exact closed _ ih child

theorem card_le (reducible : Reducible registry graph root) :
    reducible.finite.toFinset.card ≤ nodes.length := by
  refine Nat.le_trans (Finset.card_le_card fun n member => ?_) nodes.toFinset_card_le
  exact List.mem_toFinset.mpr (reached_mem start closed (reducible.finite.mem_toFinset.mp member))

theorem of_closed (isIn : root.isIn graph = true)
    (elements : ∀ object ∈ graph.toList, ∀ v ∈ object.elements, v.isIn graph = true)
    (orderly : ∀ n ∈ nodes, n.isOrderly registry graph = true) : Reducible registry graph root where
  start := Value.below_of_isIn isIn
  elements := by
    intro i object found v member
    exact Value.below_of_isIn (elements object (Array.mem_toList_iff.mpr (Array.mem_of_getElem? found)) v member)
  answers := by
    intro n cls state reached found
    obtain ⟨-, checked⟩ := Bool.and_eq_true_iff.mp (orderly n (reached_mem start closed reached))
    rw [found] at checked
    dsimp only at checked
    cases answered : registry.reduce cls state with
    | error e =>
      rw [answered] at checked
      cases checked
    | ok answer => exact ⟨answer, rfl⟩
  given := by
    intro n cls state fresh reached found answered v member
    obtain ⟨-, checked⟩ := Bool.and_eq_true_iff.mp (orderly n (reached_mem start closed reached))
    rw [found] at checked
    dsimp only at checked
    rw [answered] at checked
    exact Value.below_of_isIn (List.all_eq_true.mp checked v member)
  separate := by
    intro n i object reached argument found
    obtain ⟨checked, -⟩ := Bool.and_eq_true_iff.mp (orderly n (reached_mem start closed reached))
    have isBare := List.all_eq_true.mp checked _ argument
    rw [Value.isBare, found, Bool.not_eq_true'] at isBare
    exact isBare
  finite := (List.finite_toSet nodes).subset fun n reached => reached_mem start closed reached

end Reducible

end MacroExpand
