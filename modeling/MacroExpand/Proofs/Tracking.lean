import MacroExpand.Proofs.Assembly
import MacroExpand.Proofs.Unfolding

/-!
# Objects of a survey and nodes of a value

A survey numbers the objects that it meets, and reducing an instance adds new numbers.  `Tracks` says which
node stands at each number: what the survey knows of a number is true of the node.
-/

set_option autoImplicit false

namespace MacroExpand

def Named (names : List Node) (i : Nat) (n : Node) : Prop := names[i]? = some n

theorem Named.later {names names' : List Node} {i : Nat} {n : Node} (named : Named names i n)
    (more : names <+: names') : Named names' i n := by
  obtain ⟨new, rfl⟩ := more
  have inside := (List.getElem?_eq_some_iff.mp named).1
  exact (List.getElem?_append_left inside).trans named

theorem Named.unique {names : List Node} {i : Nat} {n n' : Node} (named : Named names i n)
    (named' : Named names i n') : n = n' :=
  Option.some.inj (named.symm.trans named')

theorem Named.same {names : List Node} (distinct : names.Nodup) {i j : Nat} {n : Node}
    (named : Named names i n) (named' : Named names j n) : i = j := by
  have inside := (List.getElem?_eq_some_iff.mp named).1
  exact (List.getElem?_inj inside distinct).mp (named.trans named'.symm)

theorem forall₂_mem {α β : Type} {R : α → β → Prop} {xs : List α} {ys : List β} (each : List.Forall₂ R xs ys) :
    (∀ x ∈ xs, ∃ y ∈ ys, R x y) ∧ ∀ y ∈ ys, ∃ x ∈ xs, R x y := by
  induction each with
  | nil => exact ⟨nofun, nofun⟩
  | cons here _ ih =>
    constructor
    · intro x member
      rcases List.mem_cons.mp member with rfl | later
      · exact ⟨_, List.mem_cons_self, here⟩
      · obtain ⟨y, inside, same⟩ := ih.1 x later
        exact ⟨y, List.mem_cons_of_mem _ inside, same⟩
    · intro y member
      rcases List.mem_cons.mp member with rfl | later
      · exact ⟨_, List.mem_cons_self, here⟩
      · obtain ⟨x, inside, same⟩ := ih.2 y later
        exact ⟨x, List.mem_cons_of_mem _ inside, same⟩

/-- The value of a node and the value of the object at its number: the same scalar, or a reference to a node
and its number. -/
inductive Stands (size : Nat) (names : List Node) (owner : Node) : Value → Value → Prop where
  | scalar (s : Scalar) : Stands size names owner (.scalar s) (.scalar s)
  | ref {i j : Nat} (named : Named names j (Node.child size owner i)) :
      Stands size names owner (.ref i) (.ref j)

theorem Stands.later {size : Nat} {names names' : List Node} {owner : Node} (more : names <+: names')
    (v w : Value) (stands : Stands size names owner v w) : Stands size names' owner v w := by
  cases stands with
  | scalar s => exact .scalar s
  | ref named => exact .ref (named.later more)

structure Tracks (registry : Registry) (graph : Graph) (s : Survey) (names : List Node) (m : Marks Node) :
    Prop where
  size : names.length = s.graph.size
  given : ∀ i < graph.size, Named names i (.given i)
  distinct : names.Nodup
  object : ∀ i n, Named names i n → ∃ object, n.object? registry graph = some object ∧
    object.Parallel (Stands graph.size names n.owner) (s.object i)
  recipe : ∀ i recipe, s.recipe? i = some recipe → ∃ n, Named names i n ∧
    (∀ cls state, ¬ n.Stuck registry graph cls state) ∧
    List.Forall₂ (Stands graph.size names n) (n.arguments registry graph) recipe.values
  owned : ∀ i owner k, Named names i (.part owner k) →
    ∃ j recipe, Named names j owner ∧ s.recipe? j = some recipe
  synthetic : ∀ i ∈ s.synthetic, i < names.length
  argument : ∀ i n, Named names i n → (s.object i).fillable = true →
    (i ∈ s.synthetic ↔ n.isArgument registry graph = true)
  order : List.Forall₂ (Named names) s.order m.order
  hoisted : List.Forall₂ (Named names) s.hoisted m.cut
  entered : ∀ n ∈ m.entered, ∃ i, Named names i n ∧
    ∀ cls state, n.object? registry graph = some (.inst cls state) → ∃ recipe, s.recipe? i = some recipe

namespace Tracks

variable {registry : Registry} {graph : Graph} {root : Value} {s : Survey} {names : List Node}
  {m : Marks Node} {i : Nat} {n : Node}

theorem start (reducible : Reducible registry graph root) :
    Tracks registry graph { graph } ((List.range graph.size).map .given) {} := by
  have named : ∀ i < graph.size, Named ((List.range graph.size).map .given) i (.given i) := by
    intro i small
    simp [Named, small]
  have isGiven : ∀ i n, Named ((List.range graph.size).map .given) i n → i < graph.size ∧ n = .given i := by
    intro i n here
    have inside : i < graph.size := by simpa using (List.getElem?_eq_some_iff.mp here).1
    exact ⟨inside, here.unique (named i inside)⟩
  refine ⟨by simp, named, ?_, ?_, nofun, ?_, nofun, ?_, .nil, .nil, nofun⟩
  · exact List.nodup_range.map fun _ _ same => Node.given.inj same
  · intro i n here
    obtain ⟨small, rfl⟩ := isGiven i n here
    have found : graph[i]? = some graph[i] := Array.getElem?_eq_getElem small
    have object : Survey.object { graph } i = graph[i] := Survey.object_eq found
    refine ⟨graph[i], found, ?_⟩
    rw [object]
    refine .refl fun v member => ?_
    cases v with
    | scalar s => exact .scalar s
    | ref j =>
      have below := reducible.elements i _ found _ member j rfl
      refine .ref ?_
      rw [Node.child, if_pos below]
      exact named j below
  · intro i owner k here
    obtain ⟨-, same⟩ := isGiven i _ here
    cases same
  · intro i n here _
    obtain ⟨-, rfl⟩ := isGiven i n here
    exact ⟨nofun, nofun⟩

/-! ## Noting objects -/

theorem hoistable (tracks : Tracks registry graph s names m) (named : Named names i n) :
    s.hoistable i = n.isHoistable registry graph := by
  obtain ⟨object, found, parallel⟩ := tracks.object i n named
  have fillable : (n.object? registry graph).any Object.fillable = (s.object i).fillable := by
    rw [found]
    exact parallel.fillable
  rw [Survey.hoistable, Node.isHoistable, fillable]
  cases isFillable : (s.object i).fillable with
  | false => rfl
  | true =>
    have argument := tracks.argument i n named isFillable
    rw [List.contains_eq_mem]
    by_cases synthetic : i ∈ s.synthetic
    · rw [decide_eq_true synthetic, argument.mp synthetic]
    · have isNone : n.isArgument registry graph = false :=
        Bool.eq_false_iff.mpr fun isArgument => synthetic (argument.mpr isArgument)
      rw [decide_eq_false synthetic, isNone]

theorem hoist (tracks : Tracks registry graph s names m) (named : Named names i n) :
    Tracks registry graph { s with hoisted := i :: s.hoisted } names { m with cut := n :: m.cut } :=
  { tracks with hoisted := .cons named tracks.hoisted }

theorem note (tracks : Tracks registry graph s names m) (named : Named names i n) :
    Tracks registry graph (s.note i) names
      { m with order := if n.isHoistable registry graph then n :: m.order else m.order } := by
  rw [Survey.note, tracks.hoistable named]
  by_cases can : n.isHoistable registry graph = true
  · rw [if_pos can, if_pos can]
    exact { tracks with order := .cons named tracks.order }
  · rw [if_neg can, if_neg can]
    exact tracks

theorem enter (tracks : Tracks registry graph s names m) (named : Named names i n)
    (ready : ∀ cls state, n.object? registry graph = some (.inst cls state) →
      ∃ recipe, s.recipe? i = some recipe) :
    Tracks registry graph s names { m with entered := n :: m.entered } :=
  { tracks with entered := List.forall_mem_cons.mpr ⟨⟨i, named, ready⟩, tracks.entered⟩ }

/-! ## Reducing an instance -/

def withParts (names : List Node) (n : Node) (count : Nat) : List Node :=
  names ++ (List.range count).map (.part n)

theorem named_part (names : List Node) (n : Node) {count k : Nat} (small : k < count) :
    Named (withParts names n count) (names.length + k) (.part n k) := by
  rw [Named, withParts, List.getElem?_append_right (Nat.le_add_right _ k), Nat.add_sub_cancel_left]
  simp [small]

theorem named_withParts {count j : Nat} {k : Node} (named : Named (withParts names n count) j k) :
    Named names j k ∨ ∃ l < count, j = names.length + l ∧ k = .part n l := by
  by_cases old : j < names.length
  · exact .inl ((List.getElem?_append_left old).symm.trans named)
  · obtain ⟨l, rfl⟩ := Nat.exists_eq_add_of_le (Nat.le_of_not_lt old)
    have inside := (List.getElem?_eq_some_iff.mp named).1
    rw [withParts, List.length_append, List.length_map, List.length_range] at inside
    have small : l < count := by omega
    exact .inr ⟨l, small, rfl, named.unique (named_part names n small)⟩

theorem stands_of_shifted {count : Nat} (given : ∀ i < graph.size, Named names i (.given i)) {v w : Value}
    (shifted : Shifted names.length graph.size count v w) :
    Stands graph.size (withParts names n count) n w v := by
  cases shifted with
  | scalar s => exact .scalar s
  | @kept i old =>
    refine .ref ?_
    rw [Node.child, if_pos old]
    exact (given i old).later (List.prefix_append _ _)
  | @moved k new =>
    refine .ref ?_
    rw [Node.child, if_neg (by omega), Nat.add_sub_cancel_left]
    exact named_part names n new

theorem object_of_extends {s s' : Survey} (grown : s.graph.Extends s'.graph) {i : Nat}
    (inside : i < s.graph.size) : s'.object i = s.object i := by
  have found : s.graph[i]? = some s.graph[i] := Array.getElem?_eq_getElem inside
  rw [Survey.object_eq found, Survey.object_eq (grown i _ found)]

def separateArguments (graph : Graph) (recipe : Recipe) : List Nat :=
  recipe.values.filterMap fun v => match v with
    | .ref j => if (graph.getD j (.tuple [])).fillable then some j else none
    | .scalar _ => none

theorem mem_separateArguments {graph : Graph} {recipe : Recipe} {j : Nat} :
    j ∈ separateArguments graph recipe ↔
      .ref j ∈ recipe.values ∧ (graph.getD j (.tuple [])).fillable = true := by
  unfold separateArguments
  rw [List.mem_filterMap]
  constructor
  · rintro ⟨v, member, chosen⟩
    cases v with
    | scalar s => cases chosen
    | ref k =>
      dsimp only at chosen
      by_cases fillable : (graph.getD k (.tuple [])).fillable = true
      · rw [if_pos fillable] at chosen
        cases chosen
        exact ⟨member, fillable⟩
      · rw [if_neg fillable] at chosen
        cases chosen
  · rintro ⟨member, fillable⟩
    exact ⟨_, member, if_pos fillable⟩

def withReduction (s : Survey) (i : Nat) (reduction : Graph × Recipe) : Survey :=
  { s with
    graph := reduction.1
    recipes := (i, reduction.2) :: s.recipes
    synthetic := separateArguments reduction.1 reduction.2 ++ s.synthetic }

theorem reduce_eq {cls : Class} {state : State} {fresh : FreshRecipe} (absent : s.recipe? i = none)
    (answer : registry.reduce cls state = .ok (some fresh)) :
    s.reduce registry i cls state =
      .ok (withReduction s i (fresh.alloc s.graph), (fresh.alloc s.graph).2) := by
  rw [Survey.reduce, absent]
  dsimp only
  rw [answer]
  rfl

theorem recipe?_withReduction (s : Survey) (i : Nat) (reduction : Graph × Recipe) (j : Nat) :
    (withReduction s i reduction).recipe? j = if j = i then some reduction.2 else s.recipe? j := by
  by_cases same : j = i
  · subst same
    rw [if_pos rfl]
    simp [Survey.recipe?, withReduction]
  · rw [if_neg same]
    simp [Survey.recipe?, withReduction, Ne.symm same]

/-- Reducing an instance adds its new objects behind all others. -/
theorem reduced (reducible : Reducible registry graph root) (tracks : Tracks registry graph s names m)
    (named : Named names i n) (reached : n.Reached registry graph root) {cls : Class} {state : State}
    {fresh : FreshRecipe} (found : n.object? registry graph = some (.inst cls state))
    (absent : s.recipe? i = none) (answer : registry.reduce cls state = .ok (some fresh)) :
    ∃ names', names <+: names' ∧ Tracks registry graph (withReduction s i (fresh.alloc s.graph)) names' m := by
  obtain ⟨count, beside, each⟩ :=
    fresh.alloc_beside (g := s.graph) (h := graph) (reducible.given n cls state fresh reached found answer)
  rw [← tracks.size] at beside each
  have reduction : (n.object? registry graph).bind (Object.reduction? registry graph) =
      some (fresh.alloc graph) := by
    rw [found]
    simp [Object.reduction?, answer]
  have arguments : n.arguments registry graph = (fresh.alloc graph).2.values := by
    rw [Node.arguments, reduction]
    rfl
  have part : ∀ k, (Node.part n k).object? registry graph = (fresh.alloc graph).1[graph.size + k]? := by
    intro k
    rw [Node.object?]
    change ((n.object? registry graph).bind fun object => (object.reduction? registry graph).bind _) = _
    rw [← Option.bind_assoc, reduction]
    rfl
  rw [← arguments] at each
  have more : names <+: withParts names n count := List.prefix_append _ _
  have stands : List.Forall₂ (Stands graph.size (withParts names n count) n) (n.arguments registry graph)
      (fresh.alloc s.graph).2.values :=
    each.flip.imp fun _ _ shifted => stands_of_shifted tracks.given shifted
  have apart : ∀ cls' state', ¬ n.Stuck registry graph cls' state' := by
    rintro cls' state' ⟨found', stuck⟩
    rw [found] at found'
    cases found'
    rw [answer] at stuck
    cases stuck
  -- no new object of this instance has a name yet
  have unnamed : ∀ j k, ¬ Named names j (.part n k) := by
    intro j k there
    obtain ⟨l, recipe, owner, known⟩ := tracks.owned j n k there
    rw [owner.same tracks.distinct named, absent] at known
    cases known
  have inside : ∀ j k, Named names j k → j < names.length := fun j k there =>
    (List.getElem?_eq_some_iff.mp there).1
  have kept : ∀ j k, Named names j k → (withReduction s i (fresh.alloc s.graph)).object j = s.object j :=
    fun j k there => object_of_extends (fresh.extends_alloc s.graph) (tracks.size ▸ inside j k there)
  have known : ∀ j r, s.recipe? j = some r → ∃ r, (withReduction s i (fresh.alloc s.graph)).recipe? j = some r := by
    intro j r there
    rw [recipe?_withReduction]
    by_cases same : j = i
    · exact ⟨_, if_pos same⟩
    · exact ⟨r, by rw [if_neg same, there]⟩
  have distinct : (withParts names n count).Nodup := by
    refine List.nodup_append'.mpr ⟨tracks.distinct, ?_, ?_⟩
    · exact List.nodup_range.map fun _ _ same => (Node.part.inj same).2
    · intro k old new
      obtain ⟨l, -, rfl⟩ := List.mem_map.mp new
      obtain ⟨j, there⟩ := List.getElem?_of_mem old
      exact unnamed j l there
  have referred : ∀ j, .ref j ∈ (fresh.alloc s.graph).2.values → ∃ i', .ref i' ∈ n.arguments registry graph ∧
      Named (withParts names n count) j (Node.child graph.size n i') := by
    intro j member
    obtain ⟨v, argument, standing⟩ := (forall₂_mem stands).2 _ member
    cases standing with
    | ref there => exact ⟨_, argument, there⟩
  refine ⟨withParts names n count, more, ?_, fun j small => (tracks.given j small).later more, distinct, ?_, ?_,
    ?_, ?_, ?_, ?_, ?_, ?_⟩
  · rw [withParts, List.length_append, List.length_map, List.length_range]
    exact beside.size.symm
  · intro j k there
    rcases named_withParts there with old | ⟨l, small, rfl, rfl⟩
    · obtain ⟨object, found', parallel⟩ := tracks.object j k old
      rw [kept j k old]
      exact ⟨object, found', parallel.mono (Stands.later more)⟩
    · obtain ⟨x, y, here, there', parallel⟩ := beside.alike l small
      rw [part, Survey.object_eq here]
      exact ⟨y, there', parallel.flip.mono fun _ _ shifted => stands_of_shifted tracks.given shifted⟩
  · intro j recipe there
    rw [recipe?_withReduction] at there
    by_cases same : j = i
    · subst same
      rw [if_pos rfl] at there
      cases there
      exact ⟨n, named.later more, apart, stands⟩
    · rw [if_neg same] at there
      obtain ⟨k, named', apart', each'⟩ := tracks.recipe j recipe there
      exact ⟨k, named'.later more, apart', each'.imp (Stands.later more)⟩
  · intro j owner k there
    rcases named_withParts there with old | ⟨l, small, rfl, new⟩
    · obtain ⟨j', recipe, there', known'⟩ := tracks.owned j owner k old
      obtain ⟨recipe', known'⟩ := known j' recipe known'
      exact ⟨j', recipe', there'.later more, known'⟩
    · cases new
      exact ⟨i, _, named.later more, by rw [recipe?_withReduction, if_pos rfl]⟩
  · intro j member
    rcases List.mem_append.mp member with new | old
    · obtain ⟨i', -, there⟩ := referred j (mem_separateArguments.mp new).1
      exact (List.getElem?_eq_some_iff.mp there).1
    · exact Nat.lt_of_lt_of_le (tracks.synthetic j old) more.length_le
  · intro j k there fillable
    rcases named_withParts there with old | ⟨l, small, rfl, rfl⟩
    · rw [kept j k old] at fillable
      rw [← tracks.argument j k old fillable]
      refine ⟨fun member => ?_, fun member => List.mem_append_right _ member⟩
      rcases List.mem_append.mp member with new | before
      · obtain ⟨i', argument, there'⟩ := referred j (mem_separateArguments.mp new).1
        have same := there.unique there'
        rw [Node.child] at same
        by_cases given : i' < graph.size
        · rw [if_pos given] at same
          subst same
          obtain ⟨object, found', parallel⟩ := tracks.object j _ old
          have apart := reducible.separate n i' object reached argument found'
          rw [← parallel.fillable, apart] at fillable
          cases fillable
        · rw [if_neg given] at same
          exact absurd (same ▸ old) (unnamed j _)
      · exact before
    · have new : names.length + l ∉ s.synthetic := fun member =>
        absurd (tracks.synthetic _ member) (by omega)
      have isSeparate : names.length + l ∈ (withReduction s i (fresh.alloc s.graph)).synthetic ↔
          names.length + l ∈ separateArguments (fresh.alloc s.graph).1 (fresh.alloc s.graph).2 :=
        List.mem_append.trans (or_iff_left new)
      rw [isSeparate, mem_separateArguments, Node.isArgument, List.contains_iff_mem]
      constructor
      · rintro ⟨member, -⟩
        obtain ⟨i', argument, there'⟩ := referred _ member
        have same := there.unique there'
        rw [Node.child] at same
        by_cases given : i' < graph.size
        · rw [if_pos given] at same
          cases same
        · rw [if_neg given] at same
          have place : i' = graph.size + l := by
            have := (Node.part.inj same).2
            omega
          exact place ▸ argument
      · intro argument
        obtain ⟨w, member, standing⟩ := (forall₂_mem stands).1 _ argument
        cases standing with
        | @ref _ j there' =>
          rw [Node.child, if_neg (by omega), Nat.add_sub_cancel_left] at there'
          rw [there.same distinct there']
          exact ⟨member, there'.same distinct there ▸ fillable⟩
  · exact tracks.order.imp fun _ _ there => there.later more
  · exact tracks.hoisted.imp fun _ _ there => there.later more
  · intro k member
    obtain ⟨j, there, ready⟩ := tracks.entered k member
    refine ⟨j, there.later more, fun cls state isInst => ?_⟩
    obtain ⟨recipe, there'⟩ := ready cls state isInst
    exact known j recipe there'

/-- What entering an object gives: it cannot be reduced, or its parts stand for those of its node. -/
theorem children (reducible : Reducible registry graph root) (tracks : Tracks registry graph s names m)
    (named : Named names i n) (reached : n.Reached registry graph root) :
    (∃ cls state, n.Stuck registry graph cls state ∧ s.children registry i = .error (refusal cls state)) ∨
      ∃ s' names' owner vs values, s.children registry i = .ok (s', values) ∧ names <+: names' ∧
        Tracks registry graph s' names' { m with entered := n :: m.entered } ∧
        n.kids registry graph = Node.nodesOf graph.size owner vs ∧
        List.Forall₂ (Stands graph.size names' owner) vs values := by
  obtain ⟨object, found, parallel⟩ := tracks.object i n named
  by_cases isInst : ∃ cls state, object = .inst cls state
  · obtain ⟨cls, state, rfl⟩ := isInst
    have kids := Node.kids_inst found
    have same : s.object i = .inst cls state := by
      generalize s.object i = object at parallel
      cases parallel
      rfl
    rw [Survey.children, same]
    dsimp only
    cases known : s.recipe? i with
    | some recipe =>
      have reduction : s.reduce registry i cls state = .ok (s, recipe) := by rw [Survey.reduce, known]
      obtain ⟨n', named', -, each⟩ := tracks.recipe i recipe known
      obtain rfl := named'.unique named
      rw [reduction]
      exact .inr ⟨s, names, n', _, _, rfl, List.prefix_rfl,
        tracks.enter named fun _ _ _ => ⟨recipe, known⟩, kids, each⟩
    | none =>
      obtain ⟨answer, answered⟩ := reducible.answers n cls state reached found
      cases answer with
      | none =>
        have stuck : s.reduce registry i cls state = .error (refusal cls state) := by
          rw [Survey.reduce, known]
          dsimp only
          rw [answered]
        rw [stuck]
        exact .inl ⟨cls, state, ⟨found, answered⟩, rfl⟩
      | some fresh =>
        obtain ⟨names', more, tracks'⟩ := tracks.reduced reducible named reached found known answered
        have ready := recipe?_withReduction s i (fresh.alloc s.graph) i
        rw [if_pos rfl] at ready
        obtain ⟨n', named', -, each⟩ := tracks'.recipe i _ ready
        obtain rfl := named'.unique (named.later more)
        rw [reduce_eq known answered]
        exact .inr ⟨_, names', n', _, _, rfl, more,
          tracks'.enter (named.later more) fun _ _ _ => ⟨_, ready⟩, kids, each⟩
  · have plain : s.children registry i = .ok (s, (s.object i).elements) := by
      rw [Survey.children]
      cases shape : s.object i with
      | inst cls state =>
        rw [shape] at parallel
        cases parallel
        exact absurd ⟨cls, state, rfl⟩ isInst
      | _ => rfl
    have kids := Node.kids_plain found fun cls state same => isInst ⟨cls, state, same⟩
    have ready : ∀ cls state, n.object? registry graph = some (.inst cls state) →
        ∃ recipe, s.recipe? i = some recipe := by
      intro cls state isInst'
      rw [found] at isInst'
      exact absurd ⟨cls, state, Option.some.inj isInst'⟩ isInst
    exact .inr ⟨s, names, n.owner, _, _, plain, List.prefix_rfl, tracks.enter named ready, kids,
      parallel.elements⟩

end Tracks

end MacroExpand
