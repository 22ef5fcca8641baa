import MacroExpand.Proofs.Tracking
import Mathlib.Data.Fintype.Card
import Mathlib.Data.List.Chain
import Mathlib.Data.Set.Finite.Basic

/-!
# When a value cannot be written

A scan that succeeds has entered every node of the value and cut every cycle.  Then writing the value comes
to an end: a way down on which no node is cut repeats none, so it is no longer than there are nodes.
-/

set_option autoImplicit false

namespace MacroExpand

/-!
## Scans as walks

The scan of a value walks over its nodes.  It fails if it enters an instance that cannot be reduced, or
comes back to a node with nothing on the way that can be made empty and filled later.
-/

variable {registry : Registry} {graph : Graph} {root : Value}

theorem forall₂_split {α β : Type} {R : α → β → Prop} {x : α} {xs ys : List α} {zs : List β}
    (each : List.Forall₂ R (xs ++ x :: ys) zs) : ∃ xs' x' ys', zs = xs' ++ x' :: ys' ∧
      List.Forall₂ R xs xs' ∧ R x x' ∧ List.Forall₂ R ys ys' := by
  induction xs generalizing zs with
  | nil =>
    cases each with
    | cons here rest => exact ⟨[], _, _, rfl, .nil, here, rest⟩
  | cons y xs ih =>
    cases each with
    | cons here rest =>
      obtain ⟨xs', x', ys', rfl, front, middle, back⟩ := ih rest
      exact ⟨_ :: xs', x', ys', rfl, .cons here front, middle, back⟩

namespace Node

theorem Reached.kid {n c : Node} (reached : n.Reached registry graph root) (kid : c ∈ n.kids registry graph) :
    c.Reached registry graph root := by
  obtain ⟨i, isRoot, leads⟩ := reached
  exact ⟨i, isRoot, leads.tail kid⟩

def Nested (registry : Registry) (graph : Graph) : List Node → Prop :=
  List.IsChain fun inner outer => inner ∈ outer.kids registry graph

theorem Nested.around {P : Node → Prop} {outer inner : Node} (between : List Node)
    (nested : Nested registry graph (inner :: (between ++ [outer]))) (all : ∀ n ∈ inner :: between, P n) :
    Relation.TransGen (fun a b => b ∈ a.kids registry graph ∧ P b) outer inner := by
  induction between generalizing inner with
  | nil =>
    cases nested with
    | cons_cons held _ => exact .single ⟨held, all inner List.mem_cons_self⟩
  | cons next between ih =>
    obtain ⟨here, others⟩ := List.forall_mem_cons.mp all
    cases nested with
    | cons_cons held rest => exact (ih rest others).tail ⟨held, here⟩

end Node

/-- Why a survey fails that may go `room` deep. -/
inductive Fails (registry : Registry) (graph : Graph) (root : Value) (room : Nat) : SerializeError → Prop where
  | tooDeep {way : List Node} (distinct : way.Nodup) (reached : ∀ n ∈ way, n.Reached registry graph root)
      (long : way.length = room) : Fails registry graph root room .tooDeep
  | refused {e : SerializeError} (reason : Refused registry graph root e) : Fails registry graph root room e

/-- A step of a survey is a walk over some nodes, or fails for a reason. -/
inductive Simulates (registry : Registry) (graph : Graph) (root : Value) (room : Nat) (above : List Node)
    (names : List Node) (m : Marks Node) (nodes : List Node) : Except SerializeError Survey → Prop where
  | walks {s' : Survey} {names' : List Node} {m' : Marks Node} (more : names <+: names')
      (tracks : Tracks registry graph s' names' m')
      (walk : Walk (Node.kids registry graph) (Node.isHoistable registry graph) above m nodes m') :
      Simulates registry graph root room above names m nodes (.ok s')
  | fails {e : SerializeError} (reason : Fails registry graph root room e) :
      Simulates registry graph root room above names m nodes (.error e)

/-- What is known of a scan that has come to a node: `path` and `above` are what it has entered on the way,
innermost first. -/
structure Comes (registry : Registry) (graph : Graph) (root : Value) (names : List Node) (path : List Nat)
    (above : List Node) (n : Node) : Prop where
  named : List.Forall₂ (Named names) path above
  distinct : above.Nodup
  reached : ∀ k ∈ n :: above, k.Reached registry graph root
  nested : Node.Nested registry graph (n :: above)

section Simulation

variable {s : Survey} {names : List Node} {m : Marks Node} {path : List Nat} {above : List Node} {i : Nat}
  {n : Node}

theorem inwards {path : List Nat} (inside : i ∈ path) : ∃ front outer, path = front ++ i :: outer ∧
    path.reverse.dropWhile (· ≠ i) = i :: front.reverse := by
  obtain ⟨before, after, split, apart⟩ := List.eq_append_cons_of_mem (List.mem_reverse.mpr inside)
  refine ⟨after.reverse, before.reverse, ?_, ?_⟩
  · rw [← List.reverse_reverse path, split]
    simp
  · rw [split, List.reverse_reverse, List.dropWhile_append_of_pos, List.dropWhile_cons_of_neg (by simp)]
    intro k member
    simpa using fun same : k = i => apart (same ▸ member)

/-- The scan comes back to an object on its way. -/
theorem simulates_again (tracks : Tracks registry graph s names m)
    (comes : Comes registry graph root names path above n) (named : Named names i n) (inside : i ∈ path)
    (room : Nat) : Simulates registry graph root room above names m [n] (s.breakCycle i path) := by
  obtain ⟨front, outer, rfl, inward⟩ := inwards inside
  obtain ⟨front', n', outer', rfl, eachFront, here, eachOuter⟩ := forall₂_split comes.named
  obtain rfl := here.unique named
  have hoistable : ∀ k ∈ i :: front.reverse, ∃ k' ∈ front' ++ [n'],
      Named names k k' := by
    intro k member
    rcases List.mem_cons.mp member with rfl | later
    · exact ⟨n', List.mem_append_right _ List.mem_cons_self, here⟩
    · obtain ⟨k', inside, named'⟩ := (forall₂_mem eachFront).1 k (List.mem_reverse.mp later)
      exact ⟨k', List.mem_append_left _ inside, named'⟩
  have back : ∀ k' ∈ n' :: front', ∃ k ∈ i :: front.reverse, Named names k k' := by
    intro k' member
    rcases List.mem_cons.mp member with rfl | later
    · exact ⟨i, List.mem_cons_self, here⟩
    · obtain ⟨k, inside, named'⟩ := (forall₂_mem eachFront).2 k' later
      exact ⟨k, List.mem_cons_of_mem i (List.mem_reverse.mpr inside), named'⟩
  rw [Survey.breakCycle, inward]
  cases chosen : (i :: front.reverse).find? s.hoistable with
  | some k =>
    obtain ⟨k', member, named'⟩ := hoistable k (List.mem_of_find?_eq_some chosen)
    have can : k'.isHoistable registry graph = true :=
      (tracks.hoistable named').symm.trans (List.find?_some chosen)
    exact .walks List.prefix_rfl (tracks.hoist named') (.again rfl member can .done)
  | none =>
    obtain ⟨object, found, parallel⟩ := tracks.object i n' named
    rw [← parallel.typeName]
    refine .fails (.refused (.cyclic (comes.reached n' List.mem_cons_self) (Node.Nested.around front' ?_ ?_) found))
    · have nested := comes.nested
      rw [List.append_cons, ← List.cons_append] at nested
      exact List.IsChain.left_of_append nested
    · intro k' member
      obtain ⟨k, inside, named'⟩ := back k' member
      rw [← tracks.hoistable named']
      exact List.find?_eq_none.mp chosen k inside

theorem simulates_fold {targets : List Node} {owner : Node} {room depth : Nat}
    (one : ∀ s names m j c, Tracks registry graph s names m → List.Forall₂ (Named names) path above →
      Named names j c → c ∈ targets →
      Simulates registry graph root room above names m [c] (Survey.scan registry depth path s (.ref j)))
    {vs values : List Value} (each : List.Forall₂ (Stands graph.size names owner) vs values)
    (among : ∀ c ∈ Node.nodesOf graph.size owner vs, c ∈ targets) (tracks : Tracks registry graph s names m)
    (named : List.Forall₂ (Named names) path above) :
    Simulates registry graph root room above names m (Node.nodesOf graph.size owner vs)
      (values.foldlM (Survey.scan registry depth path) s) := by
  induction vs generalizing values s names m with
  | nil =>
    cases each
    exact .walks List.prefix_rfl tracks .done
  | cons v vs ih =>
    cases each with
    | @cons _ w _ values here rest =>
      rw [List.foldlM_cons]
      cases here with
      | scalar x =>
        have passed : Survey.scan registry depth path s (.scalar x) = .ok s := by rw [Survey.scan]
        rw [passed]
        exact ih rest among tracks named
      | @ref i j there =>
        obtain ⟨first, others⟩ := List.forall_mem_cons.mp among
        have step := one s names m j _ tracks named there first
        generalize Survey.scan registry depth path s (.ref j) = result at step
        cases step with
        | fails reason => exact .fails reason
        | @walks s' names' m' more tracks' walk =>
          have next := ih (rest.imp (Stands.later more)) others tracks'
            (named.imp fun _ _ there => there.later more)
          change Simulates _ _ _ _ _ _ _ _ (values.foldlM (Survey.scan registry depth path) s')
          generalize values.foldlM (Survey.scan registry depth path) s' = result at next
          cases next with
          | fails reason => exact .fails reason
          | walks more' tracks'' walk' => exact .walks (more.trans more') tracks'' (walk.append walk')

theorem simulates_scan (reducible : Reducible registry graph root) (depth : Nat)
    (tracks : Tracks registry graph s names m) (comes : Comes registry graph root names path above n)
    (named : Named names i n) :
    Simulates registry graph root (depth + above.length) above names m [n]
      (Survey.scan registry depth path s (.ref i)) := by
  induction depth generalizing path above s names m i n with
  | zero =>
    rw [Survey.scan]
    refine .fails (.tooDeep comes.distinct ?_ (Nat.zero_add _).symm)
    exact fun k member => comes.reached k (List.mem_cons_of_mem n member)
  | succ depth ih =>
    rw [Survey.scan]
    by_cases inside : i ∈ path
    · rw [if_pos (by simpa using inside)]
      exact simulates_again tracks comes named inside _
    · rw [if_neg (by simpa using inside)]
      by_cases met : (s.hoistable i && s.order.contains i) = true
      · rw [if_pos met]
        rw [Bool.and_eq_true, List.contains_eq_mem, decide_eq_true_eq] at met
        obtain ⟨k, member, there⟩ := (forall₂_mem tracks.order).1 i met.2
        obtain rfl := there.unique named
        exact .walks List.prefix_rfl (tracks.hoist there)
          (.meets ((tracks.hoistable there).symm.trans met.1) member .done)
      · rw [if_neg met]
        have isNew : n ∉ above := by
          intro member
          obtain ⟨j, there, named'⟩ := (forall₂_mem comes.named).2 n member
          exact inside (named'.same tracks.distinct named ▸ there)
        have reached := comes.reached n List.mem_cons_self
        have noted : (if s.hoistable i = true then { s with order := i :: s.order } else s) = s.note i := rfl
        dsimp only
        rw [noted]
        rcases (tracks.note named).children reducible named reached with
          ⟨cls, state, stuck, refused⟩ | ⟨s', names', owner, vs, values, entered, more, tracks', kids, each⟩
        · rw [refused]
          exact .fails (.refused (.stuck reached stuck))
        · rw [entered]
          dsimp only
          have deeper : depth + 1 + above.length = depth + (n :: above).length := by
            rw [List.length_cons]
            omega
          have one : ∀ s names m j c, Tracks registry graph s names m →
              List.Forall₂ (Named names) (i :: path) (n :: above) → Named names j c →
              c ∈ n.kids registry graph → Simulates registry graph root (depth + 1 + above.length) (n :: above)
                names m [c] (Survey.scan registry depth (i :: path) s (.ref j)) := by
            intro s names m j c tracks both named' kid
            rw [deeper]
            exact ih tracks ⟨both, List.nodup_cons.mpr ⟨isNew, comes.distinct⟩,
              List.forall_mem_cons.mpr ⟨reached.kid kid, comes.reached⟩,
              .cons_cons kid comes.nested⟩ named'
          have below := simulates_fold one each (by rw [kids]; exact fun _ member => member) tracks'
            (.cons (named.later more) (comes.named.imp fun _ _ there => there.later more))
          rw [← kids] at below
          generalize values.foldlM (Survey.scan registry depth (i :: path)) s' = result at below
          cases below with
          | fails reason => exact .fails reason
          | walks more' tracks'' walk => exact .walks (more.trans more') tracks'' (.enters isNew walk .done)

end Simulation

/-! ## Texts of objects -/

theorem exists_bind_ok {α β ε : Type} {x : Except ε α} {f : α → Except ε β} (first : ∃ a, x = .ok a)
    (next : ∀ a, ∃ b, f a = .ok b) : ∃ b, (x >>= f) = .ok b := by
  obtain ⟨a, rfl⟩ := first
  exact next a

theorem exists_mapM_ok {α β ε : Type} {f : α → Except ε β} {xs : List α}
    (each : ∀ x ∈ xs, ∃ y, f x = .ok y) : ∃ ys, xs.mapM f = .ok ys := by
  induction xs with
  | nil => exact ⟨[], rfl⟩
  | cons x xs ih =>
    obtain ⟨first, others⟩ := List.forall_mem_cons.mp each
    rw [List.mapM_cons]
    exact exists_bind_ok first fun _ => exists_bind_ok (ih others) fun _ => ⟨_, rfl⟩

theorem exists_layout {s : Survey} {i : Nat} {render : Value → Except SerializeError Text}
    (elements : ∀ v ∈ (s.object i).elements, ∃ text, render v = .ok text)
    (recipe : ∀ cls state, s.object i = .inst cls state → ∃ recipe, s.recipe? i = some recipe ∧
      ∀ v ∈ recipe.values, ∃ text, render v = .ok text) :
    ∃ text, s.layout i render = .ok text := by
  rw [Survey.layout]
  generalize s.object i = object at elements recipe
  split
  · exact exists_bind_ok (exists_mapM_ok elements) fun _ => ⟨_, rfl⟩
  · exact exists_bind_ok (elements _ List.mem_cons_self) fun _ => ⟨_, rfl⟩
  · exact exists_bind_ok (exists_mapM_ok elements) fun _ => ⟨_, rfl⟩
  · refine exists_bind_ok (exists_mapM_ok fun e member => ?_) fun _ => ⟨_, rfl⟩
    have key := elements e.1 (List.mem_flatMap.mpr ⟨e, member, by simp⟩)
    have value := elements e.2 (List.mem_flatMap.mpr ⟨e, member, by simp⟩)
    exact exists_bind_ok key fun _ => exists_bind_ok value fun _ => ⟨_, rfl⟩
  · exact ⟨_, rfl⟩
  · exact exists_bind_ok (exists_mapM_ok elements) fun _ => ⟨_, rfl⟩
  · exact ⟨_, rfl⟩
  · exact exists_bind_ok (exists_mapM_ok elements) fun _ => ⟨_, rfl⟩
  · obtain ⟨recipe, known, values⟩ := recipe _ _ rfl
    rw [known]
    dsimp only
    cases args : recipe.args with
    | none => exact ⟨_, rfl⟩
    | some args' =>
      have positional : ∀ v ∈ args', ∃ text, render v = .ok text := fun v member =>
        values v (List.mem_append_left _ (by rw [args]; exact member))
      refine exists_bind_ok (exists_mapM_ok positional) fun _ =>
        exists_bind_ok (exists_mapM_ok fun e member => ?_) fun _ => ⟨_, rfl⟩
      have value := values e.2 (List.mem_append_right _ (List.mem_map_of_mem member))
      exact exists_bind_ok value fun _ => ⟨_, rfl⟩

def Refers (names : List Node) (nodes : List Node) (v : Value) : Prop :=
  ∀ i, v = .ref i → ∃ n ∈ nodes, Named names i n

theorem refers_of_stands {size : Nat} {names : List Node} {owner : Node} {vs values : List Value}
    (each : List.Forall₂ (Stands size names owner) vs values) :
    ∀ v ∈ values, Refers names (Node.nodesOf size owner vs) v := by
  rintro v member j rfl
  obtain ⟨w, member', stands⟩ := (forall₂_mem each).2 _ member
  cases stands with
  | ref named => exact ⟨_, List.mem_filterMap.mpr ⟨_, member', rfl⟩, named⟩

section Written

variable {s : Survey} {names : List Node} {m : Marks Node} {i : Nat} {n : Node}

theorem Tracks.refers_elements (tracks : Tracks registry graph s names m) (named : Named names i n) :
    ∀ v ∈ (s.object i).elements, Refers names (n.kids registry graph) v := by
  obtain ⟨object, found, parallel⟩ := tracks.object i n named
  by_cases isInst : ∃ cls state, object = .inst cls state
  · obtain ⟨cls, state, rfl⟩ := isInst
    generalize s.object i = object at parallel
    cases parallel
    exact List.forall_mem_nil _
  · rw [Node.kids_plain found fun cls state same => isInst ⟨cls, state, same⟩]
    exact refers_of_stands parallel.elements

theorem Tracks.refers_arguments (tracks : Tracks registry graph s names m) (named : Named names i n)
    (entered : n ∈ m.entered) {cls : Class} {state : State} (isInst : s.object i = .inst cls state) :
    ∃ recipe, s.recipe? i = some recipe ∧ ∀ v ∈ recipe.values, Refers names (n.kids registry graph) v := by
  obtain ⟨object, found, parallel⟩ := tracks.object i n named
  rw [isInst] at parallel
  cases parallel
  obtain ⟨j, named', ready⟩ := tracks.entered n entered
  obtain rfl := named'.same tracks.distinct named
  obtain ⟨recipe, known⟩ := ready cls state found
  obtain ⟨n', named'', -, each⟩ := tracks.recipe j recipe known
  obtain rfl := named''.unique named
  rw [Node.kids_inst found]
  exact ⟨recipe, known, refers_of_stands each⟩

structure Ends (registry : Registry) (graph : Graph) (root : Value) (s : Survey) (names : List Node)
    (m : Marks Node) : Prop where
  tracks : Tracks registry graph s names m
  all : ∀ n, Node.Reached registry graph root n → n ∈ m.entered
  only : ∀ n ∈ m.entered, Node.Reached registry graph root n
  order : m.order ⊆ m.entered
  kept : m.cut ⊆ m.order
  can : ∀ n ∈ m.order, n.isHoistable registry graph = true
  acyclic : ∀ n, Node.Reached registry graph root n →
    ¬ Relation.TransGen (fun a b => b ∈ a.kids registry graph ∧ b ∉ m.cut) n n

theorem Ends.mem_shared (ends : Ends registry graph root s names m) (named : Named names i n)
    (cut : n ∈ m.cut) : i ∈ s.shared := by
  obtain ⟨j, hoisted, named'⟩ := (forall₂_mem ends.tracks.hoisted).2 n cut
  obtain ⟨k, order, named''⟩ := (forall₂_mem ends.tracks.order).2 n (ends.kept cut)
  obtain rfl := named'.same ends.tracks.distinct named
  obtain rfl := named''.same ends.tracks.distinct named
  rw [Survey.shared, List.mem_filter, List.mem_reverse, List.contains_iff_mem]
  exact ⟨order, hoisted⟩

/-- A node that is not written as a parameter is laid out if its parts are written. -/
theorem Ends.exists_layout (ends : Ends registry graph root s names m) (named : Named names i n)
    (reached : n.Reached registry graph root) {render : Value → Except SerializeError Text}
    (scalar : ∀ x, ∃ text, render (.scalar x) = .ok text)
    (kid : ∀ c ∈ n.kids registry graph, ∀ j, Named names j c → ∃ text, render (.ref j) = .ok text) :
    ∃ text, s.layout i render = .ok text := by
  have part : ∀ v, Refers names (n.kids registry graph) v → ∃ text, render v = .ok text := by
    intro v refers
    cases v with
    | scalar x => exact scalar x
    | ref j =>
      obtain ⟨c, child, named'⟩ := refers j rfl
      exact kid c child j named'
  refine MacroExpand.exists_layout (fun v member => part v (ends.tracks.refers_elements named v member)) ?_
  intro cls state isInst
  obtain ⟨recipe, known, refers⟩ := ends.tracks.refers_arguments named (ends.all n reached) isInst
  exact ⟨recipe, known, fun v member => part v (refers v member)⟩

theorem paramName_none {shared : List Nat} (none : Survey.paramName shared i = none) : i ∉ shared := by
  intro member
  rw [Survey.paramName, Option.map_eq_none_iff, List.findIdx?_eq_none_iff] at none
  simpa using none i member

/-- Nodes on a way down, of which only the outermost can be cut. -/
structure Descends (registry : Registry) (graph : Graph) (root : Value) (m : Marks Node) (way : List Node) :
    Prop where
  distinct : way.Nodup
  reached : ∀ n ∈ way, n.Reached registry graph root
  nested : Node.Nested registry graph way
  uncut : ∀ n ∈ way.dropLast, n ∉ m.cut

theorem Ends.descends (ends : Ends registry graph root s names m) {way : List Node}
    (descends : Descends registry graph root m way) (uncut : n ∉ m.cut)
    (reached : n.Reached registry graph root) (nested : Node.Nested registry graph (n :: way)) :
    Descends registry graph root m (n :: way) := by
  refine ⟨List.nodup_cons.mpr ⟨?_, descends.distinct⟩, List.forall_mem_cons.mpr ⟨reached, descends.reached⟩,
    nested, ?_⟩
  · intro member
    obtain ⟨between, outer, rfl⟩ := List.append_of_mem member
    refine ends.acyclic n reached (Node.Nested.around (P := (· ∉ m.cut)) between ?_ ?_)
    · rw [List.append_cons, ← List.cons_append] at nested
      exact List.IsChain.left_of_append nested
    · refine List.forall_mem_cons.mpr ⟨uncut, fun k inside => descends.uncut k ?_⟩
      rw [List.dropLast_append_cons]
      exact List.mem_append_left _ inside
  · cases way with
    | nil => exact nofun
    | cons k way =>
      rw [List.dropLast_cons_cons]
      exact List.forall_mem_cons.mpr ⟨uncut, descends.uncut⟩

/-- A node is written if there is room for all nodes below those that are above it. -/
theorem Ends.exists_render (reducible : Reducible registry graph root)
    (ends : Ends registry graph root s names m) {depth : Nat} {way : List Node}
    (descends : Descends registry graph root m way) (nested : Node.Nested registry graph (n :: way))
    (reached : n.Reached registry graph root) (named : Named names i n)
    (room : reducible.finite.toFinset.card < depth + way.length) :
    ∃ text, s.render s.shared depth (.ref i) = .ok text := by
  induction depth generalizing n i way with
  | zero =>
    have short := reducible.length_le descends.distinct descends.reached
    omega
  | succ depth ih =>
    rw [Survey.render]
    cases name : Survey.paramName s.shared i with
    | some text => exact ⟨text, rfl⟩
    | none =>
      have uncut : n ∉ m.cut := fun cut => paramName_none name (ends.mem_shared named cut)
      have deeper := ends.descends descends uncut reached nested
      refine ends.exists_layout named reached (fun x => ⟨x.text, by rw [Survey.render]⟩) ?_
      intro c child j named'
      refine ih deeper (.cons_cons child nested) (reached.kid child) named' ?_
      rw [List.length_cons]
      omega

theorem Ends.exists_fill (reducible : Reducible registry graph root)
    (ends : Ends registry graph root s names m) {limit : Nat} (room : reducible.finite.toFinset.card < limit)
    (shared : i ∈ s.shared) : ∃ text, s.fill s.shared limit i = .ok text := by
  have member : i ∈ s.order := List.mem_reverse.mp (List.mem_of_mem_filter shared)
  obtain ⟨n, order, named⟩ := (forall₂_mem ends.tracks.order).1 i member
  have reached := ends.only n (ends.order order)
  have layout : ∃ text, s.layout i (s.render s.shared limit) = .ok text := by
    refine ends.exists_layout named reached (fun x => ⟨x.text, by rw [Survey.render]⟩) ?_
    intro c child j named'
    have alone : Descends registry graph root m [n] :=
      ⟨List.nodup_singleton n, List.forall_mem_singleton.mpr reached, .singleton n, by simp⟩
    refine ends.exists_render reducible alone (.cons_cons child (.singleton n)) (reached.kid child) named' ?_
    omega
  obtain ⟨text, laid⟩ := layout
  rw [Survey.fill]
  rcases s.object i with (_ | _) | _ | (_ | _) | (_ | _) | _ | _
  all_goals first
    | exact ⟨none, rfl⟩
    | exact ⟨_, by rw [laid]; rfl⟩

end Written

/-! ## Whole values -/

section Whole

variable (reducible : Reducible registry graph root)
include reducible

theorem simulates_root (limit : Nat) {i : Nat} (isRoot : root = .ref i) :
    Simulates registry graph root limit [] ((List.range graph.size).map .given) {} [.given i]
      (Survey.scan registry limit [] { graph } root) := by
  have tracks : Tracks registry graph { graph } ((List.range graph.size).map .given) {} := .start reducible
  have named := tracks.given i (reducible.start i isRoot)
  have reached : Node.Reached registry graph root (.given i) := ⟨i, isRoot, .refl⟩
  rw [isRoot] at reached reducible ⊢
  exact simulates_scan reducible limit tracks
    ⟨.nil, List.nodup_nil, List.forall_mem_singleton.mpr reached, .singleton _⟩ named

variable {limit : Nat}

/-- A scan that succeeds has entered every node and cut every cycle. -/
theorem exists_ends {i : Nat} (isRoot : root = .ref i) {s : Survey}
    (scanned : Survey.scan registry limit [] { graph } root = .ok s) :
    ∃ names m, Ends registry graph root s names m ∧ Named names i (.given i) := by
  have whole := simulates_root reducible limit isRoot
  rw [scanned] at whole
  cases whole with
  | @walks _ names m more tracks walk =>
    refine ⟨names, m, ⟨tracks, ?_, ?_, ?_, ?_, ?_, ?_⟩, tracks.given i (reducible.start i isRoot)⟩
    · rintro n ⟨j, same, leads⟩
      cases isRoot.symm.trans same
      exact walk.entered_of_leads leads
    · intro n member
      rcases walk.leads_of_entered n member with none | ⟨n', isFirst, leads⟩
      · cases none
      · obtain rfl := List.mem_singleton.mp isFirst
        exact ⟨i, isRoot, leads⟩
    · exact (walk.closed (List.nil_subset _) (List.nil_subset _)).2.1
    · exact walk.order_of_cut (List.forall_mem_nil _) (List.forall_mem_nil _)
    · exact walk.can_of_order (List.forall_mem_nil _)
    · rintro n ⟨j, same, leads⟩
      cases isRoot.symm.trans same
      exact walk.cuts_cycles leads

variable (room : reducible.finite.toFinset.card < limit)
include room

theorem refused_of_scan {e : SerializeError}
    (failed : Survey.scan registry limit [] { graph } root = .error e) : Refused registry graph root e := by
  cases isRoot : root with
  | scalar x =>
    rw [isRoot, Survey.scan] at failed
    cases failed
  | ref i =>
    rw [← isRoot]
    have whole := simulates_root reducible limit isRoot
    rw [failed] at whole
    cases whole with
    | fails reason =>
      cases reason with
      | refused reason => exact reason
      | @tooDeep way distinct reached long =>
        have short := reducible.length_le distinct reached
        omega

theorem exists_expression {s : Survey} (scanned : Survey.scan registry limit [] { graph } root = .ok s) :
    ∃ text, s.expression limit root = .ok text := by
  have body : ∃ text, s.render s.shared limit root = .ok text := by
    cases isRoot : root with
    | scalar x => exact ⟨x.text, by rw [Survey.render]⟩
    | ref i =>
      obtain ⟨names, m, ends, named⟩ := exists_ends reducible isRoot scanned
      have reached : Node.Reached registry graph root (.given i) := ⟨i, isRoot, .refl⟩
      exact ends.exists_render reducible ⟨List.nodup_nil, List.forall_mem_nil _, .nil, List.forall_mem_nil _⟩
        (.singleton _) reached named room
  have fills : ∃ texts, s.shared.mapM (s.fill s.shared limit) = .ok texts := by
    refine exists_mapM_ok fun j shared => ?_
    cases isRoot : root with
    | scalar x =>
      rw [isRoot, Survey.scan] at scanned
      cases scanned
      cases shared
    | ref i =>
      obtain ⟨names, m, ends, -⟩ := exists_ends reducible isRoot scanned
      exact ends.exists_fill reducible room shared
  rw [Survey.expression]
  refine exists_bind_ok body fun text => ?_
  split
  · exact ⟨_, rfl⟩
  · exact exists_bind_ok fills fun _ => ⟨_, rfl⟩

/-- Serialization fails exactly when it must: some object of the value is no container and cannot be reduced,
or there is a cycle without a list, dictionary or set that is no argument of a reduction.  It fails while the
value is scanned, and never for its depth. -/
theorem uneval_fails_iff :
    ((∃ e, uneval registry limit graph root = .error e) ↔
      (∃ n cls state, Node.Reached registry graph root n ∧ n.Stuck registry graph cls state) ∨
        ∃ n, Node.Reached registry graph root n ∧ Relation.TransGen (Node.HoldsBare registry graph) n n) ∧
    (∀ e, uneval registry limit graph root = .error e → Refused registry graph root e) ∧
    ∀ s, Survey.scan registry limit [] { graph } root = .ok s → ∃ text, s.expression limit root = .ok text := by
  have refused : ∀ e, uneval registry limit graph root = .error e → Refused registry graph root e := by
    intro e failed
    rw [uneval] at failed
    cases scanned : Survey.scan registry limit [] { graph } root with
    | error e' =>
      rw [scanned] at failed
      cases failed
      exact refused_of_scan reducible room scanned
    | ok s =>
      rw [scanned] at failed
      obtain ⟨text, written⟩ := exists_expression reducible room scanned
      dsimp only at failed
      rw [written] at failed
      cases failed
  refine ⟨⟨?_, ?_⟩, refused, fun s => exists_expression reducible room⟩
  · rintro ⟨e, failed⟩
    cases refused e failed with
    | stuck reached stuck => exact .inl ⟨_, _, _, reached, stuck⟩
    | cyclic reached around _ => exact .inr ⟨_, reached, around⟩
  · intro cause
    cases scanned : Survey.scan registry limit [] { graph } root with
    | error e => exact ⟨e, by rw [uneval, scanned]⟩
    | ok s =>
      exfalso
      obtain ⟨i, isRoot⟩ : ∃ i, root = .ref i := by
        rcases cause with ⟨_, _, _, ⟨i, isRoot, -⟩, -⟩ | ⟨_, ⟨i, isRoot, -⟩, -⟩
        · exact ⟨i, isRoot⟩
        · exact ⟨i, isRoot⟩
      obtain ⟨names, m, ends, -⟩ := exists_ends reducible isRoot scanned
      rcases cause with ⟨n, cls, state, reached, stuck⟩ | ⟨n, reached, around⟩
      · obtain ⟨j, named, ready⟩ := ends.tracks.entered n (ends.all n reached)
        obtain ⟨recipe, known⟩ := ready cls state stuck.1
        obtain ⟨n', named', apart, -⟩ := ends.tracks.recipe j recipe known
        obtain rfl := named'.unique named
        exact apart cls state stuck
      · have uncut : ∀ a b, Node.HoldsBare registry graph a b → b ∈ a.kids registry graph ∧ b ∉ m.cut :=
          fun a b holds => ⟨holds.1, fun cut => holds.2 (ends.can b (ends.kept cut))⟩
        exact ends.acyclic n reached (Relation.TransGen.mono uncut n n around)

end Whole

/-- An ordered dictionary that holds a list that holds the dictionary. -/
def holdsItself : Graph :=
  #[.inst Class.orderedDict (.ordered [(.scalar (.str ['a']), .ref 1)]), .list [.ref 0]]

/-- Of what holds itself, the way back leads through the list. -/
theorem holdsItself_uncut_nowhere :
    ∃ reducible : Reducible Registry.standard holdsItself (.ref 0),
      reducible.finite.toFinset.card < nestingLimit ∧
        ¬ ∃ n, Node.Reached Registry.standard holdsItself (.ref 0) n ∧
          Relation.TransGen (Node.HoldsBare Registry.standard holdsItself) n n := by
  let nodes : List Node := [.given 0, .given 1, .part (.given 0) 0, .part (.given 0) 1]
  have start : ∀ i, Value.ref 0 = .ref i → Node.given i ∈ nodes := by
    intro i same
    cases same
    exact List.mem_cons_self
  have closed : ∀ n ∈ nodes, n.kids Registry.standard holdsItself ⊆ nodes := by decide +kernel
  have reducible : Reducible Registry.standard holdsItself (.ref 0) :=
    .of_closed start closed (by decide +kernel) (by decide +kernel) (by decide +kernel)
  have room : reducible.finite.toFinset.card < nestingLimit :=
    Nat.lt_of_le_of_lt (reducible.card_le start closed) (by decide)
  have written : (uneval Registry.standard nestingLimit holdsItself (.ref 0)).isOk = true := by decide +kernel
  refine ⟨reducible, room, fun bad => ?_⟩
  obtain ⟨e, failed⟩ := (uneval_fails_iff reducible room).1.mpr (.inr bad)
  rw [failed] at written
  cases written

end MacroExpand
