import MacroExpand.Proofs.Tracking

/-!
# What a scan keeps

A scan notes objects in its survey and reduces instances, which puts new objects behind those of the graph.
What holds of a survey whatever is noted in it, and still holds after an object has been entered, holds in the
end (`Survey.Kept.scan`).  Of new objects it is enough to know the instances among them and the existing values
that they are built around (`FreshRecipe.alloc_behind`).
-/

set_option autoImplicit false

namespace MacroExpand

/-! ## New objects -/

mutual

def Fresh.instances : Fresh → List (Class × State)
  | .value _ => []
  | .inst cls state => [(cls, state)]
  | .list items | .tuple items => Fresh.instancesAll items
  | .dict entries => Fresh.instancesEntries entries

def Fresh.instancesAll : List Fresh → List (Class × State)
  | [] => []
  | item :: rest => item.instances ++ Fresh.instancesAll rest

def Fresh.instancesEntries : List (Scalar × Fresh) → List (Class × State)
  | [] => []
  | entry :: rest => entry.2.instances ++ Fresh.instancesEntries rest

end

def FreshRecipe.instances (fresh : FreshRecipe) : List (Class × State) :=
  Fresh.instancesAll (fresh.args.getD []) ++ Fresh.instancesAll (fresh.kwargs.map Prod.snd)

def Graph.Behind (graph : Graph) (first : Nat) (holds : Object → Prop) : Prop :=
  ∀ (i : Nat) (object : Object), first ≤ i → graph[i]? = some object → holds object

namespace Graph.Behind

variable {graph : Graph} {first : Nat} {holds : Object → Prop}

theorem start (graph : Graph) (holds : Object → Prop) : graph.Behind graph.size holds := by
  intro i object behind found
  have inside := (Array.getElem?_eq_some_iff.mp found).1
  exact absurd behind (Nat.not_le_of_lt inside)

theorem push (all : graph.Behind first holds) {object : Object} (new : holds object) :
    Graph.Behind (graph.push object) first holds := by
  intro i other behind found
  rw [Array.getElem?_push] at found
  split at found
  · cases found
    exact new
  · exact all i other behind found

end Graph.Behind

/-- What new objects are built by: `holds` is known of the instances among them and follows for containers from
their elements, which are scalars, new objects or values that `may` be handed on. -/
structure Fresh.Builds (first : Nat) (holds : Object → Prop) (may : Value → Prop) : Prop where
  scalar : ∀ s, may (.scalar s)
  new : ∀ i ≥ first, may (.ref i)
  container : ∀ object : Object, (∀ cls state, object ≠ .inst cls state) → (∀ v ∈ object.elements, may v) →
    holds object

namespace Fresh

variable {first : Nat} {holds : Object → Prop} {may : Value → Prop}

theorem Builds.alloc (builds : Builds first holds may) {graph : Graph} (behind : first ≤ graph.size)
    (all : graph.Behind first holds) {object : Object} (new : holds object) :
    (graph.alloc object).1.Behind first holds ∧ may (graph.alloc object).2 ∧ first ≤ (graph.alloc object).1.size := by
  refine ⟨all.push new, builds.new _ behind, ?_⟩
  rw [Graph.alloc, Array.size_push]
  omega

mutual

theorem alloc_behind (builds : Builds first holds may) {graph : Graph} (behind : first ≤ graph.size)
    (all : graph.Behind first holds) : ∀ fresh : Fresh, (∀ v ∈ fresh.given, may v) →
      (∀ e ∈ fresh.instances, holds (.inst e.1 e.2)) →
      (fresh.alloc graph).1.Behind first holds ∧ may (fresh.alloc graph).2 ∧ first ≤ (fresh.alloc graph).1.size
  | .value v, given, _ => ⟨all, given v List.mem_cons_self, behind⟩
  | .inst cls state, _, instances => builds.alloc behind all (instances (cls, state) List.mem_cons_self)
  | .list items, given, instances => by
    obtain ⟨all', each, behind'⟩ := allocAll_behind builds behind all items given instances
    exact builds.alloc behind' all' (builds.container _ (fun _ _ same => by cases same) each)
  | .tuple items, given, instances => by
    obtain ⟨all', each, behind'⟩ := allocAll_behind builds behind all items given instances
    exact builds.alloc behind' all' (builds.container _ (fun _ _ same => by cases same) each)
  | .dict entries, given, instances => by
    obtain ⟨all', each, behind'⟩ := allocEntries_behind builds behind all entries given instances
    refine builds.alloc behind' all' (builds.container _ (fun _ _ same => by cases same) fun v member => ?_)
    obtain ⟨e, isEntry, part⟩ := List.mem_flatMap.mp member
    simp only [List.mem_cons, List.not_mem_nil, or_false] at part
    rcases part with rfl | rfl
    · exact (each e isEntry).1
    · exact (each e isEntry).2

theorem allocAll_behind (builds : Builds first holds may) {graph : Graph} (behind : first ≤ graph.size)
    (all : graph.Behind first holds) : ∀ items : List Fresh, (∀ v ∈ Fresh.givenAll items, may v) →
      (∀ e ∈ Fresh.instancesAll items, holds (.inst e.1 e.2)) →
      (Fresh.allocAll graph items).1.Behind first holds ∧ (∀ v ∈ (Fresh.allocAll graph items).2, may v) ∧
        first ≤ (Fresh.allocAll graph items).1.size
  | [], _, _ => ⟨all, List.forall_mem_nil _, behind⟩
  | item :: rest, given, instances => by
    obtain ⟨all', here, behind'⟩ := alloc_behind builds behind all item
      (fun v member => given v (List.mem_append_left _ member))
      (fun e member => instances e (List.mem_append_left _ member))
    obtain ⟨all'', others, behind''⟩ := allocAll_behind builds behind' all' rest
      (fun v member => given v (List.mem_append_right _ member))
      (fun e member => instances e (List.mem_append_right _ member))
    exact ⟨all'', List.forall_mem_cons.mpr ⟨here, others⟩, behind''⟩

theorem allocEntries_behind (builds : Builds first holds may) {graph : Graph} (behind : first ≤ graph.size)
    (all : graph.Behind first holds) : ∀ entries : List (Scalar × Fresh),
      (∀ v ∈ Fresh.givenEntries entries, may v) →
      (∀ e ∈ Fresh.instancesEntries entries, holds (.inst e.1 e.2)) →
      (Fresh.allocEntries graph entries).1.Behind first holds ∧
        (∀ e ∈ (Fresh.allocEntries graph entries).2, may e.1 ∧ may e.2) ∧
        first ≤ (Fresh.allocEntries graph entries).1.size
  | [], _, _ => ⟨all, List.forall_mem_nil _, behind⟩
  | (key, item) :: rest, given, instances => by
    obtain ⟨all', here, behind'⟩ := alloc_behind builds behind all item
      (fun v member => given v (List.mem_append_left _ member))
      (fun e member => instances e (List.mem_append_left _ member))
    obtain ⟨all'', others, behind''⟩ := allocEntries_behind builds behind' all' rest
      (fun v member => given v (List.mem_append_right _ member))
      (fun e member => instances e (List.mem_append_right _ member))
    exact ⟨all'', List.forall_mem_cons.mpr ⟨⟨builds.scalar key, here⟩, others⟩, behind''⟩

end

end Fresh

namespace FreshRecipe

variable {first : Nat} {holds : Object → Prop} {may : Value → Prop}

/-- A reduction puts objects behind others, and its arguments are new or handed on. -/
theorem alloc_behind (builds : Fresh.Builds first holds may) {graph : Graph} (behind : first ≤ graph.size)
    (all : graph.Behind first holds) (fresh : FreshRecipe) (given : ∀ v ∈ fresh.given, may v)
    (instances : ∀ e ∈ fresh.instances, holds (.inst e.1 e.2)) :
    (fresh.alloc graph).1.Behind first holds ∧ (∀ v ∈ (fresh.alloc graph).2.values, may v) ∧
      first ≤ (fresh.alloc graph).1.size := by
  have named : ∀ g : Graph, ((fresh.kwargs.map Prod.fst).zip (Fresh.allocAll g (fresh.kwargs.map Prod.snd)).2).map
      Prod.snd = (Fresh.allocAll g (fresh.kwargs.map Prod.snd)).2 := by
    intro g
    refine values_of_zip _ _ ?_
    rw [allocAll_length, List.length_map, List.length_map]
  have given' := fun v member => given v (List.mem_append_right _ member)
  have instances' := fun e member => instances e (List.mem_append_right _ member)
  rw [FreshRecipe.alloc]
  cases args : fresh.args with
  | none =>
    obtain ⟨all', each, behind'⟩ := Fresh.allocAll_behind builds behind all _ given' instances'
    refine ⟨all', fun v member => each v ?_, behind'⟩
    rw [Recipe.values] at member
    dsimp only at member
    rwa [named] at member
  | some items =>
    obtain ⟨all', positional, behind'⟩ := Fresh.allocAll_behind builds behind all items
      (fun v member => given v (List.mem_append_left _ (by rw [args]; exact member)))
      (fun e member => instances e (List.mem_append_left _ (by rw [args]; exact member)))
    obtain ⟨all'', byName, behind''⟩ := Fresh.allocAll_behind builds behind' all' _ given' instances'
    refine ⟨all'', fun v member => ?_, behind''⟩
    rw [Recipe.values] at member
    dsimp only at member
    rw [named] at member
    exact (List.mem_append.mp member).elim (positional v) (byName v)

end FreshRecipe

/-! ## Scans -/

/-- What entering an object gives: the elements of a container, or the arguments of the recipe of an instance, which
is reduced when it is entered for the first time. -/
inductive Survey.Enters (registry : Registry) (s : Survey) (i : Nat) :
    Except SerializeError (Survey × List Value) → Prop where
  | plain (noInst : ∀ cls state, s.object i ≠ .inst cls state) : Enters registry s i (.ok (s, (s.object i).elements))
  | again {cls : Class} {state : State} {recipe : Recipe} (isInst : s.object i = .inst cls state)
      (known : s.recipe? i = some recipe) : Enters registry s i (.ok (s, recipe.values))
  | fails {cls : Class} {state : State} {e : SerializeError} (isInst : s.object i = .inst cls state)
      (answer : registry.reduce cls state = .error e) : Enters registry s i (.error e)
  | refuses {cls : Class} {state : State} (isInst : s.object i = .inst cls state)
      (answer : registry.reduce cls state = .ok none) : Enters registry s i (.error (refusal cls state))
  | reduces {cls : Class} {state : State} {fresh : FreshRecipe} (isInst : s.object i = .inst cls state)
      (answer : registry.reduce cls state = .ok (some fresh)) :
      Enters registry s i
        (.ok (Tracks.withReduction s i (fresh.alloc s.graph), (fresh.alloc s.graph).2.values))

theorem Survey.enters (registry : Registry) (s : Survey) (i : Nat) :
    s.Enters registry i (s.children registry i) := by
  rw [children]
  cases shape : s.object i with
  | inst cls state =>
    dsimp only
    cases known : s.recipe? i with
    | some recipe =>
      rw [reduce, known]
      exact .again shape known
    | none =>
      cases answer : registry.reduce cls state with
      | error e =>
        rw [reduce, known]
        dsimp only
        rw [answer]
        exact .fails shape answer
      | ok reduced =>
        cases reduced with
        | none =>
          rw [reduce, known]
          dsimp only
          rw [answer]
          exact .refuses shape answer
        | some fresh =>
          rw [Tracks.reduce_eq known answer]
          exact .reduces shape answer
  | _ =>
    have noInst : ∀ cls state, s.object i ≠ .inst cls state := by
      intro cls state isInst
      rw [shape] at isInst
      cases isInst
    have entered : s.Enters registry i (.ok (s, (s.object i).elements)) := .plain noInst
    rw [shape] at entered
    exact entered

def Settles {α : Type} (holds : α → Prop) (fails : SerializeError → Prop) : Except SerializeError α → Prop
  | .ok a => holds a
  | .error e => fails e

namespace Settles

variable {α β : Type} {holds : α → Prop} {holds' : β → Prop} {fails : SerializeError → Prop}

theorem bind {x : Except SerializeError α} {f : α → Except SerializeError β} (first : Settles holds fails x)
    (rest : ∀ a, holds a → Settles holds' fails (f a)) : Settles holds' fails (x >>= f) := by
  cases x with
  | error e => exact first
  | ok a => exact rest a first

theorem mapM {f : α → Except SerializeError β} {xs : List α} (each : ∀ x ∈ xs, Settles holds' fails (f x)) :
    Settles (fun ys => ∀ y ∈ ys, holds' y) fails (xs.mapM f) := by
  induction xs with
  | nil => exact List.forall_mem_nil _
  | cons x rest ih =>
    rw [List.mapM_cons]
    obtain ⟨first, later⟩ := List.forall_mem_cons.mp each
    exact first.bind fun y isFirst => (ih later).bind fun ys all => List.forall_mem_cons.mpr ⟨isFirst, all⟩

theorem mono {weaker : α → Prop} {fails' : SerializeError → Prop} {x : Except SerializeError α}
    (settles : Settles holds fails x) (onValue : ∀ a, holds a → weaker a) (onFailure : ∀ e, fails e → fails' e) :
    Settles weaker fails' x := by
  cases x with
  | error e => exact onFailure e settles
  | ok a => exact onValue a settles

end Settles

/-- What holds of a survey whatever is noted in it, and still holds when an object that `may` be met is entered,
whose parts may be met too. -/
structure Survey.Kept (registry : Registry) (holds : Survey → Prop) (may : Value → Prop)
    (fails : SerializeError → Prop) : Prop where
  noted : ∀ s order hoisted, holds s → holds { s with order, hoisted }
  entered : ∀ s i, holds s → may (.ref i) →
    Settles (fun entered => holds entered.1 ∧ ∀ v ∈ entered.2, may v) fails (s.children registry i)
  cyclic : ∀ name, fails (.cyclic name)
  tooDeep : fails .tooDeep

namespace Survey.Kept

variable {registry : Registry} {holds : Survey → Prop} {may : Value → Prop} {fails : SerializeError → Prop}

theorem fold (step : Survey → Value → Except SerializeError Survey)
    (one : ∀ s v, holds s → may v → Settles holds fails (step s v)) (values : List Value) {s : Survey}
    (start : holds s) (each : ∀ v ∈ values, may v) : Settles holds fails (values.foldlM step s) := by
  induction values generalizing s with
  | nil => exact start
  | cons v rest ih =>
    rw [List.foldlM_cons]
    have first := one s v start (each v List.mem_cons_self)
    cases result : step s v with
    | error e =>
      rw [result] at first
      exact first
    | ok s' =>
      rw [result] at first
      exact ih first fun w member => each w (List.mem_cons_of_mem v member)

theorem scan (kept : Kept registry holds may fails) (depth : Nat) (path : List Nat) {s : Survey} {v : Value}
    (start : holds s) (allowed : may v) : Settles holds fails (Survey.scan registry depth path s v) := by
  induction depth generalizing path s v with
  | zero =>
    cases v with
    | scalar x => exact start
    | ref i => exact kept.tooDeep
  | succ depth ih =>
    cases v with
    | scalar x => exact start
    | ref i =>
      have hoist : ∀ k, holds { s with hoisted := k :: s.hoisted } := fun k => kept.noted s s.order _ start
      have note : holds (s.note i) := by
        unfold Survey.note
        split
        · exact kept.noted s _ s.hoisted start
        · exact start
      rw [Survey.scan]
      split
      · unfold Survey.breakCycle
        split
        · exact hoist _
        · exact kept.cyclic _
      · split
        · exact hoist i
        · have inside := kept.entered (s.note i) i note allowed
          have noted : (if s.hoistable i = true then { s with order := i :: s.order } else s) = s.note i := rfl
          dsimp only
          rw [noted]
          cases entered : (s.note i).children registry i with
          | error e =>
            rw [entered] at inside
            exact inside
          | ok result =>
            rw [entered] at inside
            exact fold _ (fun s v => ih (i :: path)) result.2 inside.1 inside.2

end Survey.Kept

end MacroExpand
