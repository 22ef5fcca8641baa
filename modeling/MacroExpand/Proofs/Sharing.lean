import MacroExpand.Proofs.Closures

/-!
# Shared objects

The objects that become parameters are created empty, one behind the other, and bound to names with
numbers.  They are filled in order, before the value itself is made; filling one of them changes no
copy that was made before.  In the end each place holds copies of what its object holds.
-/

set_option autoImplicit false

namespace MacroExpand

namespace Sandbox

open MacroExpand.Parser

variable {m m' : Machine} {frame : Frame} {bindings : List (String × Value)}
variable {place : Nat → Option Nat} {ground : Ground} {graph : Graph}

/-! ## Places and names -/

def placeFrom (base : Nat) (shared : List Nat) (i : Nat) : Option Nat :=
  (shared.findIdx? (· = i)).map (base + ·)

def parameters (count : Nat) : List Text := (List.range count).map fun k => '_' :: decimalDigits k

def placesFrom (base count : Nat) : List Value := (List.range' base count).map .ref

def bindingsFrom (base count : Nat) : List (String × Value) :=
  ((parameters count).map String.ofList).zip (placesFrom base count)

theorem placesFrom_length (base count : Nat) : (placesFrom base count).length = count := by
  simp [placesFrom]

theorem parameters_length (count : Nat) : (parameters count).length = count := by
  simp [parameters]

theorem findIdx_of_mem {shared : List Nat} {i : Nat} (inside : i ∈ shared) :
    shared.findIdx? (· = i) = some (shared.idxOf i) := by
  have here := List.idxOf_lt_length_of_mem inside
  rw [List.findIdx?_eq_some_iff_getElem]
  refine ⟨here, by simp, ?_⟩
  intro j before
  simpa using List.not_of_lt_findIdx before

theorem getElem_of_findIdx {shared : List Nat} {i k : Nat}
    (found : shared.findIdx? (· = i) = some k) : shared[k]? = some i := by
  obtain ⟨bound, same, -⟩ := List.findIdx?_eq_some_iff_getElem.mp found
  rw [List.getElem?_eq_getElem bound]
  simpa using same

theorem mem_of_findIdx {shared : List Nat} {i k : Nat}
    (found : shared.findIdx? (· = i) = some k) : i ∈ shared :=
  List.mem_of_getElem? (getElem_of_findIdx found)

theorem placeFrom_injective {base : Nat} {shared : List Nat} {i i' j : Nat}
    (first : placeFrom base shared i = some j) (second : placeFrom base shared i' = some j) :
    i = i' := by
  obtain ⟨k, found, rfl⟩ := Option.map_eq_some_iff.mp first
  obtain ⟨k', found', same⟩ := Option.map_eq_some_iff.mp second
  have equal : k' = k := by omega
  subst equal
  have left := getElem_of_findIdx found
  rw [getElem_of_findIdx found'] at left
  cases left
  rfl

theorem filterMap_paramName {shared : List Nat} (distinct : shared.Nodup) :
    shared.filterMap (Survey.paramName shared) = parameters shared.length := by
  have each : ∀ i ∈ shared, Survey.paramName shared i =
      some ('_' :: decimalDigits (shared.idxOf i)) := by
    intro i inside
    rw [Survey.paramName, findIdx_of_mem inside]
    rfl
  have mapped := List.filterMap_eq_map (f := fun i => '_' :: decimalDigits (shared.idxOf i))
  rw [List.filterMap_congr each]
  refine (congrFun mapped shared).trans ?_
  refine List.ext_getElem (by simp [parameters]) fun k below _ => ?_
  have here : k < shared.length := by simpa using below
  simp [parameters, distinct.idxOf_getElem k here]

theorem parameter_injective {k l : Nat}
    (same : String.ofList ('_' :: decimalDigits k) = String.ofList ('_' :: decimalDigits l)) :
    k = l := by
  have texts := String.ofList_injective same
  exact decimalDigits_inj (List.cons.inj texts).2

theorem lookup_bindingsFrom {base count k : Nat} (below : k < count) :
    lookup (bindingsFrom base count) (String.ofList ('_' :: decimalDigits k)) =
      some (.ref (base + k)) := by
  have found : (bindingsFrom base count).find?
      (fun b => b.1 == String.ofList ('_' :: decimalDigits k)) =
      some (String.ofList ('_' :: decimalDigits k), .ref (base + k)) := by
    rw [List.find?_eq_some_iff_getElem]
    refine ⟨by simp, k, by simp [bindingsFrom, parameters, placesFrom, below], ?_, ?_⟩
    · simp [bindingsFrom, parameters, placesFrom]
    · intro j before
      simp only [bindingsFrom, parameters, placesFrom, List.getElem_zip, List.getElem_map,
        List.getElem_range, Bool.not_eq_true', beq_eq_false_iff_ne, ne_eq]
      intro same
      have equal := parameter_injective same
      omega
  rw [lookup, found]
  rfl

theorem named_from (base : Nat) (shared : List Nat) :
    Named shared (placeFrom base shared) (bindingsFrom base shared.length) where
  bound := by
    intro i name isParameter
    obtain ⟨k, found, rfl⟩ := parameter_text isParameter
    obtain ⟨below, -⟩ := List.findIdx?_eq_some_iff_getElem.mp found
    exact ⟨base + k, by rw [placeFrom, found]; rfl, lookup_bindingsFrom below⟩
  free := by
    intro i noParameter
    rw [Survey.paramName, Option.map_eq_none_iff] at noParameter
    rw [placeFrom, noParameter]
    rfl

theorem mem_bindingsFrom {base count : Nat} {name : String}
    (inside : name ∈ (bindingsFrom base count).map Prod.fst) :
    ∃ k, name = String.ofList ('_' :: decimalDigits k) := by
  obtain ⟨b, member, rfl⟩ := List.mem_map.mp inside
  have first := (List.of_mem_zip member).1
  simp only [parameters, List.map_map, List.mem_map] at first
  obtain ⟨k, -, same⟩ := first
  exact ⟨k, same.symm⟩

theorem callsFree_from (base count : Nat) : CallsFree (bindingsFrom base count) := by
  intro name called inside
  obtain ⟨k, rfl⟩ := mem_bindingsFrom inside
  have start : ∀ name ∈ calledNames, name.toList.head? ≠ some '_' := by decide
  refine start _ called ?_
  rw [String.toList_ofList]
  rfl

/-! ## Empty containers -/

/-- No name is bound, and nothing but built-in names can be read. -/
structure Start (frame : Frame) (m : Machine) : Prop where
  standard : Standard m
  free : frame.globalNames = []
  scope : m.heap[frame.scope]? = some (.scope {})
  globals : frame.globals = frame.scope
  calls : m.depth < callLimit

theorem Start.grows (start : Start frame m) (grows : Grows m m') : Start frame m' :=
  ⟨start.standard.grows start.standard.size_le grows, start.free, grows.found start.scope,
    start.globals, grows.depth ▸ start.calls⟩

theorem Start.ready (start : Start frame m) : Ready frame [] (fun _ => none) m :=
  ⟨start.standard, nofun, start.free, {}, start.scope, rfl, nofun, rfl, .inl rfl⟩

/-- An expression that makes the empty container which an object is filled into. -/
structure MakesEmpty (ground : Ground) (object : Object) (tree : Tree) : Prop where
  quiet : Quiet tree
  runs : ∀ n, 2 ≤ n → ∀ frame m, Start frame m →
    perform m ((interpreter ground n).eval frame tree) =
      (.ok (.ref m.heap.size), { m with heap := m.heap.push (emptyCell object) })

def emptyText : Object → Text
  | .list _ => chars "[]"
  | .dict _ => chars "\x7b\x7d"
  | _ => chars "set()"

theorem makesEmpty_set {object : Object} (isSet : emptyCell object = .set []) {tree : Tree}
    (call : IsCall (IsName "set".toList) ([] : List Part) (fun _ _ => False) tree) :
    MakesEmpty ground object tree := by
  refine ⟨call.quiet (fun _ isName => isName.quiet) nofun, ?_⟩
  obtain ⟨mark, inner, trees, rfl, ⟨mark', rfl⟩, each⟩ := call
  cases each
  intro n enough frame m start
  obtain ⟨n, rfl⟩ : ∃ k, n = k + 2 := ⟨n - 2, by omega⟩
  have evaluated : Gives m (placeArguments (interpreter ground (n + 1)) frame (classValue "set") [])
      fun ws m' => ws = [] ∧ m' = m := Gives.of_perform rfl ⟨rfl, rfl⟩
  have made : Gives m ((interpreter ground (n + 2)).eval frame (.node mark .call
      [[.node mark' (.name (String.ofList "set".toList) .load) []], [], []]))
      fun w m' => w = .ref m.heap.size ∧ m' = { m with heap := m.heap.push (.set []) } := by
    refine gives_call madeBy_set (by simp) start.ready evaluated ?_
    rintro ws m' ⟨rfl, rfl⟩
    exact ⟨start.standard, Gives.of_perform (perform_makeFrom_nothing ..) ⟨rfl, rfl⟩⟩
  obtain ⟨w, m', run, rfl, rfl⟩ := made
  rw [run, isSet]

theorem written_empty (ground : Ground) (object : Object) :
    ∃ lexemes, Written (emptyText object) lexemes (MakesEmpty ground object) := by
  have none : ∀ part ∈ ([] : List Part), Written part.text part.lexemes (fun _ => False) := by simp
  cases object with
  | list items =>
    refine ⟨_, (written_list [] none).weaken ?_⟩
    intro tree display
    refine ⟨display.quiet rfl nofun, ?_⟩
    obtain ⟨mark, trees, rfl, each⟩ := display
    cases each
    intro n enough frame m start
    obtain ⟨n, rfl⟩ : ∃ k, n = k + 1 := ⟨n - 1, by omega⟩
    rfl
  | dict entries =>
    refine ⟨_, (written_dict [] none none nofun).weaken ?_⟩
    intro tree display
    refine ⟨display.quiet nofun nofun, ?_⟩
    obtain ⟨mark, trees, rfl, each⟩ := display
    cases each
    intro n enough frame m start
    obtain ⟨n, rfl⟩ : ∃ k, n = k + 1 := ⟨n - 1, by omega⟩
    rfl
  | _ =>
    obtain ⟨form, word⟩ := calledName_forms (by decide : "set" ∈ calledNames)
    exact ⟨_, (written_call form word [] none).weaken fun tree call => makesEmpty_set rfl call⟩

def withEmpties (m : Machine) (objects : List Object) : Machine :=
  { m with heap := m.heap ++ (objects.map emptyCell).toArray }

theorem withEmpties_cons (m : Machine) (object : Object) (objects : List Object) :
    withEmpties { m with heap := m.heap.push (emptyCell object) } objects =
      withEmpties m (object :: objects) := by
  have heaps : m.heap.push (emptyCell object) ++ (objects.map emptyCell).toArray =
      m.heap ++ ((object :: objects).map emptyCell).toArray := by
    apply Array.ext'
    simp
  simp only [withEmpties, heaps]

theorem grows_withEmpties (m : Machine) (objects : List Object) : Grows m (withEmpties m objects) where
  size := by simp [withEmpties]
  cells := fun i inside => by simp [withEmpties, Array.getElem?_append_left inside]
  depth := rfl
  count := Nat.le_refl _

theorem withEmpties_found {objects : List Object} {object : Object} {k : Nat}
    (here : objects[k]? = some object) :
    (withEmpties m objects).heap[m.heap.size + k]? = some (emptyCell object) := by
  simp only [withEmpties]
  rw [Array.getElem?_append_right (Nat.le_add_right _ _), Nat.add_sub_cancel_left]
  simp [here]

theorem perform_mapM_empties {objects : List Object} {trees : List Tree}
    (each : List.Forall₂ (MakesEmpty ground) objects trees) {n : Nat} (enough : 2 ≤ n)
    (starred : Tree → Eval (List Value)) :
    ∀ m, Start frame m → perform m (trees.mapM fun t => match t.kind with
        | .starred _ => starred t
        | _ => do return [← (interpreter ground n).eval frame t]) =
      (.ok ((placesFrom m.heap.size objects.length).map fun v => [v]), withEmpties m objects) := by
  induction each with
  | nil =>
    intro m start
    simp [withEmpties, placesFrom]
  | @cons object tree objects trees makes _ ih =>
    intro m start
    have evaluated : Gives m ((interpreter ground n).eval frame tree) fun w m' =>
        w = .ref m.heap.size ∧ m' = { m with heap := m.heap.push (emptyCell object) } :=
      Gives.of_perform (makes.runs n enough frame m start) ⟨rfl, rfl⟩
    obtain ⟨part, m', run, w, rfl, rfl, rfl⟩ :=
      gives_unstarred makes.quiet.unstarred evaluated
    have others := ih _ (start.grows (Grows.push m (emptyCell object)))
    rw [List.mapM_cons]
    refine (perform_bind run).trans ((perform_bind others).trans ?_)
    rw [perform_pure, withEmpties_cons]
    simp [placesFrom, List.range'_succ]

theorem perform_empties {objects : List Object} {trees : List Tree}
    (each : List.Forall₂ (MakesEmpty ground) objects trees) {n : Nat} (enough : 2 ≤ n)
    (callee : Value) (start : Start frame m) :
    perform m (placeArguments (interpreter ground n) frame callee trees) =
      (.ok (placesFrom m.heap.size objects.length), withEmpties m objects) := by
  unfold placeArguments
  refine (perform_bind (perform_mapM_empties each enough _ m start)).trans ?_
  rw [perform_pure, ← List.flatMap_def, List.flatMap_singleton']

/-! ## Filling in order -/

def HoldsCopy (graph : Graph) (place : Nat → Option Nat) (depth : Nat) (m : Machine) (i : Nat) : Prop :=
  ∃ object j cell, graph[i]? = some object ∧ place i = some j ∧ m.heap[j]? = some cell ∧
    CellCopy (Copy graph place m.heap 0 m.undefinedCount depth) object cell

def HoldsNothing (graph : Graph) (place : Nat → Option Nat) (m : Machine) (i : Nat) : Prop :=
  ∃ object j, graph[i]? = some object ∧ place i = some j ∧ m.heap[j]? = some (emptyCell object)

theorem HoldsCopy.grows {depth i : Nat} (holds : HoldsCopy graph place depth m i) (grows : Grows m m') :
    HoldsCopy graph place depth m' i := by
  obtain ⟨object, j, cell, original, here, found, copy⟩ := holds
  refine ⟨object, j, cell, original, here, grows.found found, copy.mono fun v w copied => ?_⟩
  exact copied.mono (Nat.le_refl _) grows.count (fun _ _ _ => grows.found) (Nat.le_refl _)

theorem HoldsNothing.grows {i : Nat} (holds : HoldsNothing graph place m i) (grows : Grows m m') :
    HoldsNothing graph place m' i := by
  obtain ⟨object, j, original, here, found⟩ := holds
  exact ⟨object, j, original, here, grows.found found⟩

theorem setCell_other {heap : Array Cell} {j k : Nat} {cell cell' : Cell} (apart : j ≠ k)
    (found : heap[k]? = some cell) : (heap.setIfInBounds j cell')[k]? = some cell := by
  rw [Array.getElem?_setIfInBounds_ne apart, found]

theorem Copy.setCell {heap : Array Cell} {i j low high depth : Nat} {v w : Value} (cell : Cell)
    (here : place i = some j) (copy : Copy graph place heap low high depth v w) :
    Copy graph place (heap.setIfInBounds j cell) low high depth v w := by
  refine copy.mono (Nat.le_refl _) (Nat.le_refl _) (fun k other free found => ?_) (Nat.le_refl _)
  exact setCell_other (fun same => free i (same ▸ here)) found

section Filled

variable {depth i j : Nat} {object : Object}

theorem Filled.ready (filled : Filled graph place depth object j m m')
    (ready : Ready frame bindings place m) (here : place i = some j)
    (empty : m.heap[j]? = some (emptyCell object)) : Ready frame bindings place m' := by
  obtain ⟨between, cell, grows, -, rfl⟩ := filled
  have inside := (ready.placed i j here).1
  have ready' := ready.grows grows
  have held := grows.found empty
  have kept : ∀ (k : Nat) (data : ScopeData), between.heap[k]? = some (.scope data) →
      (between.heap.setIfInBounds j cell)[k]? = some (.scope data) := by
    intro k data found
    refine setCell_other ?_ found
    rintro rfl
    rw [held] at found
    cases object <;> cases found
  obtain ⟨data, found, bound, names, plain, parent⟩ := ready'.scope
  refine ⟨?_, ?_, ready.free, data, kept _ _ found, bound, names, plain, ?_⟩
  · intro k known
    rw [← ready'.standard k known]
    exact Array.getElem?_setIfInBounds_ne (by omega)
  · intro k l there
    simpa using ready'.placed k l there
  · rcases parent with none | ⟨outer, parent, found'⟩
    · exact .inl none
    · exact .inr ⟨outer, parent, kept _ _ found'⟩

theorem Filled.holds (filled : Filled graph place depth object j m m')
    (original : graph[i]? = some object) (here : place i = some j)
    (empty : m.heap[j]? = some (emptyCell object)) : HoldsCopy graph place depth m' i := by
  obtain ⟨between, cell, grows, copy, rfl⟩ := filled
  obtain ⟨inside, -⟩ := Array.getElem?_eq_some_iff.mp (grows.found empty)
  refine ⟨object, j, cell, original, here, by simp [inside], copy.mono fun v w copied => ?_⟩
  exact (copied.setCell cell here).mono (Nat.zero_le _) (Nat.le_refl _) (fun _ _ _ => id) (Nat.le_refl _)

theorem Filled.keeps_copy (filled : Filled graph place depth object j m m')
    (here : place i = some j) {other : Nat} (apart : place other ≠ some j)
    (holds : HoldsCopy graph place depth m other) : HoldsCopy graph place depth m' other := by
  obtain ⟨between, cell, grows, -, rfl⟩ := filled
  obtain ⟨object', k, cell', original, there, found, copy⟩ := holds.grows grows
  have differ : j ≠ k := by
    rintro rfl
    exact apart there
  exact ⟨object', k, cell', original, there, setCell_other differ found,
    copy.mono fun v w copied => copied.setCell cell here⟩

theorem Filled.keeps_nothing (filled : Filled graph place depth object j m m') {other : Nat}
    (apart : place other ≠ some j) (holds : HoldsNothing graph place m other) :
    HoldsNothing graph place m' other := by
  obtain ⟨between, cell, grows, -, rfl⟩ := filled
  obtain ⟨object', k, original, there, found⟩ := holds.grows grows
  have differ : j ≠ k := by
    rintro rfl
    exact apart there
  exact ⟨object', k, original, there, setCell_other differ found⟩

end Filled

def FilledExcept (graph : Graph) (place : Nat → Option Nat) (depth : Nat) (shared pending : List Nat)
    (m : Machine) : Prop :=
  ∀ i ∈ shared, (i ∈ pending → HoldsNothing graph place m i) ∧
    (i ∉ pending → HoldsCopy graph place depth m i)

theorem FilledExcept.fill {shared pending : List Nat} {depth i j : Nat} {object : Object}
    (injective : ∀ i i' j, place i = some j → place i' = some j → i = i')
    (progress : FilledExcept graph place depth shared (i :: pending) m) (once : i ∉ pending)
    (original : graph[i]? = some object) (here : place i = some j)
    (empty : m.heap[j]? = some (emptyCell object))
    (filled : Filled graph place depth object j m m') :
    FilledExcept graph place depth shared pending m' := by
  intro k member
  by_cases same : k = i
  · subst same
    exact ⟨fun later => absurd later once, fun _ => filled.holds original here empty⟩
  · have apart : place k ≠ some j := fun there => same (injective k i j there here)
    refine ⟨fun later => ?_, fun done => ?_⟩
    · exact filled.keeps_nothing apart ((progress k member).1 (List.mem_cons_of_mem _ later))
    · exact filled.keeps_copy here apart ((progress k member).2 (by simp [same, done]))

def Refills (ground : Ground) (graph : Graph) (place : Nat → Option Nat)
    (bindings : List (String × Value)) (fuel depth i : Nat) (tree : Tree) : Prop :=
  ∃ object j name, graph[i]? = some object ∧ object.fillable = true ∧ object.Plain graph ∧
    place i = some j ∧ lookup bindings (String.ofList name) = some (.ref j) ∧
    IsFill ground graph place bindings fuel depth name object tree

def Rebuilt (graph : Graph) (place : Nat → Option Nat) (depth : Nat) (shared : List Nat) (root w : Value)
    (m : Machine) : Prop :=
  (∀ i ∈ shared, HoldsCopy graph place depth m i) ∧
    Copy graph place m.heap 0 m.undefinedCount depth root w

theorem Rebuilt.grows {depth : Nat} {shared : List Nat} {root w : Value}
    (rebuilt : Rebuilt graph place depth shared root w m) (grows : Grows m m') :
    Rebuilt graph place depth shared root w m' :=
  ⟨fun i member => (rebuilt.1 i member).grows grows, rebuilt.2.mono (Nat.le_refl _) grows.count
    (fun _ _ _ => grows.found) (Nat.le_refl _)⟩

section Body

variable {shared : List Nat} {fuel depth n : Nat} {root : Value}

theorem gives_rebuilt {tree : Tree} (builds : Builds ground graph place bindings fuel depth root tree)
    (enough : fuel ≤ n) (ready : Ready frame bindings place m)
    (filled : FilledExcept graph place depth shared [] m) :
    Gives m ((interpreter ground n).eval frame tree) fun w m' =>
      Ready frame bindings place m' ∧ Rebuilt graph place depth shared root w m' := by
  refine (builds.gives n enough frame m ready).weaken ?_
  rintro w m' ⟨grows, copy⟩
  refine ⟨ready.grows grows, fun i member => ((filled i member).2 (by simp)).grows grows, ?_⟩
  exact copy.mono (Nat.zero_le _) (Nat.le_refl _) (fun _ _ _ => id) (Nat.le_refl _)

theorem gives_fills (fillable : PlacesFillable graph place) (deep : depth < ground.compareDepth)
    (injective : ∀ i i' j, place i = some j → place i' = some j → i = i')
    {fills : List Nat} {trees : List Tree} {last : Tree}
    (each : List.Forall₂ (Refills ground graph place bindings fuel depth) fills trees)
    (builds : Builds ground graph place bindings fuel depth root last)
    (enough : max (fuel + 1) 3 ≤ n) (starred : Tree → Eval (List Value)) :
    ∀ m, Ready frame bindings place m →
      FilledExcept graph place depth shared fills m → fills.Nodup →
      (∀ i ∈ fills, i ∈ shared) →
      Gives m ((trees ++ [last]).mapM fun t => match t.kind with
        | .starred _ => starred t
        | _ => do return [← (interpreter ground n).eval frame t]) fun parts m' =>
        ∃ ws w, parts.flatten = ws ++ [w] ∧ Ready frame bindings place m' ∧
          Rebuilt graph place depth shared root w m' := by
  induction each with
  | nil =>
    intro m ready filled _ _
    have evaluated := gives_rebuilt builds (n := n) (by omega) ready filled
    rw [List.nil_append, List.mapM_cons, List.mapM_nil]
    refine Gives.bind (gives_unstarred builds.quiet.unstarred evaluated) ?_
    rintro part m' ⟨w, rfl, rebuilt⟩
    exact Gives.pure ⟨[], w, rfl, rebuilt⟩
  | @cons i tree fills trees refills _ ih =>
    intro m ready filled once inside
    obtain ⟨object, j, name, original, isFillable, plain, here, bound, isFill⟩ := refills
    simp only [List.nodup_cons] at once
    have member := inside i (List.mem_cons_self ..)
    obtain ⟨object', j', original', here', empty⟩ := (filled i member).1 (List.mem_cons_self ..)
    rw [original] at original'
    rw [here] at here'
    cases original'
    cases here'
    have evaluated := gives_fill fillable deep isFillable plain bound isFill enough ready empty
    rw [List.cons_append, List.mapM_cons]
    refine Gives.bind (gives_unstarred isFill.quiet.unstarred evaluated) ?_
    rintro part m₁ ⟨v, rfl, step⟩
    refine Gives.bind (ih m₁ (step.ready ready here empty)
      (filled.fill injective once.1 original here empty step) once.2
      fun k later => inside k (List.mem_cons_of_mem _ later)) ?_
    rintro parts m₂ ⟨ws, w, flat, ready', rebuilt⟩
    exact Gives.pure ⟨v :: ws, w, by simp [flat], ready', rebuilt⟩

theorem gives_last (fillable : PlacesFillable graph place) (deep : depth < ground.compareDepth)
    (injective : ∀ i i' j, place i = some j → place i' = some j → i = i')
    {fills : List Nat} {trees : List Tree} {last index : Tree}
    (each : List.Forall₂ (Refills ground graph place bindings fuel depth) fills trees)
    (builds : Builds ground graph place bindings fuel depth root last)
    (isNegated : IsNegated (.int 1) index) {mark mark' : Mark}
    (enough : max (fuel + 1) 3 ≤ n) (ready : Ready frame bindings place m)
    (filled : FilledExcept graph place depth shared fills m)
    (once : fills.Nodup) (inside : ∀ i ∈ fills, i ∈ shared) :
    Gives m ((interpreter ground (n + 2)).eval frame (.node mark (.subscript .load)
      [[.node mark' (.tuple .load) [trees ++ [last]]], [index]])) fun w m' =>
        Rebuilt graph place depth shared root w m' := by
  have elements : Gives m (elementsOf (interpreter ground n) frame (trees ++ [last])) fun values m' =>
      ∃ ws w, values = ws ++ [w] ∧ Ready frame bindings place m' ∧
        Rebuilt graph place depth shared root w m' := by
    unfold elementsOf
    refine Gives.bind (gives_fills fillable deep injective each builds enough _ m ready filled once
      inside) ?_
    intro parts m' holds
    exact Gives.pure holds
  have tuple : Gives m ((interpreter ground (n + 1)).eval frame
      (.node mark' (.tuple .load) [trees ++ [last]])) fun v m' => ∃ j ws w, v = .ref j ∧
        m'.heap[j]? = some (.tuple (ws ++ [w])) ∧ Standard m' ∧
        Rebuilt graph place depth shared root w m' := by
    refine Gives.bind elements ?_
    rintro values m' ⟨ws, w, rfl, ready', rebuilt⟩
    have made : newTuple (ws ++ [w]) = alloc (.tuple (ws ++ [w])) := by
      cases ws <;> rfl
    have grows := Grows.push m' (.tuple (ws ++ [w]))
    refine Gives.of_perform ((congrArg (perform m') made).trans (perform_alloc _)) ?_
    exact ⟨m'.heap.size, ws, w, rfl, found_push m' _, (ready'.grows grows).standard, rebuilt.grows grows⟩
  refine Gives.bind tuple ?_
  rintro v m' ⟨j, ws, w, rfl, found, standard, rebuilt⟩
  obtain ⟨k, rfl⟩ : ∃ k, n = k + 1 := ⟨n - 1, by omega⟩
  refine Gives.after (perform_minus_one standard isNegated k) ?_
  exact Gives.of_perform (perform_getItem_last standard found _) rebuilt

end Body

end Sandbox

end MacroExpand
