import MacroExpand.Proofs.Filling

/-!
# Functions that are called where they stand

A function without a name that is called where it stands runs its body in a scope of its own, which
binds each parameter to the argument at its place and has only built-in names around it.
-/

set_option autoImplicit false

namespace MacroExpand

namespace Sandbox

open MacroExpand.Parser

variable {m m' : Machine} {frame : Frame}
variable {place : Nat → Option Nat} {ground : Ground} {graph : Graph}

/-! ## Parameters and arguments -/

theorem lookup_zip {names : List String} {vs : List Value} (length : names.length = vs.length)
    {name : String} (inside : name ∈ names) : (lookup (names.zip vs) name).isSome = true := by
  induction names generalizing vs with
  | nil => cases inside
  | cons first rest ih =>
    cases vs with
    | nil => cases length
    | cons v vs =>
      rw [List.zip_cons_cons, lookup, List.find?_cons]
      by_cases same : first = name
      · simp [same]
      · have other : (first == name) = false := by simpa using same
        rw [other]
        rcases List.mem_cons.mp inside with rfl | deeper
        · exact absurd rfl same
        · exact ih (by simpa using length) deeper

/-- As many arguments as parameters are bound in order. -/
theorem bind_places {names : List String} {vs : List Value} (length : names.length = vs.length) :
    Signature.bind { plain := names } [] [] ⟨vs, []⟩ = .ok { single := names.zip vs } := by
  have found : ∀ name ∈ names, (lookup (names.zip vs) name).isNone = false := by
    intro name inside
    have isSome := lookup_zip length inside
    cases value : lookup (names.zip vs) name with
    | none => rw [value] at isSome; cases isSome
    | some v => rfl
  have noneFree : (names.filter fun n => (lookup (names.zip vs) n).isNone) = [] := by
    rw [List.filter_eq_nil_iff]
    intro name inside
    rw [found name inside]
    exact Bool.false_ne_true
  have nothing : vs.drop names.length = [] := by rw [length, List.drop_length]
  have start : Signature.bindNamed { plain := names } [] { single := names.zip vs, rest := [] } [] =
    .ok { single := names.zip vs, rest := [] } := rfl
  have enough : ¬(names.length < vs.length ∧ (none : Option String).isNone = true) := by omega
  unfold Signature.bind
  simp only [Signature.places, List.nil_append, List.length_nil, Nat.sub_zero, List.map_nil, nothing,
    start, if_neg enough, List.take_length, List.zip_nil_right, List.filter_nil, List.append_nil]
  simp only [Bind.bind, Except.bind, noneFree]
  rfl

/-! ## Making functions -/

def parametersOf (trees : List Tree) : Tree := .node {} .arguments [[], trees, [], [], [], [], []]

theorem names_parameters {names : List Text} {trees : List Tree}
    (each : List.Forall₂ IsParameter names trees) :
    (trees.filterMap fun t => match t.kind with
      | .arg name _ => some name
      | _ => none) = names.map String.ofList := by
  induction each with
  | nil => rfl
  | cons front _ ih =>
    obtain ⟨mark, rfl⟩ := front
    rw [List.map_cons, ← ih]
    rfl

theorem signature_parameters {names : List Text} {trees : List Tree}
    (each : List.Forall₂ IsParameter names trees) :
    Signature.ofTree (parametersOf trees) = { plain := names.map String.ofList } := by
  have plain : Signature.namesIn (parametersOf trees) 1 = names.map String.ofList :=
    names_parameters each
  unfold Signature.ofTree
  rw [plain]
  rfl

theorem parameterNames_parameters {names : List Text} {trees : List Tree}
    (each : List.Forall₂ IsParameter names trees) :
    Scope.parameterNames (parametersOf trees) = names.map String.ofList := by
  have plain := names_parameters each
  unfold Scope.parameterNames
  simp only [List.flatMap_cons, List.flatMap_nil, parametersOf, Tree.slot, Tree.slots,
    List.getD_cons_zero, List.getD_cons_succ, List.filterMap_nil, List.append_nil, List.nil_append]
  exact plain

theorem perform_filterMapM_none {α β : Type} {action : α → Eval (Option β)} {xs : List α}
    (runs : ∀ x ∈ xs, perform m (action x) = (.ok none, m)) :
    perform m (xs.filterMapM action) = (.ok [], m) := by
  have loop : ∀ xs : List α, (∀ x ∈ xs, perform m (action x) = (.ok none, m)) →
      perform m (List.filterMapM.loop action xs []) = (.ok [], m) := by
    intro xs
    induction xs with
    | nil => intro _; rfl
    | cons x rest ih =>
      intro runs
      rw [List.filterMapM.loop]
      refine (perform_bind (runs x (List.mem_cons_self ..))).trans ?_
      exact ih fun y inside => runs y (List.mem_cons_of_mem _ inside)
  exact loop xs runs

theorem perform_annotationsOf {names : List Text} {trees : List Tree}
    (each : List.Forall₂ IsParameter names trees) (r : Interpreter) :
    perform m (annotationsOf r frame (parametersOf trees) []) =
      (.ok (.ref m.heap.size), { m with heap := m.heap.push (.dict []) }) := by
  have slots : [0, 1, 2, 3, 5].flatMap (parametersOf trees).slot = trees := by
    simp [parametersOf, Tree.slot, Tree.slots]
  unfold annotationsOf
  simp only [slots]
  refine (perform_bind (a := ([] : List (Value × Value))) (perform_filterMapM_none ?_)).trans ?_
  · intro t inside
    obtain ⟨name, _, mark, rfl⟩ := forall₂_exists each.flip inside
    rfl
  · rfl

theorem perform_moduleName {data : ScopeData} (globals : m.heap[frame.globals]? = some (.scope data)) :
    ∃ name, perform m (moduleName frame) = (.ok name, m) := by
  unfold moduleName
  rw [perform_bind (perform_scopeAt globals)]
  split
  · exact ⟨_, rfl⟩
  · exact ⟨_, rfl⟩

def lambdaClosure (frame : Frame) (module : String) (annotations : Value) (trees : List Tree)
    (inner : Tree) : Closure :=
  { name := Private.shown frame.qualifier "<lambda>"
    qualname := (if frame.globalNames.contains "<lambda>" then "" else frame.qualifier) ++
      Private.shown frame.qualifier "<lambda>"
    module
    parameters := parametersOf trees
    body := Scope.returned {} inner
    isAsync := false
    isGenerator := false
    scope := frame.scope
    globals := frame.globals
    names := (Scope.parameterNames (parametersOf trees)).eraseDups
    globalNames := []
    outerNames := []
    defaults := []
    keywordDefaults := []
    doc := nil
    annotations }

/-- A function without a name is made behind the dictionary of its annotations. -/
theorem perform_lambda {names : List Text} {trees : List Tree} {inner : Tree} {data : ScopeData}
    (each : List.Forall₂ IsParameter names trees) (quiet : Quiet inner)
    (globals : m.heap[frame.globals]? = some (.scope data)) (mark : Mark) (n : Nat) :
    ∃ module closure, closure = lambdaClosure frame module (.ref m.heap.size) trees inner ∧
      perform m ((interpreter ground (n + 1)).eval frame
        (.node mark .lambdaExpr [[parametersOf trees], [inner]])) = (.ok (.ref (m.heap.size + 1)),
          { m with heap := (m.heap.push (.dict [])).push (.function closure) }) := by
  have noted : perform m (annotationsOf (interpreter ground n) frame (parametersOf trees) []) =
      (.ok (.ref m.heap.size), { m with heap := m.heap.push (.dict []) }) :=
    perform_annotationsOf each _
  have globals' : (m.heap.push (.dict []))[frame.globals]? = some (.scope data) :=
    (Grows.push m (.dict [])).found globals
  obtain ⟨module, named⟩ :=
    perform_moduleName (m := { m with heap := m.heap.push (.dict []) }) globals'
  have size : (m.heap.push (.dict [])).size = m.heap.size + 1 := Array.size_push ..
  refine ⟨module, _, rfl, ?_⟩
  show perform m (newFunction (interpreter ground n) frame "<lambda>" (parametersOf trees)
    (Scope.returned {} inner) false []) = _
  unfold newFunction
  simp only [Scope.yields_returned quiet, Scope.globalNames_returned quiet,
    Scope.outerNames_returned quiet, Scope.localNames_returned quiet]
  refine (perform_bind (perform_pure _)).trans ?_
  refine (perform_bind noted).trans ?_
  refine (perform_bind named).trans ?_
  rw [perform_alloc, ← size]
  rfl

/-! ## Calling functions -/

def lambdaScope (frame : Frame) (names : List Text) (trees : List Tree) (vs : List Value) : ScopeData :=
  { bindings := (names.map String.ofList).zip vs
    names := (Scope.parameterNames (parametersOf trees)).eraseDups
    places := trees.length
    parent := some frame.scope }

/-- A function without a name is called by evaluating its body, in a new scope. -/
theorem gives_callClosure {names : List Text} {trees : List Tree} {inner : Tree} {module : String}
    {annotations : Value} {vs : List Value} {n : Nat} {post : Value → Machine → Prop}
    (each : List.Forall₂ IsParameter names trees) (length : names.length = vs.length)
    (free : m.depth < callLimit)
    (evaluated : Gives
      { m with heap := m.heap.push (.scope (lambdaScope frame names trees vs)), depth := m.depth + 1 }
      ((interpreter ground n).eval
        ((lambdaClosure frame module annotations trees inner).frame m.heap.size) inner) post) :
    Gives m (callClosure (interpreter ground (n + 1)) (lambdaClosure frame module annotations trees inner)
      ⟨vs, []⟩) fun w m' => ∃ m₁, post w m₁ ∧ m' = { m₁ with depth := m.depth } := by
  have signature := signature_parameters each
  have bound : Signature.bind { plain := names.map String.ofList } [] [] ⟨vs, []⟩ =
    .ok { single := (names.map String.ofList).zip vs } := bind_places (by simpa using length)
  obtain ⟨w, m₁, run, holds⟩ := evaluated
  have value : perform
      { m with heap := m.heap.push (.scope (lambdaScope frame names trees vs)), depth := m.depth + 1 }
      (statement (interpreter ground n)
        ((lambdaClosure frame module annotations trees inner).frame m.heap.size)
        (.node {} .returnStmt [[inner]])) = (.ok (Flow.result w), m₁) :=
    (perform_bind run).trans rfl
  have body : perform
      { m with heap := m.heap.push (.scope (lambdaScope frame names trees vs)), depth := m.depth + 1 }
      ((interpreter ground (n + 1)).exec
        ((lambdaClosure frame module annotations trees inner).frame m.heap.size)
        (Scope.returned {} inner)) = (.ok (Flow.result w), m₁) :=
    (perform_bind value).trans rfl
  have returns := perform_nested
    (m := { m with heap := m.heap.push (.scope (lambdaScope frame names trees vs)) }) free body
  refine ⟨w, { m₁ with depth := m.depth }, ?_, m₁, holds, rfl⟩
  unfold callClosure
  simp only [lambdaClosure, signature, bound]
  refine (perform_bind (perform_pure _)).trans ?_
  refine (perform_bind (perform_pure _)).trans ?_
  refine (perform_bind (perform_alloc _)).trans ?_
  simp only [List.append_nil]
  exact (perform_bind returns).trans rfl

/-! ## Elements -/

theorem perform_getItem_last {i : Nat} {ws : List Value} {w : Value} (standard : Standard m)
    (found : m.heap[i]? = some (.tuple (ws ++ [w]))) (r : Interpreter) :
    perform m (getItem r (.ref i) (.scalar (.int (-1)))) = (.ok w, m) := by
  have settled : Settled m (.ref i) := ⟨_, found, rfl⟩
  have last : (placeOf (ws ++ [w]).length (-1)).bind (fun k => (ws ++ [w])[k]?) = some w := by
    have here : placeOf (ws ++ [w]).length (-1) = some ws.length := by
      unfold placeOf
      simp only [List.length_append, List.length_singleton]
      rw [if_pos (by omega), if_pos (by omega)]
      congr 1
      omega
    rw [here]
    simp
  have index : perform m (indexKey? r (.scalar (.int (-1)))) = (.ok (some (-1)), m) := rfl
  refine (perform_bind (perform_callOwn standard settled r _ _)).trans ?_
  refine (perform_bind (perform_unwrap settled)).trans ?_
  refine (perform_bind (perform_cellAt_some found)).trans ?_
  refine (perform_bind (perform_cell_scalar _)).trans ?_
  refine (perform_bind index).trans ?_
  simp only [last]
  rfl

/-- The number in front of the first place stands for the last one. -/
theorem perform_minus_one (standard : Standard m) {tree : Tree} (isNegated : IsNegated (.int 1) tree)
    (n : Nat) :
    perform m ((interpreter ground (n + 2)).eval frame tree) = (.ok (.scalar (.int (-1))), m) := by
  obtain ⟨mark, inner, rfl, mark', rfl⟩ := isNegated
  refine (perform_bind (perform_pure (Value.scalar (.int 1)))).trans ?_
  exact perform_unary_minus standard _ rfl rfl

end Sandbox

end MacroExpand
