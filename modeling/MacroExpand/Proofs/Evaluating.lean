import MacroExpand.Proofs.Calls
import MacroExpand.Proofs.Keys
import MacroExpand.Proofs.Written
import MacroExpand.Syntax.Scope

/-!
# Evaluating displays

A display of expressions that make copies of values makes a copy of the container of the values.  The
expressions are evaluated one after the other, each in the memory that the ones before it leave; none
of them changes a cell that was there, so the copies that were made stay what they are.
-/

set_option autoImplicit false

/-!
## Expressions that bind nothing

Displays, calls, literals and names that are read bind no name and declare none, however deeply they
are nested.  A function with such a body owns its parameters and nothing else, and it is no generator.
-/

namespace MacroExpand

def Kind.isQuiet : Kind → Bool
  | .constant _ _ | .name _ .load | .attribute _ _ | .subscript _ | .list _ | .tuple _ | .set | .dict
  | .unaryOp _ | .call => true
  | _ => false

inductive Quiet : Tree → Prop where
  | node {m : Mark} {kind : Kind} {slots : List (List Tree)} (quiet : kind.isQuiet = true)
      (each : ∀ slot ∈ slots, ∀ t ∈ slot, Quiet t) : Quiet (.node m kind slots)

theorem Quiet.unstarred {tree : Tree} (quiet : Quiet tree) (c : Usage) :
    tree.kind ≠ .starred c := by
  cases quiet with
  | node isQuiet each =>
    rintro rfl
    cases isQuiet

theorem Quiet.present {tree : Tree} (quiet : Quiet tree) : tree.isAbsent = false := by
  cases quiet with
  | @node m kind slots isQuiet each => cases kind <;> first | rfl | cases isQuiet

theorem Quiet.isStarred {tree : Tree} (quiet : Quiet tree) : Parser.isStarred tree = false := by
  unfold Parser.isStarred
  split
  · rename_i c kind
    exact absurd kind (quiet.unstarred c)
  · rfl

/-! ## Readings -/

namespace Parser

variable {ι : Type} {items : List ι} {tree : Tree}

theorem quiet_of_forall₂ {post : ι → Tree → Prop} {trees : List Tree}
    (each : List.Forall₂ post items trees) (quiet : ∀ i tree, post i tree → Quiet tree) :
    ∀ t ∈ trees, Quiet t := by
  induction each with
  | nil => simp
  | cons front _ ih => exact List.forall_mem_cons.mpr ⟨quiet _ _ front, ih⟩

theorem IsConstant.quiet {value : Scalar} (isConstant : IsConstant value tree) : Quiet tree := by
  obtain ⟨m, rfl⟩ := isConstant
  exact .node rfl (by simp)

theorem IsName.quiet {name : Text} (isName : IsName name tree) : Quiet tree := by
  obtain ⟨m, rfl⟩ := isName
  exact .node rfl (by simp)

theorem IsNegated.quiet {value : Scalar} (isNegated : IsNegated value tree) : Quiet tree := by
  obtain ⟨m, inner, rfl, isConstant⟩ := isNegated
  exact .node rfl (by simp [isConstant.quiet])

theorem IsMethod.quiet {object method : Text} (isMethod : IsMethod object method tree) :
    Quiet tree := by
  obtain ⟨m, inner, rfl, isName⟩ := isMethod
  exact .node rfl (by simp [isName.quiet])

theorem IsDisplay.quiet {kind : Kind} {post : ι → Tree → Prop}
    (display : IsDisplay kind items post tree) (isQuiet : kind.isQuiet = true)
    (quiet : ∀ i tree, post i tree → Quiet tree) : Quiet tree := by
  obtain ⟨m, trees, rfl, each⟩ := display
  refine .node isQuiet ?_
  simpa using quiet_of_forall₂ each quiet

theorem IsDict.quiet {isKey isValue : ι → Tree → Prop} (display : IsDict items isKey isValue tree)
    (keys : ∀ i tree, isKey i tree → Quiet tree) (values : ∀ i tree, isValue i tree → Quiet tree) :
    Quiet tree := by
  obtain ⟨m, entries, rfl, each⟩ := display
  have first := quiet_of_forall₂ (List.forall₂_map_right_iff.mpr (each.imp fun _ _ both => both.1)) keys
  have second := quiet_of_forall₂ (List.forall₂_map_right_iff.mpr (each.imp fun _ _ both => both.2))
    values
  refine .node rfl ?_
  intro slot inside
  simp only [List.mem_cons, List.not_mem_nil, or_false] at inside
  rcases inside with rfl | rfl
  · exact first
  · exact second

theorem IsCall.quiet {callee : Tree → Prop} {post : ι → Tree → Prop}
    (call : IsCall callee items post tree) (function : ∀ tree, callee tree → Quiet tree)
    (quiet : ∀ i tree, post i tree → Quiet tree) : Quiet tree := by
  obtain ⟨m, inner, trees, rfl, isCallee, each⟩ := call
  have arguments := quiet_of_forall₂ each quiet
  refine .node rfl ?_
  intro slot inside
  simp only [List.mem_cons, List.not_mem_nil, or_false] at inside
  rcases inside with rfl | rfl | rfl
  · simpa using function _ isCallee
  · exact arguments
  · simp

end Parser

/-! ## Scopes -/

namespace Scope

theorem ownName_quiet {kind : Kind} (quiet : kind.isQuiet = true) (nested : Bool) (m : Mark)
    (slots : List (List Tree)) : ownName nested (.node m kind slots) = [] := by
  cases kind with
  | name id usage => cases usage <;> first | rfl | cases quiet
  | _ => first | rfl | cases quiet

theorem boundAll_empty {nested : Bool} {trees : List Tree}
    (each : ∀ t ∈ trees, bound nested t = []) : boundAll nested trees = [] := by
  induction trees with
  | nil => rw [boundAll]
  | cons t rest ih =>
    rw [boundAll, each t (List.mem_cons_self ..),
      ih fun s inside => each s (List.mem_cons_of_mem _ inside)]
    rfl

theorem boundSlots_empty {nested : Bool} {kind : Kind} {slots : List (List Tree)} (k : Nat)
    (each : ∀ slot ∈ slots, ∀ t ∈ slot, bound nested t = []) :
    boundSlots nested kind k slots = [] := by
  induction slots generalizing k with
  | nil => rw [boundSlots]
  | cons slot rest ih =>
    rw [boundSlots, boundAll_empty (each slot (List.mem_cons_self ..)),
      ih (k + 1) fun s inside => each s (List.mem_cons_of_mem _ inside), ite_self]
    rfl

theorem bound_quiet {tree : Tree} (quiet : Quiet tree) (nested : Bool) : bound nested tree = [] := by
  induction quiet generalizing nested with
  | node isQuiet _ ih =>
    rw [bound, ownName_quiet isQuiet, boundSlots_empty 0 fun slot inside t member =>
      ih slot inside t member _]
    rfl

variable {names : Tree → List String}

theorem declaredAll_empty {trees : List Tree} (each : ∀ t ∈ trees, declared names t = []) :
    declaredAll names trees = [] := by
  induction trees with
  | nil => rw [declaredAll]
  | cons t rest ih =>
    rw [declaredAll, each t (List.mem_cons_self ..),
      ih fun s inside => each s (List.mem_cons_of_mem _ inside)]
    rfl

theorem declaredSlots_empty {kind : Kind} {slots : List (List Tree)} (k : Nat)
    (each : ∀ slot ∈ slots, ∀ t ∈ slot, declared names t = []) :
    declaredSlots names kind k slots = [] := by
  induction slots generalizing k with
  | nil => rw [declaredSlots]
  | cons slot rest ih =>
    rw [declaredSlots, declaredAll_empty (each slot (List.mem_cons_self ..)),
      ih (k + 1) fun s inside => each s (List.mem_cons_of_mem _ inside), ite_self]
    rfl

theorem declared_quiet {tree : Tree} (quiet : Quiet tree)
    (silent : ∀ t : Tree, t.kind.isQuiet = true → names t = []) : declared names tree = [] := by
  induction quiet with
  | @node m kind slots isQuiet _ ih =>
    rw [declared, silent (.node m kind slots) isQuiet, declaredSlots_empty 0 ih]
    rfl

def returned (m : Mark) (tree : Tree) : List Tree := [.node m .returnStmt [[tree]]]

theorem declaredAll_returned {tree : Tree} (quiet : Quiet tree) (m : Mark)
    (silent : ∀ t : Tree, t.kind.isQuiet = true ∨ t.kind = .returnStmt → names t = []) :
    declaredAll names (returned m tree) = [] := by
  have inner := declared_quiet quiet fun t isQuiet => silent t (.inl isQuiet)
  refine declaredAll_empty ?_
  intro t inside
  rw [List.mem_singleton.mp inside, declared, silent _ (.inr rfl),
    declaredSlots_empty 0 (by simpa using inner)]
  rfl

theorem globalNames_returned {tree : Tree} (quiet : Quiet tree) (m : Mark) :
    declaredAll globalNames (returned m tree) = [] := by
  refine declaredAll_returned quiet m ?_
  rintro ⟨m, kind, slots⟩ (isQuiet | rfl)
  · cases kind <;> first | rfl | cases isQuiet
  · rfl

theorem outerNames_returned {tree : Tree} (quiet : Quiet tree) (m : Mark) :
    declaredAll outerNames (returned m tree) = [] := by
  refine declaredAll_returned quiet m ?_
  rintro ⟨m, kind, slots⟩ (isQuiet | rfl)
  · cases kind <;> first | rfl | cases isQuiet
  · rfl

/-- A function that gives back the value of a quiet expression is no generator. -/
theorem yields_returned {tree : Tree} (quiet : Quiet tree) (m : Mark) :
    yields (returned m tree) = false := by
  unfold yields
  rw [declaredAll_returned quiet m]
  · rfl
  rintro ⟨m, kind, slots⟩ (isQuiet | rfl)
  · cases kind <;> first | rfl | cases isQuiet
  · rfl

theorem boundAll_returned {tree : Tree} (quiet : Quiet tree) (m : Mark) :
    boundAll false (returned m tree) = [] := by
  refine boundAll_empty ?_
  intro t inside
  rw [List.mem_singleton.mp inside, bound, boundSlots_empty 0]
  · rfl
  · simpa using bound_quiet quiet _

theorem localNames_returned {parameters tree : Tree} (quiet : Quiet tree) (m : Mark) :
    localNames parameters (returned m tree) = (parameterNames parameters).eraseDups := by
  unfold localNames keptHere
  simp only [globalNames_returned quiet, outerNames_returned quiet, boundAll_returned quiet,
    List.append_nil, List.contains_nil, Bool.not_false]
  rw [List.filter_eq_self]
  simp

end Scope

namespace Sandbox

open MacroExpand.Parser (IsConstant IsNegated IsName IsDisplay IsDict IsCall)

variable {m m' : Machine} {frame : Frame} {bindings : List (String × Value)}
variable {place : Nat → Option Nat}

/-! ## Names -/

theorem Standard.size_le (standard : Standard m) : startingHeap.size ≤ m.heap.size := by
  by_contra small
  have last := standard m.heap.size (by omega)
  rw [Array.getElem?_eq_none (Nat.le_refl _), Array.getElem?_eq_getElem (by omega)] at last
  cases last

/-- Expressions can be evaluated: the known classes are there, objects are placed behind them, and a
scope binds exactly some names, with nothing but built-in names around it. -/
structure Ready (frame : Frame) (bindings : List (String × Value)) (place : Nat → Option Nat)
    (m : Machine) : Prop where
  standard : Standard m
  placed : ∀ k j, place k = some j → startingHeap.size ≤ j ∧ j < m.heap.size
  free : frame.globalNames = []
  scope : ∃ data, m.heap[frame.scope]? = some (.scope data) ∧ data.bindings = bindings ∧
    (∀ name ∈ data.names, name ∈ bindings.map Prod.fst) ∧ data.isClass = false ∧
    (data.parent = none ∨ ∃ outer, data.parent = some outer ∧ m.heap[outer]? = some (.scope {}))

theorem Ready.grows (ready : Ready frame bindings place m) (grows : Grows m m') :
    Ready frame bindings place m' := by
  obtain ⟨data, found, bound, names, plain, parent⟩ := ready.scope
  refine ⟨ready.standard.grows ready.standard.size_le grows, fun k j here => ?_, ready.free, data,
    grows.found found, bound, names, plain, ?_⟩
  · have inside := ready.placed k j here
    have size := grows.size
    omega
  rcases parent with none | ⟨outer, parent, found'⟩
  · exact .inl none
  · exact .inr ⟨outer, parent, grows.found found'⟩

theorem perform_scopeAt {i : Nat} {data : ScopeData} (found : m.heap[i]? = some (.scope data)) :
    perform m (scopeAt i) = (.ok data, m) := by
  rw [scopeAt, perform_bind (perform_cellAt_some found)]
  rfl

theorem perform_findName_bound {name : String} {v : Value} {data : ScopeData} {i : Nat}
    (found : m.heap[i]? = some (.scope data)) (plain : data.isClass = false)
    (bound : lookup data.bindings name = some v) (fuel : Nat) :
    perform m (findName name (fuel + 1) true i) = (.ok (some v), m) := by
  rw [findName, perform_bind (perform_scopeAt found)]
  simp only [plain, bound]
  rfl

theorem perform_findName_free {name : String} (ready : Ready frame bindings place m)
    (absent : name ∉ bindings.map Prod.fst) (fuel : Nat) :
    perform m (findName name (fuel + 2) true frame.scope) = (.ok none, m) := by
  obtain ⟨data, found, bound, names, plain, parent⟩ := ready.scope
  have unbound : lookup data.bindings name = none := by
    rw [bound, lookup, Option.map_eq_none_iff, List.find?_eq_none]
    intro b inside same
    exact absent (List.mem_map.mpr ⟨b, inside, by simpa using same⟩)
  have elsewhere : data.names.contains name = false := by
    rw [List.contains_eq_mem, decide_eq_false_iff_not]
    exact fun inside => absent (names name inside)
  rw [findName, perform_bind (perform_scopeAt found)]
  simp only [plain, unbound, elsewhere]
  rcases parent with none | ⟨outer, parent, found'⟩
  · rw [none]
    rfl
  · rw [parent]
    simp only [Bool.false_and, Bool.false_eq_true, if_false, Bool.not_false, if_true]
    rw [findName, perform_bind (perform_scopeAt found')]
    rfl

theorem perform_lookupName_bound (ready : Ready frame bindings place m) {name : String} {v : Value}
    (bound : lookup bindings name = some v) :
    perform m (lookupName frame name) = (.ok v, m) := by
  obtain ⟨data, found, same, _, plain, _⟩ := ready.scope
  have inner := perform_findName_bound found plain (same ▸ bound) 1999
  rw [lookupName]
  simp only [ready.free, List.contains_nil, Bool.false_eq_true, if_false]
  exact (perform_bind inner).trans rfl

/-- A name that no scope binds means what it means without an import. -/
theorem perform_lookupName_known (ready : Ready frame bindings place m) {name : String} {v : Value}
    (absent : name ∉ bindings.map Prod.fst) (known : plainValue? name = some v) :
    perform m (lookupName frame name) = (.ok v, m) := by
  have outside := perform_findName_free ready absent 1998
  rw [lookupName]
  simp only [ready.free, List.contains_nil, Bool.false_eq_true, if_false]
  refine (perform_bind outside).trans ?_
  simp only [known]
  rfl

/-! ## Expressions that make copies -/

section Copying

@[simp] theorem interpreter_toGround (ground : Ground) (n : Nat) : (interpreter ground n).toGround = ground := by
  cases n <;> rfl

variable {ground : Ground} {graph : Graph}

/-- An expression that makes a copy of a value: with enough depth, evaluating it ends with one and
only adds cells to the memory. -/
structure Builds (ground : Ground) (graph : Graph) (place : Nat → Option Nat)
    (bindings : List (String × Value)) (fuel depth : Nat) (v : Value) (tree : Tree) : Prop where
  quiet : Quiet tree
  gives : ∀ n, fuel ≤ n → ∀ frame m, Ready frame bindings place m →
    Gives m ((interpreter ground n).eval frame tree) fun w m' => Grows m m' ∧
      Copy graph place m'.heap m.undefinedCount m'.undefinedCount depth v w

theorem Copy.grows {low high depth : Nat} {v w : Value} (grows : Grows m m')
    (copy : Copy graph place m.heap low high depth v w) :
    Copy graph place m'.heap low high depth v w :=
  copy.mono (Nat.le_refl _) (Nat.le_refl _) (fun _ _ _ found => grows.found found) (Nat.le_refl _)

theorem Made.grows {low high depth : Nat} {vs ws : List Value} (grows : Grows m m')
    (made : Made graph place m.heap depth low high vs ws) :
    Made graph place m'.heap depth low high vs ws :=
  made.mono fun _ _ _ found => grows.found found

def Row (graph : Graph) (place : Nat → Option Nat) (depth : Nat) (vs : List Value)
    (m : Machine) (ws : List Value) (m' : Machine) : Prop :=
  Grows m m' ∧ Made graph place m'.heap depth m.undefinedCount m'.undefinedCount vs ws

variable {ι : Type} {value : ι → Value} {fuel depth : Nat}

theorem gives_unstarred {r : Interpreter} {tree : Tree} (unstarred : ∀ c, tree.kind ≠ .starred c)
    {middle : Value → Machine → Prop} (evaluated : Gives m (r.eval frame tree) middle)
    {starred : Eval (List Value)} :
    Gives m (match tree.kind with
      | .starred _ => starred
      | _ => do return [← r.eval frame tree]) fun part m' => ∃ w, part = [w] ∧ middle w m' := by
  split
  · rename_i c isStarred
    exact absurd isStarred (unstarred c)
  · refine Gives.bind evaluated ?_
    intro w m' holds
    exact Gives.pure ⟨w, rfl, holds⟩

theorem gives_mapM {items : List ι} {trees : List Tree}
    (each : List.Forall₂
      (fun i tree => Builds ground graph place bindings fuel depth (value i) tree) items trees)
    {n : Nat} (enough : fuel ≤ n) {starred : Tree → Eval (List Value)} :
    ∀ m, Ready frame bindings place m →
      Gives m (trees.mapM fun t => match t.kind with
        | .starred _ => starred t
        | _ => do return [← (interpreter ground n).eval frame t]) fun parts m' =>
        Row graph place depth (items.map value) m parts.flatten m' := by
  induction each with
  | nil =>
    intro m ready
    exact Gives.pure ⟨Grows.refl m, .nil (Nat.le_refl _)⟩
  | @cons i tree items trees builds _ ih =>
    intro m ready
    rw [List.map_cons, List.mapM_cons]
    refine Gives.bind (gives_unstarred builds.quiet.unstarred
      (builds.gives n enough frame m ready)) ?_
    rintro part m₁ ⟨w, rfl, grows, copy⟩
    refine Gives.bind (ih m₁ (ready.grows grows)) ?_
    rintro parts m₂ ⟨grows', made'⟩
    refine Gives.pure ⟨grows.trans grows', ?_⟩
    exact .cons (Nat.le_refl _) grows.count (copy.grows grows') made'

theorem gives_elements {items : List ι} {trees : List Tree}
    (each : List.Forall₂
      (fun i tree => Builds ground graph place bindings fuel depth (value i) tree) items trees)
    {n : Nat} (enough : fuel ≤ n) (ready : Ready frame bindings place m) :
    Gives m (elementsOf (interpreter ground n) frame trees) fun ws m' =>
      Row graph place depth (items.map value) m ws m' := by
  unfold elementsOf
  refine Gives.bind (gives_mapM each enough m ready) ?_
  intro parts m' row
  exact Gives.pure row

theorem gives_arguments {items : List ι} {trees : List Tree}
    (each : List.Forall₂
      (fun i tree => Builds ground graph place bindings fuel depth (value i) tree) items trees)
    {n : Nat} (enough : fuel ≤ n) (ready : Ready frame bindings place m) (callee : Value) :
    Gives m (placeArguments (interpreter ground n) frame callee trees) fun ws m' =>
      Row graph place depth (items.map value) m ws m' := by
  unfold placeArguments
  refine Gives.bind (gives_mapM each enough m ready) ?_
  intro parts m' row
  exact Gives.pure row

def Displayed (graph : Graph) (place : Nat → Option Nat) (depth : Nat) (vs : List Value)
    (make : List Value → Cell) (m : Machine) (w : Value) (m' : Machine) : Prop :=
  ∃ ws j, w = .ref j ∧ (∀ k, place k ≠ some j) ∧ m'.heap[j]? = some (make ws) ∧
    Row graph place depth vs m ws m'

theorem Ready.fresh (ready : Ready frame bindings place m) (grows : Grows m m') :
    ∀ k, place k ≠ some m'.heap.size := by
  intro k here
  have inside := ready.placed k _ here
  have size := grows.size
  omega

theorem found_push (m : Machine) (cell : Cell) :
    ({ m with heap := m.heap.push cell } : Machine).heap[m.heap.size]? = some cell := by
  simp

theorem gives_alloc {vs ws : List Value} (ready : Ready frame bindings place m)
    (row : Row graph place depth vs m ws m') (make : List Value → Cell) :
    Gives m' (alloc (make ws)) (Displayed graph place depth vs make m) := by
  obtain ⟨grows, made⟩ := row
  refine Gives.of_perform (perform_alloc _) ⟨ws, m'.heap.size, rfl, ready.fresh grows,
    found_push m' _, grows.trans (Grows.push m' _), ?_⟩
  exact made.grows (Grows.push m' (make ws))

theorem gives_list {items : List ι} {tree : Tree}
    (display : IsDisplay (.list .load) items
      (fun i tree => Builds ground graph place bindings fuel depth (value i) tree) tree)
    {n : Nat} (enough : fuel + 1 ≤ n) (ready : Ready frame bindings place m) :
    Gives m ((interpreter ground n).eval frame tree)
      (Displayed graph place depth (items.map value) .list m) := by
  obtain ⟨mark, trees, rfl, each⟩ := display
  obtain ⟨n, rfl⟩ : ∃ k, n = k + 1 := ⟨n - 1, by omega⟩
  refine Gives.bind (gives_elements each (by omega) ready) ?_
  intro ws m' row
  exact gives_alloc ready row .list

theorem gives_tuple {items : List ι} {tree : Tree}
    (display : IsDisplay (.tuple .load) items
      (fun i tree => Builds ground graph place bindings fuel depth (value i) tree) tree)
    {n : Nat} (enough : fuel + 1 ≤ n) (ready : Ready frame bindings place m) :
    Gives m ((interpreter ground n).eval frame tree)
      (Displayed graph place depth (items.map value) .tuple m) := by
  obtain ⟨mark, trees, rfl, each⟩ := display
  obtain ⟨n, rfl⟩ : ∃ k, n = k + 1 := ⟨n - 1, by omega⟩
  refine Gives.bind (gives_elements each (by omega) ready) ?_
  intro ws m' row
  unfold newTuple
  cases ws with
  | nil =>
    obtain ⟨grows, made⟩ := row
    have standard := ready.standard.grows ready.standard.size_le grows
    refine Gives.pure ⟨[], emptyTupleCell, rfl, ?_, ?_, grows, made⟩
    · intro k here
      have inside := (ready.placed k _ here).1
      have known : emptyTupleCell < startingHeap.size := by decide +kernel
      omega
    · rw [standard _ (by decide +kernel), startingHeap_emptyTuple]
  | cons w ws => exact gives_alloc ready row .tuple

theorem gives_set (fillable : PlacesFillable graph place) (deep : depth < ground.compareDepth)
    {items : List ι} {tree : Tree}
    (display : IsDisplay .set items
      (fun i tree => Builds ground graph place bindings fuel depth (value i) tree) tree)
    (hashable : ∀ v ∈ items.map value, Hashable graph v)
    (unlike : (items.map value).Pairwise graph.Unlike)
    {n : Nat} (enough : fuel + 1 ≤ n) (ready : Ready frame bindings place m) :
    Gives m ((interpreter ground n).eval frame tree)
      (Displayed graph place depth (items.map value) .set m) := by
  obtain ⟨mark, trees, rfl, each⟩ := display
  obtain ⟨n, rfl⟩ : ∃ k, n = k + 1 := ⟨n - 1, by omega⟩
  refine Gives.bind (gives_elements each (by omega) ready) ?_
  intro ws m' row
  obtain ⟨grows, made⟩ := row
  have standard := ready.standard.grows ready.standard.size_le grows
  have added := perform_addElements (r := interpreter ground n) standard fillable
    (by simpa using deep) (.nil (Nat.le_refl _)) made hashable unlike
  exact Gives.after added (gives_alloc ready ⟨grows, made⟩ .set)

/-! ## Dictionaries -/

/-- Copies of the entries of a dictionary, whose keys were made one after the other. -/
structure Entries (graph : Graph) (place : Nat → Option Nat) (heap : Array Cell)
    (depth low high : Nat) (es es' : List (Value × Value)) : Prop where
  keys : Made graph place heap depth low high (es.map Prod.fst) (es'.map Prod.fst)
  values : List.Forall₂ (Copy graph place heap low high depth) (es.map Prod.snd) (es'.map Prod.snd)

theorem Entries.grows {low high : Nat} {es es' : List (Value × Value)} (grows : Grows m m')
    (entries : Entries graph place m.heap depth low high es es') :
    Entries graph place m'.heap depth low high es es' :=
  ⟨entries.keys.grows grows, entries.values.imp fun _ _ copy => copy.grows grows⟩

def DisplayedDict (graph : Graph) (place : Nat → Option Nat) (depth : Nat)
    (es : List (Value × Value)) (m : Machine) (w : Value) (m' : Machine) : Prop :=
  ∃ es' j, w = .ref j ∧ (∀ k, place k ≠ some j) ∧ m'.heap[j]? = some (.dict es') ∧ Grows m m' ∧
    Entries graph place m'.heap depth m.undefinedCount m'.undefinedCount es es'

variable {key : ι → Value}

theorem Entries.snoc {low middle high : Nat} {es es' : List (Value × Value)} {k v x y : Value}
    (entries : Entries graph place m.heap depth low middle es es')
    (copy : Copy graph place m'.heap middle high depth k x) (grows : Grows m m')
    (upTo : middle ≤ high) {above : Nat} (upTo' : high ≤ above)
    (copy' : Copy graph place m'.heap high above depth v y) :
    Entries graph place m'.heap depth low above (es ++ [(k, v)]) (es' ++ [(x, y)]) := by
  have below := entries.keys.le
  refine ⟨?_, ?_⟩
  · simp only [List.map_append, List.map_cons, List.map_nil]
    refine (entries.keys.grows grows).append (.cons (Nat.le_refl _) upTo copy (.nil upTo'))
  · simp only [List.map_append, List.map_cons, List.map_nil]
    refine List.rel_append ?_ (.cons ?_ .nil)
    · exact entries.values.imp fun _ _ copied => (copied.grows grows).mono (Nat.le_refl _)
        (by omega) (fun _ _ _ => id) (Nat.le_refl _)
    · exact copy'.mono (by omega) (Nat.le_refl _) (fun _ _ _ => id) (Nat.le_refl _)

theorem gives_displayEntries (fillable : PlacesFillable graph place) (deep : depth < ground.compareDepth)
    {low n : Nat} (enough : fuel ≤ n) {items : List ι} {trees : List (Tree × Tree)}
    (each : List.Forall₂ (fun i (entry : Tree × Tree) =>
      Builds ground graph place bindings fuel depth (key i) entry.1 ∧
      Builds ground graph place bindings fuel depth (value i) entry.2) items trees) :
    ∀ (m : Machine) (es es' : List (Value × Value)), Ready frame bindings place m →
      (∀ v ∈ es.map Prod.fst ++ items.map key, Hashable graph v) →
      (es.map Prod.fst ++ items.map key).Pairwise graph.Unlike →
      Entries graph place m.heap depth low m.undefinedCount es es' →
      Gives m (displayEntries (interpreter ground n) frame es' trees) fun es'' m' => Grows m m' ∧
        Entries graph place m'.heap depth low m'.undefinedCount
          (es ++ items.map fun i => (key i, value i)) es'' := by
  induction each with
  | nil =>
    intro m es es' ready hashable unlike entries
    exact Gives.pure ⟨Grows.refl m, by simpa using entries⟩
  | @cons i tree items trees builds _ ih =>
    intro m es es' ready hashable unlike entries
    obtain ⟨builds, builds'⟩ := builds
    rw [displayEntries, if_neg (by simp [builds.quiet.present])]
    refine Gives.bind (builds.gives n enough frame m ready) ?_
    rintro x m₁ ⟨grows, copy⟩
    refine Gives.bind (builds'.gives n enough frame m₁ (ready.grows grows)) ?_
    rintro y m₂ ⟨grows', copy'⟩
    have ready₂ := (ready.grows grows).grows grows'
    have isHashable : ∀ v ∈ es.map Prod.fst, Hashable graph v := fun v inside =>
      hashable v (List.mem_append_left _ inside)
    have apart : ∀ v ∈ es.map Prod.fst, graph.Unlike v (key i) := fun v inside =>
      (List.pairwise_append.mp unlike).2.2 v inside _ (List.mem_cons_self ..)
    have set := perform_setEntry (r := interpreter ground n) ready₂.standard fillable
      (Nat.le_refl _) (by simpa using deep) (entries.keys.grows (grows.trans grows')).forall₂ isHashable
      (hashable (key i) (by simp)) (copy.grows grows') apart y
    refine Gives.after set ?_
    have extended := Entries.snoc (entries.grows grows) (copy.grows grows') grows' grows.count
      grows'.count copy'
    refine (ih m₂ (es ++ [(key i, value i)]) _ ready₂ (by simpa using hashable)
      (by simpa using unlike) extended).weaken ?_
    rintro es'' m₃ ⟨grows'', entries''⟩
    exact ⟨(grows.trans grows').trans grows'', by simpa using entries''⟩

theorem gives_dict (fillable : PlacesFillable graph place) (deep : depth < ground.compareDepth)
    {items : List ι} {tree : Tree}
    (display : IsDict items
      (fun i tree => Builds ground graph place bindings fuel depth (key i) tree)
      (fun i tree => Builds ground graph place bindings fuel depth (value i) tree) tree)
    (hashable : ∀ v ∈ items.map key, Hashable graph v)
    (unlike : (items.map key).Pairwise graph.Unlike)
    {n : Nat} (enough : fuel + 1 ≤ n) (ready : Ready frame bindings place m) :
    Gives m ((interpreter ground n).eval frame tree)
      (DisplayedDict graph place depth
        (items.map fun i => (key i, value i)) m) := by
  obtain ⟨mark, entries, rfl, each⟩ := display
  obtain ⟨n, rfl⟩ : ∃ k, n = k + 1 := ⟨n - 1, by omega⟩
  have start : Entries graph place m.heap depth m.undefinedCount m.undefinedCount [] [] :=
    ⟨.nil (Nat.le_refl _), .nil⟩
  have zipped : (entries.map Prod.fst).zip (entries.map Prod.snd) = entries := by
    rw [← List.unzip_fst, ← List.unzip_snd, List.zip_unzip]
  have evaluated := gives_displayEntries (n := n) fillable deep (by omega) each m [] [] ready
    (by simpa using hashable) (by simpa using unlike) start
  rw [← zipped] at evaluated
  refine Gives.bind evaluated ?_
  rintro es m' ⟨grows, made⟩
  refine Gives.of_perform (perform_alloc _) ⟨es, m'.heap.size, rfl, ready.fresh grows,
    found_push m' _, grows.trans (Grows.push m' _), ?_⟩
  exact made.grows (Grows.push m' (.dict es))

end Copying

end Sandbox

end MacroExpand
