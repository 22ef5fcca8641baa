import MacroExpand.Proofs.Rendering

/-!
# Filling containers in place

A method of a named container is found in the tables of its class and called with the container that
its argument makes.  The methods that fill an empty list, dictionary or set put the elements of the
argument into it; no other cell changes.
-/

set_option autoImplicit false

namespace MacroExpand

namespace Sandbox

open MacroExpand.Parser

variable {m m' : Machine} {frame : Frame} {bindings : List (String × Value)}
variable {place : Nat → Option Nat} {ground : Ground} {graph : Graph}

/-! ## Methods of containers -/

/-- A method of a container, as the tables of its classes give it. -/
structure HasMethod (cell : Cell) (key name : String) (native : Native) : Prop where
  container : cell.isContainer = true
  found : (findIn methodTables ((knownClass (classTable.get ⟨cellClass cell, cellClass_lt container⟩)).lineage)
    name).map Prod.fst = some key
  called : ((methodTables ++ classFunctions).filter fun t => t.1 == key).findSome?
    (fun t => findNative t.2 name) = some native
  other : name ≠ "__class__"

theorem perform_builtInPart {i : Nat} {cell : Cell} (found : m.heap[i]? = some cell)
    (container : cell.isContainer = true) (name : String) :
    perform m (builtInPart? (.ref i) name) = (.ok none, m) := by
  have settled : Settled m (.ref i) := ⟨cell, found, container⟩
  refine (perform_bind (perform_unwrap settled)).trans ?_
  refine (perform_bind (perform_cellAt_some found)).trans ?_
  cases cell <;> first | rfl | cases container

theorem perform_getAttribute {i : Nat} {cell : Cell} {key name : String} {native : Native}
    (standard : Standard m) (found : m.heap[i]? = some cell)
    (method : HasMethod cell key name native) (r : Interpreter) :
    perform m (getAttribute r (.ref i) name) = (.ok (.ref m.heap.size),
      { m with heap := m.heap.push (.nativeMethod (.ref i) key name) }) := by
  have container := method.container
  have known := cellClass_lt container
  have lineage := lineage_known known
  have class_run : perform m (classOf (.ref i)) = (.ok (cellClass cell), m) := by
    rw [classOf, perform_bind (perform_cellAt_some found)]
    rfl
  have absent := perform_findAttribute standard name _ lineage
  obtain ⟨entry, isEntry, same⟩ := Option.map_eq_some_iff.mp method.found
  have inherited : perform m (inheritedAttribute? r (.ref i)
      (knownClass classTable[cellClass cell]).lineage name) = (.ok (some (.ref m.heap.size)),
        { m with heap := m.heap.push (.nativeMethod (.ref i) key name) }) := by
    refine (perform_bind absent).trans ?_
    refine (perform_bind (perform_builtInPart found container name)).trans ?_
    have listed : findIn methodTables (knownClass classTable[cellClass cell]).lineage name =
      some entry := isEntry
    simp only [listed, same]
    rfl
  have plain : perform m (plainAttribute? r (.ref i) name) = (.ok (some (.ref m.heap.size)),
        { m with heap := m.heap.push (.nativeMethod (.ref i) key name) }) := by
    refine (perform_bind class_run).trans ?_
    refine (perform_bind (perform_classData standard known)).trans ?_
    have other : (name == "__class__") = false := by simpa using method.other
    simp only [other, Bool.false_eq_true, if_false]
    refine (perform_bind (perform_cellAt_some found)).trans ?_
    cases cell <;> cases container
    all_goals
      refine (perform_bind absent).trans ?_
      refine (perform_bind (perform_pure _)).trans ?_
      exact inherited
  have look : perform m (getAttribute? r (.ref i) name) = (.ok (some (.ref m.heap.size)),
        { m with heap := m.heap.push (.nativeMethod (.ref i) key name) }) := by
    refine (perform_bind class_run).trans ?_
    refine (perform_bind (perform_ownAttribute standard known _)).trans ?_
    refine (perform_bind (perform_ownAttribute standard known _)).trans ?_
    exact plain
  exact (perform_bind look).trans rfl

theorem perform_call_method {i : Nat} {cell : Cell} {key name : String} {native : Native} {self : Value}
    (found : m.heap[i]? = some (.nativeMethod self key name))
    (method : HasMethod cell key name native) (r : Interpreter) (a : Arguments) :
    perform m (callStep r (.ref i) a) = perform m (native.call (methodName key name) r self a) := by
  refine (perform_bind (perform_cellAt_some found)).trans ?_
  simp only [method.called]

theorem hasMethod_extend : HasMethod (.list []) "list" "extend" (.single "extend" fun r v items => do
    let items ← iterate r items
    updateList v (· ++ items)) :=
  ⟨rfl, rfl, rfl, by decide⟩

theorem hasMethod_update_dict : HasMethod (.dict []) "dict" "update" (.free "update" fun r v a => do
    let news ← entriesFrom r "update" a
    let (i, es) ← dictEntries v
    setEntriesOf i (← setEntries r es news)
    return nil) :=
  ⟨rfl, rfl, rfl, by decide⟩

theorem hasMethod_update_set : HasMethod (.set []) "set" "update"
    (combining "set" "update" true fun r xs ys => addElements r xs ys) :=
  ⟨rfl, rfl, rfl, by decide⟩

theorem perform_call_single (name full : String) (run : Interpreter → Value → Value → Eval Value)
    (r : Interpreter) (self x : Value) :
    perform m (Native.call (.single name run) full r self ⟨[x], []⟩) = perform m (run r self x) := by
  unfold Native.call
  simp only [Native.single, List.isEmpty_nil, Bool.not_true, Bool.false_eq_true, if_false,
    List.length_cons, List.length_nil, Nat.zero_add, ne_eq, not_true_eq_false, decide_false,
    Bool.and_false]
  rfl

theorem perform_extend {i j : Nat} {ws : List Value} (found : m.heap[i]? = some (.list []))
    (given : m.heap[j]? = some (.list ws)) (full : String) (r : Interpreter) :
    perform m (Native.call (.single "extend" fun r v items => do
      let items ← iterate r items
      updateList v (· ++ items)) full r (.ref i) ⟨[.ref j], []⟩) =
      (.ok nil, { m with heap := m.heap.setIfInBounds i (.list ws) }) := by
  have settled : Settled m (.ref i) := ⟨_, found, rfl⟩
  have listed : perform m (listItems (.ref i)) = (.ok (i, []), m) := by
    refine (perform_bind (perform_unwrap settled)).trans ?_
    refine (perform_bind (perform_core settled (perform_cell_ref i))).trans ?_
    rw [found]
    rfl
  have updated : perform m (updateList (.ref i) (· ++ ws)) =
      (.ok nil, { m with heap := m.heap.setIfInBounds i (.list ws) }) :=
    (perform_bind listed).trans rfl
  rw [perform_call_single]
  exact (perform_bind (perform_iterate r given (.inl rfl))).trans updated

theorem perform_update_dict {i j : Nat} {es : List (Value × Value)} (standard : Standard m)
    (found : m.heap[i]? = some (.dict [])) (given : m.heap[j]? = some (.dict es)) (full : String)
    (r : Interpreter) (added : perform m (setEntries r [] es) = (.ok es, m)) :
    perform m (Native.call (.free "update" fun r v a => do
      let news ← entriesFrom r "update" a
      let (i, es) ← dictEntries v
      setEntriesOf i (← setEntries r es news)
      return nil) full r (.ref i) ⟨[.ref j], []⟩) =
      (.ok nil, { m with heap := m.heap.setIfInBounds i (.dict es) }) := by
  have settled : Settled m (.ref i) := ⟨_, found, rfl⟩
  have settled' : Settled m (.ref j) := ⟨_, given, rfl⟩
  have gathered : perform m (entriesOf r (.ref j)) = (.ok es, m) := by
    refine (perform_bind (perform_callOwn standard settled' r _ _)).trans ?_
    refine (perform_bind (perform_core settled' (perform_cell_ref j))).trans ?_
    rw [given]
    rfl
  have news : perform m (entriesFrom r "update" ⟨[.ref j], []⟩) = (.ok es, m) := by
    refine (perform_bind (perform_pure ())).trans ?_
    refine (perform_bind gathered).trans ?_
    simp only [List.map_nil, List.append_nil]
    rfl
  have held : perform m (dictEntries (.ref i)) = (.ok (i, []), m) := by
    refine (perform_bind (perform_unwrap settled)).trans ?_
    have entries : perform m (entriesAt i) = (.ok [], m) :=
      (perform_bind (perform_cellAt_some found)).trans rfl
    exact (perform_bind entries).trans rfl
  have stored : perform m (setEntriesOf i es) =
      (.ok (), { m with heap := m.heap.setIfInBounds i (.dict es) }) :=
    (perform_bind (perform_cellAt_some found)).trans rfl
  refine (perform_bind news).trans ?_
  refine (perform_bind held).trans ?_
  refine (perform_bind added).trans ?_
  exact (perform_bind stored).trans rfl

theorem perform_update_set {i j : Nat} {ws : List Value}
    (found : m.heap[i]? = some (.set [])) (given : m.heap[j]? = some (.set ws)) (full : String)
    (r : Interpreter) (keys : ∀ w ∈ ws, perform m (requireKey w) = (.ok (), m))
    (added : perform m (addElements r [] ws) = (.ok ws, m)) :
    perform m (Native.call (combining "set" "update" true fun r xs ys => addElements r xs ys) full r
      (.ref i) ⟨[.ref j], []⟩) = (.ok nil, { m with heap := m.heap.setIfInBounds i (.set ws) }) := by
  have settled : Settled m (.ref i) := ⟨_, found, rfl⟩
  have listed : perform m (setItems (.ref i)) = (.ok (i, []), m) := by
    refine (perform_bind (perform_unwrap settled)).trans ?_
    refine (perform_bind (perform_core settled (perform_cell_ref i))).trans ?_
    rw [found]
    rfl
  have hashed : perform m (hashedItems r (.ref j)) = (.ok ws, m) := by
    refine (perform_bind (perform_iterate r given (.inr (.inr (.inl rfl))))).trans ?_
    exact (perform_bind (perform_forM keys)).trans rfl
  have folded : perform m ([Value.ref j].foldlM
      (fun done items => do addElements r done (← hashedItems r items)) []) = (.ok ws, m) := by
    rw [List.foldlM_cons]
    have first : perform m (do addElements r [] (← hashedItems r (.ref j))) = (.ok ws, m) :=
      (perform_bind hashed).trans added
    exact (perform_bind first).trans rfl
  refine (perform_bind listed).trans ?_
  exact (perform_bind folded).trans rfl

/-! ## Filling -/

/-- A method of a named container is called with what its arguments make. -/
theorem gives_method {cell : Cell} {key method : String} {native : Native}
    (hasMethod : HasMethod cell key method native) {name : Text} {i : Nat} {n : Nat}
    (ready : Ready frame bindings place m)
    (bound : lookup bindings (String.ofList name) = some (.ref i)) (found : m.heap[i]? = some cell)
    {inner : Tree} (isMethod : IsMethod name method.toList inner) {mark : Mark} {trees : List Tree}
    {middle : List Value → Machine → Prop}
    (evaluated : ∀ callee, Gives { m with heap := m.heap.push (.nativeMethod (.ref i) key method) }
      (placeArguments (interpreter ground (n + 2)) frame callee trees) middle)
    {post : Value → Machine → Prop}
    (runs : ∀ ws m', middle ws m' →
      Grows { m with heap := m.heap.push (.nativeMethod (.ref i) key method) } m' ∧
      Gives m' (native.call (methodName key method) (interpreter ground (n + 1)) (.ref i) ⟨ws, []⟩) post) :
    Gives m ((interpreter ground (n + 3)).eval frame (.node mark .call [[inner], trees, []])) post := by
  obtain ⟨mark', object, rfl, mark'', rfl⟩ := isMethod
  have named : perform m ((interpreter ground (n + 1)).eval frame
      (.node mark'' (.name (String.ofList name) .load) [])) = (.ok (.ref i), m) :=
    perform_lookupName_bound ready bound
  have looked : perform m ((interpreter ground (n + 2)).eval frame
      (.node mark' (.attribute (String.ofList method.toList) .load)
        [[.node mark'' (.name (String.ofList name) .load) []]])) = (.ok (.ref m.heap.size),
      { m with heap := m.heap.push (.nativeMethod (.ref i) key method) }) := by
    rw [String.ofList_toList]
    exact (perform_bind named).trans (perform_getAttribute ready.standard found hasMethod _)
  refine Gives.after looked (Gives.bind (evaluated _) ?_)
  intro ws m' holds
  obtain ⟨grows, w, m'', run, result⟩ := runs ws m' holds
  have held := grows.found (found_push m (.nativeMethod (.ref i) key method))
  have other : m.heap.size ≠ classCell "super" := by
    have known : classCell "super" < startingHeap.size := by decide +kernel
    have size := ready.standard.size_le
    omega
  have elsewhere : perform m' (callHere? (interpreter ground (n + 2)) frame (.ref m.heap.size)
      ⟨ws, []⟩) = (.ok none, m') :=
    perform_callHere held other (by simp) _ _
  refine Gives.after (perform_pure (m := m') ([] : List (String × Value))) (Gives.after elsewhere ?_)
  exact ⟨w, m'', (perform_call_method held hasMethod _ _).trans run, result⟩

def emptyCell : Object → Cell
  | .list _ => .list []
  | .dict _ => .dict []
  | _ => .set []

def fillMethod : Object → String
  | .list _ => "extend"
  | _ => "update"

/-- What filling an object at a place leads to: cells are added, and then the cell at the place holds
copies of what the object holds. -/
def Filled (graph : Graph) (place : Nat → Option Nat) (depth : Nat) (object : Object) (i : Nat)
    (m m' : Machine) : Prop :=
  ∃ between cell, Grows m between ∧
    CellCopy (Copy graph place between.heap m.undefinedCount between.undefinedCount depth) object cell ∧
    m' = { between with heap := between.heap.setIfInBounds i cell }

def IsFill (ground : Ground) (graph : Graph) (place : Nat → Option Nat)
    (bindings : List (String × Value)) (fuel depth : Nat) (name : Text) (object : Object)
    (tree : Tree) : Prop :=
  IsCall (IsMethod name (fillMethod object).toList) [()]
    (fun _ => Lays ground graph place bindings fuel depth object) tree

theorem IsFill.quiet {fuel depth : Nat} {name : Text} {object : Object} {tree : Tree}
    (isFill : IsFill ground graph place bindings fuel depth name object tree) : Quiet tree :=
  IsCall.quiet isFill (fun _ isMethod => isMethod.quiet) fun _ _ lays => lays.quiet

theorem gives_fill (fillable : PlacesFillable graph place) {depth : Nat} (deep : depth < ground.compareDepth)
    {object : Object} (isFillable : object.fillable = true) (plain : object.Plain graph) {i : Nat}
    {name : Text} (bound : lookup bindings (String.ofList name) = some (.ref i)) {fuel : Nat}
    {tree : Tree} (isFill : IsFill ground graph place bindings fuel depth name object tree)
    {n : Nat} (enough : max (fuel + 1) 3 ≤ n) (ready : Ready frame bindings place m)
    (empty : m.heap[i]? = some (emptyCell object)) :
    Gives m ((interpreter ground n).eval frame tree) fun _ =>
      Filled graph place depth object i m := by
  obtain ⟨mark, inner, trees, rfl, isMethod, each⟩ := isFill
  cases each with
  | @cons _ argument _ _ lays rest =>
    cases rest
    obtain ⟨n, rfl⟩ : ∃ k, n = k + 3 := ⟨n - 3, by omega⟩
    have evaluated : ∀ (key method : String) (callee : Value),
        Gives { m with heap := m.heap.push (.nativeMethod (.ref i) key method) }
          (placeArguments (interpreter ground (n + 2)) frame callee [argument])
          fun ws m' => ∃ w, ws = [w] ∧ Laid graph place depth object
            { m with heap := m.heap.push (.nativeMethod (.ref i) key method) } w m' := by
      intro key method callee
      exact gives_argument lays.quiet.unstarred (lays.gives (n + 2) (by omega) frame _
        (ready.grows (Grows.push m _))) callee
    cases object with
    | list items =>
      refine gives_method hasMethod_extend ready bound empty isMethod
        (evaluated "list" "extend") ?_
      rintro _ m' ⟨w, rfl, ws, j, rfl, _, given, grows, made⟩
      have whole := (Grows.push m _).trans grows
      refine ⟨grows, Gives.of_perform (perform_extend (whole.found empty) given _ _) ?_⟩
      exact ⟨m', .list ws, whole, made.forall₂, rfl⟩
    | dict entries =>
      refine gives_method hasMethod_update_dict ready bound empty isMethod
        (evaluated "dict" "update") ?_
      rintro _ m' ⟨w, rfl, es, j, rfl, _, given, grows, made⟩
      have whole := (Grows.push m _).trans grows
      have standard := ready.standard.grows ready.standard.size_le whole
      have added : perform m' (setEntries (interpreter ground (n + 1)) [] es) = (.ok es, m') :=
        perform_setEntries standard fillable (by simpa using deep)
          (.nil (Nat.le_refl _)) made.keys plain.hashable plain.unlike
      refine ⟨grows, Gives.of_perform (perform_update_dict standard (whole.found empty) given _ _
        added) ?_⟩
      refine ⟨m', .dict es, whole, ?_, rfl⟩
      have keys := made.keys.forall₂
      have values := made.values
      simp only [List.forall₂_map_left_iff, List.forall₂_map_right_iff] at keys values
      exact forall₂_both keys values
    | set items =>
      refine gives_method hasMethod_update_set ready bound empty isMethod
        (evaluated "set" "update") ?_
      rintro _ m' ⟨w, rfl, ws, j, rfl, _, given, grows, made⟩
      have whole := (Grows.push m _).trans grows
      have standard := ready.standard.grows ready.standard.size_le whole
      have added := perform_addElements (r := interpreter ground (n + 1)) standard fillable
        (by simpa using deep) (.nil (Nat.le_refl _)) made plain.hashable
        plain.unlike
      have keys : ∀ w ∈ ws, perform m' (requireKey w) = (.ok (), m') := by
        intro w inside
        obtain ⟨v, held, copy⟩ := forall₂_exists made.forall₂.flip inside
        exact perform_requireKey fillable (plain.hashable v held) copy
      refine ⟨grows, Gives.of_perform (perform_update_set (whole.found empty) given _ _ keys
        added) ?_⟩
      exact ⟨m', .set ws, whole, made.forall₂, rfl⟩
    | _ => cases isFillable

end Sandbox

end MacroExpand
