import MacroExpand.Sandbox.Execute

/-!
# Running actions

`perform` runs an action on a machine.  `Gives` says that the run ends with a result, and what holds
of the result and of the machine after it; it composes along the steps of an action.  A machine
`Grows` when an action only adds cells to its memory, and its memory is `Standard` as long as the
known classes and functions stand where every program finds them.  Known classes bind no attributes,
so a value of a known class never answers for itself.
-/

set_option autoImplicit false

namespace MacroExpand

namespace Sandbox

variable {α β : Type} {m m' m'' : Machine}

/-! ## Single steps -/

@[simp] theorem perform_pure (a : α) : perform m (pure a : Eval α) = (.ok a, m) := rfl

theorem perform_bind {action : Eval α} {next : α → Eval β} {a : α}
    (run : perform m action = (.ok a, m')) :
    perform m (action >>= next) = perform m' (next a) := by
  have unfolded : perform m (action >>= next) =
      ExceptT.bindCont next (perform m action).1 (perform m action).2 := rfl
  rw [unfolded, run]
  rfl

@[simp] theorem perform_get : perform m (get : Eval Machine) = (.ok m, m) := rfl

@[simp] theorem perform_set (after : Machine) :
    perform m (set after : Eval Unit) = (.ok (), after) := rfl

@[simp] theorem perform_modify (f : Machine → Machine) :
    perform m (modify f : Eval Unit) = (.ok (), f m) := rfl

@[simp] theorem perform_alloc (cell : Cell) :
    perform m (alloc cell) = (.ok (.ref m.heap.size), { m with heap := m.heap.push cell }) := rfl

@[simp] theorem perform_cellAt (i : Nat) :
    perform m (cellAt i) = (.ok (m.heap.getD i default), m) := rfl

@[simp] theorem perform_cell_ref (i : Nat) :
    perform m (cell? (.ref i)) = (.ok m.heap[i]?, m) := rfl

@[simp] theorem perform_cell_scalar (s : Scalar) :
    perform m (cell? (.scalar s)) = (.ok none, m) := rfl

theorem perform_cellAt_some {i : Nat} {cell : Cell} (found : m.heap[i]? = some cell) :
    perform m (cellAt i) = (.ok cell, m) := by
  rw [perform_cellAt, Array.getD_eq_getD_getElem?, found]
  rfl

theorem perform_tryCatch {action : Eval α} {a : α} (handler : Signal → Eval α)
    (run : perform m action = (.ok a, m')) :
    perform m (tryCatch action handler) = (.ok a, m') := by
  have whole : StateT.run action m = (.ok a, m') := run
  simp only [perform, tryCatch, tryCatchThe, MonadExceptOf.tryCatch, ExceptT.tryCatch, ExceptT.run,
    ExceptT.mk]
  rw [StateT.run_bind, whole]
  rfl

/-- A call under way is counted while it runs, and the count is restored behind it. -/
theorem perform_nested {action : Eval α} {a : α} (free : m.depth < callLimit)
    (run : perform { m with depth := m.depth + 1 } action = (.ok a, m')) :
    perform m (nested action) = (.ok a, { m' with depth := m.depth }) := by
  have caught : perform { m with depth := m.depth + 1 }
      (tryCatch (Except.ok <$> action) fun e => return Except.error e) = (.ok (.ok a), m') := by
    apply perform_tryCatch
    rw [map_eq_pure_bind, perform_bind run]
    rfl
  unfold nested
  rw [perform_bind perform_get, if_neg (by omega)]
  refine (perform_bind (perform_set _)).trans ?_
  rw [perform_bind caught, perform_bind (perform_modify _)]
  rfl

/-! ## Results -/

def Gives (m : Machine) (action : Eval α) (post : α → Machine → Prop) : Prop :=
  ∃ a m', perform m action = (.ok a, m') ∧ post a m'

theorem Gives.pure {post : α → Machine → Prop} {a : α} (holds : post a m) :
    Gives m (pure a) post :=
  ⟨a, m, rfl, holds⟩

theorem Gives.of_perform {action : Eval α} {post : α → Machine → Prop} {a : α}
    (run : perform m action = (.ok a, m')) (holds : post a m') : Gives m action post :=
  ⟨a, m', run, holds⟩

theorem Gives.bind {action : Eval α} {next : α → Eval β} {middle : α → Machine → Prop}
    {post : β → Machine → Prop} (first : Gives m action middle)
    (rest : ∀ a m', middle a m' → Gives m' (next a) post) :
    Gives m (action >>= next) post := by
  obtain ⟨a, m', run, holds⟩ := first
  obtain ⟨b, m'', run', holds'⟩ := rest a m' holds
  exact ⟨b, m'', by rw [perform_bind run, run'], holds'⟩

theorem Gives.after {action : Eval α} {next : α → Eval β} {post : β → Machine → Prop} {a : α}
    (run : perform m action = (.ok a, m')) (rest : Gives m' (next a) post) :
    Gives m (action >>= next) post := by
  obtain ⟨b, m'', run', holds⟩ := rest
  exact ⟨b, m'', by rw [perform_bind run, run'], holds⟩

theorem Gives.weaken {action : Eval α} {post post' : α → Machine → Prop}
    (gives : Gives m action post) (implies : ∀ a m', post a m' → post' a m') :
    Gives m action post' := by
  obtain ⟨a, m', run, holds⟩ := gives
  exact ⟨a, m', run, implies a m' holds⟩

/-! ## Growing memories -/

/-- The machine behind an action that adds cells, changes none and makes no call that lasts. -/
structure Grows (m m' : Machine) : Prop where
  size : m.heap.size ≤ m'.heap.size
  cells : ∀ i, i < m.heap.size → m'.heap[i]? = m.heap[i]?
  depth : m'.depth = m.depth
  count : m.undefinedCount ≤ m'.undefinedCount

theorem Grows.refl (m : Machine) : Grows m m :=
  ⟨Nat.le_refl _, fun _ _ => rfl, rfl, Nat.le_refl _⟩

theorem Grows.trans (first : Grows m m') (second : Grows m' m'') : Grows m m'' where
  size := Nat.le_trans first.size second.size
  cells := fun i inside => by
    rw [second.cells i (Nat.lt_of_lt_of_le inside first.size), first.cells i inside]
  depth := second.depth.trans first.depth
  count := Nat.le_trans first.count second.count

theorem Grows.push (m : Machine) (cell : Cell) :
    Grows m { m with heap := m.heap.push cell } where
  size := by simp only [Array.size_push]; omega
  cells := fun i inside => by simp only [Array.getElem?_push]; rw [if_neg (by omega)]
  depth := rfl
  count := Nat.le_refl _

theorem Grows.found (grows : Grows m m') {i : Nat} {cell : Cell} (found : m.heap[i]? = some cell) :
    m'.heap[i]? = some cell := by
  obtain ⟨inside, _⟩ := Array.getElem?_eq_some_iff.mp found
  rw [grows.cells i inside, found]

/-! ## Known classes -/

def Standard (m : Machine) : Prop :=
  ∀ i, i < startingHeap.size → m.heap[i]? = startingHeap[i]?

theorem Standard.grows (standard : Standard m) (size : startingHeap.size ≤ m.heap.size)
    (grows : Grows m m') : Standard m' := by
  intro i inside
  rw [grows.cells i (by omega), standard i inside]

def knownClass (c : KnownClass) : ClassData :=
  { name := c.name, qualname := c.name, module := c.module
    lineage := (lineageOf 12 c.key).map classCell, bases := c.bases.map classCell }

theorem startingHeap_class {i : Nat} (known : i < classTable.length) :
    startingHeap[i]? = some (.cls (knownClass classTable[i])) := by
  simp only [startingHeap, List.getElem?_toArray]
  rw [List.append_assoc, List.getElem?_append_left (by simpa using known), List.getElem?_map,
    List.getElem?_eq_getElem known]
  rfl

theorem startingHeap_emptyTuple : startingHeap[emptyTupleCell]? = some (.tuple []) := by
  simp only [startingHeap, List.getElem?_toArray]
  rw [List.getElem?_append_right (by simp [emptyTupleCell, singletonCell])]
  simp only [List.length_append, List.length_map, emptyTupleCell, singletonCell,
    Nat.add_sub_cancel_left]
  rfl

theorem classTable_le : classTable.length ≤ startingHeap.size := by
  simp only [startingHeap, List.size_toArray, List.length_append, List.length_map]
  omega

theorem perform_classData (standard : Standard m) {i : Nat} (known : i < classTable.length) :
    perform m (classData i) = (.ok (knownClass classTable[i]), m) := by
  have found := standard i (Nat.lt_of_lt_of_le known classTable_le)
  rw [startingHeap_class known] at found
  unfold classData
  rw [perform_bind (perform_cellAt_some found)]
  rfl

theorem classCell_lt {key : String} (known : classTable.any fun c => c.key == key) :
    classCell key < classTable.length := by
  rw [classCell, List.findIdx_lt_length]
  simpa using known

theorem lineageOf_known (fuel : Nat) (key : String) :
    ∀ k ∈ lineageOf fuel key, classTable.any fun c => c.key == k := by
  induction fuel generalizing key with
  | zero => simp [lineageOf]
  | succ fuel ih =>
    intro k inside
    rw [lineageOf] at inside
    split at inside
    · simp at inside
    · rename_i c found
      simp only [List.mem_cons, List.mem_reverse, List.mem_eraseDups, List.mem_flatMap] at inside
      rcases inside with same | ⟨base, _, deeper⟩
      · rw [List.any_eq_true]
        refine ⟨c, List.mem_of_find?_eq_some found, ?_⟩
        rw [same]
        simpa using List.find?_some found
      · exact ih base k deeper

theorem lineage_known {i : Nat} (known : i < classTable.length) :
    ∀ cls ∈ (knownClass classTable[i]).lineage, cls < classTable.length := by
  intro cls inside
  obtain ⟨key, member, same⟩ := List.mem_map.mp inside
  rw [← same]
  exact classCell_lt (lineageOf_known 12 _ key member)

theorem perform_findAttribute (standard : Standard m) (name : String) :
    ∀ lineage : List Nat, (∀ cls ∈ lineage, cls < classTable.length) →
      perform m (findAttribute name lineage) = (.ok none, m) := by
  intro lineage
  induction lineage with
  | nil => intro _; rfl
  | cons cls rest ih =>
    intro known
    have data := perform_classData standard (known cls (List.mem_cons_self ..))
    rw [findAttribute, perform_bind data]
    exact ih fun c inside => known c (List.mem_cons_of_mem _ inside)

theorem perform_ownAttribute (standard : Standard m) {cls : Nat} (known : cls < classTable.length)
    (name : String) : perform m (ownAttribute? cls name) = (.ok none, m) := by
  rw [ownAttribute?, perform_bind (perform_classData standard known)]
  exact perform_findAttribute standard name _ (lineage_known known)

theorem perform_descends (standard : Standard m) {cls : Nat} (known : cls < classTable.length)
    (ancestor : Nat) :
    perform m (descends cls ancestor) =
      (.ok ((knownClass classTable[cls]).lineage.contains ancestor), m) := by
  rw [descends, perform_bind (perform_classData standard known)]
  rfl

/-! ## Scalars and containers -/

def Cell.isContainer : Cell → Bool
  | .list _ | .tuple _ | .dict _ | .set _ | .frozenset _ => true
  | _ => false

def Settled (m : Machine) : Value → Prop
  | .scalar _ => True
  | .ref i => ∃ cell, m.heap[i]? = some cell ∧ cell.isContainer = true

theorem cellClass_lt {cell : Cell} (container : cell.isContainer = true) :
    cellClass cell < classTable.length := by
  cases cell <;> simp only [Cell.isContainer, Bool.false_eq_true] at container <;>
    exact classCell_lt (by decide +kernel)

theorem scalarClass_lt (s : Scalar) : classCell (scalarClass s) < classTable.length := by
  cases s <;> simp only [scalarClass] <;> exact classCell_lt (by decide +kernel)

theorem perform_classOf {v : Value} (settled : Settled m v) :
    ∃ cls, cls < classTable.length ∧ perform m (classOf v) = (.ok cls, m) := by
  cases v with
  | scalar s => exact ⟨_, scalarClass_lt s, rfl⟩
  | ref i =>
    obtain ⟨cell, found, container⟩ := settled
    refine ⟨cellClass cell, cellClass_lt container, ?_⟩
    rw [classOf, perform_bind (perform_cellAt_some found)]
    rfl

theorem perform_callOwn (standard : Standard m) {v : Value} (settled : Settled m v)
    (r : Interpreter) (name : String) (args : List Value) :
    perform m (callOwn? r v name args) = (.ok none, m) := by
  obtain ⟨cls, known, class_run⟩ := perform_classOf settled
  rw [callOwn?, perform_bind class_run, perform_bind (perform_ownAttribute standard known name)]
  rfl

theorem perform_unwrap {v : Value} (settled : Settled m v) : perform m (unwrap v) = (.ok v, m) := by
  cases v with
  | scalar s => rfl
  | ref i =>
    obtain ⟨cell, found, container⟩ := settled
    rw [unwrap, perform_bind (perform_cell_ref i), found]
    cases cell <;> first | rfl | cases container

theorem perform_core {v : Value} (settled : Settled m v) {found : Option Cell}
    (cell : perform m (cell? v) = (.ok found, m)) : perform m (core? v) = (.ok found, m) := by
  rw [core?, perform_bind (perform_unwrap settled), cell]

end Sandbox

end MacroExpand
