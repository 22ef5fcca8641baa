import MacroExpand.Proofs.Keeping

/-!
# How known classes are rebuilt

The standard registry has one reducer for all its classes, which goes by the state of an instance.  What it names is
`State.rebuiltBy`: a known constructor, or the class of the instance itself for moments, paths and members of
enumerations.  The arguments hold scalars, values that the instance holds, and new objects around them
(`Reducer.partsOf_standard`).
-/

set_option autoImplicit false

namespace MacroExpand

/-! ## The standard registry -/

theorem Registry.find?_standard {key : ClassKey} {reducer : Reducer}
    (found : Registry.standard.find? key = some reducer) : reducer = Reducer.standard := by
  unfold Registry.standard Registry.find? Registry.register Registry.empty at found
  obtain ⟨e, isEntry, rfl⟩ := Option.map_eq_some_iff.mp found
  have member := List.mem_of_find?_eq_some isEntry
  rw [List.append_nil] at member
  obtain ⟨k, -, rfl⟩ := List.mem_map.mp member
  rfl

theorem Registry.reduce_standard (cls : Class) (state : State) :
    Registry.standard.reduce cls state =
      if Registry.standard.has cls then Reducer.standard cls state else .ok none := by
  have known : Registry.standard.has cls = (cls.lineage.findSome? Registry.standard.find?).isSome := by
    rw [Registry.has, List.isSome_findSome?]
  rw [Registry.reduce, known]
  cases found : cls.lineage.findSome? Registry.standard.find? with
  | none => rfl
  | some reducer =>
    obtain ⟨key, -, isReducer⟩ := List.exists_of_findSome?_eq_some found
    rw [Registry.find?_standard isReducer]
    rfl

theorem Registry.reduce_standard_cases (cls : Class) (state : State) :
    Registry.standard.reduce cls state = Reducer.standard cls state ∨ Registry.standard.reduce cls state = .ok none := by
  rw [reduce_standard]
  split
  · exact .inl rfl
  · exact .inr rfl

/-! ## Names -/

/-- The name that an instance of a class is rebuilt by. -/
def State.rebuiltBy (cls : Class) : State → ClassName
  | .url _ => Class.url.name
  | .queryParams _ => Class.queryParams.name
  | .headers _ => Class.headers.name
  | .request _ => Class.request.name
  | .response _ => Class.response.name
  | .formData _ => Class.formData.name
  | .bytearray _ => Class.bytearray.name
  | .memoryview _ _ => Class.memoryview.name
  | .timedelta _ => Class.timedelta.name
  | .decimal _ => Class.decimal.name
  | .uuid _ => Class.uuid.name
  | .fraction _ _ => Class.fraction.name
  | .ordered _ => Class.orderedDict.name
  | .datetime _ | .date _ | .time _ => ⟨cls.name.module, cls.name.qualname ++ ".fromisoformat"⟩
  | .enumMember name _ => ⟨cls.name.module, cls.name.qualname ++ "." ++ String.ofList name⟩
  | .rebuilt recipe => ⟨recipe.module, recipe.qualname⟩
  | .path _ | .opaqueObject _ | .callable _ | .pending _ | .irreducible => cls.name

namespace Reducer

theorem named_standard {cls : Class} {state : State} {fresh : FreshRecipe}
    (answer : standard cls state = .ok (some fresh)) :
    (⟨fresh.module, fresh.qualname⟩ : ClassName) = state.rebuiltBy cls := by
  cases state with
  | request | response | enumMember =>
    rw [standard] at answer
    split at answer <;> cases answer
    rfl
  | opaqueObject | callable | pending | irreducible => cases answer
  | _ =>
    cases answer
    rfl

/-- The names of keyword arguments of known constructors, and those that an object brings itself. -/
theorem keywords_standard {cls : Class} {state : State} {fresh : FreshRecipe}
    (answer : standard cls state = .ok (some fresh)) : ∀ e ∈ fresh.kwargs,
      e.1 ∈ ["headers", "content", "extensions", "request"] ∨
        ∃ recipe, state = .rebuilt recipe ∧ e.1 ∈ recipe.kwargs.map Prod.fst := by
  intro e member
  cases state with
  | request r =>
    rw [standard] at answer
    split at answer <;> cases answer
    simp only [List.mem_cons, List.not_mem_nil, or_false] at member
    rcases member with rfl | rfl <;> simp
  | response r =>
    rw [standard] at answer
    split at answer <;> cases answer
    simp only [responseFields, List.mem_append, List.mem_cons, List.not_mem_nil, or_false] at member
    rcases member with ((rfl | rfl) | reason) | request
    · simp
    · simp
    · split at reason
      · cases reason
      · obtain rfl := List.mem_singleton.mp reason
        simp
    · split at request
      · cases request
      · obtain rfl := List.mem_singleton.mp request
        simp
  | enumMember =>
    rw [standard] at answer
    split at answer <;> cases answer
    cases member
  | rebuilt recipe =>
    cases answer
    obtain ⟨kwarg, isKwarg, rfl⟩ := List.mem_map.mp member
    exact .inr ⟨recipe, rfl, List.mem_map_of_mem isKwarg⟩
  | opaqueObject | callable | pending | irreducible => cases answer
  | _ =>
    cases answer
    cases member

end Reducer

/-! ## Parts -/

theorem Fresh.givenAll_eq (items : List Fresh) : Fresh.givenAll items = items.flatMap Fresh.given := by
  induction items with
  | nil => rfl
  | cons item rest ih => rw [Fresh.givenAll, ih, List.flatMap_cons]

theorem Fresh.instancesAll_eq (items : List Fresh) : Fresh.instancesAll items = items.flatMap Fresh.instances := by
  induction items with
  | nil => rfl
  | cons item rest ih => rw [Fresh.instancesAll, ih, List.flatMap_cons]

def State.handed : State → List Value
  | .ordered entries | .formData entries => entries.flatMap fun e => [e.1, e.2]
  | .response r => r.status :: r.request.toList
  | .rebuilt recipe => recipe.values
  | _ => []

namespace Reducer

theorem valuePairs_parts (pairs : List (Value × Value)) :
    (valuePairs pairs).given = pairs.flatMap (fun e => [e.1, e.2]) ∧ (valuePairs pairs).instances = [] := by
  constructor
  · simp [valuePairs, Fresh.given, Fresh.givenAll_eq, Fresh.givenAll, List.flatMap_map]
  · rw [valuePairs, Fresh.instances, Fresh.instancesAll_eq, List.flatMap_eq_nil_iff]
    intro item member
    obtain ⟨e, -, rfl⟩ := List.mem_map.mp member
    rfl

theorem textPairs_eq (pairs : List (Text × Text)) :
    textPairs pairs = valuePairs (pairs.map fun e => (.scalar (.str e.1), .scalar (.str e.2))) := by
  simp [textPairs, valuePairs, str]

theorem textPairs_parts (pairs : List (Text × Text)) :
    (∀ v ∈ (textPairs pairs).given, ∃ s, v = .scalar s) ∧ (textPairs pairs).instances = [] := by
  obtain ⟨given, instances⟩ := valuePairs_parts (pairs.map fun e => (.scalar (.str e.1), .scalar (.str e.2)))
  rw [textPairs_eq, given]
  refine ⟨fun v member => ?_, instances⟩
  obtain ⟨e, isPair, part⟩ := List.mem_flatMap.mp member
  obtain ⟨pair, -, rfl⟩ := List.mem_map.mp isPair
  simp only [List.mem_cons, List.not_mem_nil, or_false] at part
  rcases part with rfl | rfl <;> exact ⟨_, rfl⟩

/-- What the parts of a reduction of a known class are: scalars and handed values, and instances of two classes. -/
structure PartsOf (state : State) (given : List Value) (instances : List (Class × State)) : Prop where
  given : ∀ v ∈ given, (∃ s, v = .scalar s) ∨ v ∈ state.handed
  instances : ∀ e ∈ instances, (∃ u, e = (Class.url, .url u)) ∨ ∃ b, e = (Class.bytearray, .bytearray b)

theorem PartsOf.append {state : State} {given given' : List Value} {instances instances' : List (Class × State)}
    (first : PartsOf state given instances) (second : PartsOf state given' instances') :
    PartsOf state (given ++ given') (instances ++ instances') :=
  ⟨fun v member => (List.mem_append.mp member).elim (first.given v) (second.given v),
    fun e member => (List.mem_append.mp member).elim (first.instances e) (second.instances e)⟩

theorem PartsOf.all {state : State} {items : List Fresh}
    (each : ∀ item ∈ items, PartsOf state item.given item.instances) :
    PartsOf state (Fresh.givenAll items) (Fresh.instancesAll items) := by
  rw [Fresh.givenAll_eq, Fresh.instancesAll_eq]
  constructor
  · intro v member
    obtain ⟨item, isItem, inside⟩ := List.mem_flatMap.mp member
    exact (each item isItem).given v inside
  · intro e member
    obtain ⟨item, isItem, inside⟩ := List.mem_flatMap.mp member
    exact (each item isItem).instances e inside

theorem PartsOf.value {state : State} {v : Value} (handed : (∃ s, v = .scalar s) ∨ v ∈ state.handed) :
    PartsOf state (Fresh.value v).given (Fresh.value v).instances :=
  ⟨List.forall_mem_singleton.mpr handed, List.forall_mem_nil _⟩

theorem PartsOf.textPairs (state : State) (pairs : List (Text × Text)) :
    PartsOf state (textPairs pairs).given (textPairs pairs).instances := by
  obtain ⟨given, instances⟩ := textPairs_parts pairs
  exact ⟨fun v member => .inl (given v member), by simp [instances]⟩

theorem PartsOf.valuePairs {state : State} {pairs : List (Value × Value)}
    (handed : ∀ v ∈ pairs.flatMap fun e => [e.1, e.2], v ∈ state.handed) :
    PartsOf state (valuePairs pairs).given (valuePairs pairs).instances := by
  obtain ⟨given, instances⟩ := valuePairs_parts pairs
  exact ⟨fun v member => .inr (handed v (given ▸ member)), by simp [instances]⟩

theorem PartsOf.recipe {state : State} {fresh : FreshRecipe}
    (args : ∀ item ∈ fresh.args.getD [], PartsOf state item.given item.instances)
    (kwargs : ∀ e ∈ fresh.kwargs, PartsOf state e.2.given e.2.instances) :
    PartsOf state fresh.given fresh.instances := by
  refine (PartsOf.all args).append (PartsOf.all fun item member => ?_)
  obtain ⟨e, isEntry, rfl⟩ := List.mem_map.mp member
  exact kwargs e isEntry

theorem PartsOf.scalar (state : State) (s : Scalar) :
    PartsOf state (Fresh.value (.scalar s)).given (Fresh.value (.scalar s)).instances := .value (.inl ⟨s, rfl⟩)

theorem partsOf_standard {cls : Class} {state : State} {fresh : FreshRecipe}
    (answer : standard cls state = .ok (some fresh)) : PartsOf state fresh.given fresh.instances := by
  have plain : ∀ {module qualname : String} {args : List Fresh},
      (∀ item ∈ args, PartsOf state item.given item.instances) →
      PartsOf state (FreshRecipe.given ⟨module, qualname, some args, []⟩)
        (FreshRecipe.instances ⟨module, qualname, some args, []⟩) :=
    fun each => .recipe each (List.forall_mem_nil _)
  cases state with
  | url | timedelta | decimal | uuid | fraction | path | bytearray | datetime | date | time =>
    cases answer
    exact plain (by simp [str, int, bytes, PartsOf.scalar])
  | queryParams pairs =>
    cases answer
    exact plain (List.forall_mem_singleton.mpr (.textPairs _ pairs))
  | headers h =>
    cases answer
    exact plain (List.forall_mem_singleton.mpr (.textPairs _ h.items))
  | formData pairs | ordered pairs =>
    cases answer
    exact plain (List.forall_mem_singleton.mpr (.valuePairs fun v member => member))
  | memoryview b writable =>
    cases answer
    refine plain (List.forall_mem_singleton.mpr ?_)
    cases writable with
    | true => exact ⟨List.forall_mem_nil _, List.forall_mem_singleton.mpr (.inr ⟨b, rfl⟩)⟩
    | false => exact .scalar _ _
  | enumMember name reachability =>
    rw [standard] at answer
    split at answer
    · cases answer
    · cases answer
      exact .recipe (List.forall_mem_nil _) (List.forall_mem_nil _)
  | rebuilt recipe =>
    cases answer
    have known : ∀ v ∈ recipe.values, PartsOf (.rebuilt recipe) (Fresh.value v).given (Fresh.value v).instances :=
      fun v member => .value (.inr member)
    refine .recipe (fun item member => ?_) fun e member => ?_
    · cases args : recipe.args with
      | none =>
        rw [args] at member
        cases member
      | some values =>
        rw [args] at member
        obtain ⟨v, isValue, rfl⟩ := List.mem_map.mp member
        exact known v (List.mem_append_left _ (by rw [args]; exact isValue))
    · obtain ⟨kwarg, isKwarg, rfl⟩ := List.mem_map.mp member
      exact known _ (List.mem_append_right _ (List.mem_map_of_mem isKwarg))
  | request r =>
    rw [standard] at answer
    split at answer
    · cases answer
      have address : PartsOf (.request r) (Fresh.inst Class.url (.url r.url)).given
          (Fresh.inst Class.url (.url r.url)).instances :=
        ⟨List.forall_mem_nil _, List.forall_mem_singleton.mpr (.inl ⟨r.url, rfl⟩)⟩
      refine .recipe ?_ ?_
      · simp [str, PartsOf.scalar, address]
      · simp [bytes, PartsOf.scalar, PartsOf.textPairs]
    · cases answer
  | response r =>
    rw [standard] at answer
    split at answer
    · cases answer
      refine .recipe (List.forall_mem_singleton.mpr (.value (.inr List.mem_cons_self))) fun e member => ?_
      rw [responseFields, List.mem_append, List.mem_append] at member
      rcases member with (field | reason) | request
      · simp only [List.mem_cons, List.not_mem_nil, or_false] at field
        rcases field with rfl | rfl
        · exact .textPairs _ _
        · exact .scalar _ _
      · split at reason
        · cases reason
        · obtain rfl := List.mem_singleton.mp reason
          exact ⟨List.forall_mem_singleton.mpr (.inl ⟨_, rfl⟩), List.forall_mem_nil _⟩
      · split at request
        · cases request
        · rename_i v isRequest
          obtain rfl := List.mem_singleton.mp request
          refine .value (.inr (List.mem_cons_of_mem _ ?_))
          rw [isRequest]
          exact List.mem_singleton_self v
    · cases answer
  | opaqueObject | callable | pending | irreducible => cases answer

end Reducer

end MacroExpand
