import MacroExpand.Proofs.Sharing

/-!
# Whole expressions

The whole expression is the text of the value, or a function of the shared objects that fills them
and then makes the value.  Evaluating it where only built-in names can be read ends with a copy of the
value, in a memory where each shared object is filled with copies of what it holds.
-/

set_option autoImplicit false

namespace MacroExpand

open MacroExpand.Parser MacroExpand.Sandbox

/-- A walk over a plain value: the objects that become parameters are different ones that were reached
and can be filled. -/
structure Surveyed (s : Survey) (root : Value) : Prop where
  plain : PlainFrom s.graph root
  distinct : s.shared.Nodup
  reached : ∀ i ∈ s.shared, Reaches s.graph root (.ref i)
  fillable : ∀ i ∈ s.shared, (s.object i).fillable = true

theorem PlainFrom.reached {graph : Graph} {root v : Value} (plain : PlainFrom graph root)
    (reached : Reaches graph root v) : PlainFrom graph v :=
  fun u deeper => plain u (reached.trans deeper)

theorem Survey.object_eq {s : Survey} {i : Nat} {object : Object} (found : s.graph[i]? = some object) :
    s.object i = object := by
  rw [Survey.object, Array.getD_eq_getD_getElem?, found]
  rfl

theorem Surveyed.original {s : Survey} {root : Value} (surveyed : Surveyed s root) {i : Nat}
    (member : i ∈ s.shared) : s.graph[i]? = some (s.object i) := by
  obtain ⟨object, found, -⟩ := (surveyed.plain.reached (surveyed.reached i member)).object
  rw [found, Survey.object_eq found]

theorem Surveyed.placesFillable {s : Survey} {root : Value} (surveyed : Surveyed s root) (base : Nat) :
    PlacesFillable s.graph (placeFrom base s.shared) := by
  intro i j here
  obtain ⟨k, found, -⟩ := Option.map_eq_some_iff.mp here
  have member := mem_of_findIdx found
  exact ⟨s.object i, surveyed.original member, surveyed.fillable i member⟩

namespace Sandbox

variable {m m' : Machine} {frame : Frame} {bindings : List (String × Value)}
variable {place : Nat → Option Nat} {ground : Ground} {graph : Graph}
variable {s : Survey} {shared : List Nat} {depth : Nat} {root : Value}

/-! ## Fills -/

/-- An object stays empty, or a fill is a call of the method that fills, with the layout of the
object. -/
theorem fill_cases {i : Nat} {name : Text} {result : Option Text}
    (isParameter : Survey.paramName shared i = some name)
    (isFillable : (s.object i).fillable = true) (filled : s.fill shared depth i = .ok result) :
    (result = none ∧ ∀ R, CellCopy R (s.object i) (emptyCell (s.object i))) ∨
    ∃ body, s.layout i (s.render shared depth) = .ok body ∧ result = some
      (name ++ (['.'] ++ ((fillMethod (s.object i)).toList ++ MacroExpand.callText [body]))) := by
  unfold Survey.fill at filled
  rw [isParameter] at filled
  cases object : s.object i <;> rw [object] at filled isFillable
  case list items | dict items | set items =>
    cases items with
    | nil =>
      cases filled
      exact .inl ⟨rfl, fun _ => .nil⟩
    | cons item rest =>
      obtain ⟨body, laid, result⟩ := bind_ok filled
      cases result
      exact .inr ⟨body, laid, by simp [fillMethod, MacroExpand.callText, MacroExpand.commaList,
        Text.joinWith, chars]⟩
  all_goals cases isFillable

theorem fillMethod_forms (object : Object) :
    WordForm (fillMethod object).toList ∧ PlainWord (fillMethod object).toList := by
  have both : ∀ method ∈ ["extend", "update"], WordForm method.toList ∧ PlainWord method.toList := by
    intro method inside
    simp only [List.mem_cons, List.not_mem_nil, or_false] at inside
    rcases inside with rfl | rfl <;>
      exact ⟨wordForm_of_decide (by decide +kernel) (by decide +kernel) (by decide +kernel)
        (by decide +kernel), .of_ascii (by decide +kernel) (by decide +kernel)⟩
  apply both
  cases object <;> simp [fillMethod]

theorem written_fill (fillable : PlacesFillable s.graph place) (deep : depth < ground.compareDepth)
    (free : CallsFree bindings) (named : Named shared place bindings) {i : Nat} {name text : Text}
    (isParameter : Survey.paramName shared i = some name) (plain : PlainFrom s.graph (.ref i))
    (isFillable : (s.object i).fillable = true)
    (filled : s.fill shared depth i = .ok (some text)) :
    ∃ lexemes, Written text lexemes
      (Refills ground s.graph place bindings (2 * depth + 6) depth i) := by
  obtain ⟨object, found, isPlain⟩ := plain.object
  have same := Survey.object_eq found
  obtain ⟨impossible, -⟩ | ⟨body, laid, isText⟩ := fill_cases isParameter isFillable filled
  · cases impossible
  cases isText
  obtain ⟨j, here, bound⟩ := named.bound i name isParameter
  obtain ⟨k, -, rfl⟩ := parameter_text isParameter
  have each : ∀ v ∈ object.elements, ∀ text, s.render shared depth v = .ok text →
      Writes ground s.graph place bindings (2 * depth + 4) depth v text :=
    fun v inside text => written_render fillable free named (Nat.le_of_lt deep) (plain.element found inside)
  obtain ⟨lexemes, written⟩ := written_layout fillable deep free found isPlain each laid
  obtain ⟨form, word⟩ := fillMethod_forms (s.object i)
  have called := written_method (wordForm_parameter k) (plainWord_parameter k) form word [()]
    fun _ _ => written
  refine ⟨_, called.weaken fun tree isFill => ?_⟩
  refine ⟨object, j, _, found, same ▸ isFillable, isPlain, here, bound, ?_⟩
  rw [same] at isFill
  obtain ⟨mark, inner, trees, rfl, isMethod, arguments⟩ := isFill
  refine ⟨mark, inner, trees, rfl, isMethod, arguments.imp fun _ argument lays => ?_⟩
  exact lays.weaken (by omega)

structure Fill where
  object : Nat
  text : Text
  lexemes : List Lexeme

theorem exists_fills {ids : List Nat} {results : List (Option Text)}
    (parameter : ∀ i ∈ ids, ∃ name, Survey.paramName shared i = some name)
    (isFillable : ∀ i ∈ ids, (s.object i).fillable = true) (post : Nat → Text → Tree → Prop)
    (written : ∀ i ∈ ids, ∀ text, s.fill shared depth i = .ok (some text) →
      ∃ lexemes, Written text lexemes (post i text))
    (filled : ids.mapM (s.fill shared depth) = .ok results) :
    ∃ fills : List Fill, fills.map Fill.text = results.filterMap id ∧
      (fills.map Fill.object).Sublist ids ∧
      (∀ i ∈ ids, i ∉ fills.map Fill.object →
        ∀ R, CellCopy R (s.object i) (emptyCell (s.object i))) ∧
      ∀ fill ∈ fills, Written fill.text fill.lexemes (post fill.object fill.text) := by
  have related := mapM_ok filled
  clear filled
  induction related with
  | nil => exact ⟨[], rfl, .refl _, by simp, by simp⟩
  | @cons i result ids results front _ ih =>
    obtain ⟨fills, texts, sublist, others, all⟩ := ih
      (fun j inside => parameter j (List.mem_cons_of_mem _ inside))
      (fun j inside => isFillable j (List.mem_cons_of_mem _ inside))
      (fun j inside => written j (List.mem_cons_of_mem _ inside))
    have here := List.mem_cons_self (a := i) (l := ids)
    obtain ⟨name, isParameter⟩ := parameter i here
    obtain ⟨rfl, empty⟩ | ⟨body, -, isText⟩ := fill_cases isParameter (isFillable i here) front
    · refine ⟨fills, texts, sublist.cons _, ?_, all⟩
      intro j inside
      rcases List.mem_cons.mp inside with rfl | later
      · exact fun _ => empty
      · exact others j later
    · obtain ⟨text, rfl⟩ : ∃ text, result = some text := ⟨_, isText⟩
      obtain ⟨lexemes, isWritten⟩ := written i here text front
      refine ⟨⟨i, text, lexemes⟩ :: fills, by simp [texts], sublist.cons_cons i, ?_, ?_⟩
      · intro j inside missing
        rw [List.map_cons, List.mem_cons, not_or] at missing
        rcases List.mem_cons.mp inside with rfl | later
        · exact absurd rfl missing.1
        · exact others j later missing.2
      · exact List.forall_mem_cons.mpr ⟨isWritten, all⟩

/-! ## Bodies -/

/-- An expression that fills the objects that are still empty and makes the value. -/
structure Completes (ground : Ground) (graph : Graph) (place : Nat → Option Nat)
    (bindings : List (String × Value)) (shared pending : List Nat) (fuel depth : Nat) (root : Value)
    (tree : Tree) : Prop where
  quiet : Quiet tree
  gives : ∀ n, fuel ≤ n → ∀ frame m, Ready frame bindings place m →
    FilledExcept graph place depth shared pending m →
    Gives m ((interpreter ground n).eval frame tree) fun w m' =>
      Rebuilt graph place depth shared root w m'

theorem Builds.completes {fuel : Nat} {tree : Tree}
    (builds : Builds ground graph place bindings fuel depth root tree) :
    Completes ground graph place bindings shared [] fuel depth root tree :=
  ⟨builds.quiet, fun _ enough _ _ ready filled =>
    (gives_rebuilt builds enough ready filled).weaken fun _ _ holds => holds.2⟩

theorem forall₂_snoc {α β : Type} {R : α → β → Prop} {as : List α} {a : α} {bs : List β}
    (related : List.Forall₂ R (as ++ [a]) bs) :
    ∃ bs' b, bs = bs' ++ [b] ∧ List.Forall₂ R as bs' ∧ R a b := by
  induction as generalizing bs with
  | nil =>
    cases related with
    | cons front rest =>
      cases rest
      exact ⟨[], _, rfl, .nil, front⟩
  | cons first as ih =>
    cases related with
    | cons front rest =>
      obtain ⟨bs', b, rfl, before, last⟩ := ih rest
      exact ⟨_ :: bs', b, rfl, .cons front before, last⟩

/-- A part of the body: a fill, or the value at its end. -/
structure Piece where
  text : Text
  lexemes : List Lexeme
  post : Tree → Prop

/-- The last element of a tuple of fills and the text of the value makes the value. -/
theorem written_fills (fillable : PlacesFillable graph place) (deep : depth < ground.compareDepth)
    (injective : ∀ i i' j, place i = some j → place i' = some j → i = i') {fuel : Nat} {fills : List Fill}
    (nonempty : fills ≠ []) (once : (fills.map Fill.object).Nodup)
    (inside : ∀ fill ∈ fills, fill.object ∈ shared)
    (each : ∀ fill ∈ fills, Written fill.text fill.lexemes
      (Refills ground graph place bindings fuel depth fill.object)) {body : Text}
    (writes : Writes ground graph place bindings fuel depth root body) :
    ∃ lexemes, Written ('(' :: (MacroExpand.commaList (fills.map Fill.text ++ [body]) ++ chars ")[-1]"))
      lexemes (Completes ground graph place bindings shared (fills.map Fill.object) (max (fuel + 3) 5) depth root) := by
  obtain ⟨bodyLexemes, written⟩ := writes
  let pieces : List Piece := fills.map fun fill => ⟨fill.text, fill.lexemes,
    Refills ground graph place bindings fuel depth fill.object⟩
  let last : Piece := ⟨body, bodyLexemes, Builds ground graph place bindings fuel depth root⟩
  have all : ∀ piece ∈ pieces ++ [last], Written piece.text piece.lexemes piece.post := by
    intro piece member
    rcases List.mem_append.mp member with among | among
    · obtain ⟨fill, isFill, rfl⟩ := List.mem_map.mp among
      exact each fill isFill
    · rw [List.mem_singleton.mp among]
      exact written
  have texts : fills.map Fill.text ++ [body] = (pieces ++ [last]).map Piece.text := by
    simp [pieces, last, Function.comp_def]
  have several : (pieces ++ [last]).length ≠ 1 := by
    have positive := List.length_pos_iff.mpr nonempty
    simp only [pieces, List.length_append, List.length_map, List.length_singleton]
    omega
  rw [texts]
  refine ⟨_, (written_last (pieces ++ [last]) all several).weaken ?_⟩
  rintro tree ⟨mark, inner, index, rfl, ⟨mark', trees, rfl, related⟩, isNegated⟩
  obtain ⟨trees, tree, rfl, before, builds⟩ := forall₂_snoc related
  have refills : List.Forall₂ (Refills ground graph place bindings fuel depth)
      (fills.map Fill.object) trees := by
    simpa only [pieces, List.forall₂_map_left_iff] using before
  have quiet : ∀ t ∈ trees ++ [tree], Quiet t := by
    intro t member
    rcases List.mem_append.mp member with among | among
    · refine quiet_of_forall₂ refills ?_ t among
      rintro i tree ⟨_, _, _, _, _, _, _, _, isFill⟩
      exact isFill.quiet
    · rw [List.mem_singleton.mp among]
      exact builds.quiet
  refine ⟨?_, ?_⟩
  · have tuple : Quiet (.node mark' (.tuple .load) [trees ++ [tree]]) :=
      .node rfl (by simpa using quiet)
    exact .node rfl (by simp [tuple, isNegated.quiet])
  · intro n enough frame m ready filled
    obtain ⟨n, rfl⟩ : ∃ k, n = k + 2 := ⟨n - 2, by omega⟩
    exact gives_last fillable deep injective refills builds isNegated (by omega) ready filled once
      (by simpa using inside)

/-! ## The whole -/

/-- An expression that rebuilds a value where only built-in names can be read, with shared objects from
`base` on. -/
def Rebuilds (ground : Ground) (graph : Graph) (base : Nat) (shared : List Nat)
    (fuel depth : Nat) (root : Value) (tree : Tree) : Prop :=
  ∀ n, fuel ≤ n → ∀ frame m, Start frame m → m.heap.size + 2 = base →
    Gives m ((interpreter ground n).eval frame tree) fun w m' =>
      Rebuilt graph (placeFrom base shared) depth shared root w m'

section Whole

variable {base fuel : Nat} {pending : List Nat} {objects : List Object}

def calledMachine (m : Machine) (objects : List Object) (scope : ScopeData) : Machine :=
  { withEmpties m objects with
    heap := (withEmpties m objects).heap.push (.scope scope), depth := m.depth + 1 }

theorem calledMachine_found {i : Nat} {cell : Cell} (scope : ScopeData)
    (found : (withEmpties m objects).heap[i]? = some cell) :
    (calledMachine m objects scope).heap[i]? = some cell :=
  (Grows.push (withEmpties m objects) (.scope scope)).found found

theorem ready_call {trees : List Tree} (each : List.Forall₂ IsParameter (parameters shared.length) trees)
    (length : shared.length = objects.length) (start : Start frame m) {inner : Frame}
    (free : inner.globalNames = []) (isScope : inner.scope = (withEmpties m objects).heap.size) :
    Ready inner (bindingsFrom m.heap.size shared.length) (placeFrom m.heap.size shared)
      (calledMachine m objects (lambdaScope frame (parameters shared.length) trees
        (placesFrom m.heap.size objects.length))) := by
  have grows := grows_withEmpties m objects
  have names : (bindingsFrom m.heap.size shared.length).map Prod.fst =
      (parameters shared.length).map String.ofList := by
    rw [bindingsFrom, List.map_fst_zip]
    simp [parameters, placesFrom]
  refine ⟨fun i known => ?_, fun i j here => ?_, free, ?_⟩
  · obtain ⟨cell, found⟩ : ∃ cell, m.heap[i]? = some cell :=
      ⟨_, Array.getElem?_eq_getElem (Nat.lt_of_lt_of_le known start.standard.size_le)⟩
    rw [calledMachine_found _ (grows.found found), ← found, start.standard i known]
  · obtain ⟨k, found, rfl⟩ := Option.map_eq_some_iff.mp here
    obtain ⟨below, -⟩ := List.findIdx?_eq_some_iff_getElem.mp found
    have size := start.standard.size_le
    simp only [calledMachine, withEmpties, Array.size_push, Array.size_append, List.size_toArray,
      List.length_map]
    omega
  · rw [isScope]
    refine ⟨_, found_push (withEmpties m objects) _, ?_, ?_, rfl, .inr ⟨frame.scope, rfl, ?_⟩⟩
    · rw [bindingsFrom, length]
      rfl
    · intro name member
      rw [names, ← parameterNames_parameters each]
      exact List.mem_eraseDups.mp member
    · exact calledMachine_found _ (grows.found start.scope)

theorem filledExcept_call (scope : ScopeData) (count : Nat)
    (originals : List.Forall₂ (fun i object => graph[i]? = some object) shared objects)
    (others : ∀ i ∈ shared, i ∉ pending → ∀ object, graph[i]? = some object →
      ∀ R, CellCopy R object (emptyCell object)) :
    FilledExcept graph (placeFrom m.heap.size shared) count shared pending
      (calledMachine m objects scope) := by
  intro i member
  have found := findIdx_of_mem member
  have here : placeFrom m.heap.size shared i = some (m.heap.size + shared.idxOf i) := by
    rw [placeFrom, found]
    rfl
  obtain ⟨object, original, isObject⟩ : ∃ object, objects[shared.idxOf i]? = some object ∧
      graph[i]? = some object := by
    have bound := List.idxOf_lt_length_of_mem member
    have bound' : shared.idxOf i < objects.length := originals.length_eq ▸ bound
    have related := originals.get bound bound'
    refine ⟨objects[shared.idxOf i], List.getElem?_eq_getElem bound', ?_⟩
    simpa using related
  have held := calledMachine_found scope (withEmpties_found (m := m) original)
  refine ⟨fun _ => ⟨object, _, isObject, here, held⟩, fun done => ?_⟩
  exact ⟨object, _, _, isObject, here, held, others i member done object isObject _⟩

theorem rebuilds_call {tree : Tree}
    (originals : List.Forall₂ (fun i object => graph[i]? = some object) shared objects)
    (others : ∀ i ∈ shared, i ∉ pending → ∀ object, graph[i]? = some object →
      ∀ R, CellCopy R object (emptyCell object))
    (call : IsCall (IsLambda (parameters shared.length) (Completes ground graph (placeFrom base shared)
      (bindingsFrom base shared.length) shared pending fuel depth root)) objects
      (MakesEmpty ground) tree) :
    Rebuilds ground graph base shared (max (fuel + 3) 4) depth root tree := by
  intro n enough frame m start isBase
  obtain ⟨mark, callee, trees, rfl, ⟨mark', ps, inner, rfl, each, completes⟩, empties⟩ := call
  obtain ⟨n, rfl⟩ : ∃ k, n = k + 3 := ⟨n - 3, by omega⟩
  have globals : m.heap[frame.globals]? = some (.scope {}) := start.globals ▸ start.scope
  obtain ⟨module, closure, isClosure, created⟩ :
      ∃ module closure, closure = lambdaClosure frame module (.ref m.heap.size) ps inner ∧
        perform m ((interpreter ground (n + 2)).eval frame
          (.node mark' .lambdaExpr [[parametersOf ps], [inner]])) =
          (.ok (.ref (m.heap.size + 1)),
            { m with heap := (m.heap.push (.dict [])).push (.function closure) }) :=
    perform_lambda each completes.quiet globals mark' (n + 1)
  have length := originals.length_eq
  let made : Machine := { m with heap := (m.heap.push (.dict [])).push (.function closure) }
  have grows : Grows m made := (Grows.push m (.dict [])).trans (Grows.push _ (.function closure))
  have start' : Start frame made := start.grows grows
  have isSize : made.heap.size = base := by
    simp only [made, Array.size_push]
    omega
  have arguments := perform_empties empties (n := n + 2) (by omega) (.ref (m.heap.size + 1)) start'
  have found : (withEmpties made objects).heap[m.heap.size + 1]? = some (.function closure) := by
    refine (grows_withEmpties made objects).found ?_
    have last := found_push { m with heap := m.heap.push (.dict []) } (.function closure)
    rwa [Array.size_push] at last
  have other : m.heap.size + 1 ≠ classCell "super" := by
    have known : classCell "super" < startingHeap.size := by decide +kernel
    have size := start.standard.size_le
    omega
  refine Gives.after created (Gives.after arguments ?_)
  refine Gives.after (perform_pure ([] : List (String × Value))) ?_
  refine Gives.after (perform_callHere found other (by simp) _ _) ?_
  have body : Gives (calledMachine made objects (lambdaScope frame (parameters shared.length) ps
      (placesFrom made.heap.size objects.length)))
      ((interpreter ground n).eval (closure.frame (withEmpties made objects).heap.size) inner)
      fun w m' => Rebuilt graph (placeFrom base shared) depth shared root w m' := by
    subst isSize isClosure
    exact completes.gives n (by omega) _ _ (ready_call each length start' rfl rfl)
      (filledExcept_call _ _ originals others)
  subst isClosure
  have called := gives_callClosure (m := withEmpties made objects) each
    (by rw [parameters_length, placesFrom_length, length]) start'.calls body
  refine ((Gives.after (perform_cellAt_some found) called).weaken ?_)
  rintro w m' ⟨m₁, rebuilt, rfl⟩
  exact rebuilt

/-- Without shared objects, the text of the value is the whole expression. -/
theorem Builds.rebuilds {tree : Tree} (builds : Builds ground graph (placeFrom base []) (bindingsFrom base 0)
      fuel depth root tree) : Rebuilds ground graph base [] fuel depth root tree := by
  intro n enough frame m start _
  exact (Builds.completes builds).gives n enough frame m start.ready nofun

theorem Completes.weaken {fuel' : Nat} {tree : Tree}
    (completes : Completes ground graph place bindings shared pending fuel depth root tree)
    (longer : fuel ≤ fuel') :
    Completes ground graph place bindings shared pending fuel' depth root tree :=
  ⟨completes.quiet, fun n enough => completes.gives n (by omega)⟩

theorem Rebuilds.weaken {fuel' : Nat} {tree : Tree}
    (rebuilds : Rebuilds ground graph base shared fuel depth root tree) (longer : fuel ≤ fuel') :
    Rebuilds ground graph base shared fuel' depth root tree :=
  fun n enough => rebuilds n (by omega)

theorem paramName_of_mem {i : Nat} (member : i ∈ shared) :
    ∃ name, Survey.paramName shared i = some name := by
  rw [Survey.paramName, findIdx_of_mem member]
  exact ⟨_, rfl⟩

/-- The inner part of the whole expression fills the shared objects and makes the value. -/
theorem written_inner (surveyed : Surveyed s root) (deep : depth < ground.compareDepth) (base : Nat)
    {body : Text} (rendered : s.render s.shared depth root = .ok body) {results : List (Option Text)}
    (filled : s.shared.mapM (s.fill s.shared depth) = .ok results) {inner : Text}
    (isInner : inner = if (results.filterMap id).isEmpty then body
      else '(' :: (MacroExpand.commaList (results.filterMap id ++ [body]) ++ chars ")[-1]")) :
    ∃ pending lexemes, (∀ i ∈ s.shared, i ∉ pending → ∀ object, s.graph[i]? = some object →
        ∀ R, CellCopy R object (emptyCell object)) ∧
      Written inner lexemes (Completes ground s.graph (placeFrom base s.shared)
        (bindingsFrom base s.shared.length) s.shared pending (2 * depth + 9) depth root) := by
  have fillable := surveyed.placesFillable base
  have named := named_from base s.shared
  have free := callsFree_from base s.shared.length
  obtain ⟨bodyLexemes, written⟩ : Writes ground s.graph (placeFrom base s.shared)
      (bindingsFrom base s.shared.length) (2 * depth + 4) depth root body :=
    written_render fillable free named (Nat.le_of_lt deep) surveyed.plain rendered
  have refills : ∀ i ∈ s.shared, ∀ text, s.fill s.shared depth i = .ok (some text) →
      ∃ lexemes, Written text lexemes (Refills ground s.graph (placeFrom base s.shared)
        (bindingsFrom base s.shared.length) (2 * depth + 6) depth i) := by
    intro i member text isFill
    obtain ⟨name, isParameter⟩ := paramName_of_mem member
    exact written_fill fillable deep free named isParameter
      (surveyed.plain.reached (surveyed.reached i member)) (surveyed.fillable i member) isFill
  obtain ⟨fills, texts, sublist, others, each⟩ :=
    exists_fills (fun i => paramName_of_mem) surveyed.fillable _ refills filled
  have empty : ∀ i ∈ s.shared, i ∉ fills.map Fill.object → ∀ object, s.graph[i]? = some object →
      ∀ R, CellCopy R object (emptyCell object) := by
    intro i member missing object found
    rw [← Survey.object_eq found]
    exact others i member missing
  rw [← texts] at isInner
  cases fills with
  | nil =>
    refine ⟨[], bodyLexemes, empty, ?_⟩
    rw [isInner]
    exact written.weaken fun tree builds =>
      (Builds.completes builds).weaken (by omega)
  | cons fill fills =>
    have writes : Writes ground s.graph (placeFrom base s.shared) (bindingsFrom base s.shared.length)
        (2 * depth + 6) depth root body :=
      ⟨bodyLexemes, written.weaken fun tree builds =>
        builds.weaken (by omega) (Nat.le_refl _)⟩
    obtain ⟨lexemes, isWritten⟩ := written_fills fillable deep (fun _ _ _ => placeFrom_injective)
      (by simp) (sublist.nodup surveyed.distinct)
      (fun f member => sublist.subset (List.mem_map_of_mem member)) each writes
    refine ⟨_, lexemes, empty, ?_⟩
    rw [isInner]
    exact isWritten.weaken fun tree completes => completes.weaken (by omega)

theorem written_expression (surveyed : Surveyed s root) (deep : depth < ground.compareDepth) (base : Nat)
    {text : Text} (whole : s.expression depth root = .ok text) :
    ∃ lexemes, Written text lexemes
      (Rebuilds ground s.graph base s.shared (2 * depth + 12) depth root) := by
  obtain ⟨body, rendered, whole⟩ := bind_ok whole
  by_cases none : s.shared.isEmpty
  · rw [if_pos none] at whole
    cases whole
    obtain ⟨lexemes, written⟩ : Writes ground s.graph (placeFrom base s.shared)
        (bindingsFrom base s.shared.length) (2 * depth + 4) depth root text :=
      written_render (surveyed.placesFillable base) (callsFree_from base _) (named_from base _)
        (Nat.le_of_lt deep) surveyed.plain rendered
    refine ⟨lexemes, written.weaken fun tree builds => ?_⟩
    rw [List.isEmpty_iff.mp none] at builds ⊢
    exact (Builds.rebuilds builds).weaken (by omega)
  · rw [if_neg none] at whole
    obtain ⟨results, filled, whole⟩ := bind_ok whole
    cases whole
    obtain ⟨pending, lexemes, empty, written⟩ := written_inner surveyed deep base rendered filled rfl
    choose lex makes using written_empty ground
    have originals : List.Forall₂ (fun i object => s.graph[i]? = some object) s.shared
        (s.shared.map s.object) :=
      List.forall₂_map_right_iff.mpr (List.forall₂_same.mpr fun i => surveyed.original)
    have forms : ∀ name ∈ parameters s.shared.length, WordForm name ∧ PlainWord name := by
      intro name member
      obtain ⟨k, -, rfl⟩ := List.mem_map.mp member
      exact ⟨wordForm_parameter k, plainWord_parameter k⟩
    have inits : s.shared.map s.emptyText = (s.shared.map s.object).map emptyText := by
      rw [List.map_map]
      refine List.map_congr_left fun i _ => ?_
      show s.emptyText i = emptyText (s.object i)
      unfold Survey.emptyText emptyText
      cases s.object i <;> rfl
    rw [filterMap_paramName surveyed.distinct, inits]
    exact ⟨_, (written_function forms written (s.shared.map s.object) fun object _ =>
      makes object).weaken fun tree call => (rebuilds_call originals empty call).weaken (by omega)⟩

end Whole

end Sandbox

/-!
## The walk over a plain value

A walk over a plain value makes no objects of its own: it notes each container that can be filled when
it meets it for the first time, and marks those that it meets again or that break a cycle.  So the
objects that become parameters are different ones, all of them were reached, and all can be filled.
-/

variable {registry : Registry} {graph : Graph} {root : Value}

/-- What a walk over a plain value leaves behind. -/
structure Walked (graph : Graph) (root : Value) (s : Survey) : Prop where
  same : s.graph = graph
  synthetic : s.synthetic = []
  distinct : s.order.Nodup
  reached : ∀ i ∈ s.order, Reaches graph root (.ref i)
  fillable : ∀ i ∈ s.order, (s.object i).fillable = true

theorem Walked.start (graph : Graph) (root : Value) : Walked graph root { graph } :=
  ⟨rfl, rfl, .nil, nofun, nofun⟩

theorem Walked.hoist {s : Survey} (walked : Walked graph root s) (hoisted : List Nat) :
    Walked graph root { s with hoisted } :=
  ⟨walked.same, walked.synthetic, walked.distinct, walked.reached, walked.fillable⟩

theorem Walked.object {s : Survey} (walked : Walked graph root s) {i : Nat} {object : Object}
    (found : graph[i]? = some object) : s.object i = object :=
  Survey.object_eq (walked.same ▸ found)

theorem Walked.hoistable {s : Survey} (walked : Walked graph root s) (i : Nat) :
    s.hoistable i = (s.object i).fillable := by
  rw [Survey.hoistable, walked.synthetic]
  simp

theorem Walked.children {s : Survey} (walked : Walked graph root s) {i : Nat} {object : Object}
    (found : graph[i]? = some object) (plain : object.Plain graph) :
    s.children registry i = .ok (s, object.elements) := by
  unfold Survey.children
  rw [walked.object found]
  cases object with
  | inst cls state => exact plain.elim
  | _ => rfl

def Survey.note (s : Survey) (i : Nat) : Survey :=
  if s.hoistable i then { s with order := i :: s.order } else s

theorem Walked.note {s : Survey} (walked : Walked graph root s) {i : Nat}
    (reached : Reaches graph root (.ref i))
    (first : (s.hoistable i && s.order.contains i) = false) : Walked graph root (s.note i) := by
  unfold Survey.note
  split
  · rename_i hoistable
    rw [hoistable, Bool.true_and, List.contains_eq_mem, decide_eq_false_iff_not] at first
    refine ⟨walked.same, walked.synthetic, List.nodup_cons.mpr ⟨first, walked.distinct⟩, ?_, ?_⟩
    · exact List.forall_mem_cons.mpr ⟨reached, walked.reached⟩
    · refine List.forall_mem_cons.mpr ⟨?_, walked.fillable⟩
      rw [walked.hoistable] at hoistable
      exact hoistable
  · exact walked

theorem scan_cases {s s' : Survey} (walked : Walked graph root s) {depth i : Nat} {path : List Nat}
    {object : Object} (reached : Reaches graph root (.ref i)) (found : graph[i]? = some object)
    (plain : object.Plain graph)
    (scanned : Survey.scan registry (depth + 1) path s (.ref i) = .ok s') :
    (i ∈ path ∧ ∃ k, (path.reverse.dropWhile (· ≠ i)).find? s.hoistable = some k ∧
      s' = { s with hoisted := k :: s.hoisted }) ∨
    (i ∉ path ∧ s.hoistable i = true ∧ i ∈ s.order ∧ s' = { s with hoisted := i :: s.hoisted }) ∨
    (i ∉ path ∧ (s.hoistable i && s.order.contains i) = false ∧
      object.elements.foldlM (Survey.scan registry depth (i :: path)) (s.note i) = .ok s') := by
  rw [Survey.scan] at scanned
  split at scanned
  · rename_i again
    unfold Survey.breakCycle at scanned
    split at scanned
    · rename_i k chosen
      cases scanned
      exact .inl ⟨by simpa using again, k, chosen, rfl⟩
    · cases scanned
  · rename_i new
    have fresh : i ∉ path := by simpa using new
    split at scanned
    · rename_i met
      cases scanned
      rw [Bool.and_eq_true] at met
      exact .inr (.inl ⟨fresh, met.1, by simpa using met.2, rfl⟩)
    · rename_i first
      rw [Bool.not_eq_true] at first
      have noted : (if s.hoistable i = true then { s with order := i :: s.order } else s) = s.note i := rfl
      have children : (s.note i).children registry i = .ok (s.note i, object.elements) :=
        (walked.note reached first).children found plain
      simp only [noted, children] at scanned
      exact .inr (.inr ⟨fresh, first, scanned⟩)

theorem foldlM_ok {α σ ε : Type} {step : σ → α → Except ε σ} {holds : σ → Prop} {xs : List α}
    (keeps : ∀ s x s', x ∈ xs → holds s → step s x = .ok s' → holds s') {s s' : σ} (start : holds s)
    (run : xs.foldlM step s = .ok s') : holds s' := by
  induction xs generalizing s with
  | nil =>
    cases run
    exact start
  | cons x rest ih =>
    rw [List.foldlM_cons] at run
    obtain ⟨middle, first, run⟩ := Sandbox.bind_ok run
    exact ih (fun s y s' inside => keeps s y s' (List.mem_cons_of_mem _ inside))
      (keeps s x middle (List.mem_cons_self ..) start first) run

theorem Walked.scan (plain : PlainFrom graph root) {depth : Nat} {path : List Nat} {s s' : Survey}
    {v : Value} (walked : Walked graph root s) (reached : Reaches graph root v)
    (scanned : Survey.scan registry depth path s v = .ok s') : Walked graph root s' := by
  induction depth generalizing path s s' v with
  | zero =>
    cases v with
    | scalar x =>
      cases scanned
      exact walked
    | ref i => cases scanned
  | succ depth ih =>
    cases v with
    | scalar x =>
      cases scanned
      exact walked
    | ref i =>
      obtain ⟨object, found, isPlain⟩ := plain _ reached
      obtain ⟨-, k, -, rfl⟩ | ⟨-, -, -, rfl⟩ | ⟨-, first, folded⟩ :=
        scan_cases walked reached found isPlain scanned
      · exact walked.hoist _
      · exact walked.hoist _
      · refine foldlM_ok ?_ (walked.note reached first) folded
        intro s v s' inside holds step
        exact ih holds (.element reached found inside) step

theorem Walked.surveyed {s : Survey} (plain : PlainFrom graph root) (walked : Walked graph root s) :
    Surveyed s root := by
  obtain ⟨rfl, -, distinct, reached, fillable⟩ := walked
  have among : ∀ i ∈ s.shared, i ∈ s.order := by
    intro i member
    exact List.mem_reverse.mp (List.mem_filter.mp member).1
  refine ⟨plain, ?_, fun i member => reached i (among i member),
    fun i member => fillable i (among i member)⟩
  exact (List.pairwise_reverse.mpr (distinct.imp Ne.symm)).filter _

/-- The objects that become parameters are as the expression needs them. -/
theorem surveyed_of_scan (plain : PlainFrom graph root) {depth : Nat} {s : Survey}
    (scanned : Survey.scan registry depth [] { graph } root = .ok s) :
    s.graph = graph ∧ Surveyed s root := by
  have walked := (Walked.start graph root).scan plain .root scanned
  exact ⟨walked.same, walked.surveyed plain⟩

end MacroExpand
